import MiniVpn.Effects
import MiniVpn.Packets
import MiniVpn.PoolTheorems
/-!
# What the upstream and the pool are asked

The calls of `open_tcp` and `send_udp` an event makes, along the same branches
as the functions of the loop. `step_asked` ties them to the state: whoever starts
a relay or a handshake has called `open_tcp` for its target. `step_pool` and
`step_flows` say what an event makes of the fake-IP pool and of the UDP flows.
-/
open Lib

namespace MiniVpn

def UdpInbound.tuple (udp : UdpInbound) : FourTuple :=
  { src_ip := udp.src_ip, src_port := udp.src_port, dst_ip := udp.dst_ip, dst_port := udp.dst_port }

def UdpInbound.destination (udp : UdpInbound) : IpEndpoint := { addr := udp.dst_ip, port := udp.dst_port }

inductive Upcall where
  | open_tcp (target : TargetAddr)
  | send_udp (datagram : Bytes)
deriving DecidableEq

namespace Sys

/-- The call of `handle_tuic_udp_uplink`. -/
def udp_calls (assoc_table : AssocTable) (fake_pool : FakeIpPool) (udp : UdpInbound) : List Upcall :=
  match resolve_target udp.destination fake_pool, assoc_table.intern udp.tuple with
  | .Direct target _, some (assoc_id, _) => [.send_udp (encode_packet assoc_id target udp.payload)]
  | _, _ => []

/-- The call of `handle_local_payload`, inline or in the task it spawns. -/
def local_payload_calls (s : Sys) (handle : SocketHandle) (target : TargetAddr) : List Upcall :=
  match s.socket_ctxs.get handle with
  | none => []
  | some ctx => if ctx.state = .HandshakePending then [] else [.open_tcp target]

/-- The call of `first_payload`. -/
def first_payload_calls (s : Sys) (handle : SocketHandle) : List Upcall :=
  match extract_socket_payload (s.sockets.get handle) with
  | some (some _, socket) =>
    match socket.local_endpoint with
    | none => []
    | some endpoint =>
      match resolve_target endpoint s.fake_pool with
      | .Direct target _ => s.local_payload_calls handle target
      | .Refuse => []
      | .Block => []
  | _ => []

/-- The call of `process_listener_activity`. -/
def listener_calls (s : Sys) (handle : SocketHandle) : List Upcall :=
  match s.socket_ctxs.get handle with
  | none => []
  | some ctx =>
    let (socket, ctx) := flush_downlink (s.sockets.get handle) ctx
    match ctx.uplink_tx with
    | some _ => []
    | none => (s.put handle socket ctx).first_payload_calls handle

/-- The calls an event makes. -/
def upcalls (s : Sys) (e : Event) : List Upcall :=
  match e, s.todo with
  | .listener _ _, handle :: _ => s.listener_calls handle
  | .rx (.udp udp) _ _ _ _ _, [] =>
    match classify_inbound (.udp udp) with
    | .UdpRelay => udp_calls s.assoc_table s.fake_pool udp
    | _ => []
  | _, _ => []

/-- The payload of slot `h` makes the call of `open_tcp` for the endpoint its
connection dialled. -/
structure Opens (s : Sys) (h : SocketHandle) (calls : List Upcall) (endpoint : IpEndpoint) (target : TargetAddr)
    (fake_ip : Option Ipv4Addr) : Prop where
  conn : (s.sockets.get h).local_endpoint = some endpoint
  resolved : resolve_target endpoint s.fake_pool = .Direct target fake_ip
  call : calls = [.open_tcp target]

/-- The handshake `done` was spawned for slot `h`, which had context `ctx`. -/
structure Spawned (h : SocketHandle) (ctx : SocketCtx) (endpoint : IpEndpoint) (fake_ip : Option Ipv4Addr)
    (done : Handshake) (s' : Sys) : Prop where
  uplink : ctx.uplink_tx = none
  idle : ctx.state ≠ .HandshakePending
  handle : done.handle = h
  conn : (s'.sockets.get h).local_endpoint = some endpoint
  ctx : ∃ ctx', s'.socket_ctxs.get h = some ctx' ∧ ctx'.fake_ip = (ctx.hold_fake_ip fake_ip).fake_ip

/-- What processing slot `h`, which had context `ctx`, asks of the pool and of the
upstream. -/
inductive Asked (s : Sys) (h : SocketHandle) (ctx : SocketCtx) (calls : List Upcall) (now : Nat) (s' : Sys) : Prop
  | nothing : s'.fake_pool = s.fake_pool → s'.handshakes = s.handshakes →
      s'.relays.map (·.target) = s.relays.map (·.target) → s'.assoc_table = s.assoc_table → Asked s h ctx calls now s'
  | released : s'.fake_pool = s.fake_pool.releaseOpt ctx.fake_ip now → s'.handshakes = s.handshakes →
      s'.relays.map (·.target) = s.relays.map (·.target) → s'.assoc_table = s.assoc_table → Asked s h ctx calls now s'
  | opened (endpoint : IpEndpoint) (target : TargetAddr) (fake_ip : Option Ipv4Addr) :
      Opens s h calls endpoint target fake_ip → s'.fake_pool = s.fake_pool.acquireOpt fake_ip now →
      s'.handshakes = s.handshakes → (∃ payload gen, s'.relays = s.relays ++ [.new h target [payload] gen]) →
      s'.assoc_table = s.assoc_table → Asked s h ctx calls now s'
  | spawned (endpoint : IpEndpoint) (done : Handshake) (fake_ip : Option Ipv4Addr) :
      Opens s h calls endpoint done.target fake_ip → Spawned h ctx endpoint fake_ip done s' →
      s'.fake_pool = s.fake_pool.acquireOpt fake_ip now → s'.handshakes = s.handshakes ++ [done] →
      s'.relays.map (·.target) = s.relays.map (·.target) → s'.assoc_table = s.assoc_table → Asked s h ctx calls now s'

variable {s s' : Sys} {h : SocketHandle} {ctx ctx₁ : SocketCtx} {socket : TcpSocket} {upstream : Upstream} {now : Nat}

theorem Asked.rearm {calls : List Upcall} (hip : ctx₁.fake_ip = ctx.fake_ip)
    (he : (s.put h socket ctx₁).rearm_socket_with_reason h ctx₁ now = some s') : Asked s h ctx calls now s' := by
  obtain ⟨-, rfl⟩ := rearm_some he
  exact .released (by rw [← hip]; rfl) rfl rfl rfl

/-- The slots to process and the dirty set do not matter. -/
theorem Asked.congr {calls : List Upcall} (todo : List SocketHandle) (dirty : Finset SocketHandle)
    (ha : Asked { s with todo := todo } h ctx calls now s') : Asked s h ctx calls now { s' with dirty := dirty } := by
  cases ha with
  | nothing hpool hhs hrs hassoc => exact .nothing hpool hhs hrs hassoc
  | released hpool hhs hrs hassoc => exact .released hpool hhs hrs hassoc
  | opened endpoint target fake_ip ho hpool hhs hrs hassoc =>
    exact .opened endpoint target fake_ip ⟨ho.conn, ho.resolved, ho.call⟩ hpool hhs hrs hassoc
  | spawned endpoint done fake_ip ho hs hpool hhs hrs hassoc =>
    exact .spawned endpoint done fake_ip ⟨ho.conn, ho.resolved, ho.call⟩
      ⟨hs.uplink, hs.idle, hs.handle, hs.conn, hs.ctx⟩ hpool hhs hrs hassoc

/-- `socket` and `ctx₁` are the slot after its backlog was flushed. -/
structure Flushed (s : Sys) (h : SocketHandle) (ctx : SocketCtx) (socket : TcpSocket) (ctx₁ : SocketCtx) : Prop where
  conn : socket.local_endpoint = (s.sockets.get h).local_endpoint
  fake_ip : ctx₁.fake_ip = ctx.fake_ip
  uplink_tx : ctx₁.uplink_tx = ctx.uplink_tx
  state : ctx₁.state = ctx.state

theorem flush_downlink_flushed (hfl : flush_downlink (s.sockets.get h) ctx = (socket, ctx₁)) :
    Flushed s h ctx socket ctx₁ := by
  obtain ⟨n, tx, diag, hcases⟩ := flush_downlink_cases (s.sockets.get h) ctx
  obtain ⟨rfl, rfl⟩ := Prod.mk.inj (hfl.symm.trans hcases)
  exact ⟨rfl, rfl, rfl, rfl⟩

theorem handle_local_payload_asked {payload : Bytes} {endpoint : IpEndpoint} {target : TargetAddr}
    {fake_ip : Option Ipv4Addr} {calls : List Upcall} (hf : Flushed s h ctx socket ctx₁) (hup : ctx.uplink_tx = none)
    (hconn : socket.local_endpoint = some endpoint) (hres : resolve_target endpoint s.fake_pool = .Direct target fake_ip)
    (hcalls : ctx₁.state ≠ .HandshakePending → calls = [.open_tcp target])
    (he : (s.put h socket ctx₁).handle_local_payload h payload (some target) fake_ip upstream now = some s') :
    Asked s h ctx calls now s' := by
  have hctx : (s.put h socket ctx₁).socket_ctxs.get h = some ctx₁ := Table.get_insert_self _ _ _
  have hsock : (s.put h socket ctx₁).sockets.get h = socket := SocketSet.get_set_self _ _ _
  simp only [handle_local_payload, hctx, hsock, try_send_nil] at he
  split at he
  · obtain rfl := Option.some.inj he
    exact .nothing rfl rfl rfl rfl
  · rename_i hpend
    have hopens : Opens s h calls endpoint target fake_ip := ⟨hf.conn ▸ hconn, hres, hcalls hpend⟩
    split at he
    · split at he
      · obtain rfl := Option.some.inj he
        exact .nothing rfl rfl rfl rfl
      · obtain rfl := Option.some.inj he
        exact .opened endpoint target fake_ip hopens rfl rfl ⟨payload, _, rfl⟩ rfl
    · obtain rfl := Option.some.inj he
      refine .spawned endpoint _ fake_ip hopens ⟨hup, hf.state ▸ hpend, rfl, ?_, _, Table.get_insert_self _ _ _, ?_⟩ rfl rfl rfl rfl
      · simp [put, hconn]
      · obtain ⟨buffer, hbuf⟩ := buffer_uplink_frame (SocketCtx.hold_fake_ip _ fake_ip) payload
        rw [hbuf]
        cases fake_ip with
        | none => exact hf.fake_ip
        | some ip => rfl

theorem first_payload_asked (hf : Flushed s h ctx socket ctx₁) (hup : ctx.uplink_tx = none)
    (he : (s.put h socket ctx₁).first_payload h ctx₁ upstream now = some s') :
    Asked s h ctx ((s.put h socket ctx₁).first_payload_calls h) now s' := by
  have hsock : (s.put h socket ctx₁).sockets.get h = socket := SocketSet.get_set_self _ _ _
  rcases extract_cases socket with ⟨-, hx⟩ | ⟨-, payload, rest, -, -, hx⟩ <;>
    simp only [first_payload, hsock, hx, Option.bind_eq_bind, Option.bind_some, Option.pure_def, put_put] at he
  · obtain rfl := Option.some.inj he
    exact .nothing rfl rfl rfl rfl
  · split at he
    · obtain rfl := Option.some.inj he
      exact .nothing rfl rfl rfl rfl
    · rename_i endpoint hep
      have hread : Flushed s h ctx (socket.afterRead rest) (ctx₁.noteExtracted payload (some endpoint)) :=
        ⟨hf.conn, hf.fake_ip, hf.uplink_tx, hf.state⟩
      rw [hep] at he
      split at he
      · rename_i target fake_ip hres
        refine handle_local_payload_asked hread hup hep hres (fun hpend => ?_) he
        have hctx : (s.put h socket ctx₁).socket_ctxs.get h = some ctx₁ := Table.get_insert_self _ _ _
        have hres' : resolve_target endpoint (s.put h socket ctx₁).fake_pool = .Direct target fake_ip := hres
        simp only [first_payload_calls, hsock, hx, hep, hres', local_payload_calls, hctx]
        exact if_neg hpend
      · exact .rearm hread.fake_ip he
      · exact .rearm hread.fake_ip he

theorem established_uplink_asked {tx : RelayId} {calls : List Upcall} (hf : Flushed s h ctx socket ctx₁)
    (he : (s.put h socket ctx₁).established_uplink h ctx₁ tx now = some s') : Asked s h ctx calls now s' := by
  unfold established_uplink at he
  split at he
  · simp only [Option.bind_eq_bind, Option.bind_eq_some_iff, Prod.exists] at he
    obtain ⟨payload, socket', -, he⟩ := he
    split at he <;> obtain rfl := Option.some.inj he
    · exact .nothing rfl rfl (relays_send _ (fun _ _ => rfl) _ tx _) rfl
    · exact .nothing rfl rfl rfl rfl
  · exact Option.some.inj he ▸ .nothing rfl rfl rfl rfl
  · exact .rearm hf.fake_ip he

theorem process_dirty_slot_asked (hget : s.socket_ctxs.get h = some ctx)
    (he : s.process_dirty_slot h upstream now = some s') : Asked s h ctx (s.listener_calls h) now s' := by
  simp only [process_dirty_slot, Option.bind_eq_bind, Option.bind_eq_some_iff] at he
  obtain ⟨s₁, h1, he⟩ := he
  obtain ⟨socket, ctx₁, hfl⟩ : ∃ a b, flush_downlink (s.sockets.get h) ctx = (a, b) := ⟨_, _, rfl⟩
  have hf := flush_downlink_flushed hfl
  simp only [process_listener_activity, hget, hfl] at h1
  have hasked : Asked s h ctx (s.listener_calls h) now s₁ := by
    split at h1
    · exact established_uplink_asked hf h1
    · rename_i hup
      simp only [listener_calls, hget, hfl, hup]
      exact first_payload_asked hf (hf.uplink_tx ▸ hup) h1
  split at he
  · exact Option.some.inj he ▸ hasked
  · obtain rfl := Option.some.inj he
    exact hasked.congr s.todo _

/-! ## All events -/

/-- What event `e` makes of the pool. -/
inductive PoolChange (s : Sys) (e : Event) (p : FakeIpPool) : Prop
  | same : p = s.fake_pool → PoolChange s e p
  | alloc (udp : UdpInbound) (query : DnsQuery) (accepted : Option (SocketHandle × List TcpSocket.Segment))
      (timers : List (SocketHandle × TcpSocket.Timer)) (order : List SocketHandle) (now : Nat) :
      e = .rx (.udp udp) (some query) accepted timers order now → udp.dst_port = 53 → query.qtype = QTYPE_A →
      p = (s.fake_pool.alloc query.qname now).2 → PoolChange s e p
  | sweep (now : Nat) : e = .fake_ip_sweep now → p = (s.fake_pool.sweep now FAKE_IP_TTL).2 → PoolChange s e p
  /-- A flow starts that holds `fake_ip`, and the flows that end let go of `ips`. -/
  | refs (fake_ip : Option Ipv4Addr) (ips : List Ipv4Addr) (now : Nat) :
      (∀ ip, fake_ip = some ip → ∃ endpoint target, resolve_target endpoint s.fake_pool = .Direct target (some ip)) →
      p = release_all (s.fake_pool.acquireOpt fake_ip now) ips now → PoolChange s e p

theorem PoolChange.release {e : Event} {p : FakeIpPool} (ips : List Ipv4Addr) (now : Nat)
    (h : p = release_all s.fake_pool ips now) : PoolChange s e p :=
  .refs none ips now (fun _ h => by cases h) h

theorem PoolChange.congr {s₀ : Sys} {e : Event} {p : FakeIpPool} (h : PoolChange s₀ e p)
    (hs : s₀.fake_pool = s.fake_pool) : PoolChange s e p := by
  cases h with
  | same hp => exact .same (hs ▸ hp)
  | alloc udp query accepted timers order now he hport hq hp =>
    exact .alloc udp query accepted timers order now he hport hq (hs ▸ hp)
  | sweep now he hp => exact .sweep now he (hs ▸ hp)
  | refs fake_ip ips now hres hp => exact .refs fake_ip ips now (hs ▸ hres) (hs ▸ hp)

theorem releaseOpt_eq (p : FakeIpPool) (fake_ip : Option Ipv4Addr) (now : Nat) :
    p.releaseOpt fake_ip now = release_all p fake_ip.toList now := by
  cases fake_ip <;> rfl

theorem release_all_append (p : FakeIpPool) (ips ips' : List Ipv4Addr) (now : Nat) :
    release_all p (ips ++ ips') now = release_all (release_all p ips now) ips' now := List.foldl_append

/-- What event `e` makes of the UDP flows. -/
inductive FlowsChange (t : AssocTable) (p : FakeIpPool) (e : Event) (t' : AssocTable) : Prop
  | same : t' = t → FlowsChange t p e t'
  | touch (assoc_id : UInt16) (now : Nat) : t' = t.touch assoc_id now → FlowsChange t p e t'
  | sweep (now : Nat) : t' = (t.sweep now UDP_FLOW_IDLE_SECS).2 → FlowsChange t p e t'
  | uplink (udp : UdpInbound) (query : Option DnsQuery) (accepted : Option (SocketHandle × List TcpSocket.Segment))
      (timers : List (SocketHandle × TcpSocket.Timer)) (order : List SocketHandle) (now : Nat) (p' : FakeIpPool) :
      e = .rx (.udp udp) query accepted timers order now → udp.dst_port ≠ 53 →
      handle_tuic_udp_uplink t p udp now = some (t', p') → FlowsChange t p e t'

/-- An event that makes no call spawns no handshake, and a relay only for the
target of one. -/
structure Silent (s : Sys) (e : Event) (s' : Sys) : Prop where
  pool : PoolChange s e s'.fake_pool
  flows : FlowsChange s.assoc_table s.fake_pool e s'.assoc_table
  handshakes : ∀ done ∈ s'.handshakes, done ∈ s.handshakes
  relays : s'.relays.map (·.target) = s.relays.map (·.target) ∨ ∃ done ∈ s.handshakes, ∃ rx gen, rx.length ≤ 1 ∧
    s'.relays = s.relays ++ [.new done.handle done.target rx gen]

theorem Silent.of_eq {e : Event} (hpool : PoolChange s e s'.fake_pool)
    (hflows : FlowsChange s.assoc_table s.fake_pool e s'.assoc_table) (hhs : s'.handshakes = s.handshakes)
    (hrs : s'.relays = s.relays) : Silent s e s' :=
  ⟨hpool, hflows, fun _ hd => hhs ▸ hd, .inl (by rw [hrs])⟩

theorem on_remote_silent {e : Event} {payload : Bytes} {timers : List (SocketHandle × TcpSocket.Timer)} {ok : Bool}
    (he : s.on_remote h payload timers ok now = some s') : Silent s e s' := by
  simp only [on_remote, handle_remote_payload, Option.bind_eq_bind, Option.bind_eq_some_iff] at he
  obtain ⟨s₁, h1, he⟩ := he
  have hs₁ : Silent s e s₁ := by
    split at h1
    · exact Option.some.inj h1 ▸ .of_eq (.same rfl) (.same rfl) rfl rfl
    · rename_i ctx hget
      split at h1
      · obtain ⟨-, rfl⟩ := rearm_some h1
        exact .of_eq (.release ctx.fake_ip.toList now (releaseOpt_eq _ _ _)) (.same rfl) rfl rfl
      · split at h1 <;> exact Option.some.inj h1 ▸ .of_eq (.same rfl) (.same rfl) rfl rfl
  split at he <;> exact Option.some.inj he ▸ ⟨hs₁.pool, hs₁.flows, hs₁.handshakes, hs₁.relays⟩

theorem handle_tuic_udp_uplink_pool {e : Event} {udp : UdpInbound} {t : AssocTable} {p : FakeIpPool}
    (he : handle_tuic_udp_uplink s.assoc_table s.fake_pool udp now = some (t, p)) : PoolChange s e p := by
  unfold handle_tuic_udp_uplink at he
  split at he
  · exact .same (Prod.mk.inj (Option.some.inj he)).2.symm
  · exact .same (Prod.mk.inj (Option.some.inj he)).2.symm
  · rename_i target fake_ip hres
    simp only [Option.bind_eq_bind, Option.bind_eq_some_iff, Prod.exists] at he
    obtain ⟨id, t₁, -, he⟩ := he
    obtain ⟨-, rfl⟩ := Prod.mk.inj (Option.some.inj he)
    split
    · exact .refs (some _) _ now (fun ip hip => ⟨_, _, hip ▸ hres⟩) rfl
    · exact .release _ now rfl

theorem reap_pool (hs : List SocketHandle) (he : hs.foldlM (reap_slot now) s = some s') :
    ∃ ips, s'.fake_pool = release_all s.fake_pool ips now ∧ s'.assoc_table = s.assoc_table ∧
      s'.handshakes = s.handshakes ∧ s'.relays = s.relays := by
  induction hs generalizing s with
  | nil => exact Option.some.inj he ▸ ⟨[], rfl, rfl, rfl, rfl⟩
  | cons h hs ih =>
    simp only [List.foldlM_cons, Option.bind_eq_bind, Option.bind_eq_some_iff] at he
    obtain ⟨s₁, h1, h2⟩ := he
    obtain ⟨ips, hpool, hsame⟩ := ih h2
    unfold reap_slot at h1
    split at h1
    · rename_i ctx hget
      split at h1
      · obtain ⟨-, rfl⟩ := rearm_some h1
        refine ⟨ctx.fake_ip.toList ++ ips, ?_, hsame⟩
        rw [hpool, release_all_append]
        exact congrArg (fun p => release_all p ips now) (releaseOpt_eq _ _ _)
      · exact Option.some.inj h1 ▸ ⟨ips, hpool, hsame⟩
    · exact Option.some.inj h1 ▸ ⟨ips, hpool, hsame⟩

theorem on_tcp_frame {pkt : Packet} {accepted : Option (SocketHandle × List TcpSocket.Segment)}
    {timers : List (SocketHandle × TcpSocket.Timer)} {order : List SocketHandle}
    (he : s.on_tcp pkt accepted timers order = some s') :
    ∃ l dirty, s' = { s with toListeners := l, dirty := dirty, todo := order } := by
  simp only [on_tcp, Option.bind_eq_some_iff] at he
  obtain ⟨s₁, h1, h2⟩ := he
  obtain rfl := snapshot_dirty_some h2
  split at h1
  · exact Option.some.inj h1 ▸ ⟨_, _, rfl⟩
  · simp only [rx_tcp, Option.bind_eq_bind, Option.bind_eq_some_iff] at h1
    obtain ⟨l, -, h1⟩ := h1
    split at h1
    · exact Option.some.inj h1 ▸ ⟨_, _, rfl⟩
    · split at h1
      · obtain ⟨sockets, -, rfl⟩ := Option.map_eq_some_iff.1 h1
        exact ⟨_, _, rfl⟩
      · cases h1

theorem handle_dns_hijack_pool {udp : UdpInbound} {query : Option DnsQuery}
    {accepted : Option (SocketHandle × List TcpSocket.Segment)} {timers : List (SocketHandle × TcpSocket.Timer)}
    {order : List SocketHandle} (hport : udp.dst_port = 53) :
    PoolChange s (.rx (.udp udp) query accepted timers order now) (handle_dns_hijack s.fake_pool query now) := by
  unfold handle_dns_hijack
  split
  · split
    · exact .alloc udp _ accepted timers order now rfl hport ‹_› rfl
    · exact .same rfl
  · exact .same rfl

theorem on_select_silent {e : Event} (he : s.on_select e = some s') : Silent s e s' := by
  cases e with
  | remote timers ok now =>
    simp only [on_select] at he
    split at he
    · cases he
    · have hs : Silent _ (.remote timers ok now) s' := on_remote_silent he
      exact ⟨hs.pool.congr rfl, hs.flows, hs.handshakes, hs.relays⟩
  | rx pkt query accepted timers order now =>
    simp only [on_select] at he
    split at he
    · rename_i udp hclass
      simp only [Option.bind_eq_bind, Option.bind_eq_some_iff, Prod.exists, Option.pure_def, Option.some.injEq] at he
      obtain ⟨t, p, hp, rfl⟩ := he
      refine .of_eq (handle_tuic_udp_uplink_pool hp) (.uplink _ query accepted timers order now p rfl ?_ hp) rfl rfl
      intro hport
      simp [classify_inbound, hport] at hclass
    · rename_i udp hclass
      obtain rfl := Option.some.inj he
      refine .of_eq (handle_dns_hijack_pool ?_) (.same rfl) rfl rfl
      by_contra hport
      simp [classify_inbound, hport] at hclass
    · obtain ⟨l, dirty, rfl⟩ := on_tcp_frame he
      exact .of_eq (.same rfl) (.same rfl) rfl rfl
  | handshake_done i ok now =>
    simp only [on_select, Option.bind_eq_bind, Option.bind_eq_some_iff] at he
    obtain ⟨done, hi, he⟩ := he
    rcases handshake_done_cases he with ⟨-, rfl⟩ | ⟨ctx, hm, ⟨rfl, rfl⟩ | ⟨-, -, rfl⟩⟩
    · exact ⟨.same rfl, .same rfl, fun _ => List.mem_of_mem_eraseIdx, .inl rfl⟩
    · refine ⟨.same rfl, .same rfl, fun _ => List.mem_of_mem_eraseIdx, .inr ⟨done, List.mem_of_getElem? hi, _, _, ?_, rfl⟩⟩
      unfold firstMessages
      split <;> simp
    · exact ⟨.release ctx.fake_ip.toList now (releaseOpt_eq _ _ _), .same rfl, fun _ => List.mem_of_mem_eraseIdx, .inl rfl⟩
  | downlink id now => exact Option.some.inj he ▸ .of_eq (.same rfl) (.touch id now rfl) rfl rfl
  | udp_sweep now =>
    obtain ⟨ips, hpool, hassoc, hhs, hrs⟩ := reap_pool _ he
    exact .of_eq (.release (_ ++ ips) now (hpool.trans (release_all_append _ _ _ _).symm)) (.sweep now hassoc) hhs hrs
  | fake_ip_sweep now => exact Option.some.inj he ▸ .of_eq (.sweep now rfl rfl) (.same rfl) rfl rfl
  | timer timers order =>
    obtain rfl := snapshot_dirty_some he
    exact .of_eq (.same rfl) (.same rfl) rfl rfl
  | listener upstream now => cases he
  | relay id e => cases he

theorem on_relay_silent {id : RelayId} {e : RelayEvent} (he : s.on_relay id e = some s') : Silent s (.relay id e) s' := by
  simp only [on_relay, Option.bind_eq_bind, Option.bind_eq_some_iff, Prod.exists] at he
  obtain ⟨r, hr, r', message, hstep, he⟩ := he
  have hrs : (s.relays.set id r').map (·.target) = s.relays.map (·.target) :=
    relays_set (·.target) hr (RelayTask.step_frame hstep).2.2
  cases message <;> obtain rfl := Option.some.inj he <;>
    exact ⟨.same rfl, .same rfl, fun _ hd => hd, .inl hrs⟩

/-- A step makes no call and asks nothing of the upstream, or it is the visit of a
slot. -/
theorem step_asked {e : Event} (he : s.step e = some s') : Silent s e s' ∨
    ∃ h todo upstream now ctx, e = .listener upstream now ∧ s.todo = h :: todo ∧ s.socket_ctxs.get h = some ctx ∧
      Asked s h ctx (s.upcalls e) now s' := by
  unfold step at he
  split at he
  · exact .inl (on_relay_silent he)
  · rename_i upstream now h todo htodo
    cases hget : s.socket_ctxs.get h with
    | none =>
      simp only [process_dirty_slot, process_listener_activity, hget, Option.bind_eq_bind, Option.bind_some] at he
      split at he <;> exact .inl (Option.some.inj he ▸ .of_eq (.same rfl) (.same rfl) rfl rfl)
    | some ctx =>
      refine .inr ⟨h, todo, upstream, now, ctx, rfl, htodo, hget, ?_⟩
      have hcalls : s.upcalls (.listener upstream now) = { s with todo := todo }.listener_calls h := by
        simp only [upcalls, htodo]
        rfl
      rw [hcalls]
      exact (process_dirty_slot_asked (by exact hget) he).congr todo s'.dirty
  · cases he
  · exact .inl (on_select_silent he)
  · cases he

theorem step_pool {e : Event} (he : s.step e = some s') : PoolChange s e s'.fake_pool := by
  rcases step_asked he with hs | ⟨h, todo, upstream, now, ctx, -, -, -, ha⟩
  · exact hs.pool
  · have acquired {fake_ip : Option Ipv4Addr} {endpoint : IpEndpoint} {target : TargetAddr}
        (hres : resolve_target endpoint s.fake_pool = .Direct target fake_ip)
        (hpool : s'.fake_pool = s.fake_pool.acquireOpt fake_ip now) : PoolChange s e s'.fake_pool :=
      .refs fake_ip [] now (fun ip hip => ⟨endpoint, target, hip ▸ hres⟩) hpool
    cases ha with
    | nothing hpool => exact .same hpool
    | released hpool => exact .release ctx.fake_ip.toList now (hpool.trans (releaseOpt_eq _ _ _))
    | opened endpoint target fake_ip ho hpool => exact acquired ho.resolved hpool
    | spawned endpoint done fake_ip ho _ hpool => exact acquired ho.resolved hpool

theorem step_flows {e : Event} (he : s.step e = some s') :
    FlowsChange s.assoc_table s.fake_pool e s'.assoc_table := by
  rcases step_asked he with hs | ⟨h, todo, upstream, now, ctx, -, -, -, ha⟩
  · exact hs.flows
  · cases ha with
    | nothing _ _ _ hassoc | released _ _ _ hassoc | opened _ _ _ _ _ _ _ hassoc | spawned _ _ _ _ _ _ _ _ hassoc =>
      exact .same hassoc

theorem release_all_reachable {p : FakeIpPool} (hp : p.Reachable) (ips : List Ipv4Addr) (now : Nat) :
    (release_all p ips now).Reachable := by
  induction ips generalizing p with
  | nil => exact hp
  | cons ip ips ih => exact ih (.step hp trivial (e := .release ip now) rfl)

theorem PoolChange.reachable {e : Event} {p : FakeIpPool} (h : PoolChange s e p) (hp : s.fake_pool.Reachable) :
    p.Reachable := by
  cases h with
  | same h => exact h ▸ hp
  | alloc udp query accepted timers order now _ _ _ h => exact h ▸ .step hp trivial (e := .alloc query.qname now) rfl
  | sweep now _ h => exact h ▸ .step hp trivial (e := .sweep now FAKE_IP_TTL) rfl
  | refs fake_ip ips now _ h =>
    refine h ▸ release_all_reachable ?_ ips now
    cases fake_ip with
    | none => exact hp
    | some ip => exact .step hp trivial (e := .acquire ip now) rfl

/-- The pool of a run of the loop is one its operations reach. -/
theorem Reachable.pool {pool_size : Nat} (hr : Reachable pool_size s) : s.fake_pool.Reachable := by
  have h0 : (new pool_size).fake_pool.Reachable := Reach.init
  exact Reach.inv (fun s : Sys => s.fake_pool.Reachable) h0 (fun _ _ _ _ hp _ he => (step_pool he).reachable hp) hr

end Sys

end MiniVpn
