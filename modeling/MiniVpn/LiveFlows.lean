import MiniVpn.Handshakes
import MiniVpn.Retention
/-!
# A live flow keeps its target

The target is looked up again for every packet. It stays the same because the
reference of the flow keeps the name in the pool: for a UDP flow from the datagram
that starts it until its association is removed, for a slot with a handshake on
its way as long as it waits for it.
-/
open Lib

namespace MiniVpn

def FourTuple.destination (tuple : FourTuple) : IpEndpoint := { addr := tuple.dst_ip, port := tuple.dst_port }

/-! ## Slots that wait -/

/-- The slot waits for the handshake it waited for before, with its connection. -/
structure StillWaits (socket : TcpSocket) (ctx : SocketCtx) (socket' : TcpSocket) (ctx' : SocketCtx) : Prop where
  pending : ctx.state = .HandshakePending
  fake_ip : ctx'.fake_ip = ctx.fake_ip
  conn : ∀ endpoint, socket'.local_endpoint = some endpoint → socket.local_endpoint = some endpoint

/-- A slot that waits now, and has not counted its epoch up since, has waited all the
time. -/
structure WaitKept (socket : TcpSocket) (ctx : SocketCtx) (socket' : TcpSocket) (ctx' : SocketCtx) : Prop where
  le : ctx.hist.bumps ≤ ctx'.hist.bumps
  waits : ctx'.hist.bumps = ctx.hist.bumps → ctx'.state = .HandshakePending → StillWaits socket ctx socket' ctx'

theorem WaitKept.refl (socket : TcpSocket) (ctx : SocketCtx) : WaitKept socket ctx socket ctx :=
  ⟨le_rfl, fun _ hp => ⟨hp, rfl, fun _ => id⟩⟩

theorem WaitKept.trans {socket socket' socket'' : TcpSocket} {ctx ctx' ctx'' : SocketCtx}
    (h : WaitKept socket ctx socket' ctx') (h' : WaitKept socket' ctx' socket'' ctx'') :
    WaitKept socket ctx socket'' ctx'' := by
  have hle := h.le
  have hle' := h'.le
  refine ⟨hle.trans hle', fun hb hp => ?_⟩
  have hw' := h'.waits (by omega) hp
  have hw := h.waits (by omega) hw'.pending
  exact ⟨hw.pending, hw'.fake_ip.trans hw.fake_ip, fun endpoint hep => hw.conn endpoint (hw'.conn endpoint hep)⟩

theorem Turn.local_endpoint {socket socket' : TcpSocket} {ctx ctx' : SocketCtx} (h : Turn socket ctx socket' ctx') :
    socket'.local_endpoint = socket.local_endpoint := by
  cases h with
  | flush =>
    obtain ⟨n, tx, diag, he⟩ := flush_downlink_cases socket ctx
    rw [he]
    rfl
  | tunFlush | orphan | buffer | openFailed => rfl

theorem WaitKept.move {socket socket' : TcpSocket} {ctx ctx' : SocketCtx} {l : Sys.Label} (hi : SlotInv socket ctx)
    (ho : Opened socket ctx) (hm : Move socket ctx l socket' ctx') : WaitKept socket ctx socket' ctx' := by
  cases hm with
  | same => exact .refl socket ctx
  | segment port seg =>
    exact ⟨le_rfl, fun _ hp => ⟨hp, rfl, fun _ => TcpSocket.local_endpoint_process (ho (by simp [hp]))⟩⟩
  | dispatch t => exact ⟨le_rfl, fun _ hp => ⟨hp, rfl, fun _ => TcpSocket.local_endpoint_dispatch⟩⟩
  | turn _ _ ht =>
    obtain ⟨-, -, hip, -, -, hb⟩ := ht.frame
    exact ⟨hb.ge, fun _ hp => ⟨(Sys.turn_pending ht).1 hp, hip, fun _ hep => ht.local_endpoint ▸ hep⟩⟩
  | receive payload tx socket' ctx' l htx hfl =>
    obtain ⟨-, -, -, -, -, -, hb, -⟩ := flush_downlink_frame hfl
    exact ⟨hb.ge, fun _ hp => by cases hp⟩
  | rearm => exact ⟨Nat.le_succ _, fun hb => absurd hb (Nat.succ_ne_self _)⟩
  | relayed tx payload rest => exact ⟨le_rfl, fun _ hp => by cases hp⟩
  | opened payload rest endpoint tx fake_ip =>
    cases fake_ip <;> exact ⟨le_rfl, fun _ hp => by cases hp⟩
  | spawned payload rest endpoint fake_ip _ hs hr =>
    rw [spawned_eq (hi.buffer hs) hr.length_le]
    cases fake_ip <;> exact ⟨Nat.le_succ _, fun hb => absurd hb (Nat.succ_ne_self _)⟩
  | installed tx => exact ⟨le_rfl, fun _ hp => by cases hp⟩

namespace Sys

variable {s s' : Sys} {e : Event} {pool_size : Nat}

theorem Reachable.opened (hr : Reachable pool_size s) {x : SocketHandle} {ctx : SocketCtx}
    (hx : s.socket_ctxs.get x = some ctx) : Opened (s.sockets.get x) ctx :=
  ReachableBy.slot_inv hr (fun _ => True) trivial (fun _ _ _ _ _ => trivial) Opened (fun _ hs => absurd rfl hs)
    (fun _ _ _ _ _ _ hi ho hm => ho.move hi hm) hx

/-- From slot `x` as it was to the state `s` later. -/
structure Onwards (socket : TcpSocket) (ctx : SocketCtx) (x : SocketHandle) (s : Sys) : Prop where
  good : Good s
  opened : ∀ y c, s.socket_ctxs.get y = some c → Opened (s.sockets.get y) c
  there : s.sockets.len > x
  kept : ∀ c, s.socket_ctxs.get x = some c → WaitKept socket ctx (s.sockets.get x) c

theorem Onwards.effect {socket : TcpSocket} {ctx : SocketCtx} {x : SocketHandle} {l : Label} (h : Onwards socket ctx x s)
    (he : Effect s l s') : Onwards socket ctx x s' := by
  refine ⟨good_effect he h.good, fun y c hy => ?_, h.there.trans_le he.sockets_len_le, fun c hc => ?_⟩
  · rcases he.slot hy with ⟨port, -, -, rfl, -⟩ | ⟨c₀, hc₀, hm⟩
    · exact fun hs => absurd rfl hs
    · exact (h.opened y c₀ hc₀).move (h.good.slots y c₀ hc₀) hm
  · rcases he.slot hc with ⟨port, -, hnew, -⟩ | ⟨c₀, hc₀, hm⟩
    · exact absurd h.there (Nat.not_lt.2 hnew)
    · exact (h.kept c₀ hc₀).trans (.move (h.good.slots x c₀ hc₀) (h.opened x c₀ hc₀) hm)

theorem step_waitKept (hr : Reachable pool_size s) (he : s.step e = some s') {x : SocketHandle} {ctx ctx' : SocketCtx}
    (hx : s.socket_ctxs.get x = some ctx) (hx' : s'.socket_ctxs.get x = some ctx') :
    WaitKept (s.sockets.get x) ctx (s'.sockets.get x) ctx' := by
  obtain ⟨ls, hp, -⟩ := step_effects he
  have hinit : Onwards (s.sockets.get x) ctx x s := by
    refine ⟨hr.good, fun _ _ => hr.opened, hr.wired.lt hx, fun c hc => ?_⟩
    obtain rfl := Option.some.inj (hx.symm.trans hc)
    exact .refl _ _
  exact (hp.inv (fun _ => True) _ (fun _ _ _ _ he h => h.effect he) (fun _ _ => trivial) hinit).kept ctx' hx'

theorem slotsHolding_pos {x : SocketHandle} {ctx : SocketCtx} {ip : Ipv4Addr} (hx : s.socket_ctxs.get x = some ctx)
    (hip : ctx.fake_ip = some ip) : 0 < s.slotsHolding ip := by
  rw [slotsHolding, Table.count_of_get hx]
  simp [hip]

/-- A connection whose slot waits for a handshake goes to the target of the handshake. -/
def Awaited (s : Sys) : Prop :=
  ∀ done ∈ s.handshakes, ∀ ctx, s.socket_ctxs.get done.handle = some ctx → ctx.state = .HandshakePending →
    done.bump = ctx.hist.bumps → ∀ endpoint, (s.sockets.get done.handle).local_endpoint = some endpoint →
    resolve_target endpoint s.fake_pool = .Direct done.target ctx.fake_ip

theorem awaited_step (hr : ReachableBy pool_size Roomy s) (hroomy : Roomy s e) (he : s.step e = some s')
    (ha : Awaited s) : Awaited s' := by
  intro done hd ctx' hx' hpend hbump endpoint hep
  have hreach : Reachable pool_size s := hr.mono fun _ _ _ => trivial
  by_cases hold : done ∈ s.handshakes
  · obtain ⟨⟨ctx, hx⟩, -⟩ := hreach.tracked.out done hold
    have hle : done.bump ≤ ctx.hist.bumps := (hreach.sent hx).le _ (ticket_mem_out hold)
    have hkept := step_waitKept hreach he hx hx'
    have heq : ctx'.hist.bumps = ctx.hist.bumps := le_antisymm (hbump ▸ hle) hkept.le
    have hw := hkept.waits heq hpend
    have hres := ha done hold ctx hx hw.pending (hbump.trans heq) endpoint (hw.conn endpoint hep)
    rw [hw.fake_ip]
    refine (step_pool he).target_kept hreach.pool hroomy.ring hres fun ip now hip _ => ?_
    rw [hreach.balance.refs_eq hr.counted]
    exact Nat.add_pos_left (slotsHolding_pos hx hip) _
  · -- The handshake is spawned now.
    rcases step_asked he with hs | ⟨h, todo, upstream, now, ctx, hev, -, hget, hasked⟩
    · exact absurd (hs.handshakes done hd) hold
    · cases hasked with
      | nothing _ hhs | released _ hhs => exact absurd (hhs ▸ hd) hold
      | opened _ _ _ _ _ hhs => exact absurd (hhs ▸ hd) hold
      | spawned endpoint' done' fake_ip ho hs _ hhs =>
        rw [hhs, List.mem_append, List.mem_singleton] at hd
        obtain rfl := hd.resolve_left hold
        obtain ⟨c, hc, hip⟩ := hs.ctx
        rw [hs.handle] at hx' hep
        obtain rfl := Option.some.inj (hx'.symm.trans hc)
        obtain rfl := Option.some.inj (hep.symm.trans hs.conn)
        have hnone := fake_ip_none hreach.good hget hs.uplink hs.idle
        have hfake : ctx'.fake_ip = fake_ip := by
          rw [hip]
          cases fake_ip with
          | none => exact hnone
          | some ip => rfl
        rw [hfake]
        refine (step_pool he).target_kept hreach.pool hroomy.ring ho.resolved fun ip now' _ hsweep => ?_
        rw [hev] at hsweep
        cases hsweep

/-! ## UDP flows -/

theorem holders_pos {t : AssocTable} {id : UInt16} {ip : Ipv4Addr} (h : t.id_to_fake_ip.get id = some ip) :
    0 < t.holders ip := by
  rw [AssocTable.holders, Table.count_of_get h]
  simp

/-- The flow of `tuple` has the association `id` and goes to `target`. -/
structure FlowTo (s : Sys) (tuple : FourTuple) (id : UInt16) (target : TargetAddr) : Prop where
  bound : s.assoc_table.tuple_to_id.get tuple = some id
  resolved : resolve_target tuple.destination s.fake_pool = .Direct target (s.assoc_table.id_to_fake_ip.get id)

variable {tuple : FourTuple} {id : UInt16} {target : TargetAddr}

theorem FlowTo.after_step (h : FlowTo s tuple id target) (hr : ReachableBy pool_size Roomy s) (hroomy : Roomy s e)
    (he : s.step e = some s') (hpresent : s'.assoc_table.contains tuple = true) : FlowTo s' tuple id target := by
  have hreach : Reachable pool_size s := hr.mono fun _ _ _ => trivial
  obtain ⟨hw, hcap⟩ := hreach.flows
  obtain ⟨id', hid'⟩ := Table.contains_key_iff.1 hpresent
  cases ((step_flows he).flow hw hcap).2.2 tuple id' hid' with
  | kept hid href =>
    obtain rfl := Option.some.inj (h.bound.symm.trans hid)
    refine ⟨hid', ?_⟩
    rw [href]
    refine (step_pool he).target_kept hreach.pool hroomy.ring h.resolved fun ip now hip _ => ?_
    rw [hreach.balance.refs_eq hr.counted]
    exact Nat.add_pos_right _ (holders_pos hip)
  | started udp query accepted timers order now target' _ _ _ hnone => simp [h.bound] at hnone

theorem FlowTo.after_run {tr : List (Taken Sys Event)} {s₀ : Sys} (h : FlowTo s₀ tuple id target)
    (hr : ReachableBy pool_size Roomy s₀) (hrun : Run s₀ step tr s) (hok : ∀ t ∈ tr, Roomy t.pre t.ev)
    (hpresent : ∀ t ∈ tr, t.post.assoc_table.contains tuple = true) : FlowTo s tuple id target := by
  induction hrun with
  | nil => exact h
  | @snoc tr s s' e hrun hn ih =>
    have hok' := fun t ht => hok t (List.mem_append_left _ ht)
    have hlast : (⟨s, e, s'⟩ : Taken Sys Event) ∈ tr ++ [⟨s, e, s'⟩] := List.mem_append_right _ (List.mem_singleton_self _)
    have hbefore := ih hok' fun t ht => hpresent t (List.mem_append_left _ ht)
    exact hbefore.after_step (hr.trans (hrun.reach hok')) (hok _ hlast) hn (hpresent _ hlast)

theorem step_rx_todo {pkt : Packet} {query : Option DnsQuery} {accepted : Option (SocketHandle × List TcpSocket.Segment)}
    {timers : List (SocketHandle × TcpSocket.Timer)} {order : List SocketHandle} {now : Nat}
    (he : s.step (.rx pkt query accepted timers order now) = some s') : s.todo = [] := by
  unfold step at he
  split at he <;> first | contradiction | assumption

/-- The datagram that starts a flow goes to its target. -/
theorem FlowTo.start (hr : Reachable pool_size s) (hroomy : Roomy s e) (he : s.step e = some s')
    (hno : s.assoc_table.contains tuple = false) (hyes : s'.assoc_table.contains tuple = true) :
    ∃ udp query accepted timers order now id target, e = .rx (.udp udp) query accepted timers order now ∧
      udp.tuple = tuple ∧ s.upcalls e = [.send_udp (encode_packet id target udp.payload)] ∧ FlowTo s' tuple id target := by
  obtain ⟨hw, hcap⟩ := hr.flows
  obtain ⟨id, hid⟩ := Table.contains_key_iff.1 hyes
  cases ((step_flows he).flow hw hcap).2.2 tuple id hid with
  | kept hid₀ =>
    rw [AssocTable.contains, Table.contains_key_eq_false] at hno
    simp [hid₀] at hno
  | started udp query accepted timers order now target hev hport htuple _ hin hres =>
    subst hev htuple
    obtain ⟨t₁, hin⟩ := hin
    refine ⟨udp, query, accepted, timers, order, now, id, target, rfl, rfl, ?_, hid, ?_⟩
    · simp only [upcalls, step_rx_todo he, classify_inbound, if_neg hport, udp_calls, hres, hin]
    · exact (step_pool he).target_kept hr.pool hroomy.ring hres fun ip now' _ hsweep => by cases hsweep

/-- A datagram of the flow that is received now is sent with its association, to its
target. -/
theorem FlowTo.sends (h : FlowTo s tuple id target) (htodo : s.todo = []) {udp : UdpInbound} (hudp : udp.tuple = tuple)
    (query : Option DnsQuery) (accepted : Option (SocketHandle × List TcpSocket.Segment))
    (timers : List (SocketHandle × TcpSocket.Timer)) (order : List SocketHandle) (now : Nat) :
    (∃ s', s.step (.rx (.udp udp) query accepted timers order now) = some s') ∧
      s.upcalls (.rx (.udp udp) query accepted timers order now) =
        [.send_udp (encode_packet id target udp.payload)] := by
  subst hudp
  have hin : s.assoc_table.intern udp.tuple = some (id, s.assoc_table) := by
    simp only [AssocTable.intern, h.bound]
  have hres : resolve_target udp.destination s.fake_pool = _ := h.resolved
  have hport : udp.dst_port ≠ 53 := fun hport => by
    simp [resolve_target, UdpInbound.destination, is_dns_relay_port, hport] at hres
  have hclass : classify_inbound (.udp udp) = .UdpRelay := if_neg hport
  refine ⟨?_, by simp only [upcalls, htodo, hclass, udp_calls, hres, hin]⟩
  simp only [UdpInbound.tuple, UdpInbound.destination] at hin hres
  simp only [step, htodo, on_select, hclass, handle_tuic_udp_uplink, hres, hin]
  exact ⟨_, rfl⟩

/-! ## All flows of a run -/

/-- What a run does for the targets of its flows. -/
structure TargetsKept (tr : List (Taken Sys Event)) (s : Sys) : Prop where
  /-- From the datagram that starts a UDP flow until its association is removed, its
  datagrams go where the first one went, with the same id. -/
  udp : ∀ tr₁ t tr₂ tuple, tr = tr₁ ++ t :: tr₂ → t.pre.assoc_table.contains tuple = false →
    t.post.assoc_table.contains tuple = true → (∀ t' ∈ tr₂, t'.post.assoc_table.contains tuple = true) →
    ∃ udp query accepted timers order now id target, t.ev = .rx (.udp udp) query accepted timers order now ∧
      udp.tuple = tuple ∧ t.pre.upcalls t.ev = [.send_udp (encode_packet id target udp.payload)] ∧
      (∃ fake_ip, resolve_target tuple.destination s.fake_pool = .Direct target fake_ip) ∧
      ∀ udp' query' accepted' timers' order' now', udp'.tuple = tuple → s.todo = [] →
        (∃ s', s.step (.rx (.udp udp') query' accepted' timers' order' now') = some s') ∧
        s.upcalls (.rx (.udp udp') query' accepted' timers' order' now') =
          [.send_udp (encode_packet id target udp'.payload)]
  /-- A slot that waits has its handshake on its way, and its payloads resolve to the
  target of the handshake. -/
  pending : ∀ h ctx, s.socket_ctxs.get h = some ctx → ctx.state = .HandshakePending →
    (∃ done ∈ s.handshakes, done.handle = h ∧ done.bump = ctx.hist.bumps ∧ done.epoch = ctx.conn_epoch) ∧
    ∀ done ∈ s.handshakes, done.handle = h → done.bump = ctx.hist.bumps →
      ∀ endpoint, (s.sockets.get h).local_endpoint = some endpoint →
        resolve_target endpoint s.fake_pool = .Direct done.target ctx.fake_ip

/-- In every run in which the ring is not exhausted, live flows keep their target. -/
theorem live_flows_keep_target {tr : List (Taken Sys Event)} (hrun : Run (new pool_size) step tr s)
    (hok : ∀ t ∈ tr, Roomy t.pre t.ev) : TargetsKept tr s := by
  have hr : ReachableBy pool_size Roomy s := hrun.reach hok
  have hreach : Reachable pool_size s := hr.mono fun _ _ _ => trivial
  refine ⟨fun tr₁ t tr₂ tuple htr hno hyes hpresent => ?_, fun h ctx hget hpend => ⟨?_, ?_⟩⟩
  · subst htr
    obtain ⟨hrun₁, hn, hrun₂⟩ := hrun.split
    have hroomy := hok t (List.mem_append_right _ List.mem_cons_self)
    have hr₁ : ReachableBy pool_size Roomy t.pre := hrun₁.reach fun t' ht' => hok t' (List.mem_append_left _ ht')
    obtain ⟨udp, query, accepted, timers, order, now, id, target, hev, htuple, hcall, hflow⟩ :=
      FlowTo.start (hr₁.mono fun _ _ _ => trivial) hroomy hn hno hyes
    have hflow := hflow.after_run (.step hr₁ hroomy hn) hrun₂
      (fun t' ht' => hok t' (List.mem_append_right _ (List.mem_cons_of_mem _ ht'))) hpresent
    exact ⟨udp, query, accepted, timers, order, now, id, target, hev, htuple, hcall, ⟨_, hflow.resolved⟩,
      fun _ query' accepted' timers' order' now' hudp htodo => hflow.sends htodo hudp query' accepted' timers' order' now'⟩
  · obtain ⟨tk, htk, hepoch⟩ := (hreach.sent hget).awaited hpend
    obtain ⟨done, hd, hhandle, rfl⟩ := exists_of_mem_out htk
    have hbump : done.bump = ctx.hist.bumps := hepoch
    refine ⟨done, hd, hhandle, hbump, ?_⟩
    rw [(hreach.tracked.out done hd).2, (hreach.slotsOk h ctx hget).epoch, hbump]
  · rintro done hd rfl hbump endpoint hep
    have hawaited : Awaited s := Reach.inv Awaited (fun done hd => by simp [new] at hd)
      (fun _ _ _ hr ha hroomy he => awaited_step hr hroomy he ha) hr
    exact hawaited done hd ctx hget hpend hbump endpoint hep

/-- A name is resolved, a datagram is sent to it and a client waits for its handshake;
then the sweeps come, long after the name was last used. -/
theorem live_flows_keep_target_swept : ∃ tr s, Run (new 2) step tr s ∧ (∀ t ∈ tr, Roomy t.pre t.ev) ∧
    (s.assoc_table.contains ⟨ipv4 10 0 0 5, 5001, ipv4 198 18 0 2, 80⟩ = true ∧
      (s.socket_ctxs.get 0).map (·.state) = some .HandshakePending) ∧ TargetsKept tr s := by
  have hrun : (runEvents (checked (fun s e => decide (s.RoomForName e) &&
        decide (s.sockets.len * (2 * TCP_SOCKET_BUFFER_SIZE) ≤ ADDRESS_SPACE)) step) (new 2)
      ([Event.rx (.udp ⟨ipv4 10 0 0 5, 5000, ipv4 10 0 0 1, 53, []⟩) (some ⟨"a.test", QTYPE_A⟩) none [] [] 0,
        Event.rx (.udp ⟨ipv4 10 0 0 5, 5001, ipv4 198 18 0 2, 80, [1]⟩) none none [] [] 0] ++
        connect ⟨false, true⟩ (ipv4 198 18 0 2) ++ packet ⟨false, true⟩ [.data [1]] ++
        [Event.udp_sweep 30, Event.fake_ip_sweep 10000])).any
      (fun s => decide (s.assoc_table.contains ⟨ipv4 10 0 0 5, 5001, ipv4 198 18 0 2, 80⟩ = true ∧
        (s.socket_ctxs.get 0).map (·.state) = some .HandshakePending)) = true := by
    decide +kernel
  obtain ⟨tr, s, htr, hok, hp⟩ := exists_checked_run_of_any hrun
  have hroomy : ∀ t ∈ tr, Roomy t.pre t.ev := fun t ht => by
    obtain ⟨hring, hmem⟩ := Bool.and_eq_true_iff.1 (hok t ht)
    exact ⟨of_decide_eq_true hring, of_decide_eq_true hmem⟩
  exact ⟨tr, s, htr, hroomy, of_decide_eq_true hp, live_flows_keep_target htr hroomy⟩

end Sys

end MiniVpn
