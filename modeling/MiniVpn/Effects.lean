import MiniVpn.Flows
import MiniVpn.Lib.Runs
/-!
# What a step can do

Every step of the loop is a sequence of a few kinds of `Effect`. `step_effects`
is the only place where the handlers of `Loop.lean` are taken apart; invariants
are proved by cases on `Effect`.
-/
open Lib

namespace MiniVpn

/-! ## Contexts after each kind of slot change -/

/-- `payload` is what one read takes from the socket, leaving `rest`. -/
structure Read (socket : TcpSocket) (payload : Bytes) (rest : SocketBuffer) : Prop where
  nonempty : payload ≠ []
  split : payload ++ rest.data = socket.rx_buffer.data

namespace SocketCtx

/-- A payload was read and put on the uplink channel. -/
def relayed (ctx : SocketCtx) (payload : Bytes) (endpoint : Option IpEndpoint) : SocketCtx :=
  ({ ctx with state := .Relaying }.noteExtracted payload endpoint).noteFed payload

/-- A payload was read and the inline open for it failed. -/
def openFailed (ctx : SocketCtx) (payload : Bytes) (endpoint : IpEndpoint) : SocketCtx :=
  { ctx.noteExtracted payload (some endpoint) with state := .OpeningRemote }

/-- A payload was read and the inline open for it succeeded. -/
def opened (ctx : SocketCtx) (payload : Bytes) (endpoint : IpEndpoint) (tx : RelayId) (fake_ip : Option Ipv4Addr) :
    SocketCtx :=
  ({ ctx.noteExtracted payload (some endpoint) with
    uplink_tx := some tx, state := .Relaying }.hold_fake_ip fake_ip).noteFed payload

/-- A payload was read and a handshake was spawned for it. -/
def spawned (ctx : SocketCtx) (payload : Bytes) (endpoint : IpEndpoint) (fake_ip : Option Ipv4Addr) : SocketCtx :=
  (({ ctx.noteExtracted payload (some endpoint) with
    state := .HandshakePending
    conn_epoch := ctx.conn_epoch + 1
    hist := { (ctx.noteExtracted payload (some endpoint)).hist with
      bumps := ctx.hist.bumps + 1
      spawned := some ctx.hist.extracted.length } }.hold_fake_ip fake_ip).buffer_uplink payload).2

/-- The result of a handshake was installed. -/
def installed (ctx : SocketCtx) (tx : RelayId) : SocketCtx :=
  { ctx.noteFed ctx.uplink_buffer with uplink_buffer := [], uplink_tx := some tx, state := .Relaying }

end SocketCtx

/-- The first messages on the channel of an installed handshake. -/
def firstMessages (buffer : Bytes) : List Bytes := if buffer.isEmpty then [] else [buffer]

/-- Changes of one slot that touch nothing outside it. -/
inductive Turn (socket : TcpSocket) (ctx : SocketCtx) : TcpSocket → SocketCtx → Prop
  | flush : Turn socket ctx (flush_downlink socket ctx).1 (flush_downlink socket ctx).2
  | tunFlush (ok : Bool) :
      Turn socket ctx socket { ctx with downlink_diag := ctx.downlink_diag.note_tun_flush ok }
  /-- A payload was read from a socket that has lost its connection. -/
  | orphan (payload : Bytes) (rest : SocketBuffer) :
      ctx.uplink_tx = none → Read socket payload rest → socket.local_endpoint = none →
      Turn socket ctx (socket.afterRead rest) (ctx.noteExtracted payload none)
  | buffer (payload : Bytes) (rest : SocketBuffer) (endpoint : IpEndpoint) :
      ctx.uplink_tx = none → Read socket payload rest → socket.local_endpoint = some endpoint →
      ctx.state = .HandshakePending →
      Turn socket ctx (socket.afterRead rest)
        ((ctx.noteExtracted payload (some endpoint)).buffer_uplink payload).2
  | openFailed (payload : Bytes) (rest : SocketBuffer) (endpoint : IpEndpoint) :
      ctx.uplink_tx = none → Read socket payload rest → socket.local_endpoint = some endpoint →
      ctx.state ≠ .HandshakePending →
      Turn socket ctx (socket.afterRead rest) (ctx.openFailed payload endpoint)

namespace Sys

/-- The state after `handle` was rearmed. -/
def rearmed (s : Sys) (handle : SocketHandle) (ctx : SocketCtx) (now : Nat) : Sys :=
  { s.put handle (.listening ctx.local_port) ctx.rearmed with
    fake_pool := s.fake_pool.releaseOpt ctx.fake_ip now }

/-- `reopen` marks an inline open that succeeds on a slot whose last one failed,
`silent` a relay that returns without having reported the end of the stream
while a slot still has its sender, `overflow` a remote payload for which the
local socket has no room. -/
inductive Label where
  | quiet
  | reopen
  | silent
  | overflow
deriving DecidableEq

/-- `msg` is for a slot whose socket may send but cannot take all that would be
queued. -/
def Overflowing (s : Sys) (msg : Message) : Prop :=
  ∃ ctx, s.socket_ctxs.get msg.handle = some ctx ∧ (s.sockets.get msg.handle).may_send = true ∧
    (s.sockets.get msg.handle).tx_buffer.window < ctx.downlink_pending.length + msg.payload.length

/-- A handshake result matches its slot when the slot waits for it. -/
structure Matches (s : Sys) (done : Handshake) (ctx : SocketCtx) : Prop where
  get : s.socket_ctxs.get done.handle = some ctx
  epoch : ctx.conn_epoch = done.epoch
  pending : ctx.state = .HandshakePending

/-- The state after the result of handshake `i` was installed. -/
def install (s : Sys) (i : Nat) (done : Handshake) (ctx : SocketCtx) : Sys :=
  { s.put done.handle (s.sockets.get done.handle) (ctx.installed s.relays.length) with
    handshakes := s.handshakes.eraseIdx i
    relays := s.relays ++ [.new done.handle done.target (firstMessages ctx.uplink_buffer) ctx.hist.rearms]
    installed := s.installed ++ [(done, ctx.hist.rearms)] }

inductive Effect (s : Sys) : Label → Sys → Prop
  /-- `alloc` and `sweep` of the pool. -/
  | pool (p : FakeIpPool) : p.calls = s.fake_pool.calls → Effect s .quiet { s with fake_pool := p }
  | flows (t : AssocTable) (p : FakeIpPool) : FlowsKept s.assoc_table s.fake_pool t p →
      Effect s .quiet { s with assoc_table := t, fake_pool := p }
  | grow (port : UInt16) (n : Nat) (l : Listeners) : Listeners.Grown port n s.toListeners l →
      Effect s .quiet { s with toListeners := l }
  | mark (hs : Finset SocketHandle) :
      (∀ h ∈ hs, (∃ port, h ∈ s.registry.handles_for_port port) ∨ ∃ ctx, s.socket_ctxs.get h = some ctx) →
      Effect s .quiet { s with dirty := s.dirty ∪ hs }
  | unmark (h : SocketHandle) : (s.sockets.get h).can_recv = false →
      (∀ ctx, s.socket_ctxs.get h = some ctx → ctx.downlink_pending = []) →
      Effect s .quiet { s with dirty := s.dirty.erase h }
  | schedule (todo : List SocketHandle) : (∀ h ∈ todo, h ∈ s.todo ∨ h ∈ s.dirty) →
      Effect s .quiet { s with todo := todo }
  /-- A segment arrives while all slots of its port are dirty. -/
  | segment (port : UInt16) (h : SocketHandle) (seg : TcpSocket.Segment) :
      h < s.sockets.len → (s.sockets.get h).accepts port seg = true →
      (∀ x ∈ s.registry.handles_for_port port, x ∈ s.dirty) →
      Effect s .quiet { s with sockets := s.sockets.set h ((s.sockets.get h).process seg) }
  | dispatch (h : SocketHandle) (t : TcpSocket.Timer) :
      Effect s .quiet { s with sockets := s.sockets.set h ((s.sockets.get h).dispatch t) }
  | turn (h : SocketHandle) (ctx : SocketCtx) (socket' : TcpSocket) (ctx' : SocketCtx) :
      s.socket_ctxs.get h = some ctx → Turn (s.sockets.get h) ctx socket' ctx' →
      Effect s .quiet (s.put h socket' ctx')
  /-- A remote payload is queued and flushed; what is left marks the slot dirty. -/
  | deliver (msg : Message) (rest : List Message) (ctx : SocketCtx) (tx : RelayId)
      (socket' : TcpSocket) (ctx' : SocketCtx) (l : Label) :
      s.global_rx = msg :: rest → msg.payload ≠ [] → s.socket_ctxs.get msg.handle = some ctx →
      ctx.uplink_tx = some tx →
      flush_downlink (s.sockets.get msg.handle) (ctx.received msg.payload) = (socket', ctx') →
      (l ≠ .overflow → ¬ Overflowing s msg) →
      Effect s l { s.put msg.handle socket' { ctx' with state := .Relaying } with
        global_rx := rest
        dirty := if ctx'.downlink_pending.isEmpty then s.dirty else insert msg.handle s.dirty }
  /-- A message that finds no slot, or data for a slot without uplink. -/
  | discard (msg : Message) (rest : List Message) : s.global_rx = msg :: rest →
      (∀ ctx, s.socket_ctxs.get msg.handle = some ctx → msg.payload ≠ []) →
      Effect s .quiet { s with global_rx := rest }
  | rearm (h : SocketHandle) (ctx : SocketCtx) (now : Nat) :
      s.socket_ctxs.get h = some ctx → ctx.local_port ≠ 0 → Effect s .quiet (s.rearmed h ctx now)
  /-- The empty message rearms the slot. -/
  | eof (msg : Message) (rest : List Message) (ctx : SocketCtx) (now : Nat) :
      s.global_rx = msg :: rest → msg.payload = [] → s.socket_ctxs.get msg.handle = some ctx → ctx.local_port ≠ 0 →
      Effect s .quiet ({ s with global_rx := rest }.rearmed msg.handle ctx now)
  | relayed (h : SocketHandle) (ctx : SocketCtx) (tx : RelayId) (payload : Bytes) (rest : SocketBuffer) :
      s.socket_ctxs.get h = some ctx → ctx.uplink_tx = some tx → s.try_reserve tx = .Permit →
      Read (s.sockets.get h) payload rest →
      Effect s .quiet ((s.put h ((s.sockets.get h).afterRead rest)
        (ctx.relayed payload (s.sockets.get h).local_endpoint)).send tx payload)
  | opened (h : SocketHandle) (ctx : SocketCtx) (payload : Bytes) (rest : SocketBuffer) (endpoint : IpEndpoint)
      (target : TargetAddr) (fake_ip : Option Ipv4Addr) (now : Nat) (l : Label) :
      s.socket_ctxs.get h = some ctx → ctx.uplink_tx = none → ctx.state ≠ .HandshakePending →
      Read (s.sockets.get h) payload rest → (s.sockets.get h).local_endpoint = some endpoint →
      (l ≠ .reopen → ctx.state ≠ .OpeningRemote) →
      Effect s l { s.put h ((s.sockets.get h).afterRead rest)
          (ctx.opened payload endpoint s.relays.length fake_ip) with
        fake_pool := s.fake_pool.acquireOpt fake_ip now
        relays := s.relays ++ [.new h target [payload] ctx.hist.rearms] }
  | spawned (h : SocketHandle) (ctx : SocketCtx) (payload : Bytes) (rest : SocketBuffer) (endpoint : IpEndpoint)
      (target : TargetAddr) (fake_ip : Option Ipv4Addr) (now : Nat) :
      s.socket_ctxs.get h = some ctx → ctx.uplink_tx = none → ctx.state ≠ .HandshakePending →
      Read (s.sockets.get h) payload rest → (s.sockets.get h).local_endpoint = some endpoint →
      Effect s .quiet { s.put h ((s.sockets.get h).afterRead rest)
          (ctx.spawned payload endpoint fake_ip) with
        fake_pool := s.fake_pool.acquireOpt fake_ip now
        handshakes := s.handshakes ++
          [{ handle := h, epoch := ctx.conn_epoch + 1, target := target,
             bump := ctx.hist.bumps + 1, gen := ctx.hist.rearms }] }
  /-- A handshake result that does not match its slot. -/
  | dropHandshake (i : Nat) (done : Handshake) : s.handshakes[i]? = some done → (∀ ctx, ¬ Matches s done ctx) →
      Effect s .quiet { s with handshakes := s.handshakes.eraseIdx i }
  | install (i : Nat) (done : Handshake) (ctx : SocketCtx) : s.handshakes[i]? = some done → Matches s done ctx →
      Effect s .quiet (s.install i done ctx)
  /-- A failed handshake rearms its slot. -/
  | refuse (i : Nat) (done : Handshake) (ctx : SocketCtx) (now : Nat) : s.handshakes[i]? = some done →
      Matches s done ctx → ctx.local_port ≠ 0 →
      Effect s .quiet ({ s with handshakes := s.handshakes.eraseIdx i }.rearmed done.handle ctx now)
  | relay (id : RelayId) (r r' : RelayTask) (e : RelayEvent) (room : Bool) (payload : Option Bytes) (l : Label) :
      s.relays[id]? = some r → r.step (s.tx_alive id) room e = some (r', payload) →
      (l ≠ .silent → r.exitsSilently e = true → s.tx_alive id = false) →
      Effect s l { s with
        relays := s.relays.set id r'
        global_rx := s.global_rx ++ (payload.map fun p => { sender := id, handle := r'.handle, payload := p }).toList }

/-- Effects one after the other. -/
abbrev Effects : Sys → List Label → Sys → Prop := Path Effect

/-- Effects whose labels are all quiet or satisfy `special`. -/
def Steps (special : Label → Prop) (s s' : Sys) : Prop := ∃ ls, Effects s ls s' ∧ ∀ l ∈ ls, l = .quiet ∨ special l

/-- Effects with no special label. -/
abbrev QuietSteps : Sys → Sys → Prop := Steps fun _ => False

theorem Steps.refl {special : Label → Prop} (s : Sys) : Steps special s s := ⟨[], .nil, by simp⟩

theorem Steps.trans {special : Label → Prop} {s s' s'' : Sys} (h : Steps special s s') (h' : Steps special s' s'') :
    Steps special s s'' := by
  obtain ⟨ls, hp, hl⟩ := h
  obtain ⟨ls', hp', hl'⟩ := h'
  exact ⟨ls ++ ls', hp.append hp', fun l hin => (List.mem_append.1 hin).elim (hl l) (hl' l)⟩

theorem Steps.mono {P Q : Label → Prop} (himp : ∀ l, P l → Q l) {s s' : Sys} (h : Steps P s s') : Steps Q s s' := by
  obtain ⟨ls, hp, hl⟩ := h
  exact ⟨ls, hp, fun l hin => (hl l hin).imp id (himp l)⟩

theorem Effect.labelled {s s' : Sys} {l : Label} (h : Effect s l s') (special : Label → Prop)
    (hl : l = .quiet ∨ special l) : Steps special s s' := ⟨[l], .single h, by simpa using hl⟩

theorem Effect.steps {special : Label → Prop} {s s' : Sys} (h : Effect s .quiet s') : Steps special s s' :=
  h.labelled special (.inl rfl)

/-! ## Rearming -/

theorem put_put (s : Sys) (h : SocketHandle) (a b : TcpSocket) (c d : SocketCtx) :
    (s.put h a c).put h b d = s.put h b d := by
  simp only [put, SocketSet.set_set, Table.insert_insert]

/-- Rearming panics on port zero and otherwise leaves `rearmed`. -/
theorem rearm_eq (s : Sys) (h : SocketHandle) (ctx : SocketCtx) (now : Nat) :
    s.rearm_socket_with_reason h ctx now = if ctx.local_port = 0 then none else some (s.rearmed h ctx now) := by
  simp only [rearm_socket_with_reason, rearm_socket_eq]
  split <;> rfl

theorem rearm_some {s s' : Sys} {h : SocketHandle} {ctx : SocketCtx} {now : Nat}
    (he : s.rearm_socket_with_reason h ctx now = some s') : ctx.local_port ≠ 0 ∧ s' = s.rearmed h ctx now := by
  rw [rearm_eq] at he
  split at he
  · cases he
  · exact ⟨‹_›, by simpa using he.symm⟩

/-- What was written to the slot before the rearm does not matter. -/
theorem rearmed_put (s : Sys) (h : SocketHandle) (socket : TcpSocket) (ctx : SocketCtx) (ctx' : SocketCtx) (now : Nat)
    (hr : ctx'.rearmed = ctx.rearmed) (hf : ctx'.fake_ip = ctx.fake_ip) :
    (s.put h socket ctx').rearmed h ctx' now = s.rearmed h ctx now := by
  have hp : ctx'.local_port = ctx.local_port := by
    have := congrArg SocketCtx.local_port hr
    exact this
  simp only [rearmed, put_put, hr, hf, hp]
  rfl

/-! ## Local payloads -/

/-- A message on a channel changes nothing else of the relays. -/
theorem relays_send {α : Type} (f : RelayTask → α) (hf : ∀ r rx, f { r with rx := rx } = f r) (s : Sys) (tx : RelayId)
    (payload : Bytes) : (s.send tx payload).relays.map f = s.relays.map f := by
  refine List.ext_getElem? fun i => ?_
  simp only [send, List.getElem?_map, List.getElem?_modify]
  cases s.relays[i]? with
  | none => rfl
  | some r => by_cases hi : tx = i <;> simp [hi, hf]

/-- A relay is written back with what `f` sees of it unchanged. -/
theorem relays_set {α : Type} (f : RelayTask → α) {relays : List RelayTask} {id : RelayId} {r r' : RelayTask}
    (hr : relays[id]? = some r) (hf : f r' = f r) : (relays.set id r').map f = relays.map f := by
  refine List.ext_getElem? fun i => ?_
  simp only [List.getElem?_map, List.getElem?_set]
  split
  · subst_vars
    have hlt := (List.getElem?_eq_some_iff.1 hr).1
    rw [if_pos hlt, hr, Option.map_some, Option.map_some, hf]
  · rfl

theorem try_send_nil (payload : Bytes) : try_send [] payload = some [payload] := rfl

/-- A payload of a slot without uplink, once its target is known: buffered,
opened for, or lost to a failed open. -/
theorem handle_local_payload_effect {s s' : Sys} {h : SocketHandle} {ctx : SocketCtx} {payload : Bytes}
    {rest : SocketBuffer} {endpoint : IpEndpoint} {target : TargetAddr} {fake_ip : Option Ipv4Addr}
    {upstream : Upstream} {now : Nat} (hget : s.socket_ctxs.get h = some ctx) (hup : ctx.uplink_tx = none)
    (hr : Read (s.sockets.get h) payload rest) (hep : (s.sockets.get h).local_endpoint = some endpoint)
    (he : (s.put h ((s.sockets.get h).afterRead rest)
        (ctx.noteExtracted payload (some endpoint))).handle_local_payload h payload (some target) fake_ip upstream now =
      some s') :
    ∃ l, Effect s l s' ∧ (l = .quiet ∨
      (l = .reopen ∧ ctx.state = .OpeningRemote ∧ upstream.open_is_cheap = true ∧ upstream.open_tcp = true)) := by
  have hctx : (s.put h ((s.sockets.get h).afterRead rest)
      (ctx.noteExtracted payload (some endpoint))).socket_ctxs.get h =
        some (ctx.noteExtracted payload (some endpoint)) := Table.get_insert_self _ _ _
  have hsock : (s.put h ((s.sockets.get h).afterRead rest)
      (ctx.noteExtracted payload (some endpoint))).sockets.get h = (s.sockets.get h).afterRead rest :=
    SocketSet.get_set_self _ _ _
  simp only [handle_local_payload, hctx, hsock, try_send_nil] at he
  split at he
  · -- A handshake is in flight.
    rename_i hpend
    simp only [Option.some.injEq] at he
    subst he
    rw [put_put]
    exact ⟨.quiet, .turn h ctx _ _ hget (.buffer payload rest endpoint hup hr hep hpend), .inl rfl⟩
  · rename_i hpend
    split at he
    · rename_i hcheap
      split at he
      · -- The inline open failed.
        simp only [Option.some.injEq] at he
        subst he
        rw [put_put]
        exact ⟨.quiet, .turn h ctx _ _ hget (.openFailed payload rest endpoint hup hr hep hpend), .inl rfl⟩
      · rename_i hopen
        simp only [Option.some.injEq] at he
        subst he
        refine ⟨if ctx.state = .OpeningRemote then .reopen else .quiet, ?_, ?_⟩
        · convert Effect.opened h ctx payload rest endpoint target fake_ip now _ hget hup hpend hr hep ?_ using 1
          · simp only [put, spawn_remote_relay, SocketSet.set_set, Table.insert_insert, SocketCtx.opened]
            cases fake_ip <;> rfl
          · intro hq hstate
            exact hq (if_pos hstate)
        · split
          · exact .inr ⟨rfl, ‹_›, hcheap, by simpa using hopen⟩
          · exact .inl rfl
    · simp only [Option.some.injEq] at he
      subst he
      refine ⟨.quiet, ?_, .inl rfl⟩
      convert Effect.spawned h ctx payload rest endpoint target fake_ip now hget hup hpend hr hep using 1
      simp [put, SocketCtx.spawned, SocketCtx.noteExtracted]

/-- Processing slot `h` now makes an inline open that succeeds although the
slot's last one failed. -/
structure Reopening (s : Sys) (h : SocketHandle) (upstream : Upstream) : Prop where
  cheap : upstream.open_is_cheap = true
  opens : upstream.open_tcp = true
  failed : ∃ ctx, s.socket_ctxs.get h = some ctx ∧ ctx.state = .OpeningRemote
  readable : (s.sockets.get h).can_recv = true
  direct : ∃ endpoint target fake_ip, (s.sockets.get h).local_endpoint = some endpoint ∧
    resolve_target endpoint s.fake_pool = .Direct target fake_ip

/-- A slot with an uplink relays a payload, has none, finds the channel full, or
is rearmed because the channel is closed. -/
theorem established_uplink_steps {s s' : Sys} {h : SocketHandle} {ctx : SocketCtx} {tx : RelayId} {now : Nat}
    (hget : s.socket_ctxs.get h = some ctx) (htx : ctx.uplink_tx = some tx)
    (he : s.established_uplink h ctx tx now = some s') : QuietSteps s s' := by
  unfold established_uplink at he
  split at he
  · rename_i hperm
    rcases extract_cases (s.sockets.get h) with ⟨-, hx⟩ | ⟨-, payload, rest, hne, hsplit, hx⟩
    · simp only [hx, Option.bind_eq_bind, Option.bind_some, Option.pure_def, Option.some.injEq] at he
      exact he ▸ .refl s
    · simp only [hx, Option.bind_eq_bind, Option.bind_some, Option.pure_def, Option.some.injEq] at he
      exact he ▸ (Effect.relayed h ctx tx payload rest hget htx hperm ⟨hne, hsplit⟩).steps
  · simp only [Option.some.injEq] at he
    exact he ▸ .refl s
  · obtain ⟨hport, rfl⟩ := rearm_some he
    exact (Effect.rearm h ctx now hget hport).steps

theorem first_payload_steps {s s' : Sys} {h : SocketHandle} {ctx : SocketCtx} {upstream : Upstream} {now : Nat}
    (hget : s.socket_ctxs.get h = some ctx) (hup : ctx.uplink_tx = none)
    (he : s.first_payload h ctx upstream now = some s') :
    Steps (fun l => l = .reopen ∧ Reopening s h upstream) s s' := by
  have quiet {s' : Sys} (hq : QuietSteps s s') : Steps (fun l => l = .reopen ∧ Reopening s h upstream) s s' :=
    hq.mono fun _ => False.elim
  rcases extract_cases (s.sockets.get h) with ⟨-, hx⟩ | ⟨hrecv, payload, rest, hne, hsplit, hx⟩ <;>
    simp only [first_payload, hx, Option.bind_eq_bind, Option.bind_some, Option.pure_def] at he
  · exact quiet ((Option.some.inj he) ▸ .refl s)
  · have hr : Read (s.sockets.get h) payload rest := ⟨hne, hsplit⟩
    -- A refused or blocked target rearms; the read before it leaves no trace.
    have hrearm : ((s.put h ((s.sockets.get h).afterRead rest)
        (ctx.noteExtracted payload (s.sockets.get h).local_endpoint)).rearm_socket_with_reason h
          (ctx.noteExtracted payload (s.sockets.get h).local_endpoint) now = some s') → QuietSteps s s' := by
      intro hs
      obtain ⟨hport, rfl⟩ := rearm_some hs
      rw [rearmed_put s h _ ctx (ctx.noteExtracted payload _) now rfl rfl]
      exact (Effect.rearm h ctx now hget hport).steps
    cases hep : (s.sockets.get h).local_endpoint with
    | none =>
      simp only [TcpSocket.afterRead_local_endpoint, hep, Option.some.injEq] at he
      exact quiet (he ▸ (Effect.turn h ctx _ _ hget (.orphan payload rest hup hr hep)).steps)
    | some endpoint =>
      rw [hep] at hrearm
      simp only [TcpSocket.afterRead_local_endpoint, hep] at he
      split at he
      · rename_i target fake_ip hres
        obtain ⟨l, heff, hl⟩ := handle_local_payload_effect hget hup hr hep he
        refine heff.labelled _ (hl.imp id fun hre => ⟨hre.1, ?_⟩)
        obtain ⟨-, hstate, hcheap, hopen⟩ := hre
        exact ⟨hcheap, hopen, ⟨ctx, hget, hstate⟩, hrecv, ⟨endpoint, target, fake_ip, hep, hres⟩⟩
      · exact quiet (hrearm he)
      · exact quiet (hrearm he)

theorem process_listener_activity_steps {s s' : Sys} {h : SocketHandle} {upstream : Upstream} {now : Nat}
    (he : s.process_listener_activity h upstream now = some s') :
    Steps (fun l => l = .reopen ∧ Reopening s h upstream) s s' := by
  unfold process_listener_activity at he
  split at he
  · exact Option.some.inj he ▸ .refl s
  · rename_i ctx hget
    obtain ⟨n, buf, diag, hcases⟩ := flush_downlink_cases (s.sockets.get h) ctx
    have hturn : Turn (s.sockets.get h) ctx _ _ := .flush
    generalize flush_downlink (s.sockets.get h) ctx = flushed at he hturn hcases
    obtain ⟨socket₁, ctx₁⟩ := flushed
    have hflush := Effect.turn h ctx socket₁ ctx₁ hget hturn
    have hget₁ : (s.put h socket₁ ctx₁).socket_ctxs.get h = some ctx₁ := Table.get_insert_self _ _ _
    simp only at he
    split at he
    · rename_i tx htx
      exact hflush.steps.trans ((established_uplink_steps hget₁ htx he).mono fun _ => False.elim)
    · rename_i hup
      refine hflush.steps.trans ((first_payload_steps hget₁ hup he).mono fun l hre => ⟨hre.1, ?_⟩)
      -- The flush changed nothing the condition looks at.
      obtain ⟨-, hcheap, hopens, ⟨ctx', hctx', hstate⟩, hrecv, hdir⟩ := hre
      rw [hget₁, Option.some.injEq] at hctx'
      simp only [put, SocketSet.get_set_self] at hrecv hdir
      simp only [Prod.mk.injEq] at hcases
      obtain ⟨rfl, rfl⟩ := hcases
      subst hctx'
      exact ⟨hcheap, hopens, ⟨ctx, hget, hstate⟩, hrecv, hdir⟩

theorem process_dirty_slot_steps {s s' : Sys} {h : SocketHandle} {upstream : Upstream} {now : Nat}
    (he : s.process_dirty_slot h upstream now = some s') :
    Steps (fun l => l = .reopen ∧ Reopening s h upstream) s s' := by
  simp only [process_dirty_slot, Option.bind_eq_bind, Option.bind_eq_some_iff] at he
  obtain ⟨s₁, h1, he⟩ := he
  have hsteps := process_listener_activity_steps h1
  split at he
  · simp only [Option.pure_def, Option.some.injEq] at he
    exact he ▸ hsteps
  · rename_i hidle
    simp only [Option.pure_def, Option.some.injEq] at he
    simp only [Bool.or_eq_true, not_or, Bool.not_eq_true, Option.any_eq_false_iff_get] at hidle
    subst he
    refine hsteps.trans (Effect.unmark h hidle.1 fun ctx hctx => ?_).steps
    have := hidle.2
    simp only [hctx] at this
    simpa using this

/-! ## The poll -/

theorem poll_egress_steps (timers : List (SocketHandle × TcpSocket.Timer)) (s : Sys) :
    QuietSteps s { s with sockets := poll_egress s.sockets timers } := by
  induction timers generalizing s with
  | nil => exact .refl s
  | cons t ts ih => exact (Effect.dispatch t.1 t.2).steps.trans (ih _)

theorem poll_ingress_steps {port : UInt16} {h : SocketHandle} (segs : List TcpSocket.Segment) {s : Sys}
    {sockets : SocketSet} (hd : ∀ x ∈ s.registry.handles_for_port port, x ∈ s.dirty)
    (he : poll_ingress s.sockets port h segs = some sockets) : QuietSteps s { s with sockets := sockets } := by
  induction segs generalizing s with
  | nil =>
    simp only [poll_ingress, Option.some.injEq] at he
    exact he ▸ .refl s
  | cons seg segs ih =>
    unfold poll_ingress at he
    split at he
    · rename_i hc
      exact (Effect.segment port h seg hc.1 hc.2 hd).steps.trans (ih (by exact hd) he)
    · cases he

/-! ## Remote payloads and handshake results -/

/-- Data for a slot with an uplink: queued and flushed, then the poll, then the
count of the device flush. -/
theorem deliver_steps {s : Sys} {msg : Message} {rest : List Message} {ctx ctx' : SocketCtx} {tx : RelayId}
    {socket' : TcpSocket} (hq : s.global_rx = msg :: rest) (hne : msg.payload ≠ [])
    (hget : s.socket_ctxs.get msg.handle = some ctx) (htx : ctx.uplink_tx = some tx)
    (hfl : flush_downlink (s.sockets.get msg.handle) (ctx.received msg.payload) = (socket', ctx'))
    (timers : List (SocketHandle × TcpSocket.Timer)) (ok : Bool) :
    Steps (fun l => l = .overflow ∧ Overflowing s msg) s { s with
      sockets := poll_egress (s.sockets.set msg.handle socket') timers
      socket_ctxs := s.socket_ctxs.insert msg.handle
        { ctx' with state := .Relaying, downlink_diag := ctx'.downlink_diag.note_tun_flush ok }
      global_rx := rest
      dirty := if ctx'.downlink_pending.isEmpty then s.dirty else insert msg.handle s.dirty } := by
  obtain ⟨l, hroom, hl⟩ : ∃ l : Label, (l ≠ .overflow → ¬ Overflowing s msg) ∧
      (l = .quiet ∨ (l = .overflow ∧ Overflowing s msg)) := by
    by_cases ho : Overflowing s msg
    · exact ⟨.overflow, absurd rfl, .inr ⟨rfl, ho⟩⟩
    · exact ⟨.quiet, fun _ => ho, .inl rfl⟩
  have hdeliver := (Effect.deliver msg rest ctx tx socket' ctx' l hq hne hget htx hfl hroom).labelled
    (fun l => l = .overflow ∧ Overflowing s msg) hl
  refine (hdeliver.trans ((poll_egress_steps timers _).mono fun _ => False.elim)).trans ?_
  have hnote : Steps (fun l => l = .overflow ∧ Overflowing s msg) _ _ := (Effect.turn (s := { s with
      sockets := poll_egress (s.sockets.set msg.handle socket') timers
      socket_ctxs := s.socket_ctxs.insert msg.handle { ctx' with state := .Relaying }
      global_rx := rest
      dirty := if ctx'.downlink_pending.isEmpty then s.dirty else insert msg.handle s.dirty })
    msg.handle { ctx' with state := .Relaying } _ _ (Table.get_insert_self _ _ _) (.tunFlush ok)).steps
  simpa only [put, SocketSet.set_get, Table.insert_insert] using hnote

theorem on_remote_steps {s s' : Sys} {msg : Message} {rest : List Message}
    {timers : List (SocketHandle × TcpSocket.Timer)} {ok : Bool} {now : Nat} (hq : s.global_rx = msg :: rest)
    (he : { s with global_rx := rest }.on_remote msg.handle msg.payload timers ok now = some s') :
    Steps (fun l => l = .overflow ∧ Overflowing s msg) s s' := by
  simp only [on_remote, handle_remote_payload, Option.bind_eq_bind, Option.bind_eq_some_iff] at he
  obtain ⟨s₁, h1, he⟩ := he
  split at h1
  · rename_i hnone
    obtain rfl := Option.some.inj h1
    simp only [hnone, Option.any_none, Bool.false_eq_true, if_false, Option.pure_def, Option.some.injEq] at he
    exact he ▸ (Effect.discard msg rest hq fun ctx hctx => by simp [hnone] at hctx).steps
  · rename_i ctx hget
    split at h1
    · -- The empty message.
      rename_i hempty
      obtain ⟨hport, rfl⟩ := rearm_some h1
      have hctx : ({ s with global_rx := rest }.rearmed msg.handle ctx now).socket_ctxs.get msg.handle =
          some ctx.rearmed := Table.get_insert_self _ _ _
      rw [hctx] at he
      simp only [Option.any_some, SocketCtx.rearmed, SocketCtx.new, List.isEmpty_nil, Bool.not_true,
        Bool.false_eq_true, if_false, Option.pure_def, Option.some.injEq] at he
      exact he ▸ (Effect.eof msg rest ctx now hq (List.isEmpty_iff.1 hempty) hget hport).steps
    · rename_i hne
      have hne : msg.payload ≠ [] := fun h0 => hne (by simp [h0])
      split at h1
      · -- Data for a slot without uplink.
        obtain rfl := Option.some.inj h1
        have hdrop : Steps (fun l => l = .overflow ∧ Overflowing s msg) s _ := (Effect.discard msg rest hq fun _ _ => hne).steps
        split at he
        · obtain rfl := Option.some.inj he
          refine hdrop.trans ?_
          have := Effect.mark (s := { s with global_rx := rest }) {msg.handle} fun x hx =>
            .inr ⟨ctx, by rw [Finset.mem_singleton.1 hx]; exact hget⟩
          rw [Finset.union_comm, Finset.singleton_union] at this
          exact this.steps
        · exact Option.some.inj he ▸ hdrop
      · rename_i hup
        obtain ⟨tx, htx⟩ := Option.ne_none_iff_exists'.1 (by simpa using hup)
        obtain ⟨socket', ctx', hfl⟩ :
            ∃ a b, flush_downlink (s.sockets.get msg.handle) (ctx.received msg.payload) = (a, b) := ⟨_, _, rfl⟩
        simp only [hfl, Option.some.injEq] at h1
        subst h1
        have hd := deliver_steps hq hne hget htx hfl timers ok
        simp only [put, Table.insert_insert, Table.get_insert_self, Option.any_some, Option.pure_def] at he
        split at he <;> rename_i hpend <;> obtain rfl := Option.some.inj he
        · rwa [if_neg (by simpa using hpend)] at hd
        · rwa [if_pos (by simpa using hpend)] at hd

/-- A new channel has room for the buffered bytes. -/
theorem flush_uplink_buffer_eq (ctx : SocketCtx) :
    flush_uplink_buffer ctx =
      some (firstMessages ctx.uplink_buffer, { ctx.noteFed ctx.uplink_buffer with uplink_buffer := [] }) := by
  simp only [flush_uplink_buffer, firstMessages]
  split
  · rename_i hnil
    simp only [SocketCtx.noteFed, List.isEmpty_iff.1 hnil, List.append_nil]
    rw [← List.isEmpty_iff.1 hnil]
  · rfl

/-- A result that does not match is dropped; one that does is installed or, if it
is a failure, rearms its slot. -/
theorem handshake_done_cases {s s' : Sys} {i : Nat} {done : Handshake} {ok : Bool} {now : Nat}
    (he : { s with handshakes := s.handshakes.eraseIdx i }.handle_handshake_done done ok now = some s') :
    ((∀ ctx, ¬ Matches s done ctx) ∧ s' = { s with handshakes := s.handshakes.eraseIdx i }) ∨
    ∃ ctx, Matches s done ctx ∧ ((ok = true ∧ s' = s.install i done ctx) ∨
      (ok = false ∧ ctx.local_port ≠ 0 ∧
        s' = { s with handshakes := s.handshakes.eraseIdx i }.rearmed done.handle ctx now)) := by
  unfold handle_handshake_done at he
  split at he
  · rename_i hnone
    exact .inl ⟨fun ctx hm => by simp [hm.get] at hnone, (Option.some.inj he).symm⟩
  · rename_i ctx hget
    have hdrop (hne : ctx.conn_epoch ≠ done.epoch ∨ ctx.state ≠ .HandshakePending) : ∀ c, ¬ Matches s done c := by
      intro c hm
      obtain rfl : ctx = c := by simpa [hget] using hm.get
      exact hne.elim (· hm.epoch) (· hm.pending)
    split at he
    · exact .inl ⟨hdrop (.inl ‹_›), (Option.some.inj he).symm⟩
    · rename_i hepoch
      split at he
      · exact .inl ⟨hdrop (.inr ‹_›), (Option.some.inj he).symm⟩
      · rename_i hstate
        simp only [ne_eq, Decidable.not_not] at hepoch hstate
        refine .inr ⟨ctx, ⟨hget, hepoch, hstate⟩, ?_⟩
        split at he
        · simp only [flush_uplink_buffer_eq, Option.some.injEq] at he
          exact .inl ⟨‹_›, he.symm⟩
        · obtain ⟨hport, hs'⟩ := rearm_some he
          exact .inr ⟨by simpa using ‹¬ ok = true›, hport, hs'⟩

theorem handshake_done_steps {s s' : Sys} {i : Nat} {done : Handshake} {ok : Bool} {now : Nat}
    (hi : s.handshakes[i]? = some done)
    (he : { s with handshakes := s.handshakes.eraseIdx i }.handle_handshake_done done ok now = some s') :
    QuietSteps s s' := by
  rcases handshake_done_cases he with ⟨hno, rfl⟩ | ⟨ctx, hm, ⟨-, rfl⟩ | ⟨-, hport, rfl⟩⟩
  · exact (Effect.dropHandshake i done hi hno).steps
  · exact (Effect.install i done ctx hi hm).steps
  · exact (Effect.refuse i done ctx now hi hm hport).steps

/-! ## Inbound packets -/

theorem inspect_syn_steps {s : Sys} {l : Listeners} {port : UInt16} {clean : Bool}
    (he : inspect_syn s.toListeners port clean = some l) : QuietSteps s { s with toListeners := l } := by
  unfold inspect_syn at he
  split at he
  · simp only [Option.bind_eq_bind, Option.bind_eq_some_iff, Prod.exists, Option.pure_def, Option.some.injEq] at he
    obtain ⟨_, l₁, h1, _, l₂, h2, rfl⟩ := he
    obtain ⟨n, hn⟩ := Listeners.ensure_port_grown h1
    obtain ⟨m, hm⟩ := Listeners.ensure_spare_grown h2
    exact (Effect.grow port n l₁ hn).steps.trans (Effect.grow port m l₂ hm).steps
  · exact Option.some.inj he ▸ .refl s

theorem rx_tcp_steps {s s' : Sys} {port : UInt16} {clean : Bool}
    {accepted : Option (SocketHandle × List TcpSocket.Segment)} (he : s.rx_tcp port clean accepted = some s') :
    QuietSteps s s' := by
  simp only [rx_tcp, Option.bind_eq_bind, Option.bind_eq_some_iff] at he
  obtain ⟨l, hl, he⟩ := he
  have hmark : QuietSteps s { s with
      toListeners := l
      dirty := s.dirty ∪ (l.registry.handles_for_port port).toFinset } :=
    (inspect_syn_steps hl).trans
      (Effect.mark (s := { s with toListeners := l }) _ fun x hx => .inl ⟨port, List.mem_toFinset.1 hx⟩).steps
  split at he
  · exact Option.some.inj he ▸ hmark
  · split at he
    · simp only [Option.map_eq_some_iff] at he
      obtain ⟨sockets, hs, rfl⟩ := he
      refine hmark.trans (poll_ingress_steps _ (fun x hx => ?_) hs)
      exact Finset.mem_union_right _ (List.mem_toFinset.2 hx)
    · cases he

theorem snapshot_dirty_some {s s' : Sys} {order : List SocketHandle} (he : s.snapshot_dirty order = some s') :
    s' = { s with todo := order } := by
  unfold snapshot_dirty at he
  split at he
  · exact (Option.some.inj he).symm
  · cases he

theorem snapshot_dirty_steps {s s' : Sys} {order : List SocketHandle} (he : s.snapshot_dirty order = some s') :
    QuietSteps s s' := by
  unfold snapshot_dirty at he
  split at he
  · rename_i hc
    refine Option.some.inj he ▸ (Effect.schedule order fun x hx => .inr ?_).steps
    rw [← hc.2]
    exact List.mem_toFinset.2 hx
  · cases he

theorem on_tcp_steps {s s' : Sys} {pkt : Packet} {accepted : Option (SocketHandle × List TcpSocket.Segment)}
    {timers : List (SocketHandle × TcpSocket.Timer)} {order : List SocketHandle}
    (he : s.on_tcp pkt accepted timers order = some s') : QuietSteps s s' := by
  simp only [on_tcp, Option.bind_eq_some_iff] at he
  obtain ⟨s₁, h1, h2⟩ := he
  refine Steps.trans ?_ ((poll_egress_steps timers s₁).trans (snapshot_dirty_steps h2))
  split at h1
  · exact Option.some.inj h1 ▸ .refl s
  · exact rx_tcp_steps h1

/-! ## Sweeps -/

theorem reap_slot_steps {s s' : Sys} {h : SocketHandle} {now : Nat} (he : reap_slot now s h = some s') :
    QuietSteps s s' := by
  unfold reap_slot at he
  split at he
  · rename_i ctx hget
    split at he
    · obtain ⟨hport, rfl⟩ := rearm_some he
      exact (Effect.rearm h ctx now hget hport).steps
    · exact Option.some.inj he ▸ .refl s
  · exact Option.some.inj he ▸ .refl s

theorem reap_steps {now : Nat} (hs : List SocketHandle) {s s' : Sys} (he : hs.foldlM (reap_slot now) s = some s') :
    QuietSteps s s' := by
  induction hs generalizing s with
  | nil => exact Option.some.inj he ▸ .refl s
  | cons h hs ih =>
    simp only [List.foldlM_cons, Option.bind_eq_bind, Option.bind_eq_some_iff] at he
    obtain ⟨s₁, h1, h2⟩ := he
    exact (reap_slot_steps h1).trans (ih h2)

theorem on_udp_sweep_steps {s s' : Sys} {now : Nat} (he : s.on_udp_sweep now = some s') : QuietSteps s s' :=
  (Effect.flows _ _ (sweep_flowsKept s.assoc_table s.fake_pool now UDP_FLOW_IDLE_SECS)).steps.trans (reap_steps _ he)

/-! ## Steps -/

/-- The step of a relay, once the relay's own step is known. -/
theorem step_relay {s : Sys} {id : RelayId} {r r' : RelayTask} {e : RelayEvent} {payload : Option Bytes}
    (hr : s.relays[id]? = some r)
    (hstep : r.step (s.tx_alive id) (s.global_rx.length < RELAY_CHANNEL_CAPACITY) e = some (r', payload)) :
    s.step (.relay id e) = some { s with
      relays := s.relays.set id r'
      global_rx := s.global_rx ++ (payload.map fun p => { sender := id, handle := r'.handle, payload := p }).toList } := by
  simp only [step, on_relay, hr, hstep, Option.bind_eq_bind, Option.bind_some]
  cases payload <;> simp

/-- The step lets a relay return without a word while a slot still has its sender. -/
def ExitsSilently (s : Sys) (e : Event) : Prop :=
  ∃ id re r, e = .relay id re ∧ s.relays[id]? = some r ∧ r.exitsSilently re = true ∧ s.tx_alive id = true

theorem on_relay_steps {s s' : Sys} {id : RelayId} {e : RelayEvent} (he : s.on_relay id e = some s') :
    Steps (fun l => l = .silent ∧ ExitsSilently s (.relay id e)) s s' := by
  simp only [on_relay, Option.bind_eq_bind, Option.bind_eq_some_iff, Prod.exists] at he
  obtain ⟨r, hr, r', payload, hstep, he⟩ := he
  have heff : ∀ l, (l ≠ .silent → r.exitsSilently e = true → s.tx_alive id = false) → Effect s l s' := by
    intro l hl
    have heff := Effect.relay id r r' e _ payload l hr hstep hl
    cases payload with
    | none =>
      obtain rfl := Option.some.inj he
      simpa using heff
    | some payload =>
      obtain rfl := Option.some.inj he
      simpa using heff
  by_cases hs : r.exitsSilently e = true ∧ s.tx_alive id = true
  · exact (heff .silent (absurd rfl)).labelled _ (.inr ⟨rfl, id, e, r, rfl, hr, hs.1, hs.2⟩)
  · exact (heff .quiet fun _ hexit => Bool.eq_false_of_not_eq_true fun ha => hs ⟨hexit, ha⟩).steps

theorem dns_calls (p : FakeIpPool) (query : Option DnsQuery) (now : Nat) :
    (handle_dns_hijack p query now).calls = p.calls := by
  unfold handle_dns_hijack
  split
  · split
    · exact FakeIpPool.alloc_calls _ _ _
    · rfl
  · rfl

/-- The step receives a payload for which the local socket has no room. -/
def Overflows (s : Sys) (e : Event) : Prop :=
  ∃ msg rest timers ok now, e = .remote timers ok now ∧ s.global_rx = msg :: rest ∧ Overflowing s msg

theorem on_select_steps {s s' : Sys} {e : Event} (he : s.on_select e = some s') :
    Steps (fun l => l = .overflow ∧ Overflows s e) s s' := by
  have quiet {s' : Sys} (hq : QuietSteps s s') : Steps (fun l => l = .overflow ∧ Overflows s e) s s' :=
    hq.mono fun _ => False.elim
  cases e with
  | remote timers ok now =>
    simp only [on_select] at he
    split at he
    · cases he
    · rename_i msg rest hq
      exact (on_remote_steps hq he).mono fun l hl => ⟨hl.1, msg, rest, timers, ok, now, rfl, hq, hl.2⟩
  | rx pkt query accepted timers order now =>
    simp only [on_select] at he
    split at he
    · simp only [Option.bind_eq_bind, Option.bind_eq_some_iff, Prod.exists, Option.pure_def, Option.some.injEq] at he
      obtain ⟨t, p, h1, rfl⟩ := he
      exact (Effect.flows t p (udp_uplink_flowsKept h1)).steps
    · exact Option.some.inj he ▸ (Effect.pool _ (dns_calls _ _ _)).steps
    · exact quiet (on_tcp_steps he)
  | handshake_done i ok now =>
    simp only [on_select, Option.bind_eq_bind, Option.bind_eq_some_iff] at he
    obtain ⟨done, hi, he⟩ := he
    exact quiet (handshake_done_steps hi he)
  | downlink id now =>
    exact Option.some.inj he ▸ (Effect.flows _ _ (touch_flowsKept s.assoc_table s.fake_pool id now)).steps
  | udp_sweep now => exact quiet (on_udp_sweep_steps he)
  | fake_ip_sweep now => exact Option.some.inj he ▸ (Effect.pool _ (FakeIpPool.sweep_calls _ _ _)).steps
  | timer timers order => exact quiet ((poll_egress_steps timers s).trans (snapshot_dirty_steps he))
  | listener upstream now => cases he
  | relay id e => cases he

/-- The step processes a slot whose last inline open failed, and opens it now. -/
def Reopens (s : Sys) (e : Event) : Prop :=
  ∃ h todo upstream now, s.todo = h :: todo ∧ e = .listener upstream now ∧ Reopening s h upstream

/-- When a step may have an effect with a special label. -/
inductive Special (s : Sys) (e : Event) : Label → Prop
  | reopen : Reopens s e → Special s e .reopen
  | silent : ExitsSilently s e → Special s e .silent
  | overflow : Overflows s e → Special s e .overflow

/-- Every step is a sequence of effects. -/
theorem step_effects {s s' : Sys} {e : Event} (he : s.step e = some s') : Steps (Special s e) s s' := by
  unfold step at he
  split at he
  · exact (on_relay_steps he).mono fun l hl => hl.1 ▸ .silent hl.2
  · rename_i upstream now h todo htodo
    have hpop : Effect s .quiet { s with todo := todo } :=
      .schedule todo fun x hx => .inl (htodo ▸ List.mem_cons_of_mem _ hx)
    refine hpop.steps.trans ((process_dirty_slot_steps he).mono fun l hl => ?_)
    obtain ⟨rfl, hc, ho, hf, hr, hd⟩ := hl
    exact .reopen ⟨h, todo, upstream, now, htodo, rfl, hc, ho, hf, hr, hd⟩
  · cases he
  · exact (on_select_steps he).mono fun l hl => hl.1 ▸ .overflow hl.2
  · cases he

/-- States the loop can be in, in runs whose steps all satisfy `ok`. -/
def ReachableBy (pool_size : Nat) (ok : Sys → Event → Prop) : Sys → Prop := Reach (new pool_size) step ok

/-- States the loop can be in. -/
def Reachable (pool_size : Nat) : Sys → Prop := ReachableBy pool_size fun _ _ => True

/-- What every effect with an allowed label keeps holds in every state of a run
whose steps have no other labels. -/
theorem ReachableBy.inv {pool_size : Nat} {ok : Sys → Event → Prop} {s : Sys} (h : ReachableBy pool_size ok s)
    (allowed : Label → Prop) (hquiet : allowed .quiet) (hok : ∀ s e l, ok s e → Special s e l → allowed l)
    (I : Sys → Prop) (h0 : I (new pool_size)) (heff : ∀ s l s', allowed l → Effect s l s' → I s → I s') : I s := by
  refine Reach.inv I h0 (fun s e s' _ hi hse he => ?_) h
  obtain ⟨ls, hp, hl⟩ := step_effects he
  refine hp.inv allowed I heff (fun l hin => ?_) hi
  rcases hl l hin with rfl | hsp
  · exact hquiet
  · exact hok s e l hse hsp

/-- What every effect keeps holds in every state the loop can be in. -/
theorem Reachable.inv {pool_size : Nat} {s : Sys} (h : Reachable pool_size s) (I : Sys → Prop) (h0 : I (new pool_size))
    (heff : ∀ s l s', Effect s l s' → I s → I s') : I s :=
  ReachableBy.inv h (fun _ => True) trivial (fun _ _ _ _ _ => trivial) I h0 fun s l s' _ => heff s l s'

/-! ## Runs with one client -/

/-- A packet to port 80 arrives, socket 0 takes `segs` of it, and the two slots of
the port are processed. -/
def packet (upstream : Upstream) (segs : List TcpSocket.Segment) : List Event :=
  let syn := segs.any isSyn
  [.rx (.tcp 80 syn (!syn)) none (some (0, segs)) [] [0, 1] 0, .listener upstream 0, .listener upstream 0]

/-- A client connects to port 80 of `addr`. -/
def connect (upstream : Upstream) (addr : Ipv4Addr) : List Event :=
  packet upstream [.syn ⟨⟨addr, 80⟩, ⟨ipv4 10 0 0 5, 40000⟩⟩] ++ packet upstream [.ack 0]

end Sys

end MiniVpn
