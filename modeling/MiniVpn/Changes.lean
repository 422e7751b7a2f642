import MiniVpn.Wiring
/-!
# What an event does to a context

`Effect` says what a step can do, whatever the event was. Here the event is kept:
`step_ctx` says for each context after a step where it comes from, which event it
took, and what the upstream was asked. Sockets are not part of it.
-/
open Lib

namespace MiniVpn

/-- The two contexts are of one generation and agree on all that concerns the
uplink. -/
structure SocketCtx.SameUplink (ctx ctx' : SocketCtx) : Prop where
  state : ctx'.state = ctx.state
  uplink_tx : ctx'.uplink_tx = ctx.uplink_tx
  uplink_buffer : ctx'.uplink_buffer = ctx.uplink_buffer
  extracted : ctx'.hist.extracted = ctx.hist.extracted
  fed : ctx'.hist.fed = ctx.hist.fed
  spawned : ctx'.hist.spawned = ctx.hist.spawned
  rearms : ctx'.hist.rearms = ctx.hist.rearms

theorem SocketCtx.SameUplink.refl (ctx : SocketCtx) : ctx.SameUplink ctx := ⟨rfl, rfl, rfl, rfl, rfl, rfl, rfl⟩

theorem SocketCtx.SameUplink.symm {ctx ctx' : SocketCtx} (h : ctx.SameUplink ctx') : ctx'.SameUplink ctx :=
  ⟨h.state.symm, h.uplink_tx.symm, h.uplink_buffer.symm, h.extracted.symm, h.fed.symm, h.spawned.symm, h.rearms.symm⟩

theorem flush_downlink_sameUplink {socket socket' : TcpSocket} {ctx ctx' : SocketCtx}
    (h : flush_downlink socket ctx = (socket', ctx')) : ctx.SameUplink ctx' := by
  obtain ⟨n, tx, diag, he⟩ := flush_downlink_cases socket ctx
  rw [h, Prod.mk.injEq] at he
  obtain ⟨-, rfl⟩ := he
  exact ⟨rfl, rfl, rfl, rfl, rfl, rfl, rfl⟩

/-- What reading a payload makes of a context without uplink; `conn` is the local
endpoint of the socket's connection. -/
inductive FirstPayload (upstream : Upstream) (conn : Option IpEndpoint) (ctx : SocketCtx) : SocketCtx → Prop
  /-- The socket has lost its connection. -/
  | orphan (payload : Bytes) : payload ≠ [] → conn = none → FirstPayload upstream conn ctx (ctx.noteExtracted payload none)
  | buffer (payload : Bytes) (endpoint : IpEndpoint) : payload ≠ [] → conn = some endpoint →
      ctx.state = .HandshakePending →
      FirstPayload upstream conn ctx ((ctx.noteExtracted payload (some endpoint)).buffer_uplink payload).2
  | openFailed (payload : Bytes) (endpoint : IpEndpoint) : payload ≠ [] → conn = some endpoint →
      upstream.open_is_cheap = true → upstream.open_tcp = false → ctx.state ≠ .HandshakePending →
      FirstPayload upstream conn ctx (ctx.openFailed payload endpoint)
  | opened (payload : Bytes) (endpoint : IpEndpoint) (tx : RelayId) (fake_ip : Option Ipv4Addr) : conn = some endpoint →
      upstream.open_is_cheap = true → upstream.open_tcp = true → ctx.state ≠ .HandshakePending →
      FirstPayload upstream conn ctx (ctx.opened payload endpoint tx fake_ip)
  | spawned (payload : Bytes) (endpoint : IpEndpoint) (fake_ip : Option Ipv4Addr) : conn = some endpoint →
      upstream.open_is_cheap = false → ctx.state ≠ .HandshakePending → payload.length ≤ MAX_UPLINK_BUFFER →
      FirstPayload upstream conn ctx (ctx.spawned payload endpoint fake_ip)

namespace Sys

/-! ## Processing a slot -/

/-- Only the context of `h` changed, to one that satisfies `P`. -/
def Writes (s : Sys) (h : SocketHandle) (P : SocketCtx → Prop) (s' : Sys) : Prop :=
  ∃ ctx', s'.socket_ctxs = s.socket_ctxs.insert h ctx' ∧ P ctx'

variable {s s' : Sys} {h : SocketHandle}

theorem handle_local_payload_writes {socket : TcpSocket} {ctx : SocketCtx} {payload : Bytes} {endpoint : IpEndpoint}
    {target : TargetAddr} {fake_ip : Option Ipv4Addr} {upstream : Upstream} {now : Nat}
    (hne : payload ≠ []) (hlen : payload.length ≤ MAX_UPLINK_BUFFER)
    (he : (s.put h socket (ctx.noteExtracted payload (some endpoint))).handle_local_payload h payload (some target) fake_ip
      upstream now = some s') : Writes s h (FirstPayload upstream (some endpoint) ctx) s' := by
  have hctx : (s.put h socket (ctx.noteExtracted payload (some endpoint))).socket_ctxs.get h =
      some (ctx.noteExtracted payload (some endpoint)) := Table.get_insert_self _ _ _
  simp only [handle_local_payload, hctx, try_send_nil] at he
  split at he
  · obtain rfl := Option.some.inj he
    exact ⟨_, Table.insert_insert _ _ _ _, .buffer payload endpoint hne rfl ‹_›⟩
  · rename_i hpend
    split at he
    · rename_i hcheap
      split at he
      · rename_i hopen
        obtain rfl := Option.some.inj he
        exact ⟨_, Table.insert_insert _ _ _ _, .openFailed payload endpoint hne rfl hcheap (by simpa using hopen) hpend⟩
      · rename_i hopen
        obtain rfl := Option.some.inj he
        refine ⟨_, Table.insert_insert _ _ _ _, ?_⟩
        exact .opened payload endpoint s.relays.length fake_ip rfl hcheap (by simpa using hopen) hpend
    · rename_i hcheap
      obtain rfl := Option.some.inj he
      refine ⟨ctx.spawned payload endpoint fake_ip, ?_,
        .spawned payload endpoint fake_ip rfl (by simpa using hcheap) hpend hlen⟩
      simp [put, SocketCtx.spawned, SocketCtx.noteExtracted, Table.insert_insert]

/-- A visit to a slot with context `ctx` writes it back as it is, rearms it, relays a
payload, or reads a first one. -/
inductive Visited (upstream : Upstream) (conn : Option IpEndpoint) (ctx : SocketCtx) : SocketCtx → Prop
  | same : Visited upstream conn ctx ctx
  | rearmed (ctx' : SocketCtx) : ctx'.hist.rearms = ctx.hist.rearms → Visited upstream conn ctx ctx'.rearmed
  | relayed (tx : RelayId) (payload : Bytes) : ctx.uplink_tx = some tx →
      Visited upstream conn ctx (ctx.relayed payload conn)
  | first (ctx' : SocketCtx) : ctx.uplink_tx = none → FirstPayload upstream conn ctx ctx' → Visited upstream conn ctx ctx'

theorem Writes.rearm {socket : TcpSocket} {ctx : SocketCtx} {now : Nat} {upstream : Upstream}
    {conn : Option IpEndpoint} {ctx₁ : SocketCtx}
    (he : (s.put h socket ctx).rearm_socket_with_reason h ctx now = some s') (hgen : ctx.hist.rearms = ctx₁.hist.rearms) :
    Writes s h (Visited upstream conn ctx₁) s' := by
  obtain ⟨-, rfl⟩ := rearm_some he
  exact ⟨_, Table.insert_insert _ _ _ _, .rearmed ctx hgen⟩

theorem established_uplink_writes {socket : TcpSocket} {ctx : SocketCtx} {tx : RelayId} {upstream : Upstream} {now : Nat}
    (htx : ctx.uplink_tx = some tx) (he : (s.put h socket ctx).established_uplink h ctx tx now = some s') :
    Writes s h (Visited upstream socket.local_endpoint ctx) s' := by
  have hsock : (s.put h socket ctx).sockets.get h = socket := SocketSet.get_set_self _ _ _
  unfold established_uplink at he
  split at he
  · rcases extract_cases socket with ⟨-, hx⟩ | ⟨-, payload, rest, -, -, hx⟩ <;>
      simp only [hsock, hx, Option.bind_eq_bind, Option.bind_some, Option.pure_def, Option.some.injEq] at he
    · exact he ▸ ⟨ctx, rfl, .same⟩
    · subst he
      exact ⟨_, Table.insert_insert _ _ _ _, .relayed tx payload htx⟩
  · exact Option.some.inj he ▸ ⟨ctx, rfl, .same⟩
  · exact .rearm he rfl

theorem first_payload_writes {socket : TcpSocket} {ctx : SocketCtx} {upstream : Upstream} {now : Nat}
    (hup : ctx.uplink_tx = none) (he : (s.put h socket ctx).first_payload h ctx upstream now = some s') :
    Writes s h (Visited upstream socket.local_endpoint ctx) s' := by
  have hsock : (s.put h socket ctx).sockets.get h = socket := SocketSet.get_set_self _ _ _
  rcases extract_cases socket with ⟨-, hx⟩ | ⟨-, payload, rest, hne, hsplit, hx⟩ <;>
    simp only [first_payload, hsock, hx, Option.bind_eq_bind, Option.bind_some, Option.pure_def, put_put] at he
  · exact Option.some.inj he ▸ ⟨ctx, rfl, .same⟩
  · have hr : Read socket payload rest := ⟨hne, hsplit⟩
    split at he
    · rename_i hep
      obtain rfl := Option.some.inj he
      refine ⟨_, rfl, .first _ hup ?_⟩
      rw [hep]
      exact .orphan payload hne hep
    · rename_i endpoint hep
      rw [hep] at he
      split at he
      · obtain ⟨ctx', hs', hf⟩ := handle_local_payload_writes hne hr.length_le he
        exact ⟨ctx', hs', .first ctx' hup (hep ▸ hf)⟩
      · exact .rearm he rfl
      · exact .rearm he rfl

theorem process_dirty_slot_writes {ctx : SocketCtx} {upstream : Upstream} {now : Nat} (hget : s.socket_ctxs.get h = some ctx)
    (he : s.process_dirty_slot h upstream now = some s') :
    ∃ ctx₁, ctx.SameUplink ctx₁ ∧ Writes s h (Visited upstream (s.sockets.get h).local_endpoint ctx₁) s' := by
  simp only [process_dirty_slot, Option.bind_eq_bind, Option.bind_eq_some_iff] at he
  obtain ⟨s₁, h1, he⟩ := he
  obtain ⟨socket₁, ctx₁, hfl⟩ : ∃ a b, flush_downlink (s.sockets.get h) ctx = (a, b) := ⟨_, _, rfl⟩
  simp only [process_listener_activity, hget, hfl] at h1
  have hconn : socket₁.local_endpoint = (s.sockets.get h).local_endpoint := by
    obtain ⟨n, tx, diag, hcases⟩ := flush_downlink_cases (s.sockets.get h) ctx
    obtain ⟨rfl, -⟩ := Prod.mk.inj (hfl.symm.trans hcases)
    rfl
  have hw : Writes s h (Visited upstream socket₁.local_endpoint ctx₁) s₁ := by
    split at h1
    · exact established_uplink_writes ‹_› h1
    · exact first_payload_writes ‹_› h1
  refine ⟨ctx₁, flush_downlink_sameUplink hfl, ?_⟩
  rw [← hconn]
  split at he <;> exact Option.some.inj he ▸ hw

/-! ## All events -/

/-- Where the context `ctx'` of slot `x` after event `e` comes from. -/
inductive CtxChange (s : Sys) (e : Event) (x : SocketHandle) (ctx' : SocketCtx) : Prop
  | created (port : UInt16) : s.sockets.len ≤ x → ctx' = .new port → CtxChange s e x ctx'
  | kept (ctx : SocketCtx) : s.socket_ctxs.get x = some ctx → ctx.SameUplink ctx' → CtxChange s e x ctx'
  | rearmed (ctx ctx₁ : SocketCtx) : s.socket_ctxs.get x = some ctx → ctx.hist.rearms ≤ ctx₁.hist.rearms →
      ctx' = ctx₁.rearmed → CtxChange s e x ctx'
  | installed (i now : Nat) (done : Handshake) (ctx : SocketCtx) (tx : RelayId) : e = .handshake_done i true now →
      s.handshakes[i]? = some done → Matches s done ctx → done.handle = x → ctx' = ctx.installed tx → CtxChange s e x ctx'
  | visited (upstream : Upstream) (now : Nat) (ctx ctx₁ : SocketCtx) : e = .listener upstream now →
      s.socket_ctxs.get x = some ctx → ctx.SameUplink ctx₁ → Visited upstream (s.sockets.get x).local_endpoint ctx₁ ctx' →
      CtxChange s e x ctx'

section
variable {e : Event} {x : SocketHandle} {ctx' : SocketCtx}

theorem CtxChange.same (hx : s.socket_ctxs.get x = some ctx') : CtxChange s e x ctx' := .kept ctx' hx (.refl ctx')

/-- A write of one context. -/
theorem CtxChange.insert {ctx₀ : SocketCtx} (hs : s'.socket_ctxs = s.socket_ctxs.insert h ctx₀)
    (hc : CtxChange s e h ctx₀) (hx : s'.socket_ctxs.get x = some ctx') : CtxChange s e x ctx' := by
  rw [hs, Table.get_insert] at hx
  split at hx
  · subst_vars
    obtain rfl := Option.some.inj hx
    exact hc
  · exact .same hx

theorem on_remote_ctx {payload : Bytes} {timers : List (SocketHandle × TcpSocket.Timer)} {ok : Bool} {now : Nat}
    (hok : SlotsOk s) (he : s.on_remote h payload timers ok now = some s') (hx : s'.socket_ctxs.get x = some ctx') :
    ∃ ctx, s.socket_ctxs.get x = some ctx ∧ (ctx' = ctx.rearmed ∨ ctx.SameUplink ctx') := by
  simp only [on_remote, handle_remote_payload, Option.bind_eq_bind, Option.bind_eq_some_iff] at he
  obtain ⟨s₁, h1, he⟩ := he
  have hx₁ : s₁.socket_ctxs.get x = some ctx' := by
    split at he <;> obtain rfl := Option.some.inj he <;> exact hx
  split at h1
  · obtain rfl := Option.some.inj h1
    exact ⟨ctx', hx₁, .inr (.refl ctx')⟩
  · rename_i ctx hget
    split at h1
    · obtain ⟨-, rfl⟩ := rearm_some h1
      simp only [rearmed, put, Table.get_insert] at hx₁
      split at hx₁
      · subst_vars
        exact ⟨ctx, hget, .inl (Option.some.inj hx₁).symm⟩
      · exact ⟨ctx', hx₁, .inr (.refl ctx')⟩
    · split at h1
      · obtain rfl := Option.some.inj h1
        exact ⟨ctx', hx₁, .inr (.refl ctx')⟩
      · -- The slot has an uplink, so it was relaying.
        rename_i hup
        obtain ⟨tx, htx⟩ := Option.ne_none_iff_exists'.1 (by simpa using hup)
        have hrel := (hok h ctx hget).relaying htx
        obtain ⟨socket₁, ctx₁, hfl⟩ : ∃ a b, flush_downlink (s.sockets.get h) (ctx.received payload) = (a, b) := ⟨_, _, rfl⟩
        obtain ⟨-, huptx, hbuf, hext, hfed, hsp, hgen⟩ := flush_downlink_sameUplink hfl
        rw [hfl] at h1
        obtain rfl := Option.some.inj h1
        simp only [put, Table.insert_insert, Table.get_insert] at hx₁
        split at hx₁
        · obtain rfl := Option.some.inj hx₁
          subst_vars
          exact ⟨ctx, hget, .inr ⟨hrel.symm, huptx, hbuf, hext, hfed, hsp, hgen⟩⟩
        · exact ⟨ctx', hx₁, .inr (.refl ctx')⟩

theorem rx_tcp_ctx {port : UInt16} {clean : Bool} {accepted : Option (SocketHandle × List TcpSocket.Segment)}
    (he : s.rx_tcp port clean accepted = some s') (hx : s'.socket_ctxs.get x = some ctx') : CtxChange s e x ctx' := by
  simp only [rx_tcp, Option.bind_eq_bind, Option.bind_eq_some_iff] at he
  obtain ⟨l, hl, he⟩ := he
  have hxl : l.socket_ctxs.get x = some ctx' := by
    split at he
    · obtain rfl := Option.some.inj he
      exact hx
    · split at he
      · obtain ⟨sockets, -, rfl⟩ := Option.map_eq_some_iff.1 he
        exact hx
      · cases he
  have hgrown {l₁ l₂ : Listeners} {n : Nat} (hg : Listeners.Grown port n l₁ l₂) (h2 : l₂.socket_ctxs.get x = some ctx') :
      l₁.sockets.len ≤ x ∧ ctx' = .new port ∨ l₁.socket_ctxs.get x = some ctx' := by
    rw [hg.ctx] at h2
    split at h2
    · exact .inl ⟨And.left ‹_›, (Option.some.inj h2).symm⟩
    · exact .inr h2
  unfold inspect_syn at hl
  split at hl
  · simp only [Option.bind_eq_bind, Option.bind_eq_some_iff, Prod.exists, Option.pure_def, Option.some.injEq] at hl
    obtain ⟨_, l₁, h1, _, l₂, h2, rfl⟩ := hl
    obtain ⟨n, hn⟩ := Listeners.ensure_port_grown h1
    obtain ⟨m, hm⟩ := Listeners.ensure_spare_grown h2
    rcases hgrown hm hxl with ⟨hlen, hnew⟩ | hxl
    · rw [hn.len] at hlen
      exact .created port (by omega) hnew
    · rcases hgrown hn hxl with ⟨hlen, hnew⟩ | hxl
      · exact .created port hlen hnew
      · exact .same hxl
  · obtain rfl := Option.some.inj hl
    exact .same hxl

theorem reap_ctx {now : Nat} (hs : List SocketHandle) (he : hs.foldlM (reap_slot now) s = some s')
    (hx : s'.socket_ctxs.get x = some ctx') : s.socket_ctxs.get x = some ctx' ∨
      ∃ ctx ctx₁ : SocketCtx, s.socket_ctxs.get x = some ctx ∧ ctx.hist.rearms ≤ ctx₁.hist.rearms ∧ ctx' = ctx₁.rearmed := by
  induction hs generalizing s with
  | nil => exact .inl (Option.some.inj he ▸ hx)
  | cons h hs ih =>
    simp only [List.foldlM_cons, Option.bind_eq_bind, Option.bind_eq_some_iff] at he
    obtain ⟨s₁, h1, h2⟩ := he
    unfold reap_slot at h1
    split at h1
    · rename_i ctx hget
      split at h1
      · obtain ⟨-, rfl⟩ := rearm_some h1
        -- The slot may be visited again.
        rcases ih h2 with hx₁ | ⟨c, c₁, hx₁, hle, rfl⟩ <;> simp only [rearmed, put, Table.get_insert] at hx₁ <;> split at hx₁
        · subst_vars
          exact .inr ⟨ctx, ctx, hget, Nat.le_refl _, (Option.some.inj hx₁).symm⟩
        · exact .inl hx₁
        · subst_vars
          obtain rfl := Option.some.inj hx₁
          exact .inr ⟨ctx, c₁, hget, (Nat.le_succ _).trans hle, rfl⟩
        · exact .inr ⟨c, c₁, hx₁, hle, rfl⟩
      · obtain rfl := Option.some.inj h1
        exact ih h2
    · obtain rfl := Option.some.inj h1
      exact ih h2

theorem on_select_ctx (hok : SlotsOk s) (he : s.on_select e = some s') (hx : s'.socket_ctxs.get x = some ctx') :
    CtxChange s e x ctx' := by
  cases e with
  | remote timers ok now =>
    simp only [on_select] at he
    split at he
    · cases he
    · obtain ⟨ctx, hget, hctx | hsame⟩ := on_remote_ctx (by exact hok) he hx
      · exact .rearmed ctx ctx hget (Nat.le_refl _) hctx
      · exact .kept ctx hget hsame
  | rx pkt query accepted timers order now =>
    simp only [on_select] at he
    split at he
    · simp only [Option.bind_eq_bind, Option.bind_eq_some_iff, Prod.exists, Option.pure_def, Option.some.injEq] at he
      obtain ⟨t, p, -, rfl⟩ := he
      exact .same hx
    · obtain rfl := Option.some.inj he
      exact .same hx
    · simp only [on_tcp, Option.bind_eq_some_iff] at he
      obtain ⟨s₁, h1, h2⟩ := he
      rw [snapshot_dirty_some h2] at hx
      split at h1
      · obtain rfl := Option.some.inj h1
        exact .same hx
      · exact rx_tcp_ctx h1 hx
  | handshake_done i ok now =>
    simp only [on_select, Option.bind_eq_bind, Option.bind_eq_some_iff] at he
    obtain ⟨done, hi, he⟩ := he
    rcases handshake_done_cases he with ⟨-, rfl⟩ | ⟨ctx, hm, ⟨rfl, rfl⟩ | ⟨-, -, rfl⟩⟩
    · exact .same hx
    · exact CtxChange.insert rfl (.installed i now done ctx _ rfl hi hm rfl rfl) hx
    · exact CtxChange.insert rfl (.rearmed ctx ctx hm.get (Nat.le_refl _) rfl) hx
  | downlink id now =>
    obtain rfl := Option.some.inj he
    exact .same hx
  | udp_sweep now =>
    rcases reap_ctx _ he hx with hx | ⟨ctx, ctx₁, hget, hle, hctx⟩
    · exact .same hx
    · exact .rearmed ctx ctx₁ hget hle hctx
  | fake_ip_sweep now =>
    obtain rfl := Option.some.inj he
    exact .same hx
  | timer timers order =>
    simp only [on_select] at he
    rw [snapshot_dirty_some he] at hx
    exact .same hx
  | listener upstream now => cases he
  | relay id e => cases he

/-- Every context after a step is new, or comes from the one before as the event
says. -/
theorem step_ctx (hok : SlotsOk s) (he : s.step e = some s') (hx : s'.socket_ctxs.get x = some ctx') :
    CtxChange s e x ctx' := by
  unfold step at he
  split at he
  · simp only [on_relay, Option.bind_eq_bind, Option.bind_eq_some_iff, Prod.exists] at he
    obtain ⟨r, -, r', payload, -, he⟩ := he
    cases payload <;> obtain rfl := Option.some.inj he <;> exact .same hx
  · rename_i upstream now h todo htodo
    cases hget : s.socket_ctxs.get h with
    | none =>
      simp only [process_dirty_slot, process_listener_activity, hget, Option.bind_eq_bind, Option.bind_some] at he
      split at he <;> obtain rfl := Option.some.inj he <;> exact .same hx
    | some ctx =>
      obtain ⟨ctx₁, hsame, ctx₂, hs', hv⟩ := process_dirty_slot_writes (by exact hget) he
      exact CtxChange.insert hs' (.visited upstream now ctx ctx₁ rfl hget hsame hv) hx
  · cases he
  · exact on_select_ctx hok he hx
  · cases he

end

end Sys

end MiniVpn
