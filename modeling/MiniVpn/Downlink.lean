import MiniVpn.Wiring
/-!
# Messages from relays

What `handle_remote_payload` does with a message depends on the slot its handle
names now, not on the slot the relay was spawned for, and on the empty message it
rearms at once. So a message can reach a later generation of its slot, and the
end of the stream can overtake bytes that are still queued for the client.
-/
open Lib

namespace MiniVpn

namespace Sys

/-- The step receives `msg` from the global channel. -/
def Receives (t : Taken Sys Event) (msg : Message) : Prop :=
  ∃ rest timers ok now, t.ev = .remote timers ok now ∧ t.pre.global_rx = msg :: rest

/-! ## What a receive does to the slot -/

theorem on_remote_eof {s s' : Sys} {h : SocketHandle} {ctx : SocketCtx} {timers : List (SocketHandle × TcpSocket.Timer)}
    {ok : Bool} {now : Nat} (hget : s.socket_ctxs.get h = some ctx) (he : s.on_remote h [] timers ok now = some s') :
    s' = s.rearmed h ctx now := by
  simp only [on_remote, handle_remote_payload, hget, List.isEmpty_nil, if_true, Option.bind_eq_bind,
    Option.bind_eq_some_iff] at he
  obtain ⟨s₁, h1, he⟩ := he
  obtain ⟨-, rfl⟩ := rearm_some h1
  have hctx : (s.rearmed h ctx now).socket_ctxs.get h = some ctx.rearmed := Table.get_insert_self _ _ _
  have hnil : ctx.rearmed.downlink_pending = [] := rfl
  simpa [hctx, hnil, eq_comm] using he

/-- Data for a slot without uplink is dropped. -/
theorem on_remote_discard {s s' : Sys} {h : SocketHandle} {ctx : SocketCtx} {payload : Bytes}
    {timers : List (SocketHandle × TcpSocket.Timer)} {ok : Bool} {now : Nat} (hget : s.socket_ctxs.get h = some ctx)
    (hne : payload ≠ []) (hup : ctx.uplink_tx = none) (he : s.on_remote h payload timers ok now = some s') (x : SocketHandle) :
    s'.slot x = s.slot x := by
  simp only [on_remote, handle_remote_payload, hget, List.isEmpty_iff, hne, if_false, hup, Option.isNone_none, if_true,
    Option.bind_eq_bind, Option.bind_some, Option.pure_def] at he
  split at he <;> obtain rfl := Option.some.inj he <;> rfl

theorem flush_downlink_tun_flush {socket socket' : TcpSocket} {ctx ctx' : SocketCtx}
    (h : flush_downlink socket ctx = (socket', ctx')) :
    ctx'.downlink_diag.tun_flush_tx_calls = ctx.downlink_diag.tun_flush_tx_calls := by
  simp only [flush_downlink] at h
  split at h
  · obtain ⟨-, rfl⟩ := Prod.mk.inj h
    rfl
  · split at h
    · obtain ⟨-, rfl⟩ := Prod.mk.inj h
      rfl
    · split at h <;> obtain ⟨-, rfl⟩ := Prod.mk.inj h <;> rfl

/-- Data for a slot with an uplink is queued, and the device flush is counted. -/
theorem on_remote_data {s s' : Sys} {h : SocketHandle} {ctx : SocketCtx} {payload : Bytes} {tx : RelayId}
    {timers : List (SocketHandle × TcpSocket.Timer)} {ok : Bool} {now : Nat} (hget : s.socket_ctxs.get h = some ctx)
    (hne : payload ≠ []) (hup : ctx.uplink_tx = some tx) (he : s.on_remote h payload timers ok now = some s') :
    ∃ ctx', s'.socket_ctxs.get h = some ctx' ∧
      ctx'.downlink_diag.tun_flush_tx_calls = ctx.downlink_diag.tun_flush_tx_calls + 1 := by
  obtain ⟨socket₁, ctx₁, hfl⟩ :
      ∃ a b, flush_downlink (s.sockets.get h) (ctx.received payload) = (a, b) := ⟨_, _, rfl⟩
  have hcalls := flush_downlink_tun_flush hfl
  simp only [on_remote, handle_remote_payload, hget, List.isEmpty_iff, hne, if_false, hup, Option.isNone_some,
    Bool.false_eq_true, hfl, Option.bind_eq_bind, Option.bind_some, Option.pure_def] at he
  have hctx (t : Table SocketHandle SocketCtx) (c : SocketCtx) : (t.insert h c).get h = some c :=
    Table.get_insert_self _ _ _
  split at he <;> obtain rfl := Option.some.inj he <;>
    exact ⟨_, hctx _ _, congrArg (· + 1) hcalls⟩

/-- A receive rearms the slot, leaves it alone, or queues the payload. -/
theorem receive_cases {t : Taken Sys Event} {msg : Message} {ctx : SocketCtx} (hstep : t.pre.step t.ev = some t.post)
    (hrec : Receives t msg) (hget : t.pre.socket_ctxs.get msg.handle = some ctx) :
    (msg.payload = [] ∧ t.post.slot msg.handle = some (.listening ctx.local_port, ctx.rearmed)) ∨
    (msg.payload ≠ [] ∧ ctx.uplink_tx = none ∧ t.post.slot msg.handle = t.pre.slot msg.handle) ∨
    (msg.payload ≠ [] ∧ ctx.uplink_tx ≠ none ∧ ∃ ctx', t.post.socket_ctxs.get msg.handle = some ctx' ∧
      ctx'.downlink_diag.tun_flush_tx_calls = ctx.downlink_diag.tun_flush_tx_calls + 1) := by
  obtain ⟨rest, timers, ok, now, hev, hq⟩ := hrec
  have he : { t.pre with global_rx := rest }.on_remote msg.handle msg.payload timers ok now = some t.post := by
    rw [hev] at hstep
    unfold step at hstep
    split at hstep
    · cases ‹Event.remote _ _ _ = _›
    · cases ‹Event.remote _ _ _ = _›
    · cases ‹Event.remote _ _ _ = _›
    · simpa only [on_select, hq] using hstep
    · cases hstep
  have hget' : { t.pre with global_rx := rest }.socket_ctxs.get msg.handle = some ctx := hget
  by_cases hnil : msg.payload = []
  · rw [hnil] at he
    have hpost := on_remote_eof hget' he
    refine .inl ⟨hnil, ?_⟩
    rw [hpost]
    exact (slot_put _ _ _ _ _).trans (if_pos rfl)
  · cases hup : ctx.uplink_tx with
    | none => exact .inr (.inl ⟨hnil, rfl, on_remote_discard hget' hnil hup he msg.handle⟩)
    | some tx => exact .inr (.inr ⟨hnil, by simp, on_remote_data hget' hnil hup he⟩)

/-! ## Messages of another generation -/

/-- The sender of `msg` was spawned for another generation of the slot than the
one the slot is in. -/
def Stale (s : Sys) (msg : Message) : Prop :=
  ∃ r ctx, s.relays[msg.sender]? = some r ∧ s.socket_ctxs.get msg.handle = some ctx ∧ r.gen ≠ ctx.hist.rearms

/-- In every run: no message of another generation changes the slot or its
socket, exactly when all of those that are received are data and find the slot
without an uplink. -/
theorem no_crosstalk_iff {pool_size : Nat} {tr : List (Taken Sys Event)} {s : Sys}
    (hrun : Run (new pool_size) step tr s) :
    (∀ t ∈ tr, ∀ msg, Receives t msg → Stale t.pre msg → t.post.slot msg.handle = t.pre.slot msg.handle) ↔
      ∀ t ∈ tr, ∀ msg, Receives t msg → Stale t.pre msg → msg.payload ≠ [] ∧
        ∀ ctx, t.pre.socket_ctxs.get msg.handle = some ctx → ctx.uplink_tx = none := by
  refine forall₂_congr fun t ht => forall₃_congr fun msg hrec hstale => ?_
  obtain ⟨-, hstep⟩ := hrun.taken (fun _ _ => True) (fun _ _ => trivial) t ht
  obtain ⟨r, ctx, -, hget, -⟩ := hstale
  have hpre : t.pre.slot msg.handle = some (t.pre.sockets.get msg.handle, ctx) := slot_eq_some.2 ⟨hget, rfl⟩
  have huniq : (∀ c, t.pre.socket_ctxs.get msg.handle = some c → c.uplink_tx = none) ↔ ctx.uplink_tx = none := by
    simp [hget]
  rw [huniq, hpre]
  rcases receive_cases hstep hrec hget with ⟨hnil, hslot⟩ | ⟨hne, hup, hslot⟩ | ⟨hne, hup, ctx', hget', hcalls⟩
  · -- The slot is rearmed, which its epoch shows.
    refine iff_of_false (fun hsame => ?_) fun hc => hc.1 hnil
    rw [hslot, Option.some.injEq, Prod.mk.injEq] at hsame
    have hepoch : ctx.conn_epoch + 1 = ctx.conn_epoch := congrArg SocketCtx.conn_epoch hsame.2
    simp at hepoch
  · exact iff_of_true (hslot.trans hpre) ⟨hne, hup⟩
  · -- The payload is queued, which the count of device flushes shows.
    refine iff_of_false (fun hsame => ?_) fun hc => hup hc.2
    obtain ⟨hget'', -⟩ := slot_eq_some.1 hsame
    obtain rfl : ctx' = ctx := by simpa [hget'] using hget''
    simp at hcalls

/-- A client connects and sends a byte, its relay does `first`, the client closes,
and the slot is reaped. -/
def closedConnection (first : List RelayEvent) : List Event :=
  connect ⟨true, true⟩ (ipv4 93 184 216 34) ++ packet ⟨true, true⟩ [.data [1]] ++ first.map (.relay 0) ++
    packet ⟨true, true⟩ [.fin] ++ [.udp_sweep 60]

/-- The old relay's data is received while the slot waits for the next client. -/
theorem no_crosstalk_listening : ∃ tr s, Run (new 2) step tr s ∧ s.global_rx = [] ∧
    ((∀ t ∈ tr, ∀ msg, Receives t msg → Stale t.pre msg → t.post.slot msg.handle = t.pre.slot msg.handle) ↔
      ∀ t ∈ tr, ∀ msg, Receives t msg → Stale t.pre msg → msg.payload ≠ [] ∧
        ∀ ctx, t.pre.socket_ctxs.get msg.handle = some ctx → ctx.uplink_tx = none) := by
  have hrun : (runEvents step (new 2) (closedConnection [.read [7], .sent] ++ [Event.remote [] true 60])).any
      (fun s => decide (s.global_rx = [])) = true := by
    decide +kernel
  obtain ⟨tr, s, hs, hp⟩ := exists_run_of_any hrun
  exact ⟨tr, s, hs, of_decide_eq_true hp, no_crosstalk_iff hs⟩

/-- A run after which a message of another generation is received, with a check on
the message and the states before and after. -/
theorem stale_receive_of_run (es : List Event) (p : Message → Sys → Sys → Bool)
    (h : (runEvents step (new 2) es).any (fun s => s.global_rx.head?.any fun msg => (s.relays[msg.sender]?).any fun r =>
      (s.socket_ctxs.get msg.handle).any fun ctx => r.gen != ctx.hist.rearms &&
        (s.step (.remote [] true 60)).any (p msg s)) = true) :
    ∃ s s' msg rest, Reachable 2 s ∧ s.global_rx = msg :: rest ∧ Stale s msg ∧
      s.step (.remote [] true 60) = some s' ∧ p msg s s' = true := by
  obtain ⟨s, hs, hp⟩ := exists_reach_of_any h
  obtain ⟨msg, hmsg, hp⟩ := (Option.any_eq_true _ _).1 hp
  obtain ⟨r, hr, hp⟩ := (Option.any_eq_true _ _).1 hp
  obtain ⟨ctx, hget, hp⟩ := (Option.any_eq_true _ _).1 hp
  obtain ⟨hgen, hp⟩ := Bool.and_eq_true_iff.1 hp
  obtain ⟨s', hs', hp⟩ := (Option.any_eq_true _ _).1 hp
  obtain ⟨rest, hrest⟩ := List.head?_eq_some_iff.1 hmsg
  exact ⟨s, s', msg, rest, hs, hrest, ⟨r, ctx, hr, hget, by simpa using hgen⟩, hs', hp⟩

/-- A second client is connected when messages of the first one's relay are
received: the empty message rearms its slot, and data is sent to it. -/
theorem old_messages_reach_new_client :
    (∃ s s' msg rest, Reachable 2 s ∧ s.global_rx = msg :: rest ∧ Stale s msg ∧
      s.step (.remote [] true 60) = some s' ∧ ((s.socket_ctxs.get msg.handle).map (·.state) = some .Relaying ∧
        (s'.socket_ctxs.get msg.handle).map (·.state) = some .Listening)) ∧
    (∃ s s' msg rest, Reachable 2 s ∧ s.global_rx = msg :: rest ∧ Stale s msg ∧
      s.step (.remote [] true 60) = some s' ∧ ((s.sockets.get msg.handle).tx_buffer.data = [] ∧
        (s'.sockets.get msg.handle).tx_buffer.data = [7])) := by
  have heof := stale_receive_of_run (closedConnection [.read_eof, .sent] ++
      connect ⟨true, true⟩ (ipv4 93 184 216 34) ++ packet ⟨true, true⟩ [.data [2]])
    (fun msg s s' => decide ((s.socket_ctxs.get msg.handle).map (·.state) = some .Relaying ∧
      (s'.socket_ctxs.get msg.handle).map (·.state) = some .Listening)) (by decide +kernel)
  have hdata := stale_receive_of_run (closedConnection [.read [7], .sent] ++
      connect ⟨true, true⟩ (ipv4 93 184 216 34) ++ packet ⟨true, true⟩ [.data [2]])
    (fun msg s s' => decide ((s.sockets.get msg.handle).tx_buffer.data = [] ∧
      (s'.sockets.get msg.handle).tx_buffer.data = [7])) (by decide +kernel)
  simp only [decide_eq_true_eq] at heof hdata
  exact ⟨heof, hdata⟩

/-! ## The end of the stream -/

/-- While the socket may send nothing is queued, and a slot that has been used has
an opened socket. -/
structure NoBacklog (socket : TcpSocket) (ctx : SocketCtx) : Prop where
  opened : ctx.state ≠ .Listening → socket.unopened = false
  empty : socket.may_send = true → ctx.downlink_pending = []

/-- A payload that finds room: the socket had nothing else queued and takes it all. -/
theorem flush_downlink_received {socket socket' : TcpSocket} {ctx ctx' : SocketCtx} {payload : Bytes}
    (hfl : flush_downlink socket (ctx.received payload) = (socket', ctx'))
    (hroom : socket.may_send = true → (ctx.received payload).downlink_pending.length ≤ socket.tx_buffer.window)
    (hsend : socket'.may_send = true) : ctx'.downlink_pending = [] := by
  obtain ⟨n, buf, diag, he⟩ := flush_downlink_cases socket (ctx.received payload)
  rw [hfl, Prod.mk.injEq] at he
  have hstate : socket'.state = socket.state := by rw [he.1]
  have hsend' : socket.may_send = true := by
    rwa [TcpSocket.may_send, hstate] at hsend
  have hempty := flush_downlink_room hsend' (hroom hsend')
  rwa [hfl] at hempty

theorem NoBacklog.move {socket socket' : TcpSocket} {ctx ctx' : SocketCtx} {l : Label} (hl : l ≠ .overflow)
    (hi : SlotInv socket ctx) (hk : NoBacklog socket ctx) (hm : Move socket ctx l socket' ctx') :
    NoBacklog socket' ctx' := by
  -- A socket that is not opened yet belongs to a slot with nothing queued.
  have hunopened : socket.unopened = true → ctx.downlink_pending = [] := by
    intro hun
    by_contra hp
    have := hk.opened (by simp [hi.pending hp])
    simp [hun] at this
  refine ⟨Opened.move hk.opened hi hm, fun hsend => ?_⟩
  cases hm with
  | same => exact hk.empty hsend
  | segment port seg => exact (TcpSocket.may_send_process hsend).elim hk.empty hunopened
  | dispatch t => exact hk.empty (TcpSocket.may_send_dispatch hsend)
  | turn _ _ ht =>
    cases ht with
    | flush =>
      obtain ⟨n, tx, diag, he⟩ := flush_downlink_cases socket ctx
      rw [he] at hsend ⊢
      simp [hk.empty hsend]
    | tunFlush | orphan | openFailed => exact hk.empty hsend
    | buffer payload rest endpoint =>
      obtain ⟨buffer, he⟩ := buffer_uplink_frame (ctx.noteExtracted payload (some endpoint)) payload
      rw [he]
      exact hk.empty hsend
  | receive payload tx socket' ctx' l htx hfl hroom =>
    have hempty := flush_downlink_received hfl (by simpa [SocketCtx.received] using hroom hl) hsend
    exact hempty
  | rearm => rfl
  | relayed | installed => exact hk.empty hsend
  | opened payload rest endpoint tx fake_ip => cases fake_ip <;> exact hk.empty hsend
  | spawned payload rest endpoint fake_ip _ hs hr =>
    rw [spawned_eq (hi.buffer hs) hr.length_le]
    cases fake_ip <;> exact hk.empty hsend

/-- The step receives the empty message for a slot whose socket may send, and every
byte that was delivered to the slot has been taken over by the socket when the
slot is rearmed. -/
def EofLossless (t : Taken Sys Event) : Prop :=
  ∀ msg ctx, Receives t msg → msg.payload = [] → t.pre.socket_ctxs.get msg.handle = some ctx →
    (t.pre.sockets.get msg.handle).may_send = true →
    RearmedIn t.pre t.post msg.handle ∧ ctx.hist.accepted = ctx.hist.delivered

/-- The step receives the empty message for a slot whose socket may send, while
bytes that an earlier flush found no room for are still queued. -/
def EofOvertakes (t : Taken Sys Event) : Prop :=
  ∃ msg ctx, Receives t msg ∧ msg.payload = [] ∧ t.pre.socket_ctxs.get msg.handle = some ctx ∧
    (t.pre.sockets.get msg.handle).may_send = true ∧ ctx.downlink_pending ≠ []

/-- Delivered bytes are taken over or queued, so what counts is whether any are
queued. -/
theorem eofLossless_iff {pool_size : Nat} {t : Taken Sys Event} (hreach : Reachable pool_size t.pre)
    (hstep : t.pre.step t.ev = some t.post) : EofLossless t ↔ ¬ EofOvertakes t := by
  constructor
  · rintro hloss ⟨msg, ctx, hrec, hnil, hget, hsend, hpend⟩
    have hall := (hloss msg ctx hrec hnil hget hsend).2
    have hledger := (hreach.slotsOk _ ctx hget).ledger
    exact hpend (by simpa [hall] using hledger)
  · intro hno msg ctx hrec hnil hget hsend
    have hpend : ctx.downlink_pending = [] := by
      by_contra hp
      exact hno ⟨msg, ctx, hrec, hnil, hget, hsend, hp⟩
    have hledger := (hreach.slotsOk _ ctx hget).ledger
    rcases receive_cases hstep hrec hget with ⟨-, hslot⟩ | ⟨hne, -⟩ | ⟨hne, -⟩
    · exact ⟨⟨ctx, hget, hslot⟩, by simpa [hpend] using hledger⟩
    · exact absurd hnil hne
    · exact absurd hnil hne

/-- In every run: no byte is lost to the end of a stream exactly when no end
overtakes queued bytes. That holds in particular when the local socket has room
for every payload at the time it is received. -/
theorem eof_lossless_iff {pool_size : Nat} {tr : List (Taken Sys Event)} {s : Sys}
    (hrun : Run (new pool_size) step tr s) :
    ((∀ t ∈ tr, EofLossless t) ↔ ∀ t ∈ tr, ¬ EofOvertakes t) ∧
      ((∀ t ∈ tr, ¬ Overflows t.pre t.ev) → ∀ t ∈ tr, EofLossless t) := by
  have hone : ∀ t ∈ tr, EofLossless t ↔ ¬ EofOvertakes t := by
    intro t ht
    obtain ⟨hreach, hstep⟩ := hrun.taken (fun _ _ => True) (fun _ _ => trivial) t ht
    exact eofLossless_iff hreach hstep
  refine ⟨forall₂_congr hone, fun hroom t ht => (hone t ht).2 ?_⟩
  rintro ⟨msg, ctx, -, -, hget, hsend, hpend⟩
  obtain ⟨hby, -⟩ := hrun.taken (fun s e => ¬ Overflows s e) hroom t ht
  have hk : NoBacklog _ ctx := ReachableBy.slot_inv hby (· ≠ .overflow) (by decide)
    (fun s e l hse hsp => by
      cases hsp with
      | reopen | silent => decide
      | overflow ho => exact absurd ho hse)
    NoBacklog (fun port => ⟨fun hs => absurd rfl hs, fun _ => rfl⟩)
    (fun _ _ _ _ _ hl hi hk hm => hk.move hl hi hm) hget
  exact hpend (hk.empty hsend)

/-- The remote sends two bytes and closes; both messages are received. -/
theorem eof_lossless_short : ∃ tr s, Run (new 2) step tr s ∧ (s.socket_ctxs.get 0).isSome = true ∧ s.global_rx = [] ∧
    ((∀ t ∈ tr, EofLossless t) ↔ ∀ t ∈ tr, ¬ EofOvertakes t) ∧
      ((∀ t ∈ tr, ¬ Overflows t.pre t.ev) → ∀ t ∈ tr, EofLossless t) := by
  have hrun : (runEvents step (new 2) (connect ⟨true, true⟩ (ipv4 93 184 216 34) ++
      packet ⟨true, true⟩ [.data [1]] ++ [Event.relay 0 (.read [7, 8]), Event.relay 0 .sent, Event.relay 0 .read_eof, Event.relay 0 .sent,
        Event.remote [] true 60, Event.remote [] true 60])).any
      (fun s => decide ((s.socket_ctxs.get 0).isSome = true ∧ s.global_rx = [])) = true := by
    decide +kernel
  obtain ⟨tr, s, hs, hp⟩ := exists_run_of_any hrun
  obtain ⟨hsome, hrx⟩ := of_decide_eq_true hp
  exact ⟨tr, s, hs, hsome, hrx, eof_lossless_iff hs⟩

/-- A relay at `select!` reads a payload and sends it on. -/
theorem relay_data_run {s : Sys} {id : RelayId} {r : RelayTask} {data : Bytes} (hrel : s.relays[id]? = some r)
    (hpc : r.pc = .select) (hrx : s.global_rx = []) (hne : data ≠ []) (hlen : data.length ≤ RELAY_READ_SIZE) :
    runEvents step s [.relay id (.read data), .relay id .sent] = some { s with
      relays := s.relays.set id { r with pc := .select }
      global_rx := [{ sender := id, handle := r.handle, payload := data }] } := by
  obtain ⟨hlt, -⟩ := List.getElem?_eq_some_iff.1 hrel
  have hread : ∀ a b, r.step a b (.read data) = some ({ r with pc := .send_back data }, none) := fun a b => by
    simp [RelayTask.step, hpc, hne, hlen]
  have hsent : ∀ a, { r with pc := .send_back data }.step a true .sent = some ({ r with pc := .select }, some data) :=
    fun _ => rfl
  simp only [runEvents, step_relay hrel (hread _ _), Option.bind_some]
  rw [step_relay (List.getElem?_set_self hlt) (by simpa [hrx, RELAY_CHANNEL_CAPACITY] using hsent _)]
  simp [hrx]

/-- A relay at `select!` sees the end of the stream and reports it. -/
theorem relay_eof_run {s : Sys} {id : RelayId} {r : RelayTask} (hrel : s.relays[id]? = some r) (hpc : r.pc = .select)
    (hrx : s.global_rx = []) : runEvents step s [.relay id .read_eof, .relay id .sent] = some { s with
      relays := s.relays.set id { r with pc := .shutdown .remote_eof }
      global_rx := [{ sender := id, handle := r.handle, payload := [] }] } := by
  obtain ⟨hlt, -⟩ := List.getElem?_eq_some_iff.1 hrel
  have hread : ∀ a b, r.step a b .read_eof = some ({ r with pc := .send_eof }, none) := fun a b => by
    simp [RelayTask.step, hpc]
  have hsent : ∀ a, { r with pc := .send_eof }.step a true .sent =
      some ({ r with pc := .shutdown .remote_eof }, some []) := fun _ => rfl
  simp only [runEvents, step_relay hrel (hread _ _), Option.bind_some]
  rw [step_relay (List.getElem?_set_self hlt) (by simpa [hrx, RELAY_CHANNEL_CAPACITY] using hsent _)]
  simp [hrx]

/-- A payload is received, and some of it stays queued. -/
theorem step_remote_backlog {s : Sys} {msg : Message} {rest : List Message} {ctx ctx' : SocketCtx} {tx : RelayId}
    {socket' : TcpSocket} (htodo : s.todo = []) (hq : s.global_rx = msg :: rest) (hne : msg.payload ≠ [])
    (hget : s.socket_ctxs.get msg.handle = some ctx) (hup : ctx.uplink_tx = some tx)
    (hfl : flush_downlink (s.sockets.get msg.handle) (ctx.received msg.payload) = (socket', ctx'))
    (hpend : ctx'.downlink_pending ≠ []) :
    s.step (.remote [] true 0) = some { s with
      sockets := s.sockets.set msg.handle socket'
      socket_ctxs := s.socket_ctxs.insert msg.handle
        { ctx' with state := .Relaying, downlink_diag := ctx'.downlink_diag.note_tun_flush true }
      global_rx := rest
      dirty := insert msg.handle s.dirty } := by
  simp [step, htodo, on_select, hq, on_remote, handle_remote_payload, hget, hne, hup, hfl, hpend, poll_egress, put]

theorem step_remote_eof {s : Sys} {msg : Message} {rest : List Message} {ctx : SocketCtx} (htodo : s.todo = [])
    (hq : s.global_rx = msg :: rest) (hnil : msg.payload = []) (hget : s.socket_ctxs.get msg.handle = some ctx)
    (hport : ctx.local_port ≠ 0) : ∃ s', s.step (.remote [] true 0) = some s' := by
  simp only [step, htodo, on_select, hq, on_remote, handle_remote_payload, hget, hnil, List.isEmpty_nil, if_true, rearm_eq,
    hport, if_false, Option.bind_eq_bind, Option.bind_some]
  split <;> exact ⟨_, rfl⟩

/-- When a relay reads more than the local socket has room for and then the end of
the stream, bytes are lost. -/
theorem eof_after_long_payload {pool_size : Nat} {s : Sys} {id : RelayId} {r : RelayTask} {ctx : SocketCtx}
    {data : Bytes} (hr : Reachable pool_size s) (htodo : s.todo = []) (hrx : s.global_rx = [])
    (hrel : s.relays[id]? = some r) (hpc : r.pc = .select) (hget : s.socket_ctxs.get r.handle = some ctx)
    (hup : ctx.uplink_tx ≠ none) (hsend : (s.sockets.get r.handle).may_send = true)
    (hlen : data.length ≤ RELAY_READ_SIZE) (hroom : (s.sockets.get r.handle).tx_buffer.window < data.length) :
    ∃ t : Taken Sys Event, Reachable pool_size t.pre ∧ t.pre.step t.ev = some t.post ∧ ¬ EofLossless t := by
  obtain ⟨tx, htx⟩ := Option.ne_none_iff_exists'.1 hup
  have hne : data ≠ [] := List.length_pos_iff.1 (by omega)
  obtain ⟨hlt, -⟩ := List.getElem?_eq_some_iff.1 hrel
  -- The payload is put on the channel and received.
  have h1 := relay_data_run hrel hpc hrx hne hlen
  obtain ⟨socket', ctx', hfl⟩ : ∃ a b, flush_downlink (s.sockets.get r.handle) (ctx.received data) = (a, b) := ⟨_, _, rfl⟩
  have hpend : ctx'.downlink_pending ≠ [] := by
    have hshort : (s.sockets.get r.handle).tx_buffer.window < (ctx.received data).downlink_pending.length := by
      simp only [SocketCtx.received, List.length_append]
      omega
    have := flush_downlink_short hshort
    rwa [hfl] at this
  have hmay : socket'.may_send = true := by
    obtain ⟨n, buf, diag, he⟩ := flush_downlink_cases (s.sockets.get r.handle) (ctx.received data)
    rw [hfl, Prod.mk.injEq] at he
    rw [he.1]
    exact hsend
  have hr1 := reach_of_runEvents (fun _ _ => trivial) _ hr h1
  have h2 := step_remote_backlog (s := { s with
      relays := s.relays.set id { r with pc := .select }
      global_rx := [{ sender := id, handle := r.handle, payload := data }] }) htodo rfl hne hget htx hfl hpend
  have hr2 : Reachable pool_size _ := .step hr1 trivial h2
  -- The end of the stream is put on the channel.
  have h3 := relay_eof_run (s := { s with
      relays := s.relays.set id { r with pc := .select }
      sockets := s.sockets.set r.handle socket'
      socket_ctxs := s.socket_ctxs.insert r.handle
        { ctx' with state := .Relaying, downlink_diag := ctx'.downlink_diag.note_tun_flush true }
      global_rx := []
      dirty := insert r.handle s.dirty }) (List.getElem?_set_self hlt) rfl rfl
  obtain ⟨s3, hr3, htodo3, hrx3, ctx3, hget3, hpend3, hsend3⟩ : ∃ s3, Reachable pool_size s3 ∧ s3.todo = [] ∧
      s3.global_rx = [{ sender := id, handle := r.handle, payload := [] }] ∧
      ∃ ctx3, s3.socket_ctxs.get r.handle = some ctx3 ∧ ctx3.downlink_pending ≠ [] ∧
        (s3.sockets.get r.handle).may_send = true :=
    ⟨_, reach_of_runEvents (fun _ _ => trivial) _ hr2 h3, htodo, rfl, _, Table.get_insert_self _ _ _, hpend,
      by simpa using hmay⟩
  -- It is received while part of the payload is still queued.
  obtain ⟨post, hpost⟩ := step_remote_eof htodo3 hrx3 rfl hget3 (hr3.slotsOk _ _ hget3).port
  refine ⟨⟨s3, _, post⟩, hr3, hpost, fun hloss => (eofLossless_iff hr3 hpost).1 hloss ?_⟩
  exact ⟨_, ctx3, ⟨[], [], true, 0, rfl, hrx3⟩, rfl, hget3, hsend3, hpend3⟩

/-- A client is connected and the remote sends 65536 bytes and closes: one byte
more than the local socket has room for, and the client never gets it. -/
theorem last_byte_lost :
    ∃ t : Taken Sys Event, Reachable 2 t.pre ∧ t.pre.step t.ev = some t.post ∧ ¬ EofLossless t := by
  have hrun : (runEvents step (new 2) (connect ⟨true, true⟩ (ipv4 93 184 216 34) ++
      packet ⟨true, true⟩ [.data [1]])).any (fun s => decide (s.todo = [] ∧ s.global_rx = []) &&
        (s.relays[0]?).any fun r => r.pc == .select && (s.socket_ctxs.get r.handle).any fun ctx =>
          decide (ctx.uplink_tx ≠ none ∧ (s.sockets.get r.handle).may_send = true ∧
            (s.sockets.get r.handle).tx_buffer.window = 65535)) = true := by
    decide +kernel
  obtain ⟨s, hs, hp⟩ := exists_reach_of_any hrun
  obtain ⟨hq, hp⟩ := Bool.and_eq_true_iff.1 hp
  obtain ⟨htodo, hrx⟩ := of_decide_eq_true hq
  obtain ⟨r, hrel, hp⟩ := (Option.any_eq_true _ _).1 hp
  obtain ⟨hpc, hp⟩ := Bool.and_eq_true_iff.1 hp
  obtain ⟨ctx, hget, hp⟩ := (Option.any_eq_true _ _).1 hp
  obtain ⟨hup, hsend, hwindow⟩ := of_decide_eq_true hp
  have hlen : (List.replicate 65536 (0 : UInt8)).length = 65536 := List.length_replicate
  exact eof_after_long_payload hs htodo hrx hrel (by simpa using hpc) hget hup hsend (by rw [hlen]; decide)
    (by rw [hlen, hwindow]; decide)

end Sys

end MiniVpn
