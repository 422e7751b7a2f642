import MiniVpn.Scheduling
/-!
# The downlink backlog

Remote payloads are appended to `downlink_pending`, and `flush_downlink` moves
what the socket takes from the front of it. However little the socket takes, no
byte is lost, doubled or moved while the generation lives, the counters agree
with the bytes, and a slot with a backlog is dirty.
-/
open Lib

namespace MiniVpn

/-! ## Flushes with any result -/

namespace SocketCtx

/-- The context after a flush attempt: with `none`, `can_send` was false, with
`some n`, `send_slice` took `n` bytes, or all if there are fewer. -/
def flush (ctx : SocketCtx) (result : Option Nat) : SocketCtx :=
  if ctx.downlink_pending = [] then ctx
  else
    let diag := ctx.downlink_diag.note_pending ctx.downlink_pending.length
    match result with
    | none => { ctx with downlink_diag := diag }
    | some n =>
      { ctx with
        downlink_pending := ctx.downlink_pending.drop n
        downlink_diag := diag.note_send_slice_ok (ctx.downlink_pending.take n).length (ctx.downlink_pending.drop n).length
        hist := { ctx.hist with accepted := ctx.hist.accepted ++ ctx.downlink_pending.take n } }

/-- The bytes the socket takes in that attempt. -/
def taken (ctx : SocketCtx) (result : Option Nat) : Bytes := ctx.downlink_pending.take (result.getD 0)

end SocketCtx

/-- A socket that may send appends what it takes to its transmit buffer. -/
theorem TcpSocket.send_slice_appends {s : TcpSocket} (h : s.may_send = true) (data : Bytes) :
    ∃ n tx, s.send_slice data = some (n, { s with tx_buffer := tx }) ∧ n ≤ data.length ∧
      tx.data = s.tx_buffer.data ++ data.take n := by
  simp only [send_slice, h, if_true, SocketBuffer.enqueue_slice]
  refine ⟨_, _, rfl, Nat.min_le_right _ _, ?_⟩
  have htake (w : Nat) : data.take w = data.take (min w data.length) := by
    rcases Nat.le_total w data.length with hle | hle
    · rw [Nat.min_eq_left hle]
    · rw [Nat.min_eq_right hle, List.take_length, List.take_of_length_le hle]
  rw [← htake]
  split <;> rfl

/-- `flush_downlink` is such an attempt: the socket appends the bytes it takes to
its transmit buffer. -/
theorem flush_downlink_eq (socket : TcpSocket) (ctx : SocketCtx) :
    ∃ result, (flush_downlink socket ctx).2 = ctx.flush result ∧
      (flush_downlink socket ctx).1.tx_buffer.data = socket.tx_buffer.data ++ ctx.taken result := by
  by_cases hnil : ctx.downlink_pending = []
  · exact ⟨none, by simp [flush_downlink_nil hnil, SocketCtx.flush, hnil], by simp [flush_downlink_nil hnil, SocketCtx.taken]⟩
  · simp only [flush_downlink, List.isEmpty_iff, hnil, if_false]
    split
    · exact ⟨none, by simp [SocketCtx.flush, hnil], by simp [SocketCtx.taken]⟩
    · rename_i hsend
      have hmay : socket.may_send = true := by
        simp only [TcpSocket.can_send, Bool.not_eq_true', Bool.not_eq_false, Bool.and_eq_true] at hsend
        exact hsend.1
      obtain ⟨n, tx, htx, hle, hdata⟩ := TcpSocket.send_slice_appends hmay ctx.downlink_pending
      refine ⟨some n, ?_, ?_⟩
      · rw [htx]
        cases n with
        | zero => simp [SocketCtx.flush, hnil]
        | succ n => simp [SocketCtx.flush, hnil, Nat.min_eq_left hle]
      · rw [htx]
        cases n <;> exact hdata

/-! ## Payloads and flushes in any order -/

/-- What happens to the backlog of a slot that has an uplink: a remote payload
arrives and a flush is tried, or only a flush is tried. -/
inductive BacklogEvent where
  | payload (bytes : Bytes) (result : Option Nat) (tun_flush_ok : Bool)
  | flush (result : Option Nat)

namespace SocketCtx

/-- The bytes the socket takes, and the context afterwards. -/
def backlogStep (ctx : SocketCtx) : BacklogEvent → Bytes × SocketCtx
  | .payload bytes result ok =>
    let flushed := (ctx.received bytes).flush result
    ((ctx.received bytes).taken result,
      { flushed with state := .Relaying, downlink_diag := flushed.downlink_diag.note_tun_flush ok })
  | .flush result => (ctx.taken result, ctx.flush result)

def backlogRun (ctx : SocketCtx) : List BacklogEvent → Bytes × SocketCtx
  | [] => ([], ctx)
  | e :: es =>
    let (bytes, ctx) := ctx.backlogStep e
    let (rest, ctx) := ctx.backlogRun es
    (bytes ++ rest, ctx)

/-- The counters agree with the backlog. -/
def Balanced (ctx : SocketCtx) : Prop :=
  ctx.downlink_diag.remote_to_global_rx_bytes =
    ctx.downlink_diag.send_slice_accepted_bytes + UInt64.ofNat ctx.downlink_pending.length

end SocketCtx

/-- The payloads that arrive, in order. -/
def arrivals : List BacklogEvent → Bytes
  | [] => []
  | .payload bytes _ _ :: es => bytes ++ arrivals es
  | .flush _ :: es => arrivals es

namespace SocketCtx

theorem taken_append_flush (ctx : SocketCtx) (result : Option Nat) :
    ctx.taken result ++ (ctx.flush result).downlink_pending = ctx.downlink_pending := by
  unfold taken flush
  split
  · rename_i hnil
    simp [hnil]
  · cases result with
    | none => simp
    | some n => simp

theorem Balanced.flush {ctx : SocketCtx} (h : ctx.Balanced) (result : Option Nat) : (ctx.flush result).Balanced := by
  unfold SocketCtx.flush
  split
  · exact h
  · cases result with
    | none => exact h
    | some n =>
      have hsum : UInt64.ofNat ctx.downlink_pending.length =
          UInt64.ofNat (ctx.downlink_pending.take n).length + UInt64.ofNat (ctx.downlink_pending.drop n).length := by
        rw [← UInt64.ofNat_add, ← List.length_append, List.take_append_drop]
      simp only [Balanced, TcpDownlinkDiag.note_send_slice_ok, TcpDownlinkDiag.note_pending]
      rw [UInt64.add_assoc, ← hsum]
      exact h

theorem Balanced.received {ctx : SocketCtx} (h : ctx.Balanced) (bytes : Bytes) : (ctx.received bytes).Balanced := by
  simp only [Balanced, SocketCtx.received, TcpDownlinkDiag.note_remote_payload, TcpDownlinkDiag.note_pending,
    List.length_append, UInt64.ofNat_add]
  rw [← UInt64.add_assoc, ← h]

theorem backlogStep_spec (ctx : SocketCtx) (e : BacklogEvent) :
    (ctx.backlogStep e).1 ++ (ctx.backlogStep e).2.downlink_pending = ctx.downlink_pending ++ arrivals [e] ∧
      (ctx.Balanced → (ctx.backlogStep e).2.Balanced) := by
  cases e with
  | payload bytes result ok =>
    refine ⟨?_, fun hb => (hb.received bytes).flush result⟩
    rw [arrivals, arrivals, List.append_nil]
    exact taken_append_flush (ctx.received bytes) result
  | flush result =>
    refine ⟨?_, fun hb => hb.flush result⟩
    rw [arrivals, arrivals, List.append_nil]
    exact taken_append_flush ctx result

theorem backlogRun_spec (es : List BacklogEvent) (ctx : SocketCtx) :
    (ctx.backlogRun es).1 ++ (ctx.backlogRun es).2.downlink_pending = ctx.downlink_pending ++ arrivals es ∧
      (ctx.Balanced → (ctx.backlogRun es).2.Balanced) := by
  induction es generalizing ctx with
  | nil => exact ⟨by simp [backlogRun, arrivals], id⟩
  | cons e es ih =>
    obtain ⟨hstep, hbal⟩ := ctx.backlogStep_spec e
    obtain ⟨hrun, hbal'⟩ := ih (ctx.backlogStep e).2
    have harr : arrivals (e :: es) = arrivals [e] ++ arrivals es := by
      cases e <;> simp [arrivals]
    refine ⟨?_, fun hb => hbal' (hbal hb)⟩
    simp only [backlogRun, List.append_assoc, hrun]
    rw [← List.append_assoc, hstep, harr, List.append_assoc]

end SocketCtx

namespace Sys

/-! ## In every run -/

/-- The counters agree with the history. -/
structure Counted (ctx : SocketCtx) : Prop where
  received : ctx.downlink_diag.remote_to_global_rx_bytes = UInt64.ofNat ctx.hist.delivered.length
  accepted : ctx.downlink_diag.send_slice_accepted_bytes = UInt64.ofNat ctx.hist.accepted.length

theorem Counted.flush {ctx : SocketCtx} (h : Counted ctx) (result : Option Nat) : Counted (ctx.flush result) := by
  unfold SocketCtx.flush
  split
  · exact h
  · cases result with
    | none => exact ⟨h.received, h.accepted⟩
    | some n =>
      refine ⟨h.received, ?_⟩
      simp only [TcpDownlinkDiag.note_send_slice_ok, TcpDownlinkDiag.note_pending]
      rw [List.length_append, UInt64.ofNat_add, ← h.accepted]

theorem Counted.flush_downlink {ctx : SocketCtx} (h : Counted ctx) (socket : TcpSocket) :
    Counted (flush_downlink socket ctx).2 := by
  obtain ⟨result, he, -⟩ := flush_downlink_eq socket ctx
  exact he ▸ h.flush result

theorem Counted.received_payload {ctx : SocketCtx} (h : Counted ctx) (payload : Bytes) : Counted (ctx.received payload) := by
  refine ⟨?_, h.accepted⟩
  simp only [SocketCtx.received, TcpDownlinkDiag.note_remote_payload, TcpDownlinkDiag.note_pending]
  rw [List.length_append, UInt64.ofNat_add, ← h.received]

theorem Counted.move {socket socket' : TcpSocket} {ctx ctx' : SocketCtx} {l : Label} (hi : SlotInv socket ctx)
    (h : Counted ctx) (hm : Move socket ctx l socket' ctx') : Counted ctx' := by
  cases hm with
  | same | segment | dispatch => exact h
  | turn _ _ ht =>
    cases ht with
    | flush => exact h.flush_downlink socket
    | tunFlush | orphan | openFailed => exact ⟨h.received, h.accepted⟩
    | buffer payload rest endpoint =>
      obtain ⟨buffer, he⟩ := buffer_uplink_frame (ctx.noteExtracted payload (some endpoint)) payload
      rw [he]
      exact ⟨h.received, h.accepted⟩
  | receive payload tx socket' ctx' l _ hfl =>
    have hfl' : Counted ctx' := by
      have := (h.received_payload payload).flush_downlink socket
      rwa [hfl] at this
    exact ⟨hfl'.received, hfl'.accepted⟩
  | rearm => exact ⟨rfl, rfl⟩
  | relayed => exact ⟨h.received, h.accepted⟩
  | opened payload rest endpoint tx fake_ip => cases fake_ip <;> exact ⟨h.received, h.accepted⟩
  | spawned payload rest endpoint fake_ip _ hs hr =>
    rw [spawned_eq (hi.buffer hs) hr.length_le]
    cases fake_ip <;> exact ⟨h.received, h.accepted⟩
  | installed => exact ⟨h.received, h.accepted⟩

theorem Reachable.counted {pool_size : Nat} {s : Sys} (hr : Reachable pool_size s) {h : SocketHandle} {ctx : SocketCtx}
    (hget : s.socket_ctxs.get h = some ctx) : Counted ctx :=
  ReachableBy.slot_inv hr (fun _ => True) trivial (fun _ _ _ _ _ => trivial) (fun _ ctx => Counted ctx)
    (fun _ => ⟨rfl, rfl⟩) (fun _ _ _ _ _ _ hi hk hm => hk.move hi hm) hget

/-- The backlog of slot `h`: in order and complete, dirty, and counted. -/
structure BacklogKept (s : Sys) (h : SocketHandle) (ctx : SocketCtx) : Prop where
  order : ctx.hist.accepted ++ ctx.downlink_pending = ctx.hist.delivered
  dirty : ctx.downlink_pending ≠ [] → h ∈ s.dirty
  balanced : ctx.Balanced
  exact : ctx.hist.delivered.length < 2 ^ 64 → ctx.downlink_diag.remote_to_global_rx_bytes.toNat =
    ctx.downlink_diag.send_slice_accepted_bytes.toNat + ctx.downlink_pending.length

theorem Reachable.backlogKept {pool_size : Nat} {s : Sys} (hr : Reachable pool_size s) {h : SocketHandle} {ctx : SocketCtx}
    (hget : s.socket_ctxs.get h = some ctx) : BacklogKept s h ctx := by
  have hledger := (hr.slotsOk h ctx hget).ledger
  have hlen := congrArg List.length hledger
  rw [List.length_append] at hlen
  obtain ⟨hrec, hacc⟩ := hr.counted hget
  refine ⟨hledger, fun hp => hr.ready h ctx hget (.inr hp), ?_, fun hlt => ?_⟩
  · rw [SocketCtx.Balanced, hrec, hacc, ← UInt64.ofNat_add, hlen]
  · have hacc_lt : ctx.hist.accepted.length < 2 ^ 64 := by omega
    rw [hrec, hacc, UInt64.toNat_ofNat_of_lt' hlt, UInt64.toNat_ofNat_of_lt' hacc_lt, hlen]

/-- Whatever payloads arrive and whatever each flush takes, starting from an empty
backlog: the bytes the socket took followed by the backlog are the payloads in
order, and the counters balance. And in every state the loop can be in the same
holds for the current generation of every slot, and a slot with a backlog is
dirty. -/
theorem downlink_in_order :
    (∀ (es : List BacklogEvent) (ctx : SocketCtx), ctx.downlink_pending = [] → ctx.downlink_diag = {} →
      (ctx.backlogRun es).1 ++ (ctx.backlogRun es).2.downlink_pending = arrivals es ∧ (ctx.backlogRun es).2.Balanced) ∧
    ∀ pool_size s, Reachable pool_size s → ∀ h ctx, s.socket_ctxs.get h = some ctx → BacklogKept s h ctx := by
  refine ⟨fun es ctx hnil hdiag => ?_, fun _ s hr h ctx hget => hr.backlogKept hget⟩
  obtain ⟨horder, hbal⟩ := ctx.backlogRun_spec es
  rw [hnil, List.nil_append] at horder
  refine ⟨horder, hbal ?_⟩
  rw [SocketCtx.Balanced, hnil, hdiag]
  rfl

/-- The socket takes two bytes of three, then none, then the rest with a second
payload; and a client gets two bytes from its relay. -/
theorem downlink_in_order_backlog :
    ((SocketCtx.new 80).backlogRun [.payload [1, 2, 3] (some 2) true, .flush none, .payload [4] (some 9) true]).1 =
      [1, 2, 3, 4] ∧
    ((SocketCtx.new 80).backlogRun [.payload [1, 2, 3] (some 2) true, .flush none, .payload [4] (some 9) true]).2.Balanced ∧
    ∃ s ctx, Reachable 2 s ∧ s.socket_ctxs.get 0 = some ctx ∧ ctx.hist.delivered = [7, 8] ∧ BacklogKept s 0 ctx := by
  have hrun : (runEvents step (new 2) (connect ⟨true, true⟩ (ipv4 93 184 216 34) ++
      packet ⟨true, true⟩ [.data [1]] ++ [Event.relay 0 (.read [7, 8]), Event.relay 0 .sent, Event.remote [] true 60])).any (fun s =>
        (s.socket_ctxs.get 0).any fun ctx => decide (ctx.hist.delivered = [7, 8])) = true := by
    decide +kernel
  obtain ⟨s, hs, hp⟩ := exists_reach_of_any hrun
  obtain ⟨ctx, hget, hp⟩ := (Option.any_eq_true _ _).1 hp
  obtain ⟨hany, hreach⟩ := downlink_in_order
  obtain ⟨horder, hbal⟩ := hany [.payload [1, 2, 3] (some 2) true, .flush none, .payload [4] (some 9) true]
    (SocketCtx.new 80) rfl rfl
  exact ⟨(List.append_nil _).symm.trans horder, hbal, s, ctx, hs, hget, of_decide_eq_true hp, hreach 2 s hs 0 ctx hget⟩

end Sys

end MiniVpn
