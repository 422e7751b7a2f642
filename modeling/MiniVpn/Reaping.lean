import MiniVpn.Wiring
/-!
# Reaping

`reap_dead_slots` visits every registered slot and rearms the dead ones. It
takes a slot whose context still says `Listening` for a free one, whatever its
socket has been through since: a connection that ends before its first payload
is processed stays where it is.
-/
open Lib

namespace MiniVpn

/-- The connection of the socket is over, or half over from the client's side. -/
def TcpSocket.finished (s : TcpSocket) : Bool := s.state == .Closed || s.state == .TimeWait || s.state == .CloseWait

namespace Sys

/-! ## What the reaper does to a slot -/

/-- The slot after the reaper saw it. -/
def reaped (x : TcpSocket × SocketCtx) : TcpSocket × SocketCtx :=
  if is_dead x.1 x.2 then (.listening x.2.local_port, x.2.rearmed) else x

/-- A second visit changes nothing. -/
theorem reaped_reaped (x : TcpSocket × SocketCtx) : reaped (reaped x) = reaped x := by
  have hfresh : is_dead (.listening x.2.local_port) x.2.rearmed = false := rfl
  by_cases hd : is_dead x.1 x.2 = true
  · simp [reaped, hd, hfresh]
  · simp [reaped, hd]

theorem reap_slot_spec {s : Sys} (hok : SlotsOk s) (now : Nat) (h : SocketHandle) :
    ∃ s', reap_slot now s h = some s' ∧ s'.registry = s.registry ∧ SlotsOk s' ∧
      ∀ x, s'.slot x = if x = h then (s.slot x).map reaped else s.slot x := by
  cases hget : s.socket_ctxs.get h with
  | none =>
    refine ⟨s, by simp only [reap_slot, hget], rfl, hok, fun x => ?_⟩
    split
    · subst_vars
      simp [slot, hget]
    · rfl
  | some ctx =>
    have hslot : s.slot h = some (s.sockets.get h, ctx) := slot_eq_some.2 ⟨hget, rfl⟩
    by_cases hd : is_dead (s.sockets.get h) ctx = true
    · have hport := (hok h ctx hget).port
      refine ⟨s.rearmed h ctx now, by simp [reap_slot, hget, hd, rearm_eq, hport], rfl,
        slotsOk_effect (.rearm h ctx now hget hport) hok, fun x => ?_⟩
      have hput : (s.rearmed h ctx now).slot x = (s.put h (.listening ctx.local_port) ctx.rearmed).slot x := rfl
      rw [hput, slot_put]
      split
      · subst_vars
        simp [hslot, reaped, hd]
      · rfl
    · refine ⟨s, by simp [reap_slot, hget, hd], rfl, hok, fun x => ?_⟩
      split
      · subst_vars
        simp [hslot, reaped, hd]
      · rfl

/-- The loop never panics and visits every slot of the list. -/
theorem reap_slots_spec (now : Nat) (hs : List SocketHandle) {s : Sys} (hok : SlotsOk s) :
    ∃ s', hs.foldlM (reap_slot now) s = some s' ∧ s'.registry = s.registry ∧
      ∀ x, s'.slot x = if x ∈ hs then (s.slot x).map reaped else s.slot x := by
  induction hs generalizing s with
  | nil => exact ⟨s, rfl, rfl, fun x => by simp⟩
  | cons h hs ih =>
    obtain ⟨s₁, h1, hreg, hok₁, hslot⟩ := reap_slot_spec hok now h
    obtain ⟨s₂, h2, hreg₂, hslot₂⟩ := ih hok₁
    refine ⟨s₂, by rw [List.foldlM_cons, h1]; exact h2, hreg₂.trans hreg, fun x => ?_⟩
    rw [hslot₂, hslot]
    by_cases hx : x = h <;> by_cases hm : x ∈ hs <;> simp [hx, hm, Function.comp_def, reaped_reaped]

/-- A slot with a finished socket is dead exactly when its context has left
`Listening`. -/
theorem is_dead_of_finished {socket : TcpSocket} (h : socket.finished = true) (ctx : SocketCtx) :
    is_dead socket ctx = true ↔ ctx.state ≠ .Listening := by
  have hend : (!socket.is_active || socket.state == .CloseWait) = true := by
    simp only [TcpSocket.finished, Bool.or_eq_true, beq_iff_eq] at h
    rcases h with (h | h) | h <;> simp [TcpSocket.is_active, h]
  simp only [is_dead, hend, Bool.true_or, Bool.and_true, bne_iff_ne]

/-! ## Completeness -/

/-- No registered socket is finished after the sweep, and those that were before
have been rearmed. -/
def ReapComplete (s s' : Sys) : Prop :=
  ∀ h ∈ s'.registry.all_handles,
    (s'.sockets.get h).finished = false ∧ ((s.sockets.get h).finished = true → RearmedIn s s' h)

/-- The sweep returns, and it is complete exactly when no finished socket belongs
to a context that still says `Listening`. -/
theorem reap_complete_iff {pool_size : Nat} {s : Sys} (hr : Reachable pool_size s) (now : Nat) :
    ∃ s', s.reap_dead_slots now = some s' ∧ s'.registry = s.registry ∧
      (ReapComplete s s' ↔ ∀ h ∈ s.registry.all_handles, ∀ ctx, s.socket_ctxs.get h = some ctx →
        (s.sockets.get h).finished = true → ctx.state ≠ .Listening) := by
  obtain ⟨s', hs', hreg, hslot⟩ := reap_slots_spec now s.registry.all_handles hr.slotsOk
  -- What the sweep leaves at a registered handle.
  have hat {h : SocketHandle} {ctx : SocketCtx} (hin : h ∈ s.registry.all_handles)
      (hget : s.socket_ctxs.get h = some ctx) : s'.slot h = some (reaped (s.sockets.get h, ctx)) := by
    rw [hslot, if_pos hin, slot_eq_some.2 ⟨hget, rfl⟩]
    rfl
  refine ⟨s', hs', hreg, ?_⟩
  rw [ReapComplete, hreg]
  constructor
  · intro hc h hin ctx hget hfin hlisten
    -- The slot is not dead, so the sweep left its socket as it was.
    have hdead : is_dead (s.sockets.get h) ctx = false := by
      rw [← Bool.not_eq_true, is_dead_of_finished hfin]
      exact fun hne => hne hlisten
    have hkept := hat hin hget
    simp only [reaped, hdead, Bool.false_eq_true, if_false] at hkept
    have hnot := (hc h hin).1
    rw [(slot_eq_some.1 hkept).2, hfin] at hnot
    cases hnot
  · intro hc h hin
    obtain ⟨ctx, hget⟩ := hr.wired.registered.1 hin
    by_cases hfin : (s.sockets.get h).finished = true
    · have hdead := (is_dead_of_finished hfin ctx).2 (hc h hin ctx hget hfin)
      have hnew := hat hin hget
      simp only [reaped, hdead, if_true] at hnew
      refine ⟨?_, fun _ => ⟨ctx, hget, hnew⟩⟩
      rw [(slot_eq_some.1 hnew).2]
      rfl
    · have hnew := hat hin hget
      refine ⟨?_, fun hf => absurd hf hfin⟩
      by_cases hdead : is_dead (s.sockets.get h) ctx = true
      · simp only [reaped, hdead, if_true] at hnew
        rw [(slot_eq_some.1 hnew).2]
        rfl
      · simp only [reaped, hdead, Bool.false_eq_true, if_false] at hnew
        rw [(slot_eq_some.1 hnew).2]
        simpa using hfin

/-- A client closes after its payload was relayed: the sweep is complete, and it
had something to do. -/
theorem reap_complete_relaying : ∃ s, Reachable 2 s ∧ (s.sockets.get 0).finished = true ∧
    ∃ s', s.reap_dead_slots 60 = some s' ∧ s'.registry = s.registry ∧
      (ReapComplete s s' ↔ ∀ h ∈ s.registry.all_handles, ∀ ctx, s.socket_ctxs.get h = some ctx →
        (s.sockets.get h).finished = true → ctx.state ≠ .Listening) := by
  have hrun : (runEvents step (new 2) (connect ⟨true, true⟩ (ipv4 93 184 216 34) ++
      packet ⟨true, true⟩ [.data [1]] ++ packet ⟨true, true⟩ [.fin])).any
        (fun s => (s.sockets.get 0).finished) = true := by
    decide +kernel
  obtain ⟨s, hs, hfin⟩ := exists_reach_of_any hrun
  exact ⟨s, hs, hfin, reap_complete_iff hs 60⟩

/-- A client connects and closes without sending a byte: its slot is registered,
its socket is in CLOSE-WAIT, and the sweep leaves it there. -/
theorem silent_client_not_reaped : ∃ s s', Reachable 2 s ∧ s.step (.udp_sweep 60) = some s' ∧
    0 ∈ s'.registry.all_handles ∧ (s.sockets.get 0).state = .CloseWait ∧ (s'.sockets.get 0).state = .CloseWait := by
  have hrun : (runEvents step (new 2) (connect ⟨true, true⟩ (ipv4 93 184 216 34) ++ packet ⟨true, true⟩ [.fin])).any
      (fun s => (s.step (.udp_sweep 60)).any fun s' => decide (0 ∈ s'.registry.all_handles ∧
        (s.sockets.get 0).state = .CloseWait ∧ (s'.sockets.get 0).state = .CloseWait)) = true := by
    decide +kernel
  obtain ⟨s, hs, hp⟩ := exists_reach_of_any hrun
  obtain ⟨s', hs', hp⟩ := (Option.any_eq_true _ _).1 hp
  exact ⟨s, s', hs, hs', of_decide_eq_true hp⟩

end Sys

end MiniVpn
