import Mathlib.Data.Multiset.MapFold
import Mathlib.Data.Multiset.AddSub
import Mathlib.Data.Multiset.UnionInter
/-!
# Results guarded by an epoch counter

A slot makes requests whose results come back later, in any order. It counts an
epoch up with every request and every reset, gives each request a ticket with the
epoch, and takes a result only while it waits and the ticket has the current
epoch. Epochs are compared modulo `N`, as a counter with `N` values does; while
fewer than `N` are used, the comparison is exact and `Inv` is kept.
-/

namespace Lib

/-- What a request carries: the epoch and the number of resets when it was made. -/
structure Ticket where
  epoch : Nat
  gen : Nat

structure EpochGuard where
  epoch : Nat
  /-- Resets so far. -/
  gen : Nat
  /-- The slot waits for a result. -/
  pending : Prop
  /-- Requests whose result has not come back. -/
  out : Multiset Ticket
  /-- Results that were taken, each with the number of resets at that time. -/
  taken : Multiset (Ticket × Nat)

namespace EpochGuard

/-- A result with this ticket is taken. -/
def Awaits (N : Nat) (g : EpochGuard) (tk : Ticket) : Prop := tk.epoch % N = g.epoch % N ∧ g.pending

inductive Step (N : Nat) (g : EpochGuard) : EpochGuard → Prop
  | keep : Step N g g
  | reset : Step N g { g with epoch := g.epoch + 1, gen := g.gen + 1, pending := False }
  | request : ¬ g.pending →
      Step N g { g with epoch := g.epoch + 1, pending := True, out := ⟨g.epoch + 1, g.gen⟩ ::ₘ g.out }
  | stale (tk : Ticket) (out : Multiset Ticket) : g.out = tk ::ₘ out → ¬ g.Awaits N tk →
      Step N g { g with out := out }
  | take (tk : Ticket) (out : Multiset Ticket) : g.out = tk ::ₘ out → g.Awaits N tk →
      Step N g { g with pending := False, out := out, taken := (tk, g.gen) ::ₘ g.taken }
  /-- The result is a failure, which resets the slot. -/
  | fail (tk : Ticket) (out : Multiset Ticket) : g.out = tk ::ₘ out → g.Awaits N tk →
      Step N g { g with epoch := g.epoch + 1, gen := g.gen + 1, pending := False, out := out }

/-- The epochs of all requests that are on their way or were taken. -/
def epochs (g : EpochGuard) : Multiset Nat := g.out.map (·.epoch) + g.taken.map (·.1.epoch)

structure Inv (g : EpochGuard) : Prop where
  bound : ∀ e ∈ g.epochs, e ≤ g.epoch
  nodup : g.epochs.Nodup
  fresh : ∀ tk ∈ g.out, tk.epoch = g.epoch → tk.gen = g.gen
  current : ∀ x ∈ g.taken, x.1.gen = x.2
  awaited : g.pending ↔ ∃ tk ∈ g.out, tk.epoch = g.epoch

variable {N : Nat} {g g' : EpochGuard}

theorem Inv.le (h : g.Inv) {tk : Ticket} (htk : tk ∈ g.out) : tk.epoch ≤ g.epoch :=
  h.bound _ (Multiset.mem_add.2 (.inl (Multiset.mem_map_of_mem _ htk)))

/-- No ticket has the next epoch. -/
theorem Inv.next_free (h : g.Inv) : g.epoch + 1 ∉ g.epochs := fun hin => by
  have := h.bound _ hin
  omega

/-- Removing a ticket leaves fewer epochs. -/
theorem epochs_out {tk : Ticket} {out : Multiset Ticket} (hout : g.out = tk ::ₘ out) :
    g.epochs = tk.epoch ::ₘ { g with out := out }.epochs := by
  simp [epochs, hout]

/-- A ticket is the only one with its epoch. -/
theorem Inv.unique (h : g.Inv) {tk : Ticket} {out : Multiset Ticket} (hout : g.out = tk ::ₘ out) :
    ∀ tk' ∈ out, tk'.epoch ≠ tk.epoch := by
  intro tk' htk' he
  have hn := h.nodup
  rw [epochs_out hout] at hn
  refine (Multiset.nodup_cons.1 hn).1 (Multiset.mem_add.2 (.inl ?_))
  exact he ▸ Multiset.mem_map_of_mem _ htk'

/-- After a reset no ticket has the current epoch, whichever are still out. -/
theorem Inv.reset (h : g.Inv) {out : Multiset Ticket} (hle : out ≤ g.out) :
    Inv { g with epoch := g.epoch + 1, gen := g.gen + 1, pending := False, out := out } := by
  have hsub : Multiset.map (·.epoch) out + g.taken.map (·.1.epoch) ≤ g.epochs :=
    Multiset.add_le_add_right (Multiset.map_le_map hle)
  have hold : ∀ tk ∈ out, tk.epoch ≠ g.epoch + 1 := fun tk htk => by
    have := h.le (Multiset.mem_of_le hle htk)
    omega
  exact { bound := fun e he => Nat.le_succ_of_le (h.bound e (Multiset.mem_of_le hsub he))
          nodup := Multiset.nodup_of_le hsub h.nodup
          fresh := fun tk htk he => absurd he (hold tk htk)
          current := h.current
          awaited := by
            refine ⟨False.elim, ?_⟩
            rintro ⟨tk, htk, he⟩
            exact hold tk htk he }

theorem Inv.request (h : g.Inv) :
    Inv { g with epoch := g.epoch + 1, pending := True, out := ⟨g.epoch + 1, g.gen⟩ ::ₘ g.out } where
  bound e he := by
    rw [epochs_out rfl, Multiset.mem_cons] at he
    rcases he with rfl | he
    · exact le_rfl
    · exact Nat.le_succ_of_le (h.bound e he)
  nodup := by
    rw [epochs_out rfl, Multiset.nodup_cons]
    exact ⟨h.next_free, h.nodup⟩
  fresh tk htk he := by
    rcases Multiset.mem_cons.1 htk with rfl | htk
    · rfl
    · have := h.le htk
      simp only at he
      omega
  current := h.current
  awaited := ⟨fun _ => ⟨_, Multiset.mem_cons_self _ _, rfl⟩, fun _ => trivial⟩

theorem Inv.stale (h : g.Inv) {tk : Ticket} {out : Multiset Ticket} (hout : g.out = tk ::ₘ out)
    (hst : tk.epoch ≠ g.epoch ∨ ¬ g.pending) : Inv { g with out := out } where
  bound e he := h.bound e (epochs_out hout ▸ Multiset.mem_cons_of_mem he)
  nodup := (Multiset.nodup_cons.1 (epochs_out hout ▸ h.nodup)).2
  fresh tk' htk' := h.fresh tk' (hout ▸ Multiset.mem_cons_of_mem htk')
  current := h.current
  awaited := by
    -- A stale ticket is not the one that is waited for.
    have hne : g.pending → tk.epoch ≠ g.epoch := fun hp => hst.resolve_right (not_not_intro hp)
    constructor
    · intro hp
      obtain ⟨tk', htk', he⟩ := h.awaited.1 hp
      rw [hout, Multiset.mem_cons] at htk'
      rcases htk' with rfl | htk'
      · exact absurd he (hne hp)
      · exact ⟨tk', htk', he⟩
    · rintro ⟨tk', htk', he⟩
      exact h.awaited.2 ⟨tk', hout ▸ Multiset.mem_cons_of_mem htk', he⟩

theorem Inv.take (h : g.Inv) {tk : Ticket} {out : Multiset Ticket} (hout : g.out = tk ::ₘ out)
    (he : tk.epoch = g.epoch) : Inv { g with pending := False, out := out, taken := (tk, g.gen) ::ₘ g.taken } where
  bound e hin := by
    refine h.bound e ?_
    simp only [epochs, hout, Multiset.map_cons, Multiset.add_cons, Multiset.cons_add] at hin ⊢
    exact hin
  nodup := by
    have hn := h.nodup
    simp only [epochs, hout, Multiset.map_cons, Multiset.add_cons, Multiset.cons_add] at hn ⊢
    exact hn
  fresh tk' htk' := h.fresh tk' (hout ▸ Multiset.mem_cons_of_mem htk')
  current x hx := by
    rcases Multiset.mem_cons.1 hx with rfl | hx
    · exact h.fresh tk (hout ▸ Multiset.mem_cons_self tk out) he
    · exact h.current x hx
  awaited := by
    refine ⟨False.elim, ?_⟩
    rintro ⟨tk', htk', he'⟩
    exact h.unique hout tk' htk' (he'.trans he.symm)

theorem Step.epoch_le (h : Step N g g') : g.epoch ≤ g'.epoch := by
  cases h with
  | keep | stale | take => exact le_rfl
  | reset | request | fail => exact Nat.le_succ _

theorem Inv.step (h : g.Inv) (hN : g.epoch < N) (hs : Step N g g') : g'.Inv := by
  cases hs with
  | keep => exact h
  | reset => exact h.reset le_rfl
  | request => exact h.request
  | stale tk out hout hst =>
    refine h.stale hout ?_
    by_contra hcur
    simp only [not_or, ne_eq, not_not] at hcur
    exact hst ⟨by rw [hcur.1], hcur.2⟩
  | take tk out hout ha =>
    have hle := h.le (hout ▸ Multiset.mem_cons_self tk out)
    refine h.take hout ?_
    rw [← Nat.mod_eq_of_lt hN, ← ha.1, Nat.mod_eq_of_lt (hle.trans_lt hN)]
  | fail tk out hout => exact h.reset (hout ▸ Multiset.le_cons_self out tk)

/-- A guard that has made no request. -/
theorem inv_of_unused (hp : ¬ g.pending) (hout : g.out = 0) (htaken : g.taken = 0) : g.Inv := by
  constructor <;> simp [epochs, hout, htaken, hp]

/-- What holds for any number of epochs: no ticket is from later, and a slot that
waits has asked. -/
structure Sent (g : EpochGuard) : Prop where
  le : ∀ tk ∈ g.out, tk.epoch ≤ g.epoch
  awaited : g.pending → ∃ tk ∈ g.out, tk.epoch = g.epoch

theorem sent_of_unused (hp : ¬ g.pending) (hout : g.out = 0) : g.Sent := by
  constructor <;> simp [hout, hp]

theorem Sent.step (h : g.Sent) (hs : Step N g g') : g'.Sent := by
  have hremoved {tk : Ticket} {out : Multiset Ticket} (hout : g.out = tk ::ₘ out) : ∀ tk' ∈ out, tk'.epoch ≤ g.epoch :=
    fun tk' htk' => h.le tk' (hout ▸ Multiset.mem_cons_of_mem htk')
  cases hs with
  | keep => exact h
  | reset => exact ⟨fun tk htk => Nat.le_succ_of_le (h.le tk htk), False.elim⟩
  | request =>
    refine ⟨fun tk htk => ?_, fun _ => ⟨_, Multiset.mem_cons_self _ _, rfl⟩⟩
    rcases Multiset.mem_cons.1 htk with rfl | htk
    · exact le_rfl
    · exact Nat.le_succ_of_le (h.le tk htk)
  | stale tk out hout hst =>
    refine ⟨hremoved hout, fun hp => ?_⟩
    obtain ⟨tk', htk', he⟩ := h.awaited hp
    rw [hout, Multiset.mem_cons] at htk'
    rcases htk' with rfl | htk'
    · exact absurd ⟨by rw [he], hp⟩ hst
    · exact ⟨tk', htk', he⟩
  | take tk out hout => exact ⟨hremoved hout, False.elim⟩
  | fail tk out hout => exact ⟨fun tk' htk' => Nat.le_succ_of_le (hremoved hout tk' htk'), False.elim⟩

/-- Exactly one request is on its way with the current epoch while the slot waits. -/
theorem Inv.pending_iff_count (h : g.Inv) : g.pending ↔ (g.out.map (·.epoch)).count g.epoch = 1 := by
  have hn : (g.out.map (·.epoch)).Nodup := Multiset.nodup_of_le (Multiset.le_add_right _ _) h.nodup
  rw [h.awaited, ← Multiset.mem_map]
  refine ⟨fun hin => Multiset.count_eq_one_of_mem hn hin, fun hc => ?_⟩
  exact Multiset.one_le_count_iff_mem.1 hc.ge

/-- No request is taken twice. -/
theorem Inv.taken_once (h : g.Inv) (e : Nat) : (g.taken.map (·.1.epoch)).count e ≤ 1 :=
  Multiset.nodup_iff_count_le_one.1 (Multiset.nodup_of_le (Multiset.le_add_left _ _) h.nodup) e

end EpochGuard

end Lib
