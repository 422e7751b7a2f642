import Mathlib.Data.Finset.Card
import Mathlib.Data.Nat.ModEq
import MiniVpn.Lib.Runs
/-!
# Identifiers handed out round a ring

An allocator hands out identifiers from a ring of `n`: a cursor moves on from the
last one handed out and skips those in use. Positions are counted on from the
start without wrapping, `ids` gives the identifier at a position. An identifier
comes up again only when the cursor has been once round the ring, so that all
the others were handed out in between or in use from the start
(`others_between`).
-/

namespace Lib

variable {α : Type}

/-- `ids` goes round a ring of `n` identifiers. -/
structure IsRing (ids : Nat → α) (n : Nat) : Prop where
  pos : 0 < n
  eq_iff : ∀ i j, ids i = ids j ↔ i % n = j % n

/-- One step with the cursor at position `k`: nothing is handed out and nothing
new is in use, or the cursor skips some in use and hands out the next. -/
inductive Advance (ids : Nat → α) (live live' : α → Prop) (k : Nat) : Option α → Nat → Prop
  | keep : (∀ a, live' a → live a) → Advance ids live live' k none k
  | take (j : Nat) : (∀ i < j, live (ids (k + i))) → (∀ a, live' a → a = ids (k + j) ∨ live a) →
      Advance ids live live' k (some (ids (k + j))) (k + j + 1)

theorem Advance.some_inv {ids : Nat → α} {live live' : α → Prop} {k k' : Nat} {a : α}
    (h : Advance ids live live' k (some a) k') : ∃ j, a = ids (k + j) ∧ k' = k + j + 1 ∧ ∀ i < j, live (ids (k + i)) := by
  cases h with
  | take j hskip _ => exact ⟨j, rfl, rfl, hskip⟩

/-- From `start` the cursor has passed `d` positions; `taken` were handed out
since, and `old` were in use then. -/
structure Passed (ids : Nat → α) (start : Nat) (old : α → Prop) (taken : List α) (d : Nat) (live : α → Prop) : Prop where
  passed : ∀ i < d, ids (start + i) ∈ taken ∨ old (ids (start + i))
  live : ∀ a, live a → a ∈ taken ∨ old a

section
variable {ids : Nat → α} {n start d : Nat} {old live live' : α → Prop} {taken : List α}

theorem Passed.refl (ids : Nat → α) (start : Nat) (live : α → Prop) : Passed ids start live [] 0 live where
  passed i hi := absurd hi (Nat.not_lt_zero i)
  live _ h := .inr h

/-- What the cursor skips was in use, so that it was handed out since or in use
from the start. -/
theorem Passed.skip (h : Passed ids start old taken d live) {j : Nat} (hskip : ∀ i < j, live (ids (start + d + i))) :
    ∀ i < d + j, ids (start + i) ∈ taken ∨ old (ids (start + i)) := by
  intro i hi
  by_cases hd : i < d
  · exact h.passed i hd
  · have hlive := hskip (i - d) (by omega)
    rw [show start + d + (i - d) = start + i by omega] at hlive
    exact h.live _ hlive

theorem Passed.advance (h : Passed ids start old taken d live) {out : Option α} {k : Nat}
    (ha : Advance ids live live' (start + d) out k) :
    ∃ d', k = start + d' ∧ Passed ids start old (taken ++ out.toList) d' live' := by
  cases ha with
  | keep hlive =>
    refine ⟨d, rfl, ?_⟩
    rw [Option.toList_none, List.append_nil]
    exact ⟨h.passed, fun a ha => h.live a (hlive a ha)⟩
  | take j hskip hlive =>
    refine ⟨d + j + 1, by omega, fun i hi => ?_, fun a ha => ?_⟩
    · rcases Nat.lt_succ_iff_lt_or_eq.1 hi with hi | rfl
      · exact (h.skip hskip i hi).imp_left (List.mem_append_left _)
      · refine .inl (List.mem_append_right _ ?_)
        simp [Nat.add_assoc]
    · rcases hlive a ha with rfl | ha
      · exact .inl (List.mem_append_right _ (by simp))
      · exact (h.live a ha).imp_left (List.mem_append_left _)

/-- After one turn without `a`, which was in use from the start with `m` in all,
at least `n - m` others were handed out. -/
theorem IsRing.turn [DecidableEq α] (hring : IsRing ids n) {m : Nat} {a : α} (ha : a = ids (start + n - 1))
    (hpassed : ∀ i < n - 1, ids (start + i) ∈ taken ∨ old (ids (start + i))) (hold : old a)
    (hm : ∀ l : List α, l.Nodup → (∀ b ∈ l, old b) → l.length ≤ m) : n - m ≤ (taken.toFinset.erase a).card := by
  have hpos := hring.pos
  have hinj : ∀ i < n, ∀ j < n, ids (start + i) = ids (start + j) → i = j := by
    intro i hi j hj heq
    have hmod : (start + i) ≡ (start + j) [MOD n] := (hring.eq_iff _ _).1 heq
    have := Nat.ModEq.add_left_cancel' start hmod
    rwa [Nat.ModEq, Nat.mod_eq_of_lt hi, Nat.mod_eq_of_lt hj] at this
  have hlast : a = ids (start + (n - 1)) := by rw [ha, Nat.add_sub_assoc hpos]
  -- The other identifiers, split into those handed out since and the rest.
  obtain ⟨others, hothers⟩ : ∃ others, others = (List.range (n - 1)).map fun i => ids (start + i) := ⟨_, rfl⟩
  have hnodup : others.Nodup := by
    rw [hothers]
    refine List.nodup_range.map_on fun i hi j hj heq => ?_
    rw [List.mem_range] at hi hj
    exact hinj i (by omega) j (by omega) heq
  have hne : ∀ b ∈ others, b ≠ a := by
    rintro b hb rfl
    rw [hothers] at hb
    obtain ⟨i, hi, heq⟩ := List.mem_map.1 hb
    rw [List.mem_range] at hi
    have := hinj i (by omega) (n - 1) (by omega) (heq.trans hlast)
    omega
  have hrest : (a :: others.filter (· ∉ taken)).length ≤ m := by
    refine hm _ (List.nodup_cons.2 ⟨fun h => hne a (List.mem_filter.1 h).1 rfl, hnodup.filter _⟩) fun b hb => ?_
    rcases List.mem_cons.1 hb with rfl | hb
    · exact hold
    · obtain ⟨hb, hnot⟩ := List.mem_filter.1 hb
      rw [hothers] at hb
      obtain ⟨i, hi, rfl⟩ := List.mem_map.1 hb
      exact (hpassed i (List.mem_range.1 hi)).resolve_left (of_decide_eq_true hnot)
  have htaken : (others.filter (· ∈ taken)).length ≤ (taken.toFinset.erase a).card := by
    rw [← List.toFinset_card_of_nodup (hnodup.filter _)]
    refine Finset.card_le_card fun b hb => ?_
    obtain ⟨hb, hin⟩ := List.mem_filter.1 (List.mem_toFinset.1 hb)
    exact Finset.mem_erase.2 ⟨hne b hb, List.mem_toFinset.2 (of_decide_eq_true hin)⟩
  have hsplit := List.length_eq_length_filter_add (l := others) fun b => decide (b ∈ taken)
  have hlen : others.length = n - 1 := by rw [hothers, List.length_map, List.length_range]
  simp only [List.length_cons] at hrest
  simp only [← decide_not] at hsplit
  omega

end

section
variable {σ ε : Type} {next : σ → ε → Option σ} (ids : Nat → α) (cursor : σ → α) (live : σ → α → Prop)
  (out : Taken σ ε → Option α)

/-- A step of a system that hands out identifiers round the ring. -/
def Taken.Advances (t : Taken σ ε) : Prop :=
  ∀ k, cursor t.pre = ids k → ∃ k', Advance ids (live t.pre) (live t.post) k (out t) k' ∧ cursor t.post = ids k'

variable {ids cursor live out}

/-- A step that hands out nothing and makes nothing live. -/
theorem Taken.Advances.keep {t : Taken σ ε} (hcursor : cursor t.post = cursor t.pre)
    (hlive : ∀ a, live t.post a → live t.pre a) (hout : out t = none) : t.Advances ids cursor live out := by
  intro k hk
  rw [hout]
  exact ⟨k, .keep hlive, hcursor.trans hk⟩

theorem Run.passed {s s' : σ} {tr : List (Taken σ ε)} (h : Run s next tr s') {start : Nat} (hs : cursor s = ids start)
    (hadv : ∀ t ∈ tr, t.Advances ids cursor live out) :
    ∃ d, cursor s' = ids (start + d) ∧ Passed ids start (live s) (tr.filterMap out) d (live s') := by
  induction h with
  | nil => exact ⟨0, hs, .refl ids start (live s)⟩
  | @snoc tr s₁ s' e _ _ ih =>
    obtain ⟨d, hcur, hp⟩ := ih fun t ht => hadv t (List.mem_append_left _ ht)
    obtain ⟨k', ha, hcur'⟩ := hadv ⟨s₁, e, s'⟩ (by simp) _ hcur
    obtain ⟨d', rfl, hp'⟩ := hp.advance ha
    refine ⟨d', hcur', ?_⟩
    rw [List.filterMap_append]
    cases ho : out ⟨s₁, e, s'⟩ <;> simpa [ho] using hp'

/-- Between two steps that hand out the same identifier, with `m` in use right
after the first, at least `n - m` others are handed out. -/
theorem others_between [DecidableEq α] {n m k : Nat} (hring : IsRing ids n) {t₁ t₂ : Taken σ ε} {tr : List (Taken σ ε)} {a : α}
    (h : Run t₁.post next tr t₂.pre) (hk : cursor t₁.pre = ids k)
    (hadv : ∀ t ∈ t₁ :: (tr ++ [t₂]), t.Advances ids cursor live out) (h₁ : out t₁ = some a) (h₂ : out t₂ = some a)
    (ha : live t₁.post a) (hm : ∀ l : List α, l.Nodup → (∀ b ∈ l, live t₁.post b) → l.length ≤ m) :
    n - m ≤ ((tr.filterMap out).toFinset.erase a).card := by
  obtain ⟨start, hfirst, hcur⟩ := hadv t₁ (by simp) k hk
  rw [h₁] at hfirst
  obtain ⟨d, hcur', hp⟩ := h.passed hcur fun t ht => hadv t (by simp [ht])
  obtain ⟨k', hlast, -⟩ := hadv t₂ (by simp) _ hcur'
  rw [h₂] at hlast
  obtain ⟨j₁, rfl, rfl, -⟩ := hfirst.some_inv
  obtain ⟨j₂, heq, -, hskip⟩ := hlast.some_inv
  -- The cursor is back at the same identifier, so it has been round at least once.
  have hmod : 0 + (k + j₁) ≡ d + j₂ + 1 + (k + j₁) [MOD n] := by
    rw [Nat.zero_add, show d + j₂ + 1 + (k + j₁) = k + j₁ + 1 + d + j₂ by omega]
    exact (hring.eq_iff _ _).1 heq
  have hturn : n ≤ d + j₂ + 1 := Nat.le_of_dvd (by omega) ((Nat.modEq_zero_iff_dvd).1 (Nat.ModEq.add_right_cancel' _ hmod).symm)
  have hback : ids (k + j₁) = ids (k + j₁ + 1 + n - 1) :=
    (hring.eq_iff _ _).2 (by rw [show k + j₁ + 1 + n - 1 = k + j₁ + n by omega, Nat.add_mod_right])
  exact hring.turn hback (fun i hi => hp.skip hskip i (by omega)) ha hm

end

end Lib
