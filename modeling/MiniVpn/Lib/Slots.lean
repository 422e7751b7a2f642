import Mathlib.Data.List.Basic
import Mathlib.Data.List.Induction
/-!
# Slots filled by a log of writes

A log is a list of writes `(i, a)`, oldest first; `latest log i` is what was
written to slot `i` last. `Mirrors slots log` says that a list of optional
values is the outcome of the writes of the log.
-/

namespace Lib

variable {α : Type}

/-- The value written to `i` last. -/
def latest (log : List (Nat × α)) (i : Nat) : Option α := log.reverse.lookup i

theorem latest_snoc (log : List (Nat × α)) (i j : Nat) (a : α) :
    latest (log ++ [(i, a)]) j = if j = i then some a else latest log j := by
  rw [latest, List.reverse_append, List.reverse_singleton, List.singleton_append, List.lookup_cons]
  by_cases h : j = i
  · simp [h]
  · rw [beq_eq_false_iff_ne.2 h, if_neg h, latest]

theorem exists_latest_iff {log : List (Nat × α)} {i : Nat} : (∃ a, latest log i = some a) ↔ ∃ a, (i, a) ∈ log := by
  induction log using List.reverseRecOn with
  | nil => simp [latest]
  | append_singleton log x ih =>
    obtain ⟨j, a⟩ := x
    rw [latest_snoc]
    split
    · rename_i h
      subst h
      exact ⟨fun _ => ⟨a, by simp⟩, fun _ => ⟨a, rfl⟩⟩
    · rename_i h
      rw [ih]
      simp [h]

theorem mem_of_latest {log : List (Nat × α)} {i : Nat} {a : α} (h : latest log i = some a) : (i, a) ∈ log := by
  induction log using List.reverseRecOn with
  | nil => simp [latest] at h
  | append_singleton log x ih =>
    obtain ⟨j, b⟩ := x
    rw [latest_snoc] at h
    split at h
    · rename_i hij
      obtain rfl := Option.some.inj h
      simp [hij]
    · exact List.mem_append_left _ (ih h)

/-- Every slot holds what was written to it last. -/
def Mirrors (slots : List (Option α)) (log : List (Nat × α)) : Prop :=
  ∀ i < slots.length, slots[i]? = some (latest log i)

namespace Mirrors
variable {slots : List (Option α)} {log : List (Nat × α)}

theorem replicate (n : Nat) : Mirrors (List.replicate n none) ([] : List (Nat × α)) := by
  intro i hi
  rw [List.length_replicate] at hi
  simp [latest, hi]

theorem set (h : Mirrors slots log) (i : Nat) (a : α) : Mirrors (slots.set i (some a)) (log ++ [(i, a)]) := by
  intro j hj
  rw [List.length_set] at hj
  rw [latest_snoc, List.getElem?_set]
  by_cases hij : j = i
  · subst hij
    simp [hj]
  · rw [if_neg (Ne.symm hij), if_neg hij]
    exact h j hj

theorem eq_map (h : Mirrors slots log) : slots = (List.range slots.length).map (latest log) := by
  refine List.ext_getElem? fun i => ?_
  by_cases hi : i < slots.length
  · rw [h i hi]
    simp [hi]
  · simp [hi]

/-- All slots are filled exactly when every one of them was written to. -/
theorem eq_map_some_iff (h : Mirrors slots log) (parts : List α) :
    slots = parts.map some ↔ (∀ i < slots.length, ∃ a, (i, a) ∈ log) ∧
      parts = (List.range slots.length).filterMap (latest log) := by
  constructor
  · intro hs
    refine ⟨fun i hi => exists_latest_iff.1 ?_, ?_⟩
    · have hget := h i hi
      have hi' : i < parts.length := by
        rw [hs, List.length_map] at hi
        exact hi
      rw [hs, List.getElem?_map, List.getElem?_eq_getElem hi', Option.map_some, Option.some.injEq] at hget
      exact ⟨_, hget.symm⟩
    · have hm : parts = (parts.map some).filterMap id := by simp
      rw [hm, ← hs]
      conv_lhs => rw [h.eq_map]
      rw [List.filterMap_map, Function.id_comp]
  · rintro ⟨hall, rfl⟩
    conv_lhs => rw [h.eq_map]
    rw [List.map_filterMap, ← List.filterMap_eq_map]
    refine List.filterMap_congr fun i hi => ?_
    obtain ⟨a, ha⟩ := exists_latest_iff.2 (hall i (List.mem_range.1 hi))
    simp [ha]

/-- Writes that all agree with `parts` give `parts` once every slot is written. -/
theorem filterMap_latest_eq {parts : List α} (hlog : ∀ i a, (i, a) ∈ log → parts[i]? = some a)
    (hall : ∀ i < parts.length, ∃ a, (i, a) ∈ log) : (List.range parts.length).filterMap (latest log) = parts := by
  have hm : Mirrors (parts.map some) log := by
    intro i hi
    rw [List.length_map] at hi
    obtain ⟨a, ha⟩ := exists_latest_iff.2 (hall i hi)
    rw [ha, List.getElem?_map, hlog i a (mem_of_latest ha), Option.map_some]
  have := ((hm.eq_map_some_iff parts).1 rfl).2
  rw [List.length_map] at this
  exact this.symm

end Mirrors

/-! ## Collecting again and again -/

/-- One arrival: a complete set `0, …, n - 1` is handed out and collecting
starts anew. The state is what is collected, and how often it was complete. -/
def roundStep (n : Nat) (st : List Nat × Nat) (i : Nat) : List Nat × Nat :=
  if ∀ j < n, j ∈ i :: st.1 then ([], st.2 + 1) else (i :: st.1, st.2)

/-- How often the arrivals complete a set. -/
def rounds (n : Nat) (is : List Nat) : Nat := (is.foldl (roundStep n) ([], 0)).2

theorem rounds_le_count {n i : Nat} (hi : i < n) (is : List Nat) : rounds n is ≤ is.count i := by
  suffices h : (is.foldl (roundStep n) ([], 0)).2 + (if i ∈ (is.foldl (roundStep n) ([], 0)).1 then 1 else 0) ≤ is.count i from
    Nat.le_trans (Nat.le_add_right _ _) h
  induction is using List.reverseRecOn with
  | nil => simp
  | append_singleton is j ih =>
    rw [List.foldl_append, List.foldl_cons, List.foldl_nil, List.count_append, List.count_singleton]
    generalize is.foldl (roundStep n) ([], 0) = st at ih ⊢
    unfold roundStep
    split
    · rename_i hall
      have := hall i hi
      rw [List.mem_cons] at this
      by_cases hij : j = i
      · simp [hij]; omega
      · have : i ∈ st.1 := this.resolve_left (Ne.symm hij)
        simp [hij, this] at ih ⊢
        omega
    · by_cases hij : j = i
      · simp [hij]; split at ih <;> omega
      · simp [hij, Ne.symm hij] at ih ⊢
        exact ih

/-- A first complete set is found as soon as everything has arrived. -/
theorem rounds_pos {n : Nat} {is : List Nat} (hn : 0 < n) (h : ∀ i < n, i ∈ is) : 0 < rounds n is := by
  suffices hs : ∀ is : List Nat, (is.foldl (roundStep n) ([], 0)).2 = 0 →
      (∀ i, i ∈ (is.foldl (roundStep n) ([], 0)).1 ↔ i ∈ is) ∧ ¬∀ i < n, i ∈ is by
    by_contra h0
    exact (hs is (Nat.eq_zero_of_not_pos h0)).2 h
  intro is
  induction is using List.reverseRecOn with
  | nil => exact fun _ => ⟨by simp, fun h => by simpa using h 0 hn⟩
  | append_singleton is j ih =>
    rw [List.foldl_append, List.foldl_cons, List.foldl_nil]
    generalize is.foldl (roundStep n) ([], 0) = st at ih ⊢
    unfold roundStep
    split
    · simp
    · rename_i hmiss
      intro h0
      obtain ⟨hmem, -⟩ := ih h0
      have hmem' : ∀ i, i ∈ j :: st.1 ↔ i ∈ is ++ [j] := by
        intro i
        simp [hmem, or_comm]
      refine ⟨hmem', fun hall => hmiss fun i hi => (hmem' i).2 (hall i hi)⟩

end Lib
