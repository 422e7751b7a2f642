import Mathlib.Data.List.DropRight
/-!
# Separated labels

A list with separators in it is a sequence of labels, `List.splitOn`. A suffix of
that sequence is a suffix of the list that starts behind a separator, and
separators at the end are empty labels at the end.
-/

namespace Lib

variable {α β : Type} {sep : α}

theorem intercalate_append {ls ls' : List (List α)} (h : ls ≠ []) (h' : ls' ≠ []) :
    [sep].intercalate (ls ++ ls') = [sep].intercalate ls ++ sep :: [sep].intercalate ls' := by
  induction ls with
  | nil => contradiction
  | cons l ls ih =>
    rw [List.cons_append, List.intercalate_cons_of_ne_nil (by simp [h'])]
    by_cases hnil : ls = []
    · simp [hnil]
    · rw [ih hnil, List.intercalate_cons_of_ne_nil hnil]
      simp

variable [BEq α] [LawfulBEq α] [BEq β] [LawfulBEq β]

/-- The last labels of `d` are those of `q` exactly when `d` is `q`, or ends in `q`
behind a separator. -/
theorem splitOn_suffix_iff {d q : List α} :
    q.splitOn sep <:+ d.splitOn sep ↔ d = q ∨ ∃ p, d = p ++ sep :: q := by
  constructor
  · rintro ⟨front, h⟩
    have hd : [sep].intercalate (front ++ q.splitOn sep) = d := by rw [h, List.intercalate_splitOn]
    by_cases hfront : front = []
    · rw [hfront, List.nil_append, List.intercalate_splitOn] at hd
      exact .inl hd.symm
    · rw [intercalate_append hfront (List.splitOn_ne_nil _ _), List.intercalate_splitOn] at hd
      exact .inr ⟨_, hd.symm⟩
  · rintro (rfl | ⟨p, rfl⟩)
    · exact List.suffix_rfl
    · rw [List.splitOn_append_cons_self]
      exact List.suffix_append _ _

/-- Renaming the elements renames the labels, if nothing else becomes the
separator. -/
theorem splitOn_map (f : α → β) (hf : ∀ x, f x = f sep → x = sep) (d : List α) :
    (d.map f).splitOn (f sep) = (d.splitOn sep).map (List.map f) := by
  induction d with
  | nil => simp
  | cons x d ih =>
    rw [List.map_cons, List.splitOn_cons_eq_if_modifyHead, List.splitOn_cons_eq_if_modifyHead, ih]
    by_cases hx : x = sep
    · simp [hx]
    · have hne : f x ≠ f sep := fun h => hx (hf x h)
      simp only [beq_iff_eq, hx, hne, if_false]
      cases d.splitOn sep <;> simp

/-- The last label ends in the last element. -/
theorem exists_splitOn_concat (d : List α) {x : α} (hx : x ≠ sep) :
    ∃ front last, (d ++ [x]).splitOn sep = front ++ [last ++ [x]] := by
  induction d with
  | nil => exact ⟨[], [], List.splitOn_eq_singleton (by simpa using hx.symm)⟩
  | cons y d ih =>
    obtain ⟨front, last, h⟩ := ih
    rw [List.cons_append, List.splitOn_cons_eq_if_modifyHead, h]
    by_cases hy : y = sep
    · exact ⟨[] :: front, last, by simp [hy]⟩
    · simp only [beq_iff_eq, hy, if_false]
      cases front with
      | nil => exact ⟨[], y :: last, rfl⟩
      | cons l front => exact ⟨(y :: l) :: front, last, rfl⟩

/-- Separators at the end are empty labels at the end. -/
theorem rdropWhile_splitOn (d : List α) : (d.splitOn sep).rdropWhile List.isEmpty =
    if d.rdropWhile (· == sep) = [] then [] else (d.rdropWhile (· == sep)).splitOn sep := by
  induction d using List.reverseRecOn with
  | nil => rfl
  | append_singleton d x ih =>
    by_cases hx : x = sep
    · subst hx
      rw [List.splitOn_append_cons_self, List.splitOn_nil, List.rdropWhile_concat_pos _ _ _ rfl, ih,
        List.rdropWhile_concat_pos (· == x) _ _ (beq_self_eq_true x)]
    · obtain ⟨front, last, h⟩ := exists_splitOn_concat d hx
      rw [List.rdropWhile_concat_neg _ _ _ (by simpa using hx), if_neg (by simp), h,
        List.rdropWhile_concat_neg _ _ _ (by simp)]

end Lib
