import Mathlib.Data.List.AList
/-!
# Finite tables

A hash map is modelled by Mathlib's association lists with distinct keys. The
order of the entries stands for the unspecified iteration order; no lemma here
depends on it. Besides lookups the table counts: `count p` is the number of
entries whose value satisfies `p`, and the lemmas say how inserting and removing
one key moves that number.
-/

namespace Lib

/-- A finite map from `κ` to `ν`. -/
def Table (κ ν : Type) := AList (fun _ : κ => ν)

namespace Table
variable {κ ν : Type}

/-- The table without entries. -/
def empty : Table κ ν := (∅ : AList (fun _ : κ => ν))

/-- The entries, in iteration order. -/
def iter (m : Table κ ν) : List (κ × ν) := (AList.entries m).map fun e => (e.1, e.2)

def len (m : Table κ ν) : Nat := m.iter.length

/-- Only the entries that satisfy `p`. -/
def retain (m : Table κ ν) (p : κ → ν → Bool) : Table κ ν :=
  ⟨(AList.entries m).filter fun e => p e.1 e.2, (AList.nodupKeys m).sublist List.filter_sublist⟩

/-- The number of entries whose value satisfies `p`. -/
def count (m : Table κ ν) (p : ν → Bool) : Nat := m.iter.countP fun e => p e.2

theorem nodup_keys (m : Table κ ν) : (m.iter.map (·.1)).Nodup := by
  have := AList.keys_nodup m
  simpa [iter, AList.keys, List.keys, Function.comp_def] using this

theorem nodup_iter (m : Table κ ν) : m.iter.Nodup := m.nodup_keys.of_map _

theorem len_eq_count (m : Table κ ν) : m.len = m.count fun _ => true := by
  simp [len, count]

variable [DecidableEq κ]

def get (m : Table κ ν) (k : κ) : Option ν := AList.lookup k m

def contains_key (m : Table κ ν) (k : κ) : Bool := (m.get k).isSome

def insert (m : Table κ ν) (k : κ) (v : ν) : Table κ ν := AList.insert k v m

def remove (m : Table κ ν) (k : κ) : Table κ ν := AList.erase k m

/-! ## Lookups -/

@[simp] theorem get_empty (k : κ) : (empty : Table κ ν).get k = none := AList.lookup_empty k

@[simp] theorem get_insert_self (m : Table κ ν) (k : κ) (v : ν) : (m.insert k v).get k = some v :=
  AList.lookup_insert m

theorem get_insert_ne (m : Table κ ν) {k k' : κ} (v : ν) (h : k' ≠ k) : (m.insert k v).get k' = m.get k' :=
  AList.lookup_insert_ne h

theorem get_insert (m : Table κ ν) (k k' : κ) (v : ν) :
    (m.insert k v).get k' = if k' = k then some v else m.get k' := by
  by_cases h : k' = k
  · subst h; simp
  · simp [h, get_insert_ne m v h]

@[simp] theorem get_remove_self (m : Table κ ν) (k : κ) : (m.remove k).get k = none := AList.lookup_erase k m

theorem get_remove_ne (m : Table κ ν) {k k' : κ} (h : k' ≠ k) : (m.remove k).get k' = m.get k' :=
  AList.lookup_erase_ne h

theorem get_remove (m : Table κ ν) (k k' : κ) :
    (m.remove k).get k' = if k' = k then none else m.get k' := by
  by_cases h : k' = k
  · subst h; simp
  · simp [h, get_remove_ne m h]

theorem contains_key_iff {m : Table κ ν} {k : κ} : m.contains_key k = true ↔ ∃ v, m.get k = some v := by
  simp [contains_key, Option.isSome_iff_exists]

theorem contains_key_eq_false {m : Table κ ν} {k : κ} : m.contains_key k = false ↔ m.get k = none := by
  simp [contains_key]

@[simp] theorem insert_insert (m : Table κ ν) (k : κ) (v w : ν) : (m.insert k v).insert k w = m.insert k w :=
  AList.insert_insert m

theorem mem_iter {m : Table κ ν} {k : κ} {v : ν} : (k, v) ∈ m.iter ↔ m.get k = some v := by
  have h : (⟨k, v⟩ : Sigma fun _ : κ => ν) ∈ AList.entries m ↔ v ∈ AList.lookup k m :=
    AList.mem_lookup_iff.symm
  rw [get, ← Option.mem_def, ← h, iter, List.mem_map]
  constructor
  · rintro ⟨⟨a, b⟩, hab, he⟩
    simp only [Prod.mk.injEq] at he
    obtain ⟨rfl, rfl⟩ := he
    exact hab
  · intro he
    exact ⟨⟨k, v⟩, he, rfl⟩

theorem get_retain {m : Table κ ν} {p : κ → ν → Bool} {k : κ} {v : ν} :
    (m.retain p).get k = some v ↔ m.get k = some v ∧ p k v = true := by
  have hmem (m : Table κ ν) : (⟨k, v⟩ : Sigma fun _ : κ => ν) ∈ AList.entries m ↔ m.get k = some v :=
    AList.mem_lookup_iff.symm
  rw [← hmem, ← hmem]
  exact List.mem_filter

/-! ## Counting -/

theorem remove_of_get_none {m : Table κ ν} {k : κ} (h : m.get k = none) : m.remove k = m := by
  have hk : k ∉ List.keys (AList.entries m) := AList.lookup_eq_none.1 h
  exact AList.ext (List.kerase_of_notMem_keys hk)

theorem iter_insert (m : Table κ ν) (k : κ) (v : ν) : (m.insert k v).iter = (k, v) :: (m.remove k).iter := rfl

theorem count_insert (m : Table κ ν) (k : κ) (v : ν) (p : ν → Bool) :
    (m.insert k v).count p = (m.remove k).count p + if p v then 1 else 0 := by
  rw [count, iter_insert, List.countP_cons, count]

/-- Taking a present key out lowers the count by what its value counted. -/
theorem count_of_get {m : Table κ ν} {k : κ} {v : ν} (h : m.get k = some v) (p : ν → Bool) :
    m.count p = (m.remove k).count p + if p v then 1 else 0 := by
  have hk : k ∈ List.keys (AList.entries m) := AList.lookup_isSome.1 (by
    show (m.get k).isSome = true
    rw [h]; rfl)
  obtain ⟨w, l₁, l₂, -, hl, he⟩ := List.exists_of_kerase hk
  have hw : m.get k = some w := by
    rw [← mem_iter, iter, hl]; simp
  obtain rfl : v = w := by simpa [h] using hw
  have hr : (m.remove k).iter = (l₁ ++ l₂).map fun e => (e.1, e.2) := congrArg (List.map _) he
  rw [count, count, hr, iter, hl]
  simp only [List.map_append, List.map_cons, List.countP_append, List.countP_cons]
  omega

/-- A present key comes first in some order of the entries. -/
theorem iter_perm_of_get {m : Table κ ν} {k : κ} {v : ν} (h : m.get k = some v) :
    m.iter.Perm ((k, v) :: (m.remove k).iter) := by
  have hnot : (k, v) ∉ (m.remove k).iter := by
    rw [mem_iter, get_remove_self]
    simp
  refine (List.perm_ext_iff_of_nodup m.nodup_iter (List.nodup_cons.2 ⟨hnot, (m.remove k).nodup_iter⟩)).2 ?_
  rintro ⟨k', v'⟩
  rw [List.mem_cons, mem_iter, mem_iter, get_remove, Prod.mk.injEq]
  by_cases hk : k' = k
  · subst hk
    simp [h, eq_comm]
  · simp [hk]

/-- Counting the entries of one table by counting the keys of another one that
has all of their keys. -/
theorem countP_iter_get {ω : Type} {m : Table κ ν} {m' : Table κ ω} {p : ν → Bool}
    (h : ∀ k v, m.get k = some v → p v = true → ∃ w, m'.get k = some w) :
    m'.iter.countP (fun e => (m.get e.1).any p) = m.count p := by
  -- Both sides count keys, without repetition, and the same keys.
  have hkeys : ((m'.iter.filter fun e => (m.get e.1).any p).map (·.1)).Perm
      ((m.iter.filter fun e => p e.2).map (·.1)) := by
    have nodup {τ : Type} {t : Table κ τ} (q : κ × τ → Bool) : ((t.iter.filter q).map (·.1)).Nodup :=
      t.nodup_keys.sublist (List.filter_sublist.map _)
    refine (List.perm_ext_iff_of_nodup (nodup _) (nodup _)).2 fun k => ?_
    simp only [List.mem_map, List.mem_filter, Prod.exists, exists_eq_right, mem_iter, exists_and_right]
    constructor
    · rintro ⟨-, hp⟩
      obtain ⟨v, hv, hpv⟩ := (Option.any_eq_true _ _).1 hp
      exact ⟨v, hv, hpv⟩
    · rintro ⟨v, hv, hpv⟩
      obtain ⟨w, hw⟩ := h k v hv hpv
      exact ⟨⟨w, hw⟩, by simp [hv, hpv]⟩
  have := hkeys.length_eq
  rwa [List.length_map, List.length_map, ← List.countP_eq_length_filter, ← List.countP_eq_length_filter] at this

/-! ## The number of entries -/

theorem len_of_get {m : Table κ ν} {k : κ} {v : ν} (h : m.get k = some v) : m.len = (m.remove k).len + 1 := by
  rw [len_eq_count, len_eq_count, count_of_get h]
  rfl

theorem len_insert (m : Table κ ν) (k : κ) (v : ν) : (m.insert k v).len = (m.remove k).len + 1 := by
  rw [len, iter_insert, List.length_cons, len]

theorem len_insert_of_get_none {m : Table κ ν} {k : κ} (h : m.get k = none) (v : ν) :
    (m.insert k v).len = m.len + 1 := by
  rw [len_insert, remove_of_get_none h]

theorem len_insert_of_get {m : Table κ ν} {k : κ} {v : ν} (h : m.get k = some v) (w : ν) :
    (m.insert k w).len = m.len := by
  rw [len_insert, len_of_get h]

/-- Distinct keys of the table are at most as many as its entries. -/
theorem length_le_len {m : Table κ ν} {ks : List κ} (hn : ks.Nodup) (h : ∀ k ∈ ks, ∃ v, m.get k = some v) :
    ks.length ≤ m.len := by
  have hsub : ks ⊆ m.iter.map (·.1) := by
    intro k hk
    obtain ⟨v, hv⟩ := h k hk
    exact List.mem_map.2 ⟨(k, v), mem_iter.2 hv, rfl⟩
  have := (List.subperm_of_subset hn hsub).length_le
  rwa [List.length_map] at this

/-- The number of entries, from a list of the keys. -/
theorem len_eq_length {m : Table κ ν} {ks : List κ} (hn : ks.Nodup) (h : ∀ k, (∃ v, m.get k = some v) ↔ k ∈ ks) :
    m.len = ks.length := by
  have hperm : (m.iter.map (·.1)).Perm ks := by
    refine (List.perm_ext_iff_of_nodup m.nodup_keys hn).2 fun k => ?_
    rw [← h, List.mem_map]
    simp only [Prod.exists, exists_and_right, exists_eq_right, mem_iter]
  rw [← hperm.length_eq, List.length_map, len]

/-- A table that kept some entries of another one lists these entries. -/
theorem iter_perm_filter {m m' : Table κ ν} {p : κ × ν → Bool}
    (h : ∀ k v, m'.get k = some v ↔ m.get k = some v ∧ p (k, v) = true) : m'.iter.Perm (m.iter.filter p) := by
  refine (List.perm_ext_iff_of_nodup m'.nodup_iter (m.nodup_iter.filter _)).2 fun x => ?_
  rw [List.mem_filter, mem_iter, mem_iter]
  exact h x.1 x.2

end Table

end Lib
