import Mathlib.Data.List.MinMax
import Mathlib.Data.Prod.Lex
import MiniVpn.Lib.Runs
import MiniVpn.Assoc
/-!
# Theorems about the association table

`Wf` is the representation invariant: the two maps are inverse to each other,
no id is zero, and references belong to live associations. `minted` says what
`intern` does for a new tuple, the termination of `alloc_id` included. Over a
run, `reported_perm` accounts for every fake-IP of a removed association.
-/
open Lib

namespace MiniVpn
namespace AssocTable

/-! ## The victim -/

/-- The key of `min_by_key`. -/
def age (x : UInt16 × FlowEntry) : Nat ×ₗ Nat := toLex (x.2.last_activity, x.1.toNat)

theorem older_iff (a b : UInt16 × FlowEntry) : older a b = true ↔ age a < age b := by
  simp [older, age, Prod.Lex.toLex_lt_toLex, UInt16.lt_iff_toNat_lt]

theorem min_by_key_eq_argmin (l : List (UInt16 × FlowEntry)) : min_by_key l = l.argmin age := by
  induction l with
  | nil => rfl
  | cons e es ih =>
    rw [min_by_key, ih, List.argmin_cons]
    cases List.argmin age es with
    | none => rfl
    | some v => simp only [older_iff]

/-- An entry with the least `(last_activity, id)`. -/
def Oldest (t : AssocTable) (v : UInt16 × FlowEntry) : Prop :=
  t.id_to_entry.get v.1 = some v.2 ∧ ∀ id e, t.id_to_entry.get id = some e → age v ≤ age (id, e)

theorem oldest_of_min_by_key {t : AssocTable} {v : UInt16 × FlowEntry}
    (h : min_by_key t.id_to_entry.iter = some v) : Oldest t v := by
  rw [min_by_key_eq_argmin] at h
  refine ⟨Table.mem_iter.1 (List.argmin_mem h), fun id e he => ?_⟩
  exact List.le_of_mem_argmin (Table.mem_iter.2 he) h

/-- A table with an entry evicts its oldest one. -/
theorem evict_lru_eq {t : AssocTable} (h : 0 < t.id_to_entry.len) :
    ∃ v, Oldest t v ∧ t.evict_lru =
      { t with
        id_to_entry := t.id_to_entry.remove v.1
        tuple_to_id := t.tuple_to_id.remove v.2.tuple }.note_reclaimed v.1 := by
  cases hm : min_by_key t.id_to_entry.iter with
  | none =>
    rw [min_by_key_eq_argmin, List.argmin_eq_none] at hm
    simp [Table.len, hm] at h
  | some v =>
    have hold := oldest_of_min_by_key hm
    refine ⟨v, hold, ?_⟩
    simp only [evict_lru, hm, hold.1]

/-! ## Minting an id -/

/-- The next value of `next_id`. -/
def bump (id : UInt16) : UInt16 := if id + 1 = 0 then 1 else id + 1

theorem bump_toNat {id : UInt16} (h : id ≠ 0) : (bump id).toNat = id.toNat % 65535 + 1 := by
  have hlt := id.toNat_lt
  have hpos : id.toNat ≠ 0 := fun h0 => h (UInt16.toNat_inj.1 h0)
  have hadd : (id + 1).toNat = (id.toNat + 1) % 65536 := UInt16.toNat_add id 1
  unfold bump
  split
  · rename_i h0
    rw [h0] at hadd
    have : (0 : UInt16).toNat = 0 := rfl
    have : (1 : UInt16).toNat = 1 := rfl
    omega
  · rename_i h0
    have : (id + 1).toNat ≠ 0 := fun h1 => h0 (UInt16.toNat_inj.1 h1)
    omega

theorem bump_ne_zero (id : UInt16) : bump id ≠ 0 := by
  unfold bump
  split
  · decide
  · assumption

theorem bump_iterate_toNat {id : UInt16} (h : id ≠ 0) (k : Nat) :
    (bump^[k] id).toNat = (id.toNat - 1 + k) % 65535 + 1 := by
  have hlt := id.toNat_lt
  have hpos : id.toNat ≠ 0 := fun h0 => h (UInt16.toNat_inj.1 h0)
  induction k with
  | zero =>
    show id.toNat = _
    omega
  | succ k ih =>
    have hne : bump^[k] id ≠ 0 := fun h0 => by
      rw [h0] at ih
      have : (0 : UInt16).toNat = 0 := rfl
      omega
    rw [Function.iterate_succ_apply', bump_toNat hne, ih]
    omega

/-- A probe that finds nothing has seen `n` successive ids, all in use. -/
theorem probe_id_none {n : Nat} {t : AssocTable} (h : t.probe_id n = none) :
    ∀ k < n, ∃ e, t.id_to_entry.get (bump^[k] t.next_id) = some e := by
  induction n generalizing t with
  | zero => simp
  | succ n ih =>
    simp only [probe_id] at h
    split at h
    · rename_i hc
      intro k hk
      cases k with
      | zero => exact Table.contains_key_iff.1 hc
      | succ k => exact ih h k (by omega)
    · cases h

theorem exists_alloc_id {t : AssocTable} (hn : t.next_id ≠ 0) (hlen : t.id_to_entry.len < 65535) :
    ∃ id t', t.alloc_id = some (id, t') := by
  cases hp : t.alloc_id with
  | some r => exact ⟨r.1, r.2, rfl⟩
  | none =>
    -- 65535 rounds visit 65535 different ids, more than the table holds.
    have hused := probe_id_none hp
    have hnodup : ((List.range 65535).map fun k => bump^[k] t.next_id).Nodup := by
      refine List.nodup_range.map_on fun a ha b hb hab => ?_
      have := congrArg UInt16.toNat hab
      rw [bump_iterate_toNat hn, bump_iterate_toNat hn] at this
      rw [List.mem_range] at ha hb
      omega
    have := Table.length_le_len hnodup (m := t.id_to_entry) fun id hid => by
      obtain ⟨k, hk, rfl⟩ := List.mem_map.1 hid
      exact hused k (List.mem_range.1 hk)
    rw [List.length_map, List.length_range] at this
    omega

theorem probe_id_ne_zero {n : Nat} {t t' : AssocTable} {id : UInt16} (hn : t.next_id ≠ 0)
    (h : t.probe_id n = some (id, t')) : id ≠ 0 ∧ t'.next_id ≠ 0 := by
  induction n generalizing t with
  | zero => simp [probe_id] at h
  | succ n ih =>
    simp only [probe_id] at h
    split at h
    · exact ih (bump_ne_zero t.next_id) h
    · obtain ⟨rfl, rfl⟩ := Prod.mk.inj (Option.some.inj h)
      exact ⟨hn, bump_ne_zero t.next_id⟩

/-! ## The representation invariant -/

structure Wf (t : AssocTable) : Prop where
  inverse : ∀ tuple id, t.tuple_to_id.get tuple = some id ↔ ∃ e, t.id_to_entry.get id = some e ∧ e.tuple = tuple
  id_ne_zero : ∀ id e, t.id_to_entry.get id = some e → id ≠ 0
  next_ne_zero : t.next_id ≠ 0
  len_le : t.id_to_entry.len ≤ t.cap
  live : Live t

/-- What `intern` of a new tuple does: `gone` is the entry it removes, if the
table was full, and the id it returns is one that no remaining entry has. -/
structure Minted (t : AssocTable) (tuple : FourTuple) (gone : Option (UInt16 × FlowEntry)) (id : UInt16)
    (t' : AssocTable) : Prop where
  full : gone.isSome = true ↔ t.cap ≤ t.id_to_entry.len
  oldest : ∀ v ∈ gone, Oldest t v
  fresh : t.id_to_entry.get id = none ∨ ∃ e, gone = some (id, e)
  ne_zero : id ≠ 0
  entries : ∀ id' e, t'.id_to_entry.get id' = some e ↔
    (id' = id ∧ e = { tuple := tuple, last_activity := 0 }) ∨ (t.id_to_entry.get id' = some e ∧ gone ≠ some (id', e))
  ids : ∀ tuple' id', t'.tuple_to_id.get tuple' = some id' ↔
    (tuple' = tuple ∧ id' = id) ∨ (t.tuple_to_id.get tuple' = some id' ∧ ∀ v ∈ gone, v.2.tuple ≠ tuple')
  len : t'.id_to_entry.len + gone.toList.length = t.id_to_entry.len + 1
  references : ∀ id' ip, t'.id_to_fake_ip.get id' = some ip ↔
    t.id_to_fake_ip.get id' = some ip ∧ ∀ v ∈ gone, v.1 ≠ id'

theorem with_cap_wf (cap : Nat) : Wf (with_cap cap) where
  inverse tuple id := by simp [with_cap]
  id_ne_zero id e h := by simp [with_cap] at h
  next_ne_zero := by simp [with_cap]
  len_le := Nat.zero_le _
  live id ip h := by simp [with_cap] at h

/-- An entry that is live is the one its tuple leads to. -/
theorem Wf.tuple_get {t : AssocTable} (hw : Wf t) {id : UInt16} {e : FlowEntry} (h : t.id_to_entry.get id = some e) :
    t.tuple_to_id.get e.tuple = some id := (hw.inverse e.tuple id).2 ⟨e, h, rfl⟩

/-- Both removal paths take one association out of the two maps and its
reference out of the third. -/
theorem Wf.remove {t : AssocTable} (hw : Wf t) {id : UInt16} {e : FlowEntry} (he : t.id_to_entry.get id = some e)
    {refs : Table UInt16 Ipv4Addr} (hr : ∀ id', refs.get id' = if id' = id then none else t.id_to_fake_ip.get id')
    (reclaimed : List Ipv4Addr) :
    Wf { t with
      id_to_entry := t.id_to_entry.remove id
      tuple_to_id := t.tuple_to_id.remove e.tuple
      id_to_fake_ip := refs
      reclaimed_fake_ips := reclaimed } where
  inverse tuple id' := by
    simp only [Table.get_remove]
    constructor
    · intro h
      split at h
      · cases h
      · rename_i hne
        obtain ⟨e', he', rfl⟩ := (hw.inverse tuple id').1 h
        refine ⟨e', ?_, rfl⟩
        rw [if_neg]
        · exact he'
        · rintro rfl
          rw [he] at he'
          exact hne (congrArg FlowEntry.tuple (Option.some.inj he')).symm
    · rintro ⟨e', he', rfl⟩
      split at he'
      · cases he'
      · rename_i hne
        rw [if_neg]
        · exact hw.tuple_get he'
        · intro heq
          have h1 := hw.tuple_get he'
          rw [heq, hw.tuple_get he] at h1
          exact hne (Option.some.inj h1).symm
  id_ne_zero id' e' h := by
    simp only [Table.get_remove] at h
    split at h
    · cases h
    · exact hw.id_ne_zero id' e' h
  next_ne_zero := hw.next_ne_zero
  len_le := by
    have h1 := hw.len_le
    have h2 := Table.len_of_get he
    show (t.id_to_entry.remove id).len ≤ t.cap
    omega
  live id' ip h := by
    have h' : refs.get id' = some ip := h
    rw [hr] at h'
    split at h'
    · cases h'
    · rename_i hne
      obtain ⟨e', he'⟩ := hw.live id' ip h'
      exact ⟨e', (Table.get_remove_ne _ hne).trans he'⟩

theorem note_reclaimed_eq (t : AssocTable) (id : UInt16) : t.note_reclaimed id =
    { t with
      id_to_fake_ip := (t.note_reclaimed id).id_to_fake_ip
      reclaimed_fake_ips := (t.note_reclaimed id).reclaimed_fake_ips } := by
  unfold note_reclaimed
  split <;> rfl

/-- `t₀` is the table `intern` mints an id in. -/
structure Room (t : AssocTable) (gone : Option (UInt16 × FlowEntry)) (t₀ : AssocTable) : Prop where
  full : gone.isSome = true ↔ t.cap ≤ t.id_to_entry.len
  oldest : ∀ v ∈ gone, Oldest t v
  entries : ∀ id e, t₀.id_to_entry.get id = some e ↔ t.id_to_entry.get id = some e ∧ gone ≠ some (id, e)
  len : t₀.id_to_entry.len + gone.toList.length = t.id_to_entry.len
  references : ∀ id ip, t₀.id_to_fake_ip.get id = some ip ↔ t.id_to_fake_ip.get id = some ip ∧ ∀ v ∈ gone, v.1 ≠ id
  wf : Wf t₀
  cap : t₀.cap = t.cap
  lt : t₀.id_to_entry.len < t.cap

theorem Room.ids {t t₀ : AssocTable} {gone : Option (UInt16 × FlowEntry)} (h : Room t gone t₀) (hw : Wf t)
    (tuple : FourTuple) (id : UInt16) : t₀.tuple_to_id.get tuple = some id ↔
      t.tuple_to_id.get tuple = some id ∧ ∀ v ∈ gone, v.2.tuple ≠ tuple := by
  rw [h.wf.inverse, hw.inverse]
  constructor
  · rintro ⟨e, he, rfl⟩
    rw [h.entries] at he
    refine ⟨⟨e, he.1, rfl⟩, fun v hv htuple => he.2 ?_⟩
    have hid := hw.tuple_get (h.oldest v hv).1
    rw [htuple, hw.tuple_get he.1] at hid
    have hid' : id = v.1 := Option.some.inj hid
    have he' := (h.oldest v hv).1
    rw [← hid', he.1] at he'
    rw [Option.mem_def.1 hv, hid', Option.some.inj he']
  · rintro ⟨⟨e, he, rfl⟩, hgone⟩
    refine ⟨e, (h.entries id e).2 ⟨he, fun hg => ?_⟩, rfl⟩
    exact hgone (id, e) hg rfl

theorem exists_room {t : AssocTable} (hw : Wf t) (hcap : 0 < t.cap) :
    ∃ gone, Room t gone (if t.cap ≤ t.id_to_entry.len then t.evict_lru else t) := by
  by_cases hfull : t.cap ≤ t.id_to_entry.len
  · rw [if_pos hfull]
    obtain ⟨v, hold, heq⟩ := evict_lru_eq (Nat.lt_of_lt_of_le hcap hfull)
    rw [note_reclaimed_eq] at heq
    have hrefs := get_note_reclaimed { t with
      id_to_entry := t.id_to_entry.remove v.1
      tuple_to_id := t.tuple_to_id.remove v.2.tuple } v.1
    have hlen := Table.len_of_get hold.1
    have hle := hw.len_le
    refine ⟨some v, by simp [hfull], by rintro _ ⟨⟩; exact hold, fun id e => ?_, ?_, fun id ip => ?_, ?_, ?_, ?_⟩
    · rw [heq]
      simp only [Table.get_remove]
      split
      · rename_i hid
        subst hid
        simp only [false_iff, not_and, not_not, reduceCtorEq]
        intro he
        rw [hold.1] at he
        rw [← Option.some.inj he]
      · rename_i hid
        simp only [ne_eq, Option.some.injEq, iff_self_and]
        rintro _ rfl
        exact hid rfl
    · rw [heq]
      simp only [Option.toList_some, List.length_cons, List.length_nil]
      omega
    · rw [heq]
      simp only [hrefs, Option.mem_def, Option.some.injEq, forall_eq']
      split
      · rename_i hid
        simp [hid]
      · rename_i hid
        simp [Ne.symm hid]
    · rw [heq]
      exact hw.remove hold.1 hrefs _
    · rw [heq]
    · rw [heq]
      show (t.id_to_entry.remove v.1).len < t.cap
      omega
  · rw [if_neg hfull]
    exact ⟨none, by simp [hfull], by simp, by simp, by simp, by simp, hw, rfl, Nat.lt_of_not_le hfull⟩

/-- An id that is free and a tuple that is unknown may be bound to each other. -/
theorem Wf.insert {t : AssocTable} (hw : Wf t) {id next : UInt16} {tuple : FourTuple}
    (hfree : t.id_to_entry.get id = none) (hnew : ∀ id' e, t.id_to_entry.get id' = some e → e.tuple ≠ tuple)
    (hid : id ≠ 0) (hnext : next ≠ 0) (hlt : t.id_to_entry.len < t.cap) (now : Nat) :
    Wf { t with
      next_id := next
      id_to_entry := t.id_to_entry.insert id { tuple := tuple, last_activity := now }
      tuple_to_id := t.tuple_to_id.insert tuple id } where
  inverse tuple' id' := by
    simp only [Table.get_insert]
    by_cases ht : tuple' = tuple
    · subst ht
      rw [if_pos rfl]
      constructor
      · intro h
        obtain rfl := Option.some.inj h
        exact ⟨_, if_pos rfl, rfl⟩
      · rintro ⟨e, he, heq⟩
        split at he
        · rename_i hid'
          rw [hid']
        · exact absurd heq (hnew id' e he)
    · rw [if_neg ht, hw.inverse]
      constructor
      · rintro ⟨e, he, heq⟩
        refine ⟨e, ?_, heq⟩
        rw [if_neg]
        · exact he
        · rintro rfl
          rw [he] at hfree
          cases hfree
      · rintro ⟨e, he, heq⟩
        split at he
        · obtain rfl := Option.some.inj he
          exact absurd heq.symm ht
        · exact ⟨e, he, heq⟩
  id_ne_zero id' e he := by
    simp only [Table.get_insert] at he
    split at he
    · rename_i hid'
      rw [hid']
      exact hid
    · exact hw.id_ne_zero id' e he
  next_ne_zero := hnext
  len_le := by
    show (t.id_to_entry.insert id _).len ≤ t.cap
    rw [Table.len_insert_of_get_none hfree]
    exact hlt
  live id' ip hip := by
    obtain ⟨e, he⟩ := hw.live id' ip hip
    simp only [Table.get_insert]
    split
    · exact ⟨_, rfl⟩
    · exact ⟨e, he⟩

/-- `intern` of a new tuple terminates and mints a free id. -/
theorem intern_minted {t : AssocTable} (hw : Wf t) (hcap : 0 < t.cap) (hcap' : t.cap ≤ 65535) {tuple : FourTuple}
    (hnew : t.tuple_to_id.get tuple = none) :
    ∃ gone id t', t.intern tuple = some (id, t') ∧ Minted t tuple gone id t' ∧ Wf t' ∧ t'.cap = t.cap := by
  obtain ⟨gone, room⟩ := exists_room hw hcap
  unfold intern
  simp only [hnew]
  generalize (if t.cap ≤ t.id_to_entry.len then t.evict_lru else t) = t₀ at room ⊢
  obtain ⟨id, t₁, halloc⟩ := exists_alloc_id room.wf.next_ne_zero (Nat.lt_of_lt_of_le room.lt hcap')
  obtain ⟨hfree, next, rfl⟩ := probe_id_cases _ halloc
  obtain ⟨hid, hnext⟩ := probe_id_ne_zero room.wf.next_ne_zero halloc
  have hnew₀ : ∀ id' e, t₀.id_to_entry.get id' = some e → e.tuple ≠ tuple := by
    rintro id' e he rfl
    rw [hw.tuple_get ((room.entries id' e).1 he).1] at hnew
    cases hnew
  refine ⟨gone, id, { t₀ with
      next_id := next
      id_to_entry := t₀.id_to_entry.insert id { tuple := tuple, last_activity := 0 }
      tuple_to_id := t₀.tuple_to_id.insert tuple id }, by rw [halloc]; rfl, ?_,
    room.wf.insert hfree hnew₀ hid hnext (room.cap ▸ room.lt) 0, room.cap⟩
  refine ⟨room.full, room.oldest, ?_, hid, fun id' e => ?_, fun tuple' id' => ?_, ?_, room.references⟩
  · cases he : t.id_to_entry.get id with
    | none => exact .inl rfl
    | some e =>
      refine .inr ⟨e, ?_⟩
      by_contra hg
      rw [(room.entries id e).2 ⟨he, hg⟩] at hfree
      cases hfree
  · simp only [Table.get_insert, ← room.entries id' e]
    split
    · rename_i hid'
      subst hid'
      simp [hfree, eq_comm]
    · rename_i hid'
      simp [hid']
  · simp only [Table.get_insert, ← room.ids hw tuple' id']
    split
    · rename_i ht
      subst ht
      have : t₀.tuple_to_id.get tuple' ≠ some id' := fun h => by
        rw [((room.ids hw tuple' id').1 h).1] at hnew
        cases hnew
      simp [this, eq_comm]
    · rename_i ht
      simp [ht]
  · have := room.len
    rw [Table.len_insert_of_get_none hfree]
    omega

/-! ## Sweeping -/

/-- `t'` is `t` without the associations `ids`. -/
structure Without (t : AssocTable) (ids : List UInt16) (t' : AssocTable) : Prop where
  wf : Wf t'
  cap : t'.cap = t.cap
  entries : ∀ id e, t'.id_to_entry.get id = some e ↔ t.id_to_entry.get id = some e ∧ id ∉ ids
  references : ∀ id ip, t'.id_to_fake_ip.get id = some ip ↔ t.id_to_fake_ip.get id = some ip ∧ id ∉ ids

theorem drop_expired_eq (acc : AssocTable × List Ipv4Addr) (x : UInt16 × FourTuple) :
    ∃ refs, (drop_expired acc x).1 =
        { acc.1 with
          id_to_entry := acc.1.id_to_entry.remove x.1
          tuple_to_id := acc.1.tuple_to_id.remove x.2
          id_to_fake_ip := refs } ∧
      ∀ id, refs.get id = if id = x.1 then none else acc.1.id_to_fake_ip.get id := by
  simp only [drop_expired]
  split
  · exact ⟨_, rfl, fun id => Table.get_remove ..⟩
  · rename_i hnone
    refine ⟨_, rfl, fun id => ?_⟩
    split
    · rename_i hid
      rw [hid]
      exact hnone
    · rfl

theorem foldl_drop_expired {xs : List (UInt16 × FourTuple)} (hn : (xs.map (·.1)).Nodup) :
    ∀ {acc : AssocTable × List Ipv4Addr}, Wf acc.1 →
      (∀ x ∈ xs, ∃ e, acc.1.id_to_entry.get x.1 = some e ∧ e.tuple = x.2) →
      Without acc.1 (xs.map (·.1)) (xs.foldl drop_expired acc).1 := by
  induction xs with
  | nil => exact fun hw _ => ⟨hw, rfl, by simp, by simp⟩
  | cons x xs ih =>
    intro acc hw hx
    rw [List.map_cons, List.nodup_cons] at hn
    obtain ⟨e, he, htuple⟩ := hx x List.mem_cons_self
    obtain ⟨refs, heq, hrefs⟩ := drop_expired_eq acc x
    have hw' : Wf (drop_expired acc x).1 := by
      rw [heq, ← htuple]
      exact hw.remove he hrefs _
    -- The other expired ids differ from this one, so their entries are still there.
    have hx' : ∀ y ∈ xs, ∃ e, (drop_expired acc x).1.id_to_entry.get y.1 = some e ∧ e.tuple = y.2 := by
      intro y hy
      have hne : y.1 ≠ x.1 := fun h => hn.1 (h ▸ List.mem_map_of_mem hy)
      rw [heq]
      simp only [Table.get_remove_ne _ hne]
      exact hx y (List.mem_cons_of_mem _ hy)
    have hrest := ih hn.2 hw' hx'
    refine ⟨hrest.wf, hrest.cap.trans (by rw [heq]), fun id e => ?_, fun id ip => ?_⟩
    · rw [List.foldl_cons, hrest.entries, heq]
      simp only [Table.get_remove, List.map_cons, List.mem_cons, not_or]
      by_cases hid : id = x.1 <;> simp [hid]
    · rw [List.foldl_cons, hrest.references, heq]
      simp only [hrefs, List.map_cons, List.mem_cons, not_or]
      by_cases hid : id = x.1 <;> simp [hid]

theorem sweep_without {t : AssocTable} (hw : Wf t) (now idle : Nat) :
    Without t ((t.expired now idle).map (·.1)) (t.sweep now idle).2 := by
  have hfold := fun hn => @foldl_drop_expired (t.expired now idle) hn (t, [])
  refine hfold ?_ hw fun x hx => ?_
  · rw [expired, List.map_map]
    exact t.id_to_entry.nodup_keys.sublist (List.filter_sublist.map _)
  · obtain ⟨y, hy, rfl⟩ := List.mem_map.1 hx
    exact ⟨y.2, Table.mem_iter.1 (List.mem_filter.1 hy).1, rfl⟩

/-! ## Runs -/

inductive Op where
  | intern (tuple : FourTuple)
  | touch (assoc_id : UInt16) (now : Nat)
  | set_fake_ip (assoc_id : UInt16) (ip : Ipv4Addr)
  | sweep (now idle_secs : Nat)
  | take_reclaimed_fake_ips

/-- `none` when the call does not return. -/
def next (t : AssocTable) : Op → Option AssocTable
  | .intern tuple => (t.intern tuple).map (·.2)
  | .touch assoc_id now => some (t.touch assoc_id now)
  | .set_fake_ip assoc_id ip => some (t.set_fake_ip assoc_id ip)
  | .sweep now idle_secs => some (t.sweep now idle_secs).2
  | .take_reclaimed_fake_ips => some t.take_reclaimed_fake_ips.2

/-- A fake-IP is set for an id that was just interned, so for a live one. -/
def allowed (t : AssocTable) : Op → Bool
  | .set_fake_ip assoc_id _ => t.id_to_entry.contains_key assoc_id
  | _ => true

/-- The fake-IPs a call hands to its caller. -/
def reported (t : AssocTable) : Op → List Ipv4Addr
  | .sweep now idle_secs => (t.sweep now idle_secs).1
  | .take_reclaimed_fake_ips => t.take_reclaimed_fake_ips.1
  | _ => []

/-- The association of `id` is still there: the id is bound to the same tuple.
An id alone does not say so, since `intern` may mint the id it just freed. -/
def kept (t t' : AssocTable) (id : UInt16) : Bool :=
  (t'.id_to_entry.get id).map (·.tuple) == (t.id_to_entry.get id).map (·.tuple)

/-- The fake-IPs of the associations of `t` that are gone in `t'`. -/
def dropped (t t' : AssocTable) : List Ipv4Addr := (t.id_to_fake_ip.iter.filter fun x => !kept t t' x.1).map (·.2)

theorem dropped_of_kept {t t' : AssocTable} (h : ∀ id, kept t t' id = true) : dropped t t' = [] := by
  simp [dropped, h]

/-- A call that keeps the references of exactly the associations that stay. -/
theorem holders_add_dropped {t t' : AssocTable} {stays : UInt16 → Prop} (hw : Wf t)
    (hrefs : ∀ id ip, t'.id_to_fake_ip.get id = some ip ↔ t.id_to_fake_ip.get id = some ip ∧ stays id)
    (hkept : ∀ id e, t.id_to_entry.get id = some e → (kept t t' id = true ↔ stays id)) (ip : Ipv4Addr) :
    t'.holders ip + (dropped t t').count ip = t.holders ip := by
  have h : ∀ id ip, t'.id_to_fake_ip.get id = some ip ↔ t.id_to_fake_ip.get id = some ip ∧ kept t t' id = true := by
    intro id ip
    rw [hrefs]
    refine and_congr_right fun hip => ?_
    obtain ⟨e, he⟩ := hw.live id ip hip
    exact (hkept id e he).symm
  have hperm := Table.iter_perm_filter (p := fun x => kept t t' x.1) h
  have hsplit := List.countP_eq_countP_filter_add t.id_to_fake_ip.iter (fun e => e.2 == ip) fun x => kept t t' x.1
  have hkept := hperm.countP_eq fun e => e.2 == ip
  rw [holders, Table.count, hkept, dropped, List.count_eq_countP, List.countP_map]
  exact hsplit.symm

theorem intern_holders {t t' : AssocTable} {tuple : FourTuple} {id : UInt16} (h : t.intern tuple = some (id, t'))
    (ip : Ipv4Addr) :
    t'.holders ip + t'.reclaimed_fake_ips.count ip = t.holders ip + t.reclaimed_fake_ips.count ip := by
  rcases intern_cases h with ⟨-, rfl⟩ | ⟨-, t₀, next, rfl | rfl, -, rfl⟩
  · rfl
  · rfl
  · exact evict_lru_holders t ip

/-- A minted association replaces the evicted one, even when it has its id. -/
theorem Minted.kept_iff {t t' : AssocTable} {tuple : FourTuple} {gone : Option (UInt16 × FlowEntry)} {id : UInt16}
    (h : Minted t tuple gone id t') (hw : Wf t) (hnew : t.tuple_to_id.get tuple = none) {id' : UInt16} {e : FlowEntry}
    (he : t.id_to_entry.get id' = some e) : kept t t' id' = true ↔ ∀ v ∈ gone, v.1 ≠ id' := by
  have hne : e.tuple ≠ tuple := by
    rintro rfl
    rw [hw.tuple_get he] at hnew
    cases hnew
  rw [kept, he, beq_iff_eq, Option.map_some, Option.map_eq_some_iff]
  constructor
  · rintro ⟨e', he', htuple⟩ v hv rfl
    rcases (h.entries v.1 e').1 he' with ⟨-, rfl⟩ | ⟨he'', hg⟩
    · exact hne htuple.symm
    · rw [(h.oldest v hv).1] at he''
      obtain rfl := Option.some.inj he''
      exact hg hv
  · intro hg
    exact ⟨e, (h.entries id' e).2 (.inr ⟨he, fun hg' => hg (id', e) hg' rfl⟩), rfl⟩

/-- After an id was minted, a tuple is the new one, which holds nothing yet, or it
has the id and the reference it had. -/
theorem Minted.flow {t t' : AssocTable} {tuple : FourTuple} {gone : Option (UInt16 × FlowEntry)} {id : UInt16}
    (h : Minted t tuple gone id t') (hw : Wf t) {tuple' : FourTuple} {id' : UInt16}
    (hid : t'.tuple_to_id.get tuple' = some id') :
    (tuple' = tuple ∧ id' = id ∧ t'.id_to_fake_ip.get id' = none) ∨
    (t.tuple_to_id.get tuple' = some id' ∧ t'.id_to_fake_ip.get id' = t.id_to_fake_ip.get id') := by
  rcases (h.ids tuple' id').1 hid with ⟨rfl, rfl⟩ | ⟨hid, hgone⟩
  · refine .inl ⟨rfl, rfl, Option.eq_none_iff_forall_not_mem.2 fun ip hip => ?_⟩
    obtain ⟨hip, hgone⟩ := (h.references id' ip).1 hip
    obtain ⟨e, he⟩ := hw.live id' ip hip
    rcases h.fresh with hfree | ⟨e', hg⟩
    · simp [he] at hfree
    · exact hgone _ hg rfl
  · refine .inr ⟨hid, Option.ext fun ip => ?_⟩
    -- The victim has another tuple, so another id.
    have hne : ∀ v ∈ gone, v.1 ≠ id' := by
      rintro v hv rfl
      obtain ⟨e, he, htuple⟩ := (hw.inverse tuple' v.1).1 hid
      rw [(h.oldest v hv).1] at he
      exact hgone v hv (Option.some.inj he ▸ htuple)
    exact (h.references id' ip).trans (and_iff_left hne)

theorem Without.flow {t t' : AssocTable} {ids : List UInt16} (h : Without t ids t') (hw : Wf t) {tuple : FourTuple}
    {id : UInt16} (hid : t'.tuple_to_id.get tuple = some id) :
    t.tuple_to_id.get tuple = some id ∧ t'.id_to_fake_ip.get id = t.id_to_fake_ip.get id := by
  obtain ⟨e, he, rfl⟩ := (h.wf.inverse tuple id).1 hid
  obtain ⟨he, hin⟩ := (h.entries id e).1 he
  exact ⟨hw.tuple_get he, Option.ext fun ip => (h.references id ip).trans (and_iff_left hin)⟩

theorem Without.kept_iff {t t' : AssocTable} {ids : List UInt16} (h : Without t ids t') {id : UInt16} {e : FlowEntry}
    (he : t.id_to_entry.get id = some e) : kept t t' id = true ↔ id ∉ ids := by
  rw [kept, he, beq_iff_eq, Option.map_some, Option.map_eq_some_iff]
  constructor
  · rintro ⟨e', he', -⟩
    exact ((h.entries id e').1 he').2
  · intro hid
    exact ⟨e, (h.entries id e).2 ⟨he, hid⟩, rfl⟩

theorem touch_kept (t : AssocTable) (assoc_id : UInt16) (now : Nat) (id : UInt16) :
    kept t (t.touch assoc_id now) id = true := by
  unfold touch
  split
  · rename_i e he
    simp only [kept, Table.get_insert]
    split
    · rename_i hid
      simp [hid, he]
    · simp
  · simp [kept]

theorem touch_wf {t : AssocTable} (hw : Wf t) (assoc_id : UInt16) (now : Nat) : Wf (t.touch assoc_id now) := by
  unfold touch
  split
  · rename_i e he
    refine ⟨fun tuple id => ?_, fun id e' h => ?_, hw.next_ne_zero, ?_, ?_⟩
    · rw [hw.inverse]
      simp only [Table.get_insert]
      by_cases hid : id = assoc_id
      · subst hid
        simp [he]
      · simp [hid]
    · simp only [Table.get_insert] at h
      split at h
      · rename_i hid
        rw [hid]
        exact hw.id_ne_zero assoc_id e he
      · exact hw.id_ne_zero id e' h
    · simp only [Table.len_insert_of_get he]
      exact hw.len_le
    · have := touch_live hw.live assoc_id now
      simpa only [touch, he] using this
  · exact hw

/-- What one call does: it keeps the invariant, a flow that stays keeps its id,
and the fake-IPs of removed associations are reported or noted. -/
theorem next_spec {t t' : AssocTable} {op : Op} (hw : Wf t) (hcap : 0 < t.cap) (hcap' : t.cap ≤ 65535)
    (hok : t.allowed op = true) (h : t.next op = some t') :
    Wf t' ∧ t'.cap = t.cap ∧
      (∀ tuple id id', t.tuple_to_id.get tuple = some id → t'.tuple_to_id.get tuple = some id' → id' = id) ∧
      (dropped t t' ++ t.reclaimed_fake_ips).Perm (t.reported op ++ t'.reclaimed_fake_ips) := by
  cases op with
  | intern tuple =>
    obtain ⟨⟨id, t''⟩, hin, rfl⟩ := Option.map_eq_some_iff.1 h
    cases hget : t.tuple_to_id.get tuple with
    | some id₀ =>
      simp only [AssocTable.intern, hget, Option.some.injEq, Prod.mk.injEq] at hin
      obtain ⟨-, rfl⟩ := hin
      refine ⟨hw, rfl, fun tuple' id id' h1 h2 => ?_, ?_⟩
      · rw [h1] at h2
        exact (Option.some.inj h2).symm
      · rw [dropped_of_kept fun id => by simp [kept]]
        exact .rfl
    | none =>
      obtain ⟨gone, id', t₁, hin', hm, hw', hc⟩ := intern_minted hw hcap hcap' hget
      obtain ⟨rfl, rfl⟩ := Prod.mk.inj (Option.some.inj (hin.symm.trans hin'))
      refine ⟨hw', hc, fun tuple' id₁ id₂ h1 h2 => ?_, List.perm_iff_count.2 fun ip => ?_⟩
      · rcases (hm.ids tuple' id₂).1 h2 with ⟨rfl, -⟩ | ⟨h2, -⟩
        · rw [hget] at h1
          cases h1
        · rw [h1] at h2
          exact (Option.some.inj h2).symm
      · have h1 := holders_add_dropped hw hm.references (fun _ _ he => hm.kept_iff hw hget he) ip
        have h2 := intern_holders hin ip
        simp only [reported, List.count_append, List.nil_append]
        omega
  | touch assoc_id now =>
    obtain rfl := Option.some.inj h
    refine ⟨touch_wf hw assoc_id now, by unfold AssocTable.touch; split <;> rfl, fun tuple id id' h1 h2 => ?_, ?_⟩
    · have : (t.touch assoc_id now).tuple_to_id = t.tuple_to_id := by unfold AssocTable.touch; split <;> rfl
      rw [this, h1] at h2
      exact (Option.some.inj h2).symm
    · rw [dropped_of_kept (touch_kept t assoc_id now), touch_reclaimed]
      exact .rfl
  | set_fake_ip assoc_id ip =>
    obtain rfl := Option.some.inj h
    refine ⟨⟨hw.inverse, hw.id_ne_zero, hw.next_ne_zero, hw.len_le, ?_⟩, rfl, fun tuple id id' h1 h2 => ?_, ?_⟩
    · exact set_fake_ip_live hw.live (Table.contains_key_iff.1 hok) ip
    · exact Option.some.inj (h2.symm.trans h1)
    · rw [dropped_of_kept fun id => by simp [kept, AssocTable.set_fake_ip]]
      exact .rfl
  | sweep now idle_secs =>
    obtain rfl := Option.some.inj h
    have hs := sweep_without hw now idle_secs
    refine ⟨hs.wf, hs.cap, fun tuple id id' h1 h2 => ?_, List.perm_iff_count.2 fun ip => ?_⟩
    · obtain ⟨e, he, rfl⟩ := (hs.wf.inverse tuple id').1 h2
      rw [hw.tuple_get ((hs.entries id' e).1 he).1] at h1
      exact Option.some.inj h1
    · have h1 := holders_add_dropped hw hs.references (fun _ _ he => hs.kept_iff he) ip
      have h2 := sweep_holders t now idle_secs ip
      simp only [reported, sweep_reclaimed, List.count_append]
      omega
  | take_reclaimed_fake_ips =>
    obtain rfl := Option.some.inj h
    refine ⟨⟨hw.inverse, hw.id_ne_zero, hw.next_ne_zero, hw.len_le, hw.live⟩, rfl, fun tuple id id' h1 h2 => ?_, ?_⟩
    · exact Option.some.inj (h2.symm.trans h1)
    · rw [dropped_of_kept fun id => by simp [kept, AssocTable.take_reclaimed_fake_ips]]
      simp [reported, AssocTable.take_reclaimed_fake_ips]

section Run
variable {cap : Nat} {tr : List (Taken AssocTable Op)} {t : AssocTable}

theorem reach_wf (h : Reach (with_cap cap) next (fun t op => t.allowed op = true) t) :
    Wf t ∧ t.cap = min (max cap 1) 65535 := by
  refine h.inv (fun t => Wf t ∧ t.cap = min (max cap 1) 65535) ⟨with_cap_wf cap, rfl⟩ ?_
  rintro t op t' - ⟨hw, hc⟩ hop hn
  obtain ⟨hw', hc', -⟩ := next_spec hw (by omega) (by omega) hop hn
  exact ⟨hw', hc'.trans hc⟩

/-- The fake-IPs of the associations removed in a run, and those its calls
reported. -/
def allDropped (tr : List (Taken AssocTable Op)) : List Ipv4Addr := tr.flatMap fun s => dropped s.pre s.post

def allReported (tr : List (Taken AssocTable Op)) : List Ipv4Addr := tr.flatMap fun s => s.pre.reported s.ev

theorem reported_perm (h : Run (with_cap cap) next tr t) (hok : ∀ s ∈ tr, s.pre.allowed s.ev = true) :
    (allDropped tr).Perm (allReported tr ++ t.reclaimed_fake_ips) := by
  induction h with
  | nil => exact .rfl
  | @snoc tr s s' op hr hn ih =>
    have hok' := fun x hx => hok x (List.mem_append_left _ hx)
    obtain ⟨hw, hc⟩ := reach_wf (hr.reach hok')
    have hop := hok _ (List.mem_append_right _ (List.mem_singleton_self _))
    obtain ⟨-, -, -, hstep⟩ := next_spec hw (by omega) (by omega) hop hn
    have ih := ih hok'
    simp only [List.perm_iff_count, allDropped, allReported, List.flatMap_append, List.flatMap_singleton,
      List.count_append] at ih hstep ⊢
    intro ip
    have := ih ip
    have := hstep ip
    omega

/-- The contract of the association table, for every capacity and every run. -/
theorem assoc_table_contract (h : Run (with_cap cap) next tr t) (hok : ∀ s ∈ tr, s.pre.allowed s.ev = true) :
    Wf t ∧ t.cap = min (max cap 1) 65535 ∧
    (∀ tuple id, t.tuple_to_id.get tuple = some id → t.intern tuple = some (id, t)) ∧
    (∀ tuple, t.tuple_to_id.get tuple = none →
      ∃ gone id t', t.intern tuple = some (id, t') ∧ Minted t tuple gone id t') ∧
    (∀ s ∈ tr, ∀ tuple id id', s.pre.tuple_to_id.get tuple = some id → s.post.tuple_to_id.get tuple = some id' →
      id' = id) ∧
    (allDropped tr).Perm (allReported tr ++ t.reclaimed_fake_ips) := by
  obtain ⟨hw, hc⟩ := reach_wf (h.reach hok)
  refine ⟨hw, hc, fun tuple id hid => ?_, fun tuple hnew => ?_, fun s hs => ?_, reported_perm h hok⟩
  · simp only [AssocTable.intern, hid]
  · obtain ⟨gone, id, t', hin, hm, -, -⟩ := intern_minted hw (by omega) (by omega) hnew
    exact ⟨gone, id, t', hin, hm⟩
  · obtain ⟨hreach, hn⟩ := h.taken (fun t op => t.allowed op = true) hok s hs
    obtain ⟨hw, hc⟩ := reach_wf hreach
    exact (next_spec hw (by omega) (by omega) (hok s hs) hn).2.2.1

/-- Capacity one: the second flow evicts the first, whose fake-IP is noted and
then taken. -/
theorem assoc_table_contract_evicts : ∃ tr t, Run (with_cap 1) next tr t ∧
    (∀ s ∈ tr, s.pre.allowed s.ev = true) ∧ t.reclaimed_fake_ips = [] ∧ t.id_to_entry.len = 1 ∧
    (allDropped tr).Perm (allReported tr ++ []) := by
  have hrun : (runEvents (checked allowed next) (with_cap 1)
      [.intern ⟨1, 2, 3, 4⟩, .touch 1 5, .set_fake_ip 1 (ipv4 198 18 0 2), .intern ⟨1, 2, 3, 5⟩,
        .take_reclaimed_fake_ips]).any
      (fun t => t.reclaimed_fake_ips == [] && t.id_to_entry.len == 1) = true := by decide +kernel
  obtain ⟨tr, t, h, hok, hp⟩ := exists_checked_run_of_any hrun
  simp only [Bool.and_eq_true, beq_iff_eq] at hp
  have hc := assoc_table_contract h hok
  rw [hp.1] at hc
  exact ⟨tr, t, h, hok, hp.1, hp.2, hc.2.2.2.2.2⟩

end Run

end AssocTable
end MiniVpn
