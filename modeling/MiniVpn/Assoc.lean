import MiniVpn.Lib.Table
import MiniVpn.Net
/-!
# The UDP association table

`AssocTable` of `tuic.rs`: one 16-bit id per UDP flow, least recently used
eviction at capacity, and per id the fake-IP the flow holds a reference on.
Eviction cannot return the address it frees, so it is kept in
`reclaimed_fake_ips` until the main loop takes it.
-/
open Lib

namespace MiniVpn

def MAX_UDP_FLOWS : Nat := 1024
def UDP_FLOW_IDLE_SECS : Nat := 60

structure AssocTable where
  tuple_to_id : Table FourTuple UInt16
  id_to_entry : Table UInt16 FlowEntry
  id_to_fake_ip : Table UInt16 Ipv4Addr
  reclaimed_fake_ips : List Ipv4Addr
  next_id : UInt16
  cap : Nat

namespace AssocTable

def with_cap (cap : Nat) : AssocTable :=
  { tuple_to_id := .empty
    id_to_entry := .empty
    id_to_fake_ip := .empty
    reclaimed_fake_ips := []
    next_id := 1
    cap := min (max cap 1) 65535 }

def new : AssocTable := with_cap MAX_UDP_FLOWS

def set_fake_ip (t : AssocTable) (assoc_id : UInt16) (ip : Ipv4Addr) : AssocTable :=
  { t with id_to_fake_ip := t.id_to_fake_ip.insert assoc_id ip }

def take_reclaimed_fake_ips (t : AssocTable) : List Ipv4Addr × AssocTable :=
  (t.reclaimed_fake_ips, { t with reclaimed_fake_ips := [] })

def note_reclaimed (t : AssocTable) (assoc_id : UInt16) : AssocTable :=
  match t.id_to_fake_ip.get assoc_id with
  | some ip =>
    { t with
      id_to_fake_ip := t.id_to_fake_ip.remove assoc_id
      reclaimed_fake_ips := t.reclaimed_fake_ips ++ [ip] }
  | none => t

/-- The order of `min_by_key(|(id, e)| (e.last_activity, id))`. -/
def older (a b : UInt16 × FlowEntry) : Bool :=
  a.2.last_activity < b.2.last_activity || (a.2.last_activity == b.2.last_activity && a.1 < b.1)

def min_by_key : List (UInt16 × FlowEntry) → Option (UInt16 × FlowEntry)
  | [] => none
  | e :: es =>
    match min_by_key es with
    | none => some e
    | some v => if older v e then some v else some e

def evict_lru (t : AssocTable) : AssocTable :=
  match min_by_key t.id_to_entry.iter with
  | none => t
  | some (id, _) =>
    match t.id_to_entry.get id with
    | none => t
    | some e =>
      { t with
        id_to_entry := t.id_to_entry.remove id
        tuple_to_id := t.tuple_to_id.remove e.tuple }.note_reclaimed id

/-- The loop of `alloc_id`; `none` when `n` ids were tried without success. -/
def probe_id : Nat → AssocTable → Option (UInt16 × AssocTable)
  | 0, _ => none
  | n + 1, t =>
    let id := t.next_id
    let next := t.next_id + 1
    let t := { t with next_id := if next = 0 then 1 else next }
    if t.id_to_entry.contains_key id then probe_id n t else some (id, t)

/-- `none` when the loop of the source does not terminate: `next_id` takes each
of its 65535 values once in 65535 rounds. -/
def alloc_id (t : AssocTable) : Option (UInt16 × AssocTable) := t.probe_id 65535

def intern (t : AssocTable) (tuple : FourTuple) : Option (UInt16 × AssocTable) :=
  match t.tuple_to_id.get tuple with
  | some id => some (id, t)
  | none => do
    let t := if t.cap ≤ t.id_to_entry.len then t.evict_lru else t
    let (id, t) ← t.alloc_id
    return (id, { t with
      id_to_entry := t.id_to_entry.insert id { tuple := tuple, last_activity := 0 }
      tuple_to_id := t.tuple_to_id.insert tuple id })

def resolve (t : AssocTable) (assoc_id : UInt16) : Option FlowEntry := t.id_to_entry.get assoc_id

def contains (t : AssocTable) (tuple : FourTuple) : Bool := t.tuple_to_id.contains_key tuple

def touch (t : AssocTable) (assoc_id : UInt16) (now : Nat) : AssocTable :=
  match t.id_to_entry.get assoc_id with
  | some e => { t with id_to_entry := t.id_to_entry.insert assoc_id { e with last_activity := now } }
  | none => t

/-- One round of `sweep`'s second loop. -/
def drop_expired (acc : AssocTable × List Ipv4Addr) (x : UInt16 × FourTuple) : AssocTable × List Ipv4Addr :=
  let (t, reclaimed) := acc
  let t := { t with
    id_to_entry := t.id_to_entry.remove x.1
    tuple_to_id := t.tuple_to_id.remove x.2 }
  match t.id_to_fake_ip.get x.1 with
  | some ip => ({ t with id_to_fake_ip := t.id_to_fake_ip.remove x.1 }, reclaimed ++ [ip])
  | none => (t, reclaimed)

def expired (t : AssocTable) (now idle_secs : Nat) : List (UInt16 × FourTuple) :=
  (t.id_to_entry.iter.filter fun e => decide (idle_secs < now - e.2.last_activity)).map fun e => (e.1, e.2.tuple)

def sweep (t : AssocTable) (now idle_secs : Nat) : List Ipv4Addr × AssocTable :=
  let (t, reclaimed) := (t.expired now idle_secs).foldl drop_expired (t, [])
  (reclaimed, t)

/-! ## References held by associations -/

/-- Associations that hold a reference on `ip`. -/
def holders (t : AssocTable) (ip : Ipv4Addr) : Nat := t.id_to_fake_ip.count (· == ip)

/-- References are held by live associations only. -/
def Live (t : AssocTable) : Prop :=
  ∀ id ip, t.id_to_fake_ip.get id = some ip → ∃ e, t.id_to_entry.get id = some e

theorem new_live : Live new := fun id ip h => by simp [new, with_cap] at h

/-- The reference of `id`, if it has one, moves from the table to the list. -/
theorem note_reclaimed_holders (t : AssocTable) (id : UInt16) (ip : Ipv4Addr) :
    (t.note_reclaimed id).holders ip + (t.note_reclaimed id).reclaimed_fake_ips.count ip =
      t.holders ip + t.reclaimed_fake_ips.count ip := by
  unfold note_reclaimed
  split
  · rename_i ip' h
    simp only [holders, Table.count_of_get h, List.count_append, List.count_cons, List.count_nil]
    omega
  · rfl

theorem get_note_reclaimed (t : AssocTable) (id id' : UInt16) :
    (t.note_reclaimed id).id_to_fake_ip.get id' = if id' = id then none else t.id_to_fake_ip.get id' := by
  unfold note_reclaimed
  split
  · rw [Table.get_remove]
  · rename_i h
    split
    · subst_vars; exact h
    · rfl

theorem note_reclaimed_entries (t : AssocTable) (id : UInt16) : (t.note_reclaimed id).id_to_entry = t.id_to_entry := by
  unfold note_reclaimed
  split <;> rfl

theorem evict_lru_holders (t : AssocTable) (ip : Ipv4Addr) :
    t.evict_lru.holders ip + t.evict_lru.reclaimed_fake_ips.count ip = t.holders ip + t.reclaimed_fake_ips.count ip := by
  unfold evict_lru
  split
  · rfl
  · split
    · rfl
    · exact note_reclaimed_holders _ _ _

theorem evict_lru_live {t : AssocTable} (h : Live t) : Live t.evict_lru := by
  unfold evict_lru
  split
  · exact h
  · split
    · exact h
    · intro id ip hid
      rw [get_note_reclaimed] at hid
      split at hid
      · cases hid
      · rename_i hne
        obtain ⟨e, he⟩ := h id ip hid
        refine ⟨e, ?_⟩
        rw [note_reclaimed_entries, Table.get_remove_ne _ hne]
        exact he

/-- `alloc_id` returns an id that is not in the table and moves `next_id` only. -/
theorem probe_id_cases (n : Nat) {t t' : AssocTable} {id : UInt16} (h : t.probe_id n = some (id, t')) :
    t.id_to_entry.get id = none ∧ ∃ next, t' = { t with next_id := next } := by
  induction n generalizing t with
  | zero => simp [probe_id] at h
  | succ n ih =>
    simp only [probe_id] at h
    split at h
    · obtain ⟨hget, next, rfl⟩ := ih h
      exact ⟨hget, next, rfl⟩
    · rename_i hc
      simp only [Option.some.injEq, Prod.mk.injEq] at h
      obtain ⟨rfl, rfl⟩ := h
      exact ⟨Table.contains_key_eq_false.1 (by simpa using hc), _, rfl⟩

/-- `intern` finds the id of a known tuple, or makes room and mints an id that
no live association has. -/
theorem intern_cases {t t' : AssocTable} {tuple : FourTuple} {id : UInt16} (h : t.intern tuple = some (id, t')) :
    (t.contains tuple = true ∧ t' = t) ∨
    (t.contains tuple = false ∧ ∃ t₀ next, (t₀ = t ∨ t₀ = t.evict_lru) ∧ t₀.id_to_entry.get id = none ∧
      t' = { t₀ with
        next_id := next
        id_to_entry := t₀.id_to_entry.insert id { tuple := tuple, last_activity := 0 }
        tuple_to_id := t₀.tuple_to_id.insert tuple id }) := by
  unfold intern at h
  split at h
  · rename_i id' hid
    simp only [Option.some.injEq, Prod.mk.injEq] at h
    exact .inl ⟨Table.contains_key_iff.2 ⟨id', hid⟩, h.2.symm⟩
  · rename_i hnone
    simp only [alloc_id, Option.bind_eq_bind, Option.bind_eq_some_iff, Option.pure_def, Option.some.injEq,
      Prod.mk.injEq, Prod.exists] at h
    obtain ⟨id', t₁, hp, rfl, rfl⟩ := h
    obtain ⟨hget, next, rfl⟩ := probe_id_cases _ hp
    refine .inr ⟨Table.contains_key_eq_false.2 hnone, _, next, ?_, hget, rfl⟩
    split
    · exact .inr rfl
    · exact .inl rfl

theorem touch_fake_ip (t : AssocTable) (id : UInt16) (now : Nat) :
    (t.touch id now).id_to_fake_ip = t.id_to_fake_ip := by
  unfold touch
  split <;> rfl

theorem touch_reclaimed (t : AssocTable) (id : UInt16) (now : Nat) :
    (t.touch id now).reclaimed_fake_ips = t.reclaimed_fake_ips := by
  unfold touch
  split <;> rfl

theorem touch_entry {t : AssocTable} {id : UInt16} (h : ∃ e, t.id_to_entry.get id = some e) (id' : UInt16) (now : Nat) :
    ∃ e, (t.touch id' now).id_to_entry.get id = some e := by
  unfold touch
  split
  · rw [Table.get_insert]
    split
    · exact ⟨_, rfl⟩
    · exact h
  · exact h

theorem touch_live {t : AssocTable} (h : Live t) (id : UInt16) (now : Nat) : Live (t.touch id now) := by
  intro id' ip hid
  rw [touch_fake_ip] at hid
  exact touch_entry (h id' ip hid) id now

theorem set_fake_ip_live {t : AssocTable} {id : UInt16} (h : Live t) (he : ∃ e, t.id_to_entry.get id = some e)
    (ip : Ipv4Addr) : Live (t.set_fake_ip id ip) := by
  intro id' ip' hid
  simp only [set_fake_ip, Table.get_insert] at hid ⊢
  split at hid
  · subst_vars; exact he
  · exact h id' ip' hid

/-- An association that held nothing takes one reference. -/
theorem set_fake_ip_holders {t : AssocTable} {id : UInt16} (h : t.id_to_fake_ip.get id = none) (ip ip' : Ipv4Addr) :
    (t.set_fake_ip id ip).holders ip' = t.holders ip' + if ip = ip' then 1 else 0 := by
  simp only [holders, set_fake_ip, Table.count_insert, Table.remove_of_get_none h, beq_iff_eq]

theorem drop_expired_holders (acc : AssocTable × List Ipv4Addr) (x : UInt16 × FourTuple) (ip : Ipv4Addr) :
    (drop_expired acc x).1.holders ip + (drop_expired acc x).2.count ip = acc.1.holders ip + acc.2.count ip := by
  simp only [drop_expired]
  split
  · rename_i ip' h
    simp only [holders, Table.count_of_get h, List.count_append, List.count_cons, List.count_nil]
    omega
  · rfl

theorem drop_expired_live {acc : AssocTable × List Ipv4Addr} (h : Live acc.1) (x : UInt16 × FourTuple) :
    Live (drop_expired acc x).1 := by
  intro id ip hid
  simp only [drop_expired] at hid ⊢
  split at hid
  · rw [Table.get_remove] at hid
    split at hid
    · cases hid
    · rename_i hne
      obtain ⟨e, he⟩ := h id ip hid
      exact ⟨e, (Table.get_remove_ne _ hne).trans he⟩
  · rename_i hx
    obtain ⟨e, he⟩ := h id ip hid
    have hne : id ≠ x.1 := by rintro rfl; simp [hx] at hid
    exact ⟨e, (Table.get_remove_ne _ hne).trans he⟩

theorem drop_expired_reclaimed (acc : AssocTable × List Ipv4Addr) (x : UInt16 × FourTuple) :
    (drop_expired acc x).1.reclaimed_fake_ips = acc.1.reclaimed_fake_ips := by
  simp only [drop_expired]
  split <;> rfl

/-- `sweep` returns one address for each reference it drops. -/
theorem sweep_holders (t : AssocTable) (now idle : Nat) (ip : Ipv4Addr) :
    (t.sweep now idle).2.holders ip + (t.sweep now idle).1.count ip = t.holders ip := by
  simp only [sweep]
  suffices h : ∀ (xs : List (UInt16 × FourTuple)) (acc : AssocTable × List Ipv4Addr),
      (xs.foldl drop_expired acc).1.holders ip + (xs.foldl drop_expired acc).2.count ip =
        acc.1.holders ip + acc.2.count ip by
    simpa using h (t.expired now idle) (t, [])
  intro xs
  induction xs with
  | nil => exact fun _ => rfl
  | cons x xs ih => exact fun acc => (ih _).trans (drop_expired_holders acc x ip)

theorem sweep_live {t : AssocTable} (h : Live t) (now idle : Nat) : Live (t.sweep now idle).2 := by
  simp only [sweep]
  suffices hs : ∀ (xs : List (UInt16 × FourTuple)) (acc : AssocTable × List Ipv4Addr), Live acc.1 →
      Live (xs.foldl drop_expired acc).1 from hs _ (t, []) h
  intro xs
  induction xs with
  | nil => exact fun _ ha => ha
  | cons x xs ih => exact fun acc ha => ih _ (drop_expired_live ha x)

theorem sweep_reclaimed (t : AssocTable) (now idle : Nat) :
    (t.sweep now idle).2.reclaimed_fake_ips = t.reclaimed_fake_ips := by
  simp only [sweep]
  suffices hs : ∀ (xs : List (UInt16 × FourTuple)) (acc : AssocTable × List Ipv4Addr),
      (xs.foldl drop_expired acc).1.reclaimed_fake_ips = acc.1.reclaimed_fake_ips from hs _ (t, [])
  intro xs
  induction xs with
  | nil => exact fun _ => rfl
  | cons x xs ih => exact fun acc => (ih _).trans (drop_expired_reclaimed acc x)

end AssocTable

end MiniVpn
