import MiniVpn.Lib.Table
import MiniVpn.Lib.Runs
import MiniVpn.Net
/-!
# The fake-IP pool

`fake_ip.rs`: placeholder addresses from `198.18.0.0/15` for domains, with a
reference count per mapping. `refcount` is the source's `u32`, so `acquire`
wraps at `2^32` (the release profile has no overflow checks) and `release`
saturates at zero.

`calls` is a history variable, not a field of the source: the `acquire` and
`release` calls made so far.
-/
open Lib

namespace MiniVpn

structure Mapping where
  domain : String
  refcount : UInt32
  last_used : Nat
deriving DecidableEq, Repr

/-- A call that moves a reference count. -/
inductive PoolCall where
  | acquire (ip : Ipv4Addr)
  | release (ip : Ipv4Addr)
deriving DecidableEq, Repr

structure FakeIpPool where
  range_start : UInt32
  range_end : UInt32
  /-- The next address to hand out (a cursor on the ring). -/
  next : UInt32
  domain_to_ip : Table String Ipv4Addr
  ip_to_mapping : Table Ipv4Addr Mapping
  calls : List PoolCall

namespace FakeIpPool

def new : FakeIpPool :=
  let range_start := ipv4 198 18 0 0
  { range_start := range_start
    range_end := ipv4 198 19 255 255
    next := range_start + 2
    domain_to_ip := .empty
    ip_to_mapping := .empty
    calls := [] }

def advance_next (p : FakeIpPool) : FakeIpPool :=
  let next := p.next + 1
  { p with next := if next > p.range_end then p.range_start + 2 else next }

/-- The loop of `next_free_ip`: try `n` candidates from the cursor on. -/
def probe : Nat → FakeIpPool → Option Ipv4Addr × FakeIpPool
  | 0, p => (none, p)
  | n + 1, p =>
    let cand := p.next
    let p := p.advance_next
    if p.ip_to_mapping.contains_key cand then probe n p else (some cand, p)

def next_free_ip (p : FakeIpPool) : Ipv4Addr × FakeIpPool :=
  let span := p.range_end - (p.range_start + 2) + 1
  match p.probe span.toNat with
  | (some cand, p) => (cand, p)
  | (none, p) =>
    -- The whole ring is taken: the mapping under the cursor is overwritten.
    let cand := p.next
    let p := p.advance_next
    match p.ip_to_mapping.get cand with
    | some victim =>
      (cand, { p with
        ip_to_mapping := p.ip_to_mapping.remove cand
        domain_to_ip := p.domain_to_ip.remove victim.domain })
    | none => (cand, p)

def alloc (p : FakeIpPool) (domain : String) (now : Nat) : Ipv4Addr × FakeIpPool :=
  match p.domain_to_ip.get domain with
  | some ip =>
    match p.ip_to_mapping.get ip with
    | some m => (ip, { p with ip_to_mapping := p.ip_to_mapping.insert ip { m with last_used := now } })
    | none => (ip, p)
  | none =>
    let (ip, p) := p.next_free_ip
    (ip, { p with
      domain_to_ip := p.domain_to_ip.insert domain ip
      ip_to_mapping := p.ip_to_mapping.insert ip { domain := domain, refcount := 0, last_used := now } })

def acquire (p : FakeIpPool) (ip : Ipv4Addr) (now : Nat) : FakeIpPool :=
  let p := { p with calls := .acquire ip :: p.calls }
  match p.ip_to_mapping.get ip with
  | some m =>
    { p with ip_to_mapping := p.ip_to_mapping.insert ip { m with refcount := m.refcount + 1, last_used := now } }
  | none => p

def saturating_sub_one (c : UInt32) : UInt32 := if c = 0 then 0 else c - 1

def release (p : FakeIpPool) (ip : Ipv4Addr) (now : Nat) : FakeIpPool :=
  let p := { p with calls := .release ip :: p.calls }
  match p.ip_to_mapping.get ip with
  | some m =>
    { p with
      ip_to_mapping := p.ip_to_mapping.insert ip
        { m with refcount := saturating_sub_one m.refcount, last_used := now } }
  | none => p

/-- Drop one mapping and its domain's entry. -/
def forget (p : FakeIpPool) (ip : Ipv4Addr) : FakeIpPool :=
  match p.ip_to_mapping.get ip with
  | some m =>
    { p with
      ip_to_mapping := p.ip_to_mapping.remove ip
      domain_to_ip := p.domain_to_ip.remove m.domain }
  | none => p

def stale (p : FakeIpPool) (now ttl : Nat) : List Ipv4Addr :=
  (p.ip_to_mapping.iter.filter fun e => e.2.refcount == 0 && decide (ttl < now - e.2.last_used)).map (·.1)

def sweep (p : FakeIpPool) (now ttl : Nat) : Nat × FakeIpPool :=
  let stale := p.stale now ttl
  (stale.length, stale.foldl forget p)

def resolve (p : FakeIpPool) (ip : Ipv4Addr) : Option String := (p.ip_to_mapping.get ip).map (·.domain)

def is_fake (p : FakeIpPool) (ip : Ipv4Addr) : Bool := decide (p.range_start ≤ ip) && decide (ip ≤ p.range_end)

/-! ## The ring -/

/-- Number of addresses on the ring, `198.18.0.2` to `198.19.255.255`. -/
def ringSize : Nat := 131070

/-- The `k`th address of the ring. -/
def ringAddr (k : Nat) : Ipv4Addr := UInt32.ofNat (3323068418 + k)

theorem ringAddr_toNat {k : Nat} (h : k < ringSize) : (ringAddr k).toNat = 3323068418 + k := by
  rw [ringAddr, UInt32.toNat_ofNat_of_lt']
  simp only [ringSize, UInt32.size] at h ⊢
  omega

theorem ringAddr_inj {j k : Nat} (hj : j < ringSize) (hk : k < ringSize) (h : ringAddr j = ringAddr k) : j = k := by
  have := congrArg UInt32.toNat h
  rw [ringAddr_toNat hj, ringAddr_toNat hk] at this
  omega

/-- The pool's range is the constant one and its cursor stands on the ring. -/
structure OnRing (p : FakeIpPool) (k : Nat) : Prop where
  start : p.range_start = 3323068416
  stop : p.range_end = 3323199487
  lt : k < ringSize
  next : p.next = ringAddr k

theorem new_onRing : OnRing new 0 where
  start := by decide
  stop := by decide
  lt := by decide
  next := by decide

theorem advance_onRing {p : FakeIpPool} {k : Nat} (h : OnRing p k) :
    OnRing p.advance_next ((k + 1) % ringSize) where
  start := h.start
  stop := h.stop
  lt := Nat.mod_lt _ (by decide)
  next := by
    have hk := h.lt
    have hnext : (p.next + 1).toNat = 3323068418 + k + 1 := by
      rw [h.next, UInt32.toNat_add, ringAddr_toNat hk]
      simp only [ringSize] at hk
      simp only [UInt32.reduceToNat, Nat.reducePow]
      omega
    simp only [advance_next, h.start, h.stop]
    by_cases hlast : k + 1 = ringSize
    · -- The cursor was on the last address and wraps to `.2`.
      rw [hlast, Nat.mod_self, if_pos]
      · decide
      · rw [gt_iff_lt, UInt32.lt_iff_toNat_lt, hnext]
        simp only [ringSize] at hlast
        simp only [UInt32.reduceToNat]
        omega
    · have hlt : k + 1 < ringSize := by omega
      rw [Nat.mod_eq_of_lt hlt, if_neg]
      · apply UInt32.toNat_inj.1
        rw [hnext, ringAddr_toNat hlt]
        omega
      · rw [gt_iff_lt, UInt32.lt_iff_toNat_lt, hnext]
        simp only [ringSize] at hlt
        simp only [UInt32.reduceToNat]
        omega

@[simp] theorem advance_ip_to_mapping (p : FakeIpPool) : p.advance_next.ip_to_mapping = p.ip_to_mapping := rfl
@[simp] theorem advance_domain_to_ip (p : FakeIpPool) : p.advance_next.domain_to_ip = p.domain_to_ip := rfl
@[simp] theorem advance_calls (p : FakeIpPool) : p.advance_next.calls = p.calls := rfl

theorem probe_succ (n : Nat) (p : FakeIpPool) :
    p.probe (n + 1) =
      if p.ip_to_mapping.contains_key p.next then p.advance_next.probe n else (some p.next, p.advance_next) := rfl

/-- `p'` is `p` with the cursor moved. -/
structure Moved (p p' : FakeIpPool) : Prop where
  mapping : p'.ip_to_mapping = p.ip_to_mapping
  domains : p'.domain_to_ip = p.domain_to_ip
  calls : p'.calls = p.calls

/-- `n` probes from position `k`: the first free address within them, or `n`
taken ones. -/
theorem probe_cases (n : Nat) {p : FakeIpPool} {k : Nat} (h : OnRing p k) :
    (∃ j p', (∀ i < j, ∃ m, p.ip_to_mapping.get (ringAddr ((k + i) % ringSize)) = some m) ∧
      p.probe n = (some (ringAddr ((k + j) % ringSize)), p') ∧
      p.ip_to_mapping.get (ringAddr ((k + j) % ringSize)) = none ∧
      OnRing p' ((k + j + 1) % ringSize) ∧ Moved p p') ∨
    (∃ p', p.probe n = (none, p') ∧
      (∀ j < n, ∃ m, p.ip_to_mapping.get (ringAddr ((k + j) % ringSize)) = some m) ∧
      OnRing p' ((k + n) % ringSize) ∧ Moved p p') := by
  induction n generalizing p k with
  | zero =>
    have hk : (k + 0) % ringSize = k := Nat.mod_eq_of_lt h.lt
    exact .inr ⟨p, rfl, by simp, by rw [hk]; exact h, rfl, rfl, rfl⟩
  | succ n ih =>
    have hk : k % ringSize = k := Nat.mod_eq_of_lt h.lt
    have hmod : ∀ j, ((k + 1) % ringSize + j) % ringSize = (k + (j + 1)) % ringSize := fun j => by
      rw [Nat.mod_add_mod]; congr 1; omega
    rw [probe_succ]
    by_cases hc : p.ip_to_mapping.contains_key p.next = true
    · obtain ⟨m, hm⟩ := Table.contains_key_iff.1 hc
      -- The address under the cursor is taken, and so are those the rest of the probe finds taken.
      have htaken : ∀ {n}, (∀ i < n, ∃ m, p.ip_to_mapping.get (ringAddr (((k + 1) % ringSize + i) % ringSize)) = some m) →
          ∀ i < n + 1, ∃ m, p.ip_to_mapping.get (ringAddr ((k + i) % ringSize)) = some m := by
        intro n hall i hi
        rcases i with _ | i
        · exact ⟨m, by rw [Nat.add_zero, hk, ← h.next]; exact hm⟩
        · rw [← hmod]
          exact hall i (by omega)
      rw [if_pos hc]
      rcases ih (advance_onRing h) with ⟨j, p', hall, he, hfree, hr, hmv⟩ | ⟨p', he, hall, hr, hmv⟩
      · refine .inl ⟨j + 1, p', htaken hall, ?_, ?_, ?_, hmv.mapping, hmv.domains, hmv.calls⟩
        · rw [he, hmod]
        · rw [← hmod]; exact hfree
        · rwa [Nat.add_assoc, hmod] at hr
      · refine .inr ⟨p', he, htaken hall, ?_, hmv.mapping, hmv.domains, hmv.calls⟩
        rwa [hmod] at hr
    · rw [if_neg hc]
      refine .inl ⟨0, p.advance_next, by simp, ?_, ?_, ?_, rfl, rfl, rfl⟩
      · rw [Nat.add_zero, hk, h.next]
      · rw [Nat.add_zero, hk, ← h.next]
        exact Table.contains_key_eq_false.1 (by simpa using hc)
      · exact advance_onRing h

/-- Every address of the ring is registered. -/
def Full (p : FakeIpPool) : Prop := ∀ i < ringSize, ∃ m, p.ip_to_mapping.get (ringAddr i) = some m

/-- `next_free_ip` hands out the first free address from the cursor on, or, on a
full ring, overwrites the mapping under the cursor. -/
theorem next_free_ip_cases {p : FakeIpPool} {k : Nat} (h : OnRing p k) :
    (∃ j p', (∀ i < j, ∃ m, p.ip_to_mapping.get (ringAddr ((k + i) % ringSize)) = some m) ∧
      p.next_free_ip = (ringAddr ((k + j) % ringSize), p') ∧ p.ip_to_mapping.get (ringAddr ((k + j) % ringSize)) = none ∧
      OnRing p' ((k + j + 1) % ringSize) ∧ Moved p p') ∨
    (p.Full ∧ ∃ m p', p.ip_to_mapping.get p.next = some m ∧ p.next_free_ip = (p.next, p') ∧
      OnRing p' ((k + 1) % ringSize) ∧ p'.ip_to_mapping = p.ip_to_mapping.remove p.next ∧
      p'.domain_to_ip = p.domain_to_ip.remove m.domain ∧ p'.calls = p.calls) := by
  have hspan : (p.range_end - (p.range_start + 2) + 1).toNat = ringSize := by
    rw [h.start, h.stop]; decide
  simp only [next_free_ip, hspan]
  rcases probe_cases ringSize h with ⟨j, p', hskip, he, hfree, hr, hmv⟩ | ⟨p', he, hall, hr, hmv⟩
  · exact .inl ⟨j, p', hskip, by rw [he], hfree, hr, hmv⟩
  · -- One turn of the ring brings the cursor back to where it stood.
    have hback : (k + ringSize) % ringSize = k := by
      rw [Nat.add_mod_right]; exact Nat.mod_eq_of_lt h.lt
    rw [hback] at hr
    have hnext : p'.next = p.next := by rw [hr.next, h.next]
    have hfull : p.Full := fun i hi => by
      have hlt := h.lt
      obtain ⟨m, hm⟩ := hall ((i + ringSize - k) % ringSize) (Nat.mod_lt _ (by decide))
      rw [Nat.add_mod_mod, show k + (i + ringSize - k) = i + ringSize by omega, Nat.add_mod_right,
        Nat.mod_eq_of_lt hi] at hm
      exact ⟨m, hm⟩
    obtain ⟨m, hm⟩ := hfull k h.lt
    rw [← h.next] at hm
    refine .inr ⟨hfull, m, { p'.advance_next with
        ip_to_mapping := p.ip_to_mapping.remove p.next
        domain_to_ip := p.domain_to_ip.remove m.domain }, hm, ?_, ?_, rfl, rfl, hmv.calls⟩
    · simp only [he, advance_ip_to_mapping, advance_domain_to_ip, hmv.mapping, hmv.domains, hnext, hm]
    · have := advance_onRing hr
      exact ⟨this.start, this.stop, this.lt, this.next⟩

/-! ## The representation invariant -/

/-- Cursor and registered addresses lie on the ring, and the two tables are
inverse to each other. -/
structure Inv (p : FakeIpPool) : Prop where
  ring : ∃ k, OnRing p k
  addrs : ∀ ip m, p.ip_to_mapping.get ip = some m → ∃ i < ringSize, ip = ringAddr i
  inverse : ∀ d ip, p.domain_to_ip.get d = some ip ↔ ∃ m, p.ip_to_mapping.get ip = some m ∧ m.domain = d

theorem new_inv : Inv new where
  ring := ⟨0, new_onRing⟩
  addrs ip m h := by simp [new] at h
  inverse d ip := by simp [new]

/-- A change that leaves range and cursor alone keeps the cursor on the ring. -/
theorem Inv.ring_of {p p' : FakeIpPool} (hi : Inv p) (hs : p'.range_start = p.range_start)
    (he : p'.range_end = p.range_end) (hn : p'.next = p.next) : ∃ k, OnRing p' k :=
  hi.ring.imp fun _ h => ⟨hs.trans h.start, he.trans h.stop, h.lt, hn.trans h.next⟩

/-- Writing a mapping back with its domain unchanged keeps the invariant. -/
theorem inv_touch {p p' : FakeIpPool} (hi : Inv p) {ip : Ipv4Addr} {m m' : Mapping}
    (hm : p.ip_to_mapping.get ip = some m) (hmap : p'.ip_to_mapping = p.ip_to_mapping.insert ip m')
    (hd : m'.domain = m.domain) (hdom : p'.domain_to_ip = p.domain_to_ip)
    (hring : ∃ k, OnRing p' k) : Inv p' where
  ring := hring
  addrs ip' m'' h := by
    rw [hmap, Table.get_insert] at h
    split at h
    · subst_vars; exact hi.addrs _ _ hm
    · exact hi.addrs _ _ h
  inverse d ip' := by
    rw [hdom, hmap, hi.inverse, Table.get_insert]
    split
    · subst_vars; simp [hm, hd]
    · rfl

/-- Dropping a mapping with its domain keeps the invariant. -/
theorem inv_drop {p p' : FakeIpPool} (hi : Inv p) {ip : Ipv4Addr} {m : Mapping}
    (hm : p.ip_to_mapping.get ip = some m) (hmap : p'.ip_to_mapping = p.ip_to_mapping.remove ip)
    (hdom : p'.domain_to_ip = p.domain_to_ip.remove m.domain) (hring : ∃ k, OnRing p' k) : Inv p' where
  ring := hring
  addrs ip' m' h := by
    rw [hmap, Table.get_remove] at h
    split at h
    · cases h
    · exact hi.addrs _ _ h
  inverse d ip' := by
    have hback : ∀ d, p.domain_to_ip.get d = some ip ↔ m.domain = d := fun d => by
      rw [hi.inverse]; simp [hm]
    rw [hdom, hmap, Table.get_remove, Table.get_remove]
    by_cases hd : d = m.domain <;> by_cases hip : ip' = ip
    · simp [hd, hip]
    · simp only [if_pos hd, if_neg hip, reduceCtorEq, false_iff]
      intro hx
      rw [← hi.inverse, hd, (hback _).2 rfl] at hx
      simp [Ne.symm hip] at hx
    · simp only [if_neg hd, if_pos hip, reduceCtorEq, false_and, exists_false, iff_false]
      rw [hip, hback]
      exact Ne.symm hd
    · simp only [if_neg hd, if_neg hip, hi.inverse]

/-- Registering a new domain under a free address keeps the invariant. -/
theorem inv_register {p p' : FakeIpPool} (hi : Inv p) {i : Nat} {d : String} {m : Mapping}
    (hlt : i < ringSize) (hfree : p.ip_to_mapping.get (ringAddr i) = none)
    (hnew : p.domain_to_ip.get d = none) (hd : m.domain = d)
    (hmap : p'.ip_to_mapping = p.ip_to_mapping.insert (ringAddr i) m)
    (hdom : p'.domain_to_ip = p.domain_to_ip.insert d (ringAddr i)) (hring : ∃ k, OnRing p' k) : Inv p' where
  ring := hring
  addrs ip' m' h := by
    rw [hmap, Table.get_insert] at h
    split at h
    · exact ⟨i, hlt, ‹_›⟩
    · exact hi.addrs _ _ h
  inverse d' ip' := by
    rw [hdom, hmap, Table.get_insert, Table.get_insert]
    by_cases hd' : d' = d <;> by_cases hip : ip' = ringAddr i
    · simp [hd', hip, hd]
    · simp only [if_pos hd', if_neg hip, Option.some.injEq, Ne.symm hip, false_iff]
      rw [← hi.inverse, hd', hnew]
      simp
    · simp only [if_neg hd', if_pos hip, Option.some.injEq, exists_eq_left', hd, Ne.symm hd', iff_false]
      rw [hi.inverse, hip, hfree]
      simp
    · simp only [if_neg hd', if_neg hip, hi.inverse]

/-! ## What each operation does -/

/-- The mapping of a domain registered at `now`. -/
def fresh (d : String) (now : Nat) : Mapping := { domain := d, refcount := 0, last_used := now }

/-- `alloc` touches a registered domain, or registers a new one: under a free
address, or on a full ring under the cursor, over the mapping found there. -/
theorem alloc_cases {p : FakeIpPool} (hi : Inv p) (d : String) (now : Nat) :
    (∃ ip m, p.ip_to_mapping.get ip = some m ∧ m.domain = d ∧
      p.alloc d now = (ip, { p with ip_to_mapping := p.ip_to_mapping.insert ip { m with last_used := now } })) ∨
    (p.domain_to_ip.get d = none ∧ ∃ i p', i < ringSize ∧ p.ip_to_mapping.get (ringAddr i) = none ∧
      p.alloc d now = (ringAddr i, p') ∧ (∃ k, OnRing p' k) ∧
      p'.ip_to_mapping = p.ip_to_mapping.insert (ringAddr i) (fresh d now) ∧
      p'.domain_to_ip = p.domain_to_ip.insert d (ringAddr i) ∧ p'.calls = p.calls) ∨
    (p.domain_to_ip.get d = none ∧ p.Full ∧ ∃ m p', p.ip_to_mapping.get p.next = some m ∧
      p.alloc d now = (p.next, p') ∧ (∃ k, OnRing p' k) ∧
      p'.ip_to_mapping = (p.ip_to_mapping.remove p.next).insert p.next (fresh d now) ∧
      p'.domain_to_ip = (p.domain_to_ip.remove m.domain).insert d p.next ∧ p'.calls = p.calls) := by
  obtain ⟨k, hk⟩ := hi.ring
  cases hd : p.domain_to_ip.get d with
  | some ip =>
    obtain ⟨m, hm, hdom⟩ := (hi.inverse d ip).1 hd
    exact .inl ⟨ip, m, hm, hdom, by simp only [alloc, hd, hm]⟩
  | none =>
    simp only [alloc, hd]
    rcases next_free_ip_cases hk with ⟨j, p', -, he, hfree, hr, hmv⟩ | ⟨hfull, m, p', hm, he, hr, hmap, hdom, hcalls⟩
    · rw [he]
      refine .inr (.inl ⟨trivial, (k + j) % ringSize, _, Nat.mod_lt _ (by decide), hfree, rfl, ⟨_, hr.start, hr.stop, hr.lt, hr.next⟩, ?_, ?_, hmv.calls⟩)
      · simp only [hmv.mapping, fresh]
      · simp only [hmv.domains]
    · rw [he]
      refine .inr (.inr ⟨trivial, hfull, m, _, hm, rfl, ⟨_, hr.start, hr.stop, hr.lt, hr.next⟩, ?_, ?_, hcalls⟩)
      · simp only [hmap, fresh]
      · simp only [hdom]

theorem alloc_inv {p : FakeIpPool} (hi : Inv p) (d : String) (now : Nat) : Inv (p.alloc d now).2 := by
  rcases alloc_cases hi d now with ⟨ip, m, hm, -, he⟩ | ⟨hnew, i, p', hlt, hfree, he, hr, hmap, hdom, -⟩ |
    ⟨hnew, -, m, p', hm, he, hr, hmap, hdom, -⟩ <;> rw [he]
  · exact inv_touch hi hm rfl rfl rfl (hi.ring_of rfl rfl rfl)
  · exact inv_register hi hlt hfree hnew rfl hmap hdom hr
  · -- Overwriting is dropping the victim and registering in its place.
    obtain ⟨i, hlt, hip⟩ := hi.addrs _ _ hm
    have hdrop : Inv { p with
        ip_to_mapping := p.ip_to_mapping.remove p.next
        domain_to_ip := p.domain_to_ip.remove m.domain } :=
      inv_drop hi hm rfl rfl (hi.ring_of rfl rfl rfl)
    rw [hip] at hdrop hmap hdom
    refine inv_register hdrop hlt (Table.get_remove_self _ _) ?_ rfl hmap hdom hr
    rw [Table.get_remove]
    split
    · rfl
    · exact hnew

theorem probe_calls (n : Nat) (p : FakeIpPool) : (p.probe n).2.calls = p.calls := by
  induction n generalizing p with
  | zero => rfl
  | succ n ih =>
    rw [probe_succ]
    split
    · rw [ih, advance_calls]
    · rfl

theorem next_free_ip_calls (p : FakeIpPool) : p.next_free_ip.2.calls = p.calls := by
  have h := probe_calls (p.range_end - (p.range_start + 2) + 1).toNat p
  simp only [next_free_ip]
  split <;> rename_i he <;> rw [he] at h
  · exact h
  · split <;> exact h

theorem alloc_calls (p : FakeIpPool) (d : String) (now : Nat) : (p.alloc d now).2.calls = p.calls := by
  unfold alloc
  split
  · split <;> rfl
  · exact next_free_ip_calls p

@[simp] theorem acquire_calls (p : FakeIpPool) (ip : Ipv4Addr) (now : Nat) :
    (p.acquire ip now).calls = .acquire ip :: p.calls := by
  simp only [acquire]
  split <;> rfl

@[simp] theorem release_calls (p : FakeIpPool) (ip : Ipv4Addr) (now : Nat) :
    (p.release ip now).calls = .release ip :: p.calls := by
  simp only [release]
  split <;> rfl

/-- The mapping `acquire` leaves. -/
def acquired (m : Mapping) (now : Nat) : Mapping := { m with refcount := m.refcount + 1, last_used := now }

/-- The mapping `release` leaves. -/
def released (m : Mapping) (now : Nat) : Mapping :=
  { m with refcount := saturating_sub_one m.refcount, last_used := now }

theorem get_acquire (p : FakeIpPool) (ip ip' : Ipv4Addr) (now : Nat) :
    (p.acquire ip now).ip_to_mapping.get ip' =
      if ip' = ip then (p.ip_to_mapping.get ip).map (acquired · now) else p.ip_to_mapping.get ip' := by
  simp only [acquire]
  split
  · rename_i m hm
    simp only [Table.get_insert, hm, Option.map_some, acquired]
  · rename_i hm
    by_cases h : ip' = ip
    · subst h; simp [hm]
    · simp [h]

theorem get_release (p : FakeIpPool) (ip ip' : Ipv4Addr) (now : Nat) :
    (p.release ip now).ip_to_mapping.get ip' =
      if ip' = ip then (p.ip_to_mapping.get ip).map (released · now) else p.ip_to_mapping.get ip' := by
  simp only [release]
  split
  · rename_i m hm
    simp only [Table.get_insert, hm, Option.map_some, released]
  · rename_i hm
    by_cases h : ip' = ip
    · subst h; simp [hm]
    · simp [h]

@[simp] theorem resolve_acquire (p : FakeIpPool) (ip ip' : Ipv4Addr) (now : Nat) :
    (p.acquire ip now).resolve ip' = p.resolve ip' := by
  simp only [resolve, get_acquire]
  split
  · subst_vars
    cases p.ip_to_mapping.get ip' <;> rfl
  · rfl

@[simp] theorem resolve_release (p : FakeIpPool) (ip ip' : Ipv4Addr) (now : Nat) :
    (p.release ip now).resolve ip' = p.resolve ip' := by
  simp only [resolve, get_release]
  split
  · subst_vars
    cases p.ip_to_mapping.get ip' <;> rfl
  · rfl

theorem acquire_inv {p : FakeIpPool} (hi : Inv p) (ip : Ipv4Addr) (now : Nat) : Inv (p.acquire ip now) := by
  simp only [acquire]
  split
  · rename_i hm
    exact inv_touch hi hm rfl rfl rfl (hi.ring_of rfl rfl rfl)
  · exact ⟨hi.ring_of rfl rfl rfl, hi.addrs, hi.inverse⟩

theorem release_inv {p : FakeIpPool} (hi : Inv p) (ip : Ipv4Addr) (now : Nat) : Inv (p.release ip now) := by
  simp only [release]
  split
  · rename_i hm
    exact inv_touch hi hm rfl rfl rfl (hi.ring_of rfl rfl rfl)
  · exact ⟨hi.ring_of rfl rfl rfl, hi.addrs, hi.inverse⟩

theorem get_forget (p : FakeIpPool) (ip ip' : Ipv4Addr) :
    (p.forget ip).ip_to_mapping.get ip' = if ip' = ip then none else p.ip_to_mapping.get ip' := by
  unfold forget
  split
  · simp only [Table.get_remove]
  · split
    · subst_vars; assumption
    · rfl

theorem forget_inv {p : FakeIpPool} (hi : Inv p) (ip : Ipv4Addr) : Inv (p.forget ip) := by
  unfold forget
  split
  · exact inv_drop hi ‹_› rfl rfl (hi.ring_of rfl rfl rfl)
  · exact hi

theorem forget_calls (p : FakeIpPool) (ip : Ipv4Addr) : (p.forget ip).calls = p.calls := by
  unfold forget
  split <;> rfl

theorem get_forgetAll (ips : List Ipv4Addr) (p : FakeIpPool) (ip : Ipv4Addr) :
    (ips.foldl forget p).ip_to_mapping.get ip = if ip ∈ ips then none else p.ip_to_mapping.get ip := by
  induction ips generalizing p with
  | nil => simp
  | cons x xs ih =>
    rw [List.foldl_cons, ih, get_forget]
    by_cases hx : ip = x <;> by_cases hm : ip ∈ xs <;> simp [hx, hm]

theorem sweep_inv {p : FakeIpPool} (hi : Inv p) (now ttl : Nat) : Inv (p.sweep now ttl).2 := by
  unfold sweep
  generalize p.stale now ttl = ips
  induction ips generalizing p with
  | nil => exact hi
  | cons ip ips ih => exact ih (forget_inv hi ip)

theorem sweep_calls (p : FakeIpPool) (now ttl : Nat) : (p.sweep now ttl).2.calls = p.calls := by
  simp only [sweep]
  generalize p.stale now ttl = ips
  induction ips generalizing p with
  | nil => rfl
  | cons ip ips ih => rw [List.foldl_cons, ih, forget_calls]

/-- A swept address has no reference. -/
theorem stale_unreferenced {p : FakeIpPool} {now ttl : Nat} {ip : Ipv4Addr} (h : ip ∈ p.stale now ttl) :
    ∃ m, p.ip_to_mapping.get ip = some m ∧ m.refcount = 0 := by
  obtain ⟨⟨ip', m⟩, hm, rfl⟩ := List.mem_map.1 h
  obtain ⟨hin, hc⟩ := List.mem_filter.1 hm
  simp only [Bool.and_eq_true, beq_iff_eq] at hc
  exact ⟨m, Table.mem_iter.1 hin, hc.1⟩

end FakeIpPool

end MiniVpn
