import Mathlib
import MiniVpn.FakeIp
/-!
# Runs of the fake-IP pool

A mapping with references should survive every operation that does not release
its last one. `sweep` respects that; `alloc` does not: on a full ring it
overwrites whatever the cursor stands on. `live_kept_iff` gives the exact
condition under which an operation keeps every live mapping;
`reachable_bijective` says what every operation keeps.
-/
open Lib

namespace MiniVpn.FakeIpPool

inductive PoolOp where
  | alloc (domain : String) (now : Nat)
  | acquire (ip : Ipv4Addr) (now : Nat)
  | release (ip : Ipv4Addr) (now : Nat)
  | sweep (now ttl : Nat)

def apply (p : FakeIpPool) : PoolOp → FakeIpPool
  | .alloc d now => (p.alloc d now).2
  | .acquire ip now => p.acquire ip now
  | .release ip now => p.release ip now
  | .sweep now ttl => (p.sweep now ttl).2

/-- Pools reached from the empty one by any sequence of operations. -/
def Reachable (p : FakeIpPool) : Prop :=
  Reach new (fun p op => some (p.apply op)) (fun _ _ => True) p

theorem apply_inv {p : FakeIpPool} (hi : Inv p) (op : PoolOp) : Inv (p.apply op) := by
  cases op with
  | alloc d now => exact alloc_inv hi d now
  | acquire ip now => exact acquire_inv hi ip now
  | release ip now => exact release_inv hi ip now
  | sweep now ttl => exact sweep_inv hi now ttl

theorem reachable_inv {p : FakeIpPool} (h : Reachable p) : Inv p := by
  refine Reach.inv Inv new_inv (fun p op p' _ hi _ hn => ?_) h
  simp only [Option.some.injEq] at hn
  exact hn ▸ apply_inv hi op

/-! ## What it means to keep a live mapping -/

/-- The count of `ip` after `op`, going by its own acquires and releases. -/
def PoolOp.refs (ip : Ipv4Addr) (n : Nat) : PoolOp → Nat
  | .acquire ip' _ => if ip' = ip then n + 1 else n
  | .release ip' _ => if ip' = ip then n - 1 else n
  | _ => n

/-- `op` releases the last reference of a mapping `m` at `ip`. -/
def PoolOp.Zeroes (op : PoolOp) (ip : Ipv4Addr) (m : Mapping) : Prop :=
  ∃ now, op = .release ip now ∧ m.refcount = 1

/-- Every mapping with references survives `op` with its domain, and its count
moves by its own acquires and releases only. -/
def Kept (p : FakeIpPool) (op : PoolOp) : Prop :=
  ∀ ip m, p.ip_to_mapping.get ip = some m → 0 < m.refcount.toNat → ¬ op.Zeroes ip m →
    ∃ m', (p.apply op).ip_to_mapping.get ip = some m' ∧ m'.domain = m.domain ∧
      m'.refcount.toNat = op.refs ip m.refcount.toNat

/-- `op` registers a new domain while all 131070 addresses are registered and
the mapping under the cursor has references. -/
def EvictsLive (p : FakeIpPool) (op : PoolOp) : Prop :=
  ∃ d now m, op = .alloc d now ∧ p.domain_to_ip.get d = none ∧ p.Full ∧
    p.ip_to_mapping.get p.next = some m ∧ 0 < m.refcount.toNat

/-- `op` acquires a mapping that already has `2^32 - 1` references. -/
def Overflows (p : FakeIpPool) (op : PoolOp) : Prop :=
  ∃ ip now m, op = .acquire ip now ∧ p.ip_to_mapping.get ip = some m ∧ m.refcount.toNat = 2 ^ 32 - 1

theorem saturating_sub_one_toNat (c : UInt32) : (saturating_sub_one c).toNat = c.toNat - 1 := by
  unfold saturating_sub_one
  split
  · subst_vars; rfl
  · rename_i h
    have hpos : c.toNat ≠ 0 := fun h0 => h (UInt32.toNat_inj.1 h0)
    have hle : (1 : UInt32) ≤ c := by rw [UInt32.le_iff_toNat_le]; simp only [UInt32.reduceToNat]; omega
    rw [UInt32.toNat_sub_of_le _ _ hle]; rfl

theorem kept_alloc {p : FakeIpPool} (hi : Inv p) (d : String) (now : Nat) (h : ¬ EvictsLive p (.alloc d now)) :
    Kept p (.alloc d now) := by
  intro ip m hm hpos _
  simp only [apply, PoolOp.refs]
  rcases alloc_cases hi d now with ⟨ip', m', hm', -, he⟩ | ⟨-, i, p', -, hfree, he, -, hmap, -⟩ |
    ⟨hnew, hfull, m', p', hm', he, -, hmap, -⟩ <;> rw [he]
  · -- A registered domain: only `last_used` of its own mapping moves.
    simp only [Table.get_insert]
    split
    · subst_vars
      obtain rfl : m' = m := by simpa [hm'] using hm
      exact ⟨_, rfl, rfl, rfl⟩
    · exact ⟨m, hm, rfl, rfl⟩
  · -- A free address is not the address of `m`.
    rw [hmap, Table.get_insert, if_neg]
    · exact ⟨m, hm, rfl, rfl⟩
    · rintro rfl; simp [hm] at hfree
  · -- The overwritten mapping has no references, so it is not `m`.
    rw [hmap, Table.get_insert, if_neg, Table.get_remove, if_neg]
    · exact ⟨m, hm, rfl, rfl⟩
    all_goals
      rintro rfl
      exact h ⟨d, now, m, rfl, hnew, hfull, hm, hpos⟩

theorem kept_acquire {p : FakeIpPool} (ip : Ipv4Addr) (now : Nat) (h : ¬ Overflows p (.acquire ip now)) :
    Kept p (.acquire ip now) := by
  intro ip' m hm _ _
  simp only [apply, PoolOp.refs, get_acquire]
  by_cases hip : ip' = ip
  · subst hip
    refine ⟨acquired m now, by simp [hm], rfl, ?_⟩
    have hne : m.refcount.toNat ≠ 2 ^ 32 - 1 := fun hmax => h ⟨ip', now, m, rfl, hm, hmax⟩
    have hlt := m.refcount.toNat_lt
    simp only [acquired, UInt32.toNat_add, UInt32.reduceToNat, if_true]
    omega
  · exact ⟨m, by simp [hip, hm], rfl, by simp [Ne.symm hip]⟩

theorem kept_release {p : FakeIpPool} (ip : Ipv4Addr) (now : Nat) : Kept p (.release ip now) := by
  intro ip' m hm _ _
  simp only [apply, PoolOp.refs, get_release]
  by_cases hip : ip' = ip
  · subst hip
    exact ⟨released m now, by simp [hm], rfl, by simp [released, saturating_sub_one_toNat]⟩
  · exact ⟨m, by simp [hip, hm], rfl, by simp [Ne.symm hip]⟩

theorem kept_sweep {p : FakeIpPool} (now ttl : Nat) : Kept p (.sweep now ttl) := by
  intro ip m hm hpos _
  refine ⟨m, ?_, rfl, rfl⟩
  simp only [apply, sweep, get_forgetAll]
  rw [if_neg, hm]
  intro hin
  obtain ⟨m', hm', h0⟩ := stale_unreferenced hin
  obtain rfl : m = m' := by simpa [hm] using hm'
  simp [h0] at hpos

theorem not_kept_of_evictsLive {p : FakeIpPool} (hi : Inv p) {op : PoolOp} (h : EvictsLive p op) : ¬ Kept p op := by
  obtain ⟨d, now, m, rfl, hnew, hfull, hm, hpos⟩ := h
  intro hk
  obtain ⟨m', hm', -, hc⟩ := hk p.next m hm hpos (by rintro ⟨_, he, _⟩; cases he)
  simp only [apply, PoolOp.refs] at hm' hc
  rcases alloc_cases hi d now with ⟨ip, m'', hm'', hd, he⟩ | ⟨-, i, p', hlt, hfree, -⟩ | ⟨-, -, _, p', -, he, -, hmap, -⟩
  · have := (hi.inverse d ip).2 ⟨m'', hm'', hd⟩
    simp [hnew] at this
  · obtain ⟨_, hx⟩ := hfull i hlt
    simp [hfree] at hx
  · rw [he] at hm'
    simp only [hmap, Table.get_insert_self, Option.some.injEq] at hm'
    subst hm'
    simp [fresh] at hc
    omega

theorem not_kept_of_overflows {p : FakeIpPool} {op : PoolOp} (h : Overflows p op) : ¬ Kept p op := by
  obtain ⟨ip, now, m, rfl, hm, hmax⟩ := h
  intro hk
  obtain ⟨m', -, -, hc⟩ := hk ip m hm (by omega) (by rintro ⟨_, he, _⟩; cases he)
  simp only [PoolOp.refs, if_true] at hc
  have := m'.refcount.toNat_lt
  omega

/-- From every reachable pool, an operation keeps all live mappings exactly when
it neither evicts a live one from a full ring nor overflows a count. -/
theorem live_kept_iff {p : FakeIpPool} (h : Reachable p) (op : PoolOp) :
    Kept p op ↔ ¬ EvictsLive p op ∧ ¬ Overflows p op := by
  have hi := reachable_inv h
  constructor
  · intro hk
    exact ⟨fun he => not_kept_of_evictsLive hi he hk, fun ho => not_kept_of_overflows ho hk⟩
  · rintro ⟨he, ho⟩
    cases op with
    | alloc d now => exact kept_alloc hi d now he
    | acquire ip now => exact kept_acquire ip now ho
    | release ip now => exact kept_release ip now
    | sweep now ttl => exact kept_sweep now ttl

/-! ## The two maps

The tables stay inverse to each other through every operation, also through the
overwriting `alloc` and the bulk removal of `sweep`. -/

theorem alloc_resolve {p : FakeIpPool} (hi : Inv p) (d : String) (now : Nat) :
    (p.alloc d now).2.resolve (p.alloc d now).1 = some d := by
  rcases alloc_cases hi d now with ⟨ip, m, -, hd, he⟩ | ⟨-, i, p', -, -, he, -, hmap, -⟩ |
    ⟨-, -, m, p', -, he, -, hmap, -⟩ <;> rw [he, resolve]
  · simp [hd]
  · simp [hmap, fresh]
  · simp [hmap, fresh]

/-- A registered domain keeps its address. -/
theorem alloc_registered {p : FakeIpPool} (hi : Inv p) {d : String} {ip : Ipv4Addr} (now : Nat)
    (h : p.domain_to_ip.get d = some ip) :
    (p.alloc d now).1 = ip ∧ (p.alloc d now).2.domain_to_ip = p.domain_to_ip := by
  obtain ⟨m, hm, -⟩ := (hi.inverse d ip).1 h
  simp [alloc, h, hm]

/-- A full ring has all its addresses in the table. -/
theorem Full.size {p : FakeIpPool} (h : p.Full) : ringSize ≤ p.ip_to_mapping.len := by
  have hkeys : ∀ ip ∈ (List.range ringSize).map ringAddr, ∃ m, p.ip_to_mapping.get ip = some m := by
    intro ip hip
    obtain ⟨i, hi, rfl⟩ := List.mem_map.1 hip
    exact h i (List.mem_range.1 hi)
  have hnodup : ((List.range ringSize).map ringAddr).Nodup := by
    refine List.Nodup.map_on ?_ List.nodup_range
    intro i hi j hj he
    exact ringAddr_inj (List.mem_range.1 hi) (List.mem_range.1 hj) he
  have hle := Table.length_le_len hnodup hkeys
  rwa [List.length_map, List.length_range] at hle

/-- With an address to spare, a new domain gets an unregistered one. -/
theorem alloc_free {p : FakeIpPool} (hi : Inv p) {d : String} (now : Nat) (hnew : p.domain_to_ip.get d = none)
    (hroom : p.ip_to_mapping.len < ringSize) : p.ip_to_mapping.get (p.alloc d now).1 = none := by
  rcases alloc_cases hi d now with ⟨ip, m, hm, hd, -⟩ | ⟨-, i, p', -, hfree, he, -⟩ | ⟨-, hfull, -⟩
  · have := (hi.inverse d ip).2 ⟨m, hm, hd⟩
    simp [hnew] at this
  · rw [he]
    exact hfree
  · exact absurd hfull.size (by omega)

/-- No reference, and idle for more than `ttl`. -/
def Expired (m : Mapping) (now ttl : Nat) : Prop := m.refcount = 0 ∧ ttl < now - m.last_used

theorem mem_stale {p : FakeIpPool} {now ttl : Nat} {ip : Ipv4Addr} :
    ip ∈ p.stale now ttl ↔ ∃ m, p.ip_to_mapping.get ip = some m ∧ Expired m now ttl := by
  simp only [stale, List.mem_map, List.mem_filter, Prod.exists, Table.mem_iter, Expired, Bool.and_eq_true, beq_iff_eq,
    decide_eq_true_eq]
  constructor
  · rintro ⟨_, m, hm, rfl⟩
    exact ⟨m, hm⟩
  · rintro ⟨m, hm⟩
    exact ⟨ip, m, hm, rfl⟩

theorem get_sweep (p : FakeIpPool) (now ttl : Nat) (ip : Ipv4Addr) (m : Mapping) :
    (p.sweep now ttl).2.ip_to_mapping.get ip = some m ↔
      p.ip_to_mapping.get ip = some m ∧ ¬ Expired m now ttl := by
  simp only [sweep, get_forgetAll]
  constructor
  · intro h
    split at h
    · cases h
    · rename_i hkeep
      exact ⟨h, fun hx => hkeep (mem_stale.2 ⟨m, h, hx⟩)⟩
  · rintro ⟨hm, hx⟩
    rw [if_neg, hm]
    intro hin
    obtain ⟨m', hm', hx'⟩ := mem_stale.1 hin
    obtain rfl : m = m' := by simpa [hm] using hm'
    exact hx hx'

/-- The domains `sweep` keeps are those of the mappings it keeps. -/
theorem sweep_domains {p : FakeIpPool} (hi : Inv p) (now ttl : Nat) (d : String) (ip : Ipv4Addr) :
    (p.sweep now ttl).2.domain_to_ip.get d = some ip ↔
      p.domain_to_ip.get d = some ip ∧ ∀ m, p.ip_to_mapping.get ip = some m → ¬ Expired m now ttl := by
  rw [(sweep_inv hi now ttl).inverse, hi.inverse]
  simp only [get_sweep]
  constructor
  · rintro ⟨m, ⟨hm, hx⟩, hd⟩
    refine ⟨⟨m, hm, hd⟩, fun m' hm' => ?_⟩
    obtain rfl : m = m' := by simpa [hm] using hm'
    exact hx
  · rintro ⟨⟨m, hm, hd⟩, hx⟩
    exact ⟨m, ⟨hm, hx m hm⟩, hd⟩

/-- On the ring, from `198.18.0.2` to `198.19.255.255`. -/
def InRange (ip : Ipv4Addr) : Prop := ipv4 198 18 0 2 ≤ ip ∧ ip ≤ ipv4 198 19 255 255

theorem ringAddr_inRange {i : Nat} (h : i < ringSize) : InRange (ringAddr i) := by
  have hlo : (ipv4 198 18 0 2).toNat = 3323068418 := by decide
  have hhi : (ipv4 198 19 255 255).toNat = 3323199487 := by decide
  simp only [InRange, UInt32.le_iff_toNat_le, ringAddr_toNat h, hlo, hhi]
  simp only [ringSize] at h
  omega

/-- What the pool guarantees to its callers. -/
structure Bijective (p : FakeIpPool) : Prop where
  inverse : ∀ d ip, p.domain_to_ip.get d = some ip ↔ ∃ m, p.ip_to_mapping.get ip = some m ∧ m.domain = d
  distinct : ∀ d d' ip, p.domain_to_ip.get d = some ip → p.domain_to_ip.get d' = some ip → d = d'
  cursor : InRange p.next
  range : ∀ ip m, p.ip_to_mapping.get ip = some m → InRange ip
  resolves : ∀ d now, (p.alloc d now).2.resolve (p.alloc d now).1 = some d
  stable : ∀ d ip now, p.domain_to_ip.get d = some ip →
    (p.alloc d now).1 = ip ∧ (p.alloc d now).2.domain_to_ip = p.domain_to_ip
  free : ∀ d now, p.domain_to_ip.get d = none → p.ip_to_mapping.len < 131070 →
    p.ip_to_mapping.get (p.alloc d now).1 = none
  swept : ∀ now ttl ip m, (p.sweep now ttl).2.ip_to_mapping.get ip = some m ↔
    p.ip_to_mapping.get ip = some m ∧ ¬ (m.refcount = 0 ∧ ttl < now - m.last_used)
  sweptDomains : ∀ now ttl d ip, (p.sweep now ttl).2.domain_to_ip.get d = some ip ↔
    p.domain_to_ip.get d = some ip ∧
      ∀ m, p.ip_to_mapping.get ip = some m → ¬ (m.refcount = 0 ∧ ttl < now - m.last_used)

/-- Any sequence of operations leaves a pool whose two maps are inverse to each
other on the range, and whose next operation keeps to that. -/
theorem reachable_bijective {p : FakeIpPool} (h : Reachable p) : Bijective p := by
  have hi := reachable_inv h
  exact { inverse := hi.inverse
          distinct := fun d d' ip hd hd' => by
            obtain ⟨m, hm, rfl⟩ := (hi.inverse d ip).1 hd
            obtain ⟨m', hm', rfl⟩ := (hi.inverse d' ip).1 hd'
            rw [hm, Option.some.injEq] at hm'
            rw [hm']
          cursor := by
            obtain ⟨k, hk⟩ := hi.ring
            rw [hk.next]
            exact ringAddr_inRange hk.lt
          range := fun ip m hm => by
            obtain ⟨i, hlt, rfl⟩ := hi.addrs ip m hm
            exact ringAddr_inRange hlt
          resolves := alloc_resolve hi
          stable := fun d ip now => alloc_registered hi now
          free := fun d now => alloc_free hi now
          swept := get_sweep p
          sweptDomains := sweep_domains hi }

/-! ## A full ring

Registering `131070` names fills the ring and brings the cursor back to
`198.18.0.2`, the address of the first of them. -/

def hostName (i : Nat) : String := i.repr ++ ".test"

theorem hostName_inj {i j : Nat} (h : hostName i = hostName j) : i = j :=
  Nat.repr_inj.1 ((String.append_left_inj _).1 h)

/-- The pool after the first `n` names were registered at time zero. -/
def fill : Nat → FakeIpPool
  | 0 => new
  | n + 1 => (fill n).apply (.alloc (hostName n) 0)

theorem fill_reachable (n : Nat) : Reachable (fill n) := by
  induction n with
  | zero => exact .init
  | succ n ih => exact .step ih trivial rfl

/-- The first `n` addresses hold the first `n` names, the others are free. -/
structure Filled (p : FakeIpPool) (n : Nat) : Prop where
  ring : OnRing p (n % ringSize)
  taken : ∀ i < n, p.ip_to_mapping.get (ringAddr i) = some (fresh (hostName i) 0)
  free : ∀ i, n ≤ i → i < ringSize → p.ip_to_mapping.get (ringAddr i) = none

theorem Filled.unknown {p : FakeIpPool} {n : Nat} (h : Filled p n) (hi : Inv p) :
    p.domain_to_ip.get (hostName n) = none := by
  by_contra hsome
  obtain ⟨ip, hip⟩ := Option.ne_none_iff_exists'.1 hsome
  obtain ⟨m, hm, hd⟩ := (hi.inverse _ _).1 hip
  obtain ⟨i, hlt, rfl⟩ := hi.addrs _ _ hm
  rcases Nat.lt_or_ge i n with hin | hin
  · rw [h.taken i hin, Option.some.injEq] at hm
    subst hm
    exact absurd (hostName_inj hd) (by omega)
  · simp [h.free i hin hlt] at hm

/-- With a free address under the cursor, a new domain is registered there. -/
theorem alloc_at_cursor {p : FakeIpPool} {k : Nat} {d : String} (now : Nat) (h : OnRing p k)
    (hnew : p.domain_to_ip.get d = none) (hfree : p.ip_to_mapping.get (ringAddr k) = none) :
    OnRing (p.alloc d now).2 ((k + 1) % ringSize) ∧
      (p.alloc d now).2.ip_to_mapping = p.ip_to_mapping.insert (ringAddr k) (fresh d now) := by
  have hspan : (p.range_end - (p.range_start + 2) + 1).toNat = (ringSize - 1) + 1 := by
    rw [h.start, h.stop]; decide
  have hcur : p.ip_to_mapping.contains_key p.next = false := by
    rw [h.next]; exact Table.contains_key_eq_false.2 hfree
  have hr := advance_onRing h
  simp only [alloc, hnew, next_free_ip, hspan, probe_succ, hcur]
  exact ⟨⟨hr.start, hr.stop, hr.lt, hr.next⟩, by simp [h.next, fresh]⟩

theorem fill_filled {n : Nat} (hn : n ≤ ringSize) : Filled (fill n) n := by
  induction n with
  | zero => exact ⟨new_onRing, fun i hi => absurd hi (by omega), fun i _ _ => Table.get_empty _⟩
  | succ n ih =>
    have hf := ih (by omega)
    have hk : n % ringSize = n := Nat.mod_eq_of_lt (by omega)
    have hring := hf.ring
    rw [hk] at hring
    obtain ⟨hr, hmap⟩ := alloc_at_cursor 0 hring (hf.unknown (reachable_inv (fill_reachable n)))
      (hf.free n (Nat.le_refl n) hn)
    refine ⟨hr, fun i hi => ?_, fun i hi hlt => ?_⟩
    · simp only [fill, apply, hmap, Table.get_insert]
      by_cases hin : i = n
      · rw [hin, if_pos rfl]
      · rw [if_neg (fun he => hin (ringAddr_inj (by omega) hn he))]
        exact hf.taken i (by omega)
    · simp only [fill, apply, hmap]
      rw [Table.get_insert_ne _ _ fun he => absurd (ringAddr_inj hlt hn he) (by omega)]
      exact hf.free i (by omega) hlt

theorem acquire_next (p : FakeIpPool) (ip : Ipv4Addr) (now : Nat) : (p.acquire ip now).next = p.next := by
  simp only [acquire]
  split <;> rfl

theorem acquire_domain_to_ip (p : FakeIpPool) (ip : Ipv4Addr) (now : Nat) :
    (p.acquire ip now).domain_to_ip = p.domain_to_ip := by
  simp only [acquire]
  split <;> rfl

/-- The full ring, with one flow open to the first name. -/
def fullPool : FakeIpPool := (fill ringSize).apply (.acquire (ringAddr 0) 1)

theorem fullPool_reachable : Reachable fullPool := .step (fill_reachable ringSize) trivial rfl

theorem fullPool_first : fullPool.ip_to_mapping.get (ringAddr 0) = some (acquired (fresh (hostName 0) 0) 1) := by
  rw [fullPool, apply, get_acquire, if_pos rfl, (fill_filled (Nat.le_refl _)).taken 0 (by decide)]
  rfl

theorem fullPool_next : fullPool.next = ringAddr 0 := by
  rw [fullPool, apply, acquire_next, (fill_filled (Nat.le_refl _)).ring.next, Nat.mod_self]

theorem fullPool_full : fullPool.Full := by
  intro i hi
  have ht := (fill_filled (Nat.le_refl _)).taken i hi
  rw [fullPool, apply, get_acquire]
  split
  · rename_i he
    exact ⟨_, by rw [← he, ht]; rfl⟩
  · exact ⟨_, ht⟩

theorem fullPool_unknown : fullPool.domain_to_ip.get (hostName ringSize) = none := by
  rw [fullPool, apply, acquire_domain_to_ip]
  exact (fill_filled (Nat.le_refl _)).unknown (reachable_inv (fill_reachable _))

/-- A sweep of the full pool keeps the mapping with a reference, however old. -/
theorem fullPool_sweep_kept : Reachable fullPool ∧ Kept fullPool (.sweep 10000 1800) := by
  refine ⟨fullPool_reachable, (live_kept_iff fullPool_reachable (.sweep 10000 1800)).2 ⟨?_, ?_⟩⟩
  · rintro ⟨_, _, _, h, _⟩; cases h
  · rintro ⟨_, _, _, h, _⟩; cases h

/-- `198.18.0.2` maps to `0.test` with one reference; the next new name takes
the address over. -/
theorem live_mapping_overwritten :
    Reachable fullPool ∧
    fullPool.ip_to_mapping.get (ipv4 198 18 0 2) = some { domain := "0.test", refcount := 1, last_used := 1 } ∧
    (fullPool.apply (.alloc (hostName ringSize) 2)).ip_to_mapping.get (ipv4 198 18 0 2) =
      some { domain := hostName ringSize, refcount := 0, last_used := 2 } ∧
    ¬ Kept fullPool (.alloc (hostName ringSize) 2) := by
  have hip : ipv4 198 18 0 2 = fullPool.next := by rw [fullPool_next]; decide
  have hfirst : fullPool.ip_to_mapping.get fullPool.next = some (acquired (fresh (hostName 0) 0) 1) := by
    rw [fullPool_next]; exact fullPool_first
  have hi := reachable_inv fullPool_reachable
  refine ⟨fullPool_reachable, ?_, ?_, ?_⟩
  · rw [hip, hfirst]; rfl
  · rcases alloc_cases hi (hostName ringSize) 2 with ⟨ip, m, hm, hd, -⟩ | ⟨-, i, p', hlt, hfree, -⟩ |
      ⟨-, -, m, p', -, he, -, hmap, -⟩
    · have := (hi.inverse _ _).2 ⟨m, hm, hd⟩
      simp [fullPool_unknown] at this
    · obtain ⟨_, hx⟩ := fullPool_full i hlt
      simp [hfree] at hx
    · rw [hip, apply, he, hmap, Table.get_insert_self]; rfl
  · exact not_kept_of_evictsLive hi
      ⟨_, _, _, rfl, fullPool_unknown, fullPool_full, hfirst, by decide⟩

/-- The full pool with a live flow is such a pool, and so is the one after the
next name has taken the address over. -/
theorem fullPool_bijective :
    Bijective fullPool ∧ Bijective (fullPool.apply (.alloc (hostName ringSize) 2)) :=
  ⟨reachable_bijective fullPool_reachable, reachable_bijective (.step fullPool_reachable trivial rfl)⟩

end MiniVpn.FakeIpPool
