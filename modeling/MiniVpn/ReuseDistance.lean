import MiniVpn.Lib.RingCursor
import MiniVpn.AssocTheorems
import MiniVpn.PoolTheorems
/-!
# How soon an identifier is used again

A late reply to a UDP flow, or an address an application has cached, must not
reach a new owner soon. Both allocators go round a ring: association ids are the
65535 non-zero `u16`s, fake-IPs the 131070 addresses from `198.18.0.2` on.
`reuse_distance` bounds from below how many others are handed out before one
comes up again, for every run of the two tables.
-/
open Lib

namespace MiniVpn

/-! ## Association ids -/

namespace AssocTable

/-- The ids in the order `next_id` takes. -/
def ringId (k : Nat) : UInt16 := UInt16.ofNat (k % 65535 + 1)

theorem ringId_toNat (k : Nat) : (ringId k).toNat = k % 65535 + 1 := by
  rw [ringId, UInt16.toNat_ofNat', Nat.mod_eq_of_lt]
  omega

theorem isRing_ringId : IsRing ringId 65535 where
  pos := by decide
  eq_iff i j := by rw [← UInt16.toNat_inj, ringId_toNat, ringId_toNat, Nat.add_right_cancel_iff]

theorem bump_ringId (k : Nat) : bump (ringId k) = ringId (k + 1) := by
  have hne : ringId k ≠ 0 := by
    rw [ne_eq, ← UInt16.toNat_inj, ringId_toNat]
    exact Nat.succ_ne_zero _
  rw [← UInt16.toNat_inj, bump_toNat hne, ringId_toNat, ringId_toNat]
  omega

theorem exists_ringId {id : UInt16} (h : id ≠ 0) : ∃ k, id = ringId k := by
  have hlt := id.toNat_lt
  have hpos : id.toNat ≠ 0 := fun h0 => h (UInt16.toNat_inj.1 h0)
  refine ⟨id.toNat - 1, UInt16.toNat_inj.1 ?_⟩
  rw [ringId_toNat]
  omega

/-- The id belongs to an entry of the table. -/
def InUse (t : AssocTable) (id : UInt16) : Prop := ∃ e, t.id_to_entry.get id = some e

/-- The id a call mints: that of an `intern` of a tuple the table does not have. -/
def minted (s : Taken AssocTable Op) : Option UInt16 :=
  match s.ev with
  | .intern tuple => if s.pre.contains tuple then none else (s.pre.intern tuple).map (·.1)
  | _ => none

theorem probe_id_skips (n : Nat) {t t' : AssocTable} {id : UInt16} {k : Nat} (hk : t.next_id = ringId k)
    (h : t.probe_id n = some (id, t')) :
    ∃ j, id = ringId (k + j) ∧ t'.next_id = ringId (k + j + 1) ∧ ∀ i < j, t.InUse (ringId (k + i)) := by
  induction n generalizing t k with
  | zero => simp [probe_id] at h
  | succ n ih =>
    simp only [probe_id] at h
    split at h
    · rename_i hused
      obtain ⟨j, hid, hnext, hskip⟩ := ih (t := { t with next_id := bump t.next_id }) (by rw [hk]; exact bump_ringId k) h
      refine ⟨j + 1, by rw [hid]; congr 1; omega, by rw [hnext]; congr 1; omega, fun i hi => ?_⟩
      rcases i with _ | i
      · rw [Nat.add_zero, ← hk]
        exact Table.contains_key_iff.1 hused
      · rw [show k + (i + 1) = k + 1 + i by omega]
        exact hskip i (by omega)
    · obtain ⟨rfl, rfl⟩ := Prod.mk.inj (Option.some.inj h)
      refine ⟨0, hk, ?_, by simp⟩
      show bump t.next_id = _
      rw [hk, bump_ringId, Nat.add_zero]

theorem evict_lru_sub (t : AssocTable) :
    t.evict_lru.next_id = t.next_id ∧ ∀ id, t.evict_lru.InUse id → t.InUse id := by
  unfold evict_lru
  split
  · exact ⟨rfl, fun _ h => h⟩
  · split
    · exact ⟨rfl, fun _ h => h⟩
    · rw [note_reclaimed_eq]
      refine ⟨rfl, fun id => ?_⟩
      rintro ⟨e, he⟩
      rw [Table.get_remove] at he
      split at he
      · cases he
      · exact ⟨e, he⟩

/-- `intern` of a new tuple moves `next_id` on, over ids in use, to the id it
mints. -/
theorem intern_skips {t t' : AssocTable} {tuple : FourTuple} {id : UInt16} {k : Nat} (hk : t.next_id = ringId k)
    (hnew : t.contains tuple = false) (h : t.intern tuple = some (id, t')) :
    ∃ j, id = ringId (k + j) ∧ t'.next_id = ringId (k + j + 1) ∧ (∀ i < j, t.InUse (ringId (k + i))) ∧
      ∀ a, t'.InUse a → a = id ∨ t.InUse a := by
  obtain ⟨t₀, ht₀, hsub⟩ : ∃ t₀, t₀ = (if t.cap ≤ t.id_to_entry.len then t.evict_lru else t) ∧
      t₀.next_id = t.next_id ∧ ∀ a, t₀.InUse a → t.InUse a := by
    refine ⟨_, rfl, ?_⟩
    split
    · exact evict_lru_sub t
    · exact ⟨rfl, fun _ h => h⟩
  have hnone : t.tuple_to_id.get tuple = none := Table.contains_key_eq_false.1 hnew
  simp only [intern, hnone, ← ht₀, Option.bind_eq_bind, Option.bind_eq_some_iff, Option.pure_def, Option.some.injEq,
    Prod.mk.injEq, Prod.exists] at h
  obtain ⟨id', t₁, halloc, rfl, rfl⟩ := h
  obtain ⟨j, hid, hnext, hskip⟩ := probe_id_skips _ (hsub.1.trans hk) halloc
  obtain ⟨-, next, rfl⟩ := probe_id_cases _ halloc
  refine ⟨j, hid, hnext, fun i hi => hsub.2 _ (hskip i hi), ?_⟩
  rintro a ⟨e, he⟩
  simp only [Table.get_insert] at he
  split at he
  · exact .inl ‹_›
  · exact .inr (hsub.2 a ⟨e, he⟩)

theorem foldl_drop_expired_sub (xs : List (UInt16 × FourTuple)) (acc : AssocTable × List Ipv4Addr) :
    (xs.foldl drop_expired acc).1.next_id = acc.1.next_id ∧
      ∀ id, (xs.foldl drop_expired acc).1.InUse id → acc.1.InUse id := by
  induction xs generalizing acc with
  | nil => exact ⟨rfl, fun _ h => h⟩
  | cons x xs ih =>
    obtain ⟨refs, heq, -⟩ := drop_expired_eq acc x
    obtain ⟨hnext, hsub⟩ := ih (drop_expired acc x)
    rw [heq] at hnext hsub
    refine ⟨hnext, fun id hid => ?_⟩
    obtain ⟨e, he⟩ := hsub id hid
    rw [Table.get_remove] at he
    split at he
    · cases he
    · exact ⟨e, he⟩

/-- Every call hands out ids round the ring. -/
theorem next_advances {s : Taken AssocTable Op} (h : s.pre.next s.ev = some s.post) :
    s.Advances ringId next_id InUse minted := by
  obtain ⟨t, op, t'⟩ := s
  simp only at h
  cases op with
  | intern tuple =>
    obtain ⟨⟨id, t''⟩, hin, rfl⟩ := Option.map_eq_some_iff.1 h
    cases hc : t.contains tuple with
    | true =>
      rcases intern_cases hin with ⟨-, rfl⟩ | ⟨hnew, -⟩
      · exact .keep rfl (fun _ h => h) (by simp [minted, hc])
      · rw [hc] at hnew
        cases hnew
    | false =>
      intro k hk
      obtain ⟨j, rfl, hnext, hskip, hlive⟩ := intern_skips hk hc hin
      have hout : minted ⟨t, .intern tuple, t''⟩ = some (ringId (k + j)) := by simp [minted, hc, hin]
      rw [hout]
      exact ⟨k + j + 1, .take j hskip hlive, hnext⟩
  | touch assoc_id now =>
    obtain rfl := Option.some.inj h
    refine .keep (by unfold touch; split <;> rfl) (fun a ha => ?_) rfl
    obtain ⟨e, he⟩ := ha
    simp only [touch] at he
    split at he
    · rw [Table.get_insert] at he
      split at he
      · rename_i e' hget hid
        exact ⟨e', hid ▸ hget⟩
      · exact ⟨e, he⟩
    · exact ⟨e, he⟩
  | set_fake_ip assoc_id ip =>
    obtain rfl := Option.some.inj h
    exact .keep rfl (fun _ h => h) rfl
  | sweep now idle_secs =>
    obtain rfl := Option.some.inj h
    have hsub := foldl_drop_expired_sub (t.expired now idle_secs) (t, [])
    exact .keep hsub.1 hsub.2 rfl
  | take_reclaimed_fake_ips =>
    obtain rfl := Option.some.inj h
    exact .keep rfl (fun _ h => h) rfl

/-- A minted id is in use. -/
theorem inUse_of_minted {s : Taken AssocTable Op} {id : UInt16} (h : s.pre.next s.ev = some s.post)
    (hid : minted s = some id) : s.post.InUse id := by
  obtain ⟨t, op, t'⟩ := s
  cases op with
  | intern tuple =>
    obtain ⟨⟨id', t''⟩, hin, rfl⟩ := Option.map_eq_some_iff.1 h
    simp only [minted, hin] at hid
    split at hid
    · cases hid
    · rename_i hc
      obtain rfl := Option.some.inj hid
      rcases intern_cases hin with ⟨hk, -⟩ | ⟨-, t₀, next, -, -, rfl⟩
      · exact absurd hk hc
      · exact ⟨_, Table.get_insert_self ..⟩
  | touch | set_fake_ip | sweep | take_reclaimed_fake_ips => cases hid

theorem id_reuse_distance {cap : Nat} {tr₀ tr tr₁ : List (Taken AssocTable Op)} {s₁ s₂ : Taken AssocTable Op} {t : AssocTable}
    {id : UInt16} (h : Run (with_cap cap) next (tr₀ ++ s₁ :: (tr ++ s₂ :: tr₁)) t)
    (hok : ∀ s ∈ tr₀ ++ s₁ :: (tr ++ s₂ :: tr₁), s.pre.allowed s.ev = true) (h₁ : minted s₁ = some id)
    (h₂ : minted s₂ = some id) : 65535 - (with_cap cap).cap ≤ ((tr.filterMap minted).toFinset.erase id).card := by
  have hsteps := h.taken (fun t op => t.allowed op = true) hok
  obtain ⟨hreach₁, hn₁⟩ := hsteps s₁ (by simp)
  obtain ⟨hw₁, hc₁⟩ := reach_wf hreach₁
  obtain ⟨hw, hc⟩ := reach_wf (.step hreach₁ (hok s₁ (by simp)) hn₁)
  obtain ⟨k, hk⟩ := exists_ringId hw₁.next_ne_zero
  have hbetween : Run s₁.post next tr s₂.pre := h.split.2.2.split.1
  refine Nat.le_trans ?_ (others_between isRing_ringId hbetween hk (fun s hs => ?_) h₁ h₂ (inUse_of_minted hn₁ h₁)
    fun l hl hall => Table.length_le_len hl hall)
  · have hle := hw.len_le
    rw [hc] at hle
    simp only [with_cap]
    omega
  · refine next_advances (hsteps s ?_).2
    simp only [List.mem_cons, List.mem_append] at hs ⊢
    tauto

end AssocTable

/-! ## Fake-IPs -/

namespace FakeIpPool

/-- The addresses in the order the cursor takes. -/
def ringIp (k : Nat) : Ipv4Addr := ringAddr (k % ringSize)

theorem isRing_ringIp : IsRing ringIp ringSize where
  pos := by decide
  eq_iff i j := by
    have hlt : ∀ k, k % ringSize < ringSize := fun k => Nat.mod_lt k (by decide)
    exact ⟨ringAddr_inj (hlt i) (hlt j), congrArg ringAddr⟩

/-- The address has a mapping. -/
def InUse (p : FakeIpPool) (ip : Ipv4Addr) : Prop := ∃ m, p.ip_to_mapping.get ip = some m

theorem inUse_iff_resolve {p : FakeIpPool} {ip : Ipv4Addr} : p.InUse ip ↔ (p.resolve ip).isSome = true := by
  rw [InUse, resolve, Option.isSome_map, Option.isSome_iff_exists]

/-- The address a call assigns: that of an `alloc` of a domain the pool does not
have. -/
def assigned (s : Taken FakeIpPool PoolOp) : Option Ipv4Addr :=
  match s.ev with
  | .alloc domain now => if s.pre.domain_to_ip.contains_key domain then none else some (s.pre.alloc domain now).1
  | _ => none

theorem Inv.onRing {p : FakeIpPool} (hi : Inv p) {k : Nat} (hk : p.next = ringIp k) : OnRing p (k % ringSize) := by
  obtain ⟨k', hr⟩ := hi.ring
  exact ⟨hr.start, hr.stop, Nat.mod_lt _ (by decide), hk⟩

/-- The cursor moves on, over addresses in use, to the address it hands out. On a
full ring it is handed out although it is in use. -/
theorem next_free_ip_skips {p : FakeIpPool} (hi : Inv p) {k : Nat} (hk : p.next = ringIp k) :
    ∃ j p', p.next_free_ip = (ringIp (k + j), p') ∧ p'.next = ringIp (k + j + 1) ∧ (∀ i < j, p.InUse (ringIp (k + i))) ∧
      ∀ a, p'.InUse a → p.InUse a := by
  have hr := hi.onRing hk
  have hmod : ∀ i, ringAddr ((k % ringSize + i) % ringSize) = ringIp (k + i) := fun i => by
    rw [ringIp, Nat.mod_add_mod]
  rcases next_free_ip_cases hr with ⟨j, p', hskip, he, -, hr', hmv⟩ | ⟨-, m, p', -, he, hr', hmap, -⟩
  · refine ⟨j, p', by rw [he, hmod], ?_, fun i hi => ?_, fun a ha => ?_⟩
    · rw [hr'.next, Nat.add_assoc, hmod, Nat.add_assoc]
    · rw [← hmod]
      exact hskip i hi
    · rwa [InUse, hmv.mapping] at ha
  · refine ⟨0, p', by rw [he, hk]; rfl, ?_, by simp, fun a ha => ?_⟩
    · rw [hr'.next, hmod]
    · obtain ⟨m', hm'⟩ := ha
      rw [hmap, Table.get_remove] at hm'
      split at hm'
      · cases hm'
      · exact ⟨m', hm'⟩

theorem forget_next (p : FakeIpPool) (ip : Ipv4Addr) : (p.forget ip).next = p.next := by
  unfold forget
  split <;> rfl

theorem release_next (p : FakeIpPool) (ip : Ipv4Addr) (now : Nat) : (p.release ip now).next = p.next := by
  simp only [release]
  split <;> rfl

theorem sweep_next (p : FakeIpPool) (now ttl : Nat) : (p.sweep now ttl).2.next = p.next := by
  have hfold : ∀ (ips : List Ipv4Addr) (p : FakeIpPool), (ips.foldl forget p).next = p.next := by
    intro ips
    induction ips with
    | nil => exact fun _ => rfl
    | cons ip ips ih => exact fun p => (ih _).trans (forget_next p ip)
  exact hfold _ p

/-- An allocation that is not of a new domain changes no address in use. -/
theorem alloc_known {p : FakeIpPool} {d : String} {now : Nat} (hd : p.domain_to_ip.contains_key d = true) :
    (p.alloc d now).2.next = p.next ∧ ∀ a, (p.alloc d now).2.InUse a → p.InUse a := by
  obtain ⟨ip, hip⟩ := Table.contains_key_iff.1 hd
  simp only [alloc, hip]
  split
  · rename_i m hm
    refine ⟨rfl, ?_⟩
    rintro a ⟨m', hm'⟩
    rw [Table.get_insert] at hm'
    split at hm'
    · rename_i ha
      exact ⟨m, ha ▸ hm⟩
    · exact ⟨m', hm'⟩
  · exact ⟨rfl, fun _ h => h⟩

/-- Every call assigns addresses round the ring. -/
theorem apply_advances {s : Taken FakeIpPool PoolOp} (hi : Inv s.pre) (h : some (s.pre.apply s.ev) = some s.post) :
    s.Advances ringIp FakeIpPool.next InUse assigned := by
  obtain ⟨p, op, p'⟩ := s
  obtain rfl : p.apply op = p' := Option.some.inj h
  simp only at hi
  cases op with
  | alloc d now =>
    cases hd : p.domain_to_ip.contains_key d with
    | true => exact .keep (alloc_known hd).1 (alloc_known hd).2 (by simp [assigned, hd])
    | false =>
      intro k hk
      obtain ⟨j, p', he, hnext, hskip, hsub⟩ := next_free_ip_skips hi hk
      have hnone := Table.contains_key_eq_false.1 hd
      have hout : assigned ⟨p, .alloc d now, p.apply (.alloc d now)⟩ = some (ringIp (k + j)) := by
        simp [assigned, hd, alloc, hnone, he]
      rw [hout]
      refine ⟨k + j + 1, .take j hskip fun a ha => ?_, ?_⟩
      · obtain ⟨m, hm⟩ := ha
        simp only [apply, alloc, hnone, he, Table.get_insert] at hm
        split at hm
        · exact .inl ‹_›
        · exact .inr (hsub a ⟨m, hm⟩)
      · simp only [apply, alloc, hnone, he]
        exact hnext
  | acquire ip now =>
    refine .keep (acquire_next p ip now) (fun a ha => ?_) rfl
    rwa [inUse_iff_resolve, apply, resolve_acquire, ← inUse_iff_resolve] at ha
  | release ip now =>
    refine .keep (release_next p ip now) (fun a ha => ?_) rfl
    rwa [inUse_iff_resolve, apply, resolve_release, ← inUse_iff_resolve] at ha
  | sweep now ttl =>
    refine .keep (sweep_next p now ttl) ?_ rfl
    rintro a ⟨m, hm⟩
    exact ⟨m, ((get_sweep p now ttl a m).1 hm).1⟩

theorem inUse_of_assigned {s : Taken FakeIpPool PoolOp} {ip : Ipv4Addr} (h : some (s.pre.apply s.ev) = some s.post)
    (hip : assigned s = some ip) : s.post.InUse ip := by
  obtain ⟨p, op, p'⟩ := s
  obtain rfl : p.apply op = p' := Option.some.inj h
  cases op with
  | alloc d now =>
    simp only [assigned] at hip
    split at hip
    · cases hip
    · rename_i hd
      obtain rfl := Option.some.inj hip
      have hnone : p.domain_to_ip.get d = none := Table.contains_key_eq_false.1 (by simpa using hd)
      simp only [apply, alloc, hnone, InUse]
      exact ⟨_, Table.get_insert_self ..⟩
  | acquire | release | sweep => cases hip

theorem ip_reuse_distance {tr₀ tr tr₁ : List (Taken FakeIpPool PoolOp)} {s₁ s₂ : Taken FakeIpPool PoolOp} {p : FakeIpPool}
    {ip : Ipv4Addr} (h : Run new (fun p op => some (p.apply op)) (tr₀ ++ s₁ :: (tr ++ s₂ :: tr₁)) p)
    (h₁ : assigned s₁ = some ip) (h₂ : assigned s₂ = some ip) :
    131070 - s₁.post.ip_to_mapping.len ≤ ((tr.filterMap assigned).toFinset.erase ip).card := by
  have hsteps := h.taken (fun _ _ => True) fun _ _ => trivial
  have hi₁ : Inv s₁.pre := reachable_inv (hsteps s₁ (by simp)).1
  obtain ⟨k, hr⟩ := hi₁.ring
  have hk : s₁.pre.next = ringIp k := by rw [hr.next, ringIp, Nat.mod_eq_of_lt hr.lt]
  have hbetween : Run s₁.post (fun p op => some (p.apply op)) tr s₂.pre := h.split.2.2.split.1
  refine others_between isRing_ringIp hbetween hk (fun s hs => ?_) h₁ h₂
    (inUse_of_assigned (hsteps s₁ (by simp)).2 h₁) fun l hl hall => Table.length_le_len hl hall
  have hmem : s ∈ tr₀ ++ s₁ :: (tr ++ s₂ :: tr₁) := by
    simp only [List.mem_cons, List.mem_append] at hs ⊢
    tauto
  exact apply_advances (reachable_inv (hsteps s hmem).1) (hsteps s hmem).2

end FakeIpPool

/-- Between two calls that hand out the same identifier, at least as many others
are handed out as the ring has identifiers not in use. -/
theorem reuse_distance :
    (∀ cap tr₀ s₁ tr s₂ tr₁ t id, Run (AssocTable.with_cap cap) AssocTable.next (tr₀ ++ s₁ :: (tr ++ s₂ :: tr₁)) t →
      (∀ s ∈ tr₀ ++ s₁ :: (tr ++ s₂ :: tr₁), s.pre.allowed s.ev = true) →
      AssocTable.minted s₁ = some id → AssocTable.minted s₂ = some id →
      65535 - (AssocTable.with_cap cap).cap ≤ ((tr.filterMap AssocTable.minted).toFinset.erase id).card) ∧
    (∀ tr₀ s₁ tr s₂ tr₁ p ip,
      Run FakeIpPool.new (fun p op => some (FakeIpPool.apply p op)) (tr₀ ++ s₁ :: (tr ++ s₂ :: tr₁)) p →
      FakeIpPool.assigned s₁ = some ip → FakeIpPool.assigned s₂ = some ip →
      131070 - s₁.post.ip_to_mapping.len ≤ ((tr.filterMap FakeIpPool.assigned).toFinset.erase ip).card) := by
  constructor
  · intro cap tr₀ s₁ tr s₂ tr₁ t id h hok h₁ h₂
    exact AssocTable.id_reuse_distance h hok h₁ h₂
  · intro tr₀ s₁ tr s₂ tr₁ p ip h h₁ h₂
    exact FakeIpPool.ip_reuse_distance h h₁ h₂

/-! ## Once round both rings -/

namespace AssocTable

/-- A table of capacity one whose only entry, if it has one, is the last minted. -/
structure Sparse (t : AssocTable) (k : Nat) : Prop where
  wf : Wf t
  cap : t.cap = 1
  cursor : t.next_id = ringId k
  last : ∀ id, t.InUse id → id = ringId (k + 65534)

theorem Sparse.exists_new {t : AssocTable} {k : Nat} (h : Sparse t k) : ∃ tuple, t.contains tuple = false := by
  by_contra hall
  have hid : ∀ tuple, ∃ e, t.id_to_entry.get (ringId (k + 65534)) = some e ∧ e.tuple = tuple := by
    intro tuple
    have hc : t.contains tuple = true := by
      by_contra hc
      exact hall ⟨tuple, by simpa using hc⟩
    obtain ⟨id, hid⟩ := Table.contains_key_iff.1 hc
    obtain ⟨e, he, htuple⟩ := (h.wf.inverse tuple id).1 hid
    exact ⟨e, h.last id ⟨e, he⟩ ▸ he, htuple⟩
  obtain ⟨e, he, h0⟩ := hid ⟨0, 0, 0, 0⟩
  obtain ⟨e', he', h1⟩ := hid ⟨0, 0, 0, 1⟩
  rw [he] at he'
  rw [Option.some.inj he', h1] at h0
  simp at h0

theorem Sparse.exists_step {t : AssocTable} {k : Nat} (h : Sparse t k) :
    ∃ op t', t.next op = some t' ∧ t.allowed op = true ∧ minted ⟨t, op, t'⟩ = some (ringId k) ∧ Sparse t' (k + 1) := by
  obtain ⟨tuple, hnew⟩ := h.exists_new
  have hcap := h.cap
  obtain ⟨gone, id, t', hin, hm, hw, hc⟩ := intern_minted h.wf (by omega) (by omega) (Table.contains_key_eq_false.1 hnew)
  obtain ⟨j, rfl, hnext, hskip, -⟩ := intern_skips h.cursor hnew hin
  obtain rfl : j = 0 := by
    by_contra hj
    have := (isRing_ringId.eq_iff _ _).1 (h.last _ (hskip 0 (by omega)))
    omega
  refine ⟨.intern tuple, t', by simp [AssocTable.next, hin], rfl, by simp [minted, hnew, hin], hw, hc.trans hcap, hnext, ?_⟩
  rintro id ⟨e, he⟩
  rcases (hm.entries id e).1 he with ⟨rfl, -⟩ | ⟨he, hgone⟩
  · exact (isRing_ringId.eq_iff _ _).2 (by omega)
  · -- The one entry there was is evicted.
    have hfull : t.cap ≤ t.id_to_entry.len := by
      have := Table.len_of_get he
      omega
    obtain ⟨v, rfl⟩ := Option.isSome_iff_exists.1 (hm.full.2 hfull)
    have hv := (hm.oldest v rfl).1
    have hid : v.1 = id := (h.last v.1 ⟨v.2, hv⟩).trans (h.last id ⟨e, he⟩).symm
    rw [hid, he] at hv
    exact absurd (by rw [Option.some.inj hv, ← hid]) hgone

theorem Sparse.exists_run {t : AssocTable} {k : Nat} (h : Sparse t k) (n : Nat) :
    ∃ tr t', Run t next tr t' ∧ (∀ s ∈ tr, s.pre.allowed s.ev = true) ∧ Sparse t' (k + n) := by
  induction n with
  | zero => exact ⟨[], t, .nil, by simp, h⟩
  | succ n ih =>
    obtain ⟨tr, t₁, hrun, hok, hs⟩ := ih
    obtain ⟨op, t₂, hn, hop, -, hs₂⟩ := hs.exists_step
    refine ⟨tr ++ [⟨t₁, op, t₂⟩], t₂, hrun.snoc hn, ?_, hs₂⟩
    simp only [List.forall_mem_append, List.forall_mem_singleton]
    exact ⟨hok, hop⟩

end AssocTable

namespace FakeIpPool

/-- No mapping is left, and the cursor stands at `k`. -/
structure Clear (p : FakeIpPool) (k : Nat) : Prop where
  inv : Inv p
  cursor : p.next = ringIp k
  none : ∀ ip, ¬ p.InUse ip

theorem Clear.alloc {p : FakeIpPool} {k : Nat} (h : Clear p k) (d : String) :
    assigned ⟨p, .alloc d 0, p.apply (.alloc d 0)⟩ = some (ringIp k) ∧ (p.apply (.alloc d 0)).next = ringIp (k + 1) ∧
      ∀ ip m, (p.apply (.alloc d 0)).ip_to_mapping.get ip = some m → m = fresh d 0 := by
  have hnone : p.domain_to_ip.get d = .none := by
    refine Option.eq_none_iff_forall_not_mem.2 fun ip hip => ?_
    obtain ⟨m, hm, -⟩ := (h.inv.inverse d ip).1 hip
    exact h.none ip ⟨m, hm⟩
  obtain ⟨j, p', he, hnext, hskip, hsub⟩ := next_free_ip_skips h.inv h.cursor
  obtain rfl : j = 0 := by
    by_contra hj
    exact h.none _ (hskip 0 (by omega))
  simp only [assigned, apply, FakeIpPool.alloc, hnone, he, Table.contains_key, Option.isSome_none, Table.get_insert]
  refine ⟨rfl, hnext, fun ip m hm => ?_⟩
  split at hm
  · exact (Option.some.inj hm).symm
  · exact absurd (hsub ip ⟨m, hm⟩) (h.none ip)

/-- A domain comes, and its mapping is swept. -/
theorem Clear.round {p : FakeIpPool} {k : Nat} (h : Clear p k) (d : String) :
    Clear ((p.apply (.alloc d 0)).apply (.sweep 1 0)) (k + 1) where
  inv := apply_inv (apply_inv h.inv _) _
  cursor := (sweep_next _ 1 0).trans (h.alloc d).2.1
  none ip := by
    rintro ⟨m, hm⟩
    obtain ⟨hm, hexp⟩ := (get_sweep _ 1 0 ip m).1 hm
    rw [(h.alloc d).2.2 ip m hm] at hexp
    exact hexp ⟨rfl, Nat.zero_lt_one⟩

theorem Clear.exists_run {p : FakeIpPool} {k : Nat} (h : Clear p k) (d : String) (n : Nat) :
    ∃ tr p', Run p (fun p op => some (p.apply op)) tr p' ∧ Clear p' (k + n) := by
  induction n with
  | zero => exact ⟨[], p, .nil, h⟩
  | succ n ih =>
    obtain ⟨tr, p₁, hrun, hc⟩ := ih
    exact ⟨_, _, (hrun.snoc rfl).snoc rfl, hc.round d⟩

end FakeIpPool

/-- With one flow at a time id 1 comes back after all the others, and so does the
first fake-IP when each mapping is swept before the next domain comes. -/
theorem reuse_distance_once_round :
    (∃ s₁ tr s₂ t, Run (AssocTable.with_cap 1) AssocTable.next ([] ++ s₁ :: (tr ++ [s₂])) t ∧
      AssocTable.minted s₁ = some 1 ∧ AssocTable.minted s₂ = some 1 ∧
      65534 ≤ ((tr.filterMap AssocTable.minted).toFinset.erase 1).card) ∧
    (∃ s₁ tr s₂ p, Run FakeIpPool.new (fun p op => some (FakeIpPool.apply p op)) ([] ++ s₁ :: (tr ++ [s₂])) p ∧
      FakeIpPool.assigned s₁ = some (ipv4 198 18 0 2) ∧ FakeIpPool.assigned s₂ = some (ipv4 198 18 0 2) ∧
      131069 ≤ ((tr.filterMap FakeIpPool.assigned).toFinset.erase (ipv4 198 18 0 2)).card) := by
  constructor
  · have h₀ : AssocTable.Sparse (AssocTable.with_cap 1) 0 :=
      ⟨AssocTable.with_cap_wf 1, rfl, rfl, fun id h => by simp [AssocTable.InUse, AssocTable.with_cap] at h⟩
    obtain ⟨op₁, t₁, hn₁, hok₁, hm₁, hs₁⟩ := h₀.exists_step
    obtain ⟨tr, t₂, hrun, hok, hs₂⟩ := hs₁.exists_run 65534
    obtain ⟨op₂, t₃, hn₂, hok₂, hm₂, -⟩ := hs₂.exists_step
    have hall : Run (AssocTable.with_cap 1) AssocTable.next ([] ++ ⟨_, op₁, t₁⟩ :: (tr ++ [⟨t₂, op₂, t₃⟩])) t₃ :=
      (Run.nil.snoc hn₁).append (hrun.snoc hn₂)
    refine ⟨_, tr, _, t₃, hall, hm₁, hm₂, reuse_distance.1 1 _ _ tr _ [] t₃ 1 hall (fun s hs => ?_) hm₁ hm₂⟩
    simp only [List.nil_append, List.mem_cons, List.mem_append, List.not_mem_nil, or_false] at hs
    rcases hs with rfl | hs | rfl
    · exact hok₁
    · exact hok s hs
    · exact hok₂
  · have h₀ : FakeIpPool.Clear .new 0 :=
      ⟨FakeIpPool.new_inv, by decide, fun ip h => by simp [FakeIpPool.InUse, FakeIpPool.new] at h⟩
    have h₁ := h₀.alloc "test"
    obtain ⟨tr, p₂, hrun, hc⟩ := (h₀.round "test").exists_run "test" 131069
    have h₂ := hc.alloc "test"
    have hall : Run FakeIpPool.new (fun p op => some (FakeIpPool.apply p op))
        ([] ++ ⟨_, .alloc "test" 0, _⟩ :: ((⟨_, .sweep 1 0, _⟩ :: tr) ++ [⟨p₂, .alloc "test" 0, _⟩])) _ :=
      (Run.nil.snoc rfl).append (((Run.nil.snoc rfl).append hrun).snoc rfl)
    refine ⟨_, _, _, _, hall, h₁.1, h₂.1, ?_⟩
    have hlen : (FakeIpPool.apply .new (.alloc "test" 0)).ip_to_mapping.len = 1 := by decide +kernel
    have hdist := reuse_distance.2 _ _ _ _ [] _ _ hall h₁.1 h₂.1
    rwa [hlen] at hdist

end MiniVpn
