import MiniVpn.AssocTheorems
import MiniVpn.References
import MiniVpn.Upcalls
/-!
# A fake-IP stays as long as it is held

`References.lean` says who holds an address, going by the calls made. Here the
count in the mapping is tied to those calls, so an address that a slot or a UDP
flow holds is never swept. This needs what the ring and the 32 bits of a count
can hold: `Roomy` says that neither runs out.
-/
open Lib

namespace MiniVpn

namespace FakeIpPool

variable {p : FakeIpPool}

/-- References counted for `ip`; none without a mapping. -/
def refs (p : FakeIpPool) (ip : Ipv4Addr) : Nat := ((p.ip_to_mapping.get ip).map (·.refcount.toNat)).getD 0

/-- The counts are the calls made. -/
def Counted (p : FakeIpPool) : Prop := ∀ ip, p.acquires ip = p.releases ip + p.refs ip

theorem refs_of_get {ip : Ipv4Addr} {m : Mapping} (h : p.ip_to_mapping.get ip = some m) :
    p.refs ip = m.refcount.toNat := by
  simp [refs, h]

theorem refs_of_get_none {ip : Ipv4Addr} (h : p.ip_to_mapping.get ip = none) : p.refs ip = 0 := by
  simp [refs, h]

theorem refs_release (p : FakeIpPool) (ip ip' : Ipv4Addr) (now : Nat) :
    (p.release ip now).refs ip' = p.refs ip' - if ip = ip' then 1 else 0 := by
  simp only [refs, get_release]
  by_cases hip : ip' = ip
  · subst hip
    cases p.ip_to_mapping.get ip' <;> simp [released, saturating_sub_one_toNat]
  · simp [hip, Ne.symm hip]

theorem refs_acquire {ip : Ipv4Addr} {name : String} (hname : p.resolve ip = some name)
    (hlt : p.refs ip < 2 ^ 32 - 1) (ip' : Ipv4Addr) (now : Nat) :
    (p.acquire ip now).refs ip' = p.refs ip' + if ip = ip' then 1 else 0 := by
  obtain ⟨m, hm, -⟩ := Option.map_eq_some_iff.1 hname
  rw [refs_of_get hm] at hlt
  simp only [refs, get_acquire]
  by_cases hip : ip' = ip
  · subst hip
    simp only [hm, if_true, Option.map_some, Option.getD_some, acquired, UInt32.toNat_add, UInt32.reduceToNat]
    omega
  · simp [hip, Ne.symm hip]

/-- Swept mappings have no references. -/
theorem refs_sweep (p : FakeIpPool) (now ttl : Nat) (ip : Ipv4Addr) : (p.sweep now ttl).2.refs ip = p.refs ip := by
  have hkept := get_sweep p now ttl ip
  cases hm : p.ip_to_mapping.get ip with
  | none =>
    cases hm' : (p.sweep now ttl).2.ip_to_mapping.get ip with
    | none => rw [refs_of_get_none hm, refs_of_get_none hm']
    | some m => simp [((hkept m).1 hm').1] at hm
  | some m =>
    by_cases hx : Expired m now ttl
    · have hm' : (p.sweep now ttl).2.ip_to_mapping.get ip = none := by
        by_contra hsome
        obtain ⟨m', hm'⟩ := Option.ne_none_iff_exists'.1 hsome
        obtain ⟨hm'', hx'⟩ := (hkept m').1 hm'
        exact hx' (Option.some.inj (hm.symm.trans hm'') ▸ hx)
      rw [refs_of_get hm, refs_of_get_none hm', hx.1]
      rfl
    · rw [refs_of_get hm, refs_of_get ((hkept m).2 ⟨hm, hx⟩)]

/-- With an address to spare, `alloc` leaves all mappings as they were, but for the
time of the one it returns. -/
theorem get_alloc (hi : Inv p) {d : String} (hroom : p.domain_to_ip.get d = none → p.ip_to_mapping.len < ringSize)
    (now : Nat) {ip : Ipv4Addr} {m : Mapping} (hm : p.ip_to_mapping.get ip = some m) :
    ∃ t, (p.alloc d now).2.ip_to_mapping.get ip = some { m with last_used := t } := by
  rcases alloc_cases hi d now with ⟨ip', m', hm', -, he⟩ | ⟨-, i, p', -, hfree, he, -, hmap, -⟩ | ⟨hnew, hfull, -⟩
  · rw [he]
    simp only [Table.get_insert]
    split
    · subst_vars
      exact ⟨now, by rw [Option.some.inj (hm.symm.trans hm')]⟩
    · exact ⟨m.last_used, hm⟩
  · rw [he, hmap, Table.get_insert, if_neg]
    · exact ⟨m.last_used, hm⟩
    · rintro rfl
      simp [hm] at hfree
  · exact absurd hfull.size (Nat.not_le.2 (hroom hnew))

theorem refs_alloc (hi : Inv p) {d : String} (hroom : p.domain_to_ip.get d = none → p.ip_to_mapping.len < ringSize)
    (now : Nat) (ip : Ipv4Addr) : (p.alloc d now).2.refs ip = p.refs ip := by
  cases hm : p.ip_to_mapping.get ip with
  | some m =>
    obtain ⟨t, hm'⟩ := get_alloc hi hroom now hm
    rw [refs_of_get hm, refs_of_get hm']
  | none =>
    rw [refs_of_get_none hm]
    rcases alloc_cases hi d now with ⟨ip', m', hm', -, he⟩ | ⟨-, i, p', -, -, he, -, hmap, -⟩ | ⟨hnew, hfull, -⟩
    · have hne : ip ≠ ip' := by
        rintro rfl
        simp [hm] at hm'
      rw [he]
      exact refs_of_get_none ((Table.get_insert_ne _ _ hne).trans hm)
    · rw [he, refs, hmap, Table.get_insert]
      split
      · rfl
      · rw [hm]
        rfl
    · exact absurd hfull.size (Nat.not_le.2 (hroom hnew))

/-- Releases that are covered by references keep the counts exact. -/
theorem Counted.release_all (hc : p.Counted) (ips : List Ipv4Addr) (now : Nat)
    (hle : ∀ ip, (Sys.release_all p ips now).releases ip ≤ p.acquires ip) : (Sys.release_all p ips now).Counted := by
  induction ips generalizing p with
  | nil => exact hc
  | cons ip ips ih =>
    refine ih (fun ip' => ?_) fun ip' => by rw [acquires_release]; exact hle ip'
    have h1 := hc ip'
    have h2 := hle ip'
    rw [releases_release_all, List.count_cons] at h2
    rw [acquires_release, releases_release, refs_release]
    by_cases hip : ip = ip' <;> simp [hip] at h2 ⊢ <;> omega

theorem Counted.acquireOpt (hc : p.Counted) {fake_ip : Option Ipv4Addr}
    (hname : ∀ ip, fake_ip = some ip → ∃ name, p.resolve ip = some name) (hlt : ∀ ip, p.refs ip < 2 ^ 32 - 1)
    (now : Nat) : (p.acquireOpt fake_ip now).Counted := by
  cases fake_ip with
  | none => exact hc
  | some ip =>
    intro ip'
    obtain ⟨name, hname⟩ := hname ip rfl
    have h1 := hc ip'
    show (p.acquire ip now).acquires ip' = (p.acquire ip now).releases ip' + (p.acquire ip now).refs ip'
    rw [acquires_acquire, releases_acquire, refs_acquire hname (hlt ip)]
    omega

@[simp] theorem resolve_acquireOpt (p : FakeIpPool) (fake_ip : Option Ipv4Addr) (ip : Ipv4Addr) (now : Nat) :
    (p.acquireOpt fake_ip now).resolve ip = p.resolve ip := by
  cases fake_ip <;> simp [acquireOpt]

@[simp] theorem resolve_release_all (p : FakeIpPool) (ips : List Ipv4Addr) (ip : Ipv4Addr) (now : Nat) :
    (Sys.release_all p ips now).resolve ip = p.resolve ip := by
  induction ips generalizing p with
  | nil => rfl
  | cons ip' ips ih => exact (ih _).trans (resolve_release p ip' ip now)

/-- A sweep keeps what has references. -/
theorem resolve_sweep {now ttl : Nat} {ip : Ipv4Addr} (hpos : 0 < p.refs ip) :
    (p.sweep now ttl).2.resolve ip = p.resolve ip := by
  cases hm : p.ip_to_mapping.get ip with
  | none => simp [refs_of_get_none hm] at hpos
  | some m =>
    have hx : ¬ Expired m now ttl := fun hx => by simp [refs_of_get hm, hx.1] at hpos
    rw [resolve, resolve, (get_sweep p now ttl ip m).2 ⟨hm, hx⟩, hm]

theorem resolve_alloc (hi : Inv p) {d : String} (hroom : p.domain_to_ip.get d = none → p.ip_to_mapping.len < ringSize)
    (now : Nat) {ip : Ipv4Addr} {name : String} (h : p.resolve ip = some name) :
    (p.alloc d now).2.resolve ip = some name := by
  obtain ⟨m, hm, rfl⟩ := Option.map_eq_some_iff.1 h
  obtain ⟨t, hm'⟩ := get_alloc hi hroom now hm
  rw [resolve, hm']
  rfl

end FakeIpPool

/-- A flow that is let through stays so while the pool has the name of its
fake-IP. -/
theorem resolve_target_kept {p p' : FakeIpPool} (hi : p.Inv) (hi' : p'.Inv) {endpoint : IpEndpoint} {target : TargetAddr}
    {fake_ip : Option Ipv4Addr} (h : resolve_target endpoint p = .Direct target fake_ip)
    (hname : ∀ ip name, fake_ip = some ip → p.resolve ip = some name → p'.resolve ip = some name) :
    resolve_target endpoint p' = .Direct target fake_ip := by
  have hfake : p'.is_fake endpoint.addr = p.is_fake endpoint.addr := by
    obtain ⟨k, hk⟩ := hi.ring
    obtain ⟨k', hk'⟩ := hi'.ring
    rw [FakeIpPool.is_fake, FakeIpPool.is_fake, hk.start, hk.stop, hk'.start, hk'.stop]
  unfold resolve_target at h ⊢
  rw [hfake]
  split at h
  · cases h
  · rename_i hport
    rw [if_neg hport]
    split at h
    · rename_i hf
      rw [if_pos hf]
      split at h
      · rename_i name hres
        split at h
        · cases h
        · rename_i hdoh
          cases h
          simp only [hname _ name rfl hres]
          rw [if_neg hdoh]
      · cases h
    · rename_i hf
      rw [if_neg hf]
      exact h

theorem AssocTable.Wf.holders_le {t : AssocTable} (hw : t.Wf) (ip : Ipv4Addr) : t.holders ip ≤ t.cap := by
  rw [← hw.live.flowsHolding_eq]
  exact List.countP_le_length.trans hw.len_le

/-- What a 64-bit process can address. -/
def ADDRESS_SPACE : Nat := 2 ^ 48

namespace Sys

variable {s s' : Sys} {e : Event}

/-- A name that `e` registers finds a free address. -/
def RoomForName (s : Sys) : Event → Prop
  | .rx (.udp udp) (some query) _ _ _ _ =>
    udp.dst_port = 53 → query.qtype = QTYPE_A → s.fake_pool.domain_to_ip.get query.qname = none →
      s.fake_pool.ip_to_mapping.len < 131070
  | _ => True

instance (s : Sys) (e : Event) : Decidable (s.RoomForName e) := by
  unfold RoomForName
  split <;> infer_instance

/-- The ring is not exhausted, and the buffers of the sockets fit into memory. -/
structure Roomy (s : Sys) (e : Event) : Prop where
  ring : s.RoomForName e
  memory : s.sockets.len * (2 * TCP_SOCKET_BUFFER_SIZE) ≤ ADDRESS_SPACE

theorem Wired.ctxs_len (hw : Wired s) : s.socket_ctxs.len = s.sockets.len := by
  refine (Table.len_eq_length List.nodup_range fun h => ?_).trans List.length_range
  rw [List.mem_range]
  constructor
  · rintro ⟨ctx, hget⟩
    exact hw.lt hget
  · intro hlt
    obtain ⟨ctx, hget, -⟩ := hw.known h hlt
    exact ⟨ctx, hget⟩

theorem slotsHolding_le (hw : Wired s) (ip : Ipv4Addr) : s.slotsHolding ip ≤ s.sockets.len := by
  rw [← hw.ctxs_len]
  exact List.countP_le_length

/-! ## Flows after an event -/

/-- Where the association `id` of `tuple` comes from: it was there, with the same
reference, or `udp` started it and it holds what its target is reached by. -/
inductive FlowFrom (t : AssocTable) (p : FakeIpPool) (e : Event) (t' : AssocTable) (tuple : FourTuple) (id : UInt16) : Prop
  | kept : t.tuple_to_id.get tuple = some id → t'.id_to_fake_ip.get id = t.id_to_fake_ip.get id →
      FlowFrom t p e t' tuple id
  | started (udp : UdpInbound) (query : Option DnsQuery) (accepted : Option (SocketHandle × List TcpSocket.Segment))
      (timers : List (SocketHandle × TcpSocket.Timer)) (order : List SocketHandle) (now : Nat) (target : TargetAddr) :
      e = .rx (.udp udp) query accepted timers order now → udp.dst_port ≠ 53 → tuple = udp.tuple →
      t.tuple_to_id.get tuple = none → (∃ t₁, t.intern tuple = some (id, t₁)) →
      resolve_target udp.destination p = .Direct target (t'.id_to_fake_ip.get id) → FlowFrom t p e t' tuple id

theorem touch_flow (t : AssocTable) (id : UInt16) (now : Nat) :
    (t.touch id now).tuple_to_id = t.tuple_to_id ∧ (t.touch id now).id_to_fake_ip = t.id_to_fake_ip ∧
      (t.touch id now).cap = t.cap := by
  unfold AssocTable.touch
  split <;> exact ⟨rfl, rfl, rfl⟩

/-- What `intern` of `tuple` leaves: the table as it was, or one with a new id. -/
theorem intern_flow {t t₁ : AssocTable} {tuple : FourTuple} {id : UInt16} (hw : t.Wf) (hcap : t.cap = MAX_UDP_FLOWS)
    (hin : t.intern tuple = some (id, t₁)) : t₁.Wf ∧ t₁.cap = MAX_UDP_FLOWS ∧
      ((t.contains tuple = true ∧ t₁ = t) ∨ (t.contains tuple = false ∧ ∃ gone, t.Minted tuple gone id t₁)) := by
  cases hget : t.tuple_to_id.get tuple with
  | some id₀ =>
    simp only [AssocTable.intern, hget] at hin
    obtain ⟨rfl, rfl⟩ := Prod.mk.inj (Option.some.inj hin)
    exact ⟨hw, hcap, .inl ⟨Table.contains_key_iff.2 ⟨_, hget⟩, rfl⟩⟩
  | none =>
    obtain ⟨gone, id', t', hin', hm, hw', hc⟩ :=
      AssocTable.intern_minted hw (by rw [hcap]; decide) (by rw [hcap]; decide) hget
    obtain ⟨rfl, rfl⟩ := Prod.mk.inj (Option.some.inj (hin.symm.trans hin'))
    exact ⟨hw', hc.trans hcap, .inr ⟨Table.contains_key_eq_false.2 hget, gone, hm⟩⟩

theorem udp_uplink_flow {t t' : AssocTable} {p p' : FakeIpPool} {udp : UdpInbound} {query : Option DnsQuery}
    {accepted : Option (SocketHandle × List TcpSocket.Segment)} {timers : List (SocketHandle × TcpSocket.Timer)}
    {order : List SocketHandle} {now : Nat} (hw : t.Wf) (hcap : t.cap = MAX_UDP_FLOWS) (hport : udp.dst_port ≠ 53)
    (h : handle_tuic_udp_uplink t p udp now = some (t', p')) : t'.Wf ∧ t'.cap = MAX_UDP_FLOWS ∧
      ∀ tuple id, t'.tuple_to_id.get tuple = some id →
        FlowFrom t p (.rx (.udp udp) query accepted timers order now) t' tuple id := by
  unfold handle_tuic_udp_uplink at h
  split at h
  · obtain ⟨rfl, rfl⟩ := Prod.mk.inj (Option.some.inj h)
    exact ⟨hw, hcap, fun _ _ hid => .kept hid rfl⟩
  · obtain ⟨rfl, rfl⟩ := Prod.mk.inj (Option.some.inj h)
    exact ⟨hw, hcap, fun _ _ hid => .kept hid rfl⟩
  · rename_i target fake_ip hres
    simp only [Option.bind_eq_bind, Option.bind_eq_some_iff, Prod.exists, Option.pure_def, Option.some.injEq,
      Prod.mk.injEq] at h
    obtain ⟨id₀, t₁, hin, rfl, -⟩ := h
    obtain ⟨hw₁, hcap₁, hcases⟩ := intern_flow hw hcap hin
    obtain ⟨htuple, hfake, htcap⟩ := touch_flow t₁ id₀ now
    have hw₂ := AssocTable.touch_wf hw₁ id₀ now
    split
    · -- A new flow to a fake-IP.
      rename_i ip hnew
      rcases hcases with ⟨hknown, -⟩ | ⟨hunknown, gone, hm⟩
      · simp [hknown] at hnew
      · have hnone := Table.contains_key_eq_false.1 hunknown
        have hid₀ : t₁.tuple_to_id.get udp.tuple = some id₀ := (hm.ids _ _).2 (.inl ⟨rfl, rfl⟩)
        obtain ⟨entry, hentry, -⟩ := (hw₁.inverse _ _).1 hid₀
        refine ⟨⟨hw₂.inverse, hw₂.id_ne_zero, hw₂.next_ne_zero, hw₂.len_le, ?_⟩, htcap.trans hcap₁, fun tuple id hid => ?_⟩
        · exact AssocTable.set_fake_ip_live hw₂.live (AssocTable.touch_entry ⟨entry, hentry⟩ id₀ now) ip
        · have hid₁ : t₁.tuple_to_id.get tuple = some id := htuple ▸ hid
          rcases hm.flow hw hid₁ with ⟨rfl, rfl, -⟩ | ⟨hid', href⟩
          · refine .started udp query accepted timers order now target rfl hport rfl hnone ⟨t₁, hin⟩ (hres.trans ?_)
            exact congrArg _ (Table.get_insert_self _ _ _).symm
          · have hne : id ≠ id₀ := by
              rintro rfl
              obtain ⟨entry', hentry', htup⟩ := (hw₁.inverse _ _).1 hid₁
              obtain ⟨entry'', hentry'', htup'⟩ := (hw₁.inverse _ _).1 hid₀
              rw [hentry'] at hentry''
              rw [← htup, Option.some.inj hentry'', htup'] at hid'
              exact absurd (hid'.symm.trans hnone) (by simp)
            refine .kept hid' ((Table.get_insert_ne _ _ hne).trans ?_)
            rw [hfake, href]
    · rename_i fake_ip _ _ hother
      refine ⟨⟨hw₂.inverse, hw₂.id_ne_zero, hw₂.next_ne_zero, hw₂.len_le, hw₂.live⟩, htcap.trans hcap₁, fun tuple id hid => ?_⟩
      have hid₁ : t₁.tuple_to_id.get tuple = some id := htuple ▸ hid
      have hsame : (t₁.touch id₀ now).take_reclaimed_fake_ips.2.id_to_fake_ip.get id = t₁.id_to_fake_ip.get id :=
        congrArg (fun m => Table.get m id) hfake
      rcases hcases with ⟨-, rfl⟩ | ⟨hunknown, gone, hm⟩
      · exact .kept hid₁ hsame
      · have hnone := Table.contains_key_eq_false.1 hunknown
        rcases hm.flow hw hid₁ with ⟨rfl, rfl, href⟩ | ⟨hid', href⟩
        · refine .started udp query accepted timers order now target rfl hport rfl hnone ⟨t₁, hin⟩ (hres.trans ?_)
          rw [hsame, href]
          cases fake_ip with
          | none => rfl
          | some ip => exact absurd rfl (hother ip (by simp [hunknown]))
        · exact .kept hid' (hsame.trans href)

theorem FlowsChange.flow {t t' : AssocTable} {p : FakeIpPool} (h : FlowsChange t p e t') (hw : t.Wf)
    (hcap : t.cap = MAX_UDP_FLOWS) : t'.Wf ∧ t'.cap = MAX_UDP_FLOWS ∧
      ∀ tuple id, t'.tuple_to_id.get tuple = some id → FlowFrom t p e t' tuple id := by
  cases h with
  | same h =>
    subst h
    exact ⟨hw, hcap, fun _ _ hid => .kept hid rfl⟩
  | touch assoc_id now h =>
    obtain ⟨htuple, hfake, htcap⟩ := touch_flow t assoc_id now
    subst h
    exact ⟨AssocTable.touch_wf hw assoc_id now, htcap.trans hcap, fun _ _ hid => .kept (htuple ▸ hid) (by rw [hfake])⟩
  | sweep now h =>
    have hs := AssocTable.sweep_without hw now UDP_FLOW_IDLE_SECS
    subst h
    refine ⟨hs.wf, hs.cap.trans hcap, fun _ _ hid => ?_⟩
    obtain ⟨hid, href⟩ := hs.flow hw hid
    exact .kept hid href
  | uplink udp query accepted timers order now p' he hport h => exact he ▸ udp_uplink_flow hw hcap hport h

theorem Reachable.flows {pool_size : Nat} (hr : Reachable pool_size s) :
    s.assoc_table.Wf ∧ s.assoc_table.cap = MAX_UDP_FLOWS := by
  have h0 : (new pool_size).assoc_table.Wf ∧ (new pool_size).assoc_table.cap = MAX_UDP_FLOWS :=
    ⟨AssocTable.with_cap_wf MAX_UDP_FLOWS, rfl⟩
  refine Reach.inv (fun s : Sys => s.assoc_table.Wf ∧ s.assoc_table.cap = MAX_UDP_FLOWS) h0 ?_ hr
  rintro s e s' - ⟨hw, hcap⟩ - he
  obtain ⟨hw', hcap', -⟩ := (step_flows he).flow hw hcap
  exact ⟨hw', hcap'⟩

/-! ## Counts in a run -/

/-- References are counted for those who hold them. -/
theorem Balance.refs_eq (hb : Balance s) (hc : s.fake_pool.Counted) (ip : Ipv4Addr) :
    s.fake_pool.refs ip = s.slotsHolding ip + s.assoc_table.holders ip := by
  have h1 := hb.refs ip
  have h2 := hc ip
  omega

/-- With memory for so many sockets only, no count is at its limit. -/
theorem refs_lt {pool_size : Nat} (hr : Reachable pool_size s) (hc : s.fake_pool.Counted)
    (hmem : s.sockets.len * (2 * TCP_SOCKET_BUFFER_SIZE) ≤ ADDRESS_SPACE) (ip : Ipv4Addr) :
    s.fake_pool.refs ip < 2 ^ 32 - 1 := by
  obtain ⟨hw, hcap⟩ := hr.flows
  have h1 := slotsHolding_le hr.wired ip
  have h2 := hw.holders_le ip
  rw [hr.balance.refs_eq hc]
  simp only [hcap, MAX_UDP_FLOWS, TCP_SOCKET_BUFFER_SIZE, ADDRESS_SPACE] at h2 hmem
  omega

theorem PoolChange.counted {p : FakeIpPool} (h : PoolChange s e p) (hi : s.fake_pool.Inv) (hroom : s.RoomForName e)
    (hlt : ∀ ip, s.fake_pool.refs ip < 2 ^ 32 - 1) (hle : ∀ ip, p.releases ip ≤ p.acquires ip)
    (hc : s.fake_pool.Counted) : p.Counted := by
  cases h with
  | same h => exact h ▸ hc
  | alloc udp query accepted timers order now he hport hq h =>
    subst he h
    intro ip
    have hcalls := FakeIpPool.alloc_calls s.fake_pool query.qname now
    rw [FakeIpPool.refs_alloc hi (hroom hport hq), FakeIpPool.acquires, FakeIpPool.releases, hcalls]
    exact hc ip
  | sweep now _ h =>
    subst h
    intro ip
    rw [FakeIpPool.refs_sweep, FakeIpPool.acquires, FakeIpPool.releases, FakeIpPool.sweep_calls]
    exact hc ip
  | refs fake_ip ips now hres h =>
    subst h
    refine FakeIpPool.Counted.release_all (hc.acquireOpt (fun ip hip => ?_) hlt now) ips now fun ip => ?_
    · obtain ⟨endpoint, target, hres⟩ := hres ip hip
      rcases resolve_target_direct hres with ⟨name, hname, -, haddr⟩ | ⟨-, -, hnone⟩
      · exact ⟨name, Option.some.inj haddr ▸ hname⟩
      · cases hnone
    · have := hle ip
      rwa [FakeIpPool.acquires_release_all] at this

theorem ReachableBy.counted {pool_size : Nat} (hr : ReachableBy pool_size Roomy s) : s.fake_pool.Counted := by
  have h0 : (new pool_size).fake_pool.Counted := fun _ => rfl
  refine Reach.inv (fun s : Sys => s.fake_pool.Counted) h0 (fun s e s' hr hc hroomy he => ?_) hr
  have hreach : Reachable pool_size s := hr.mono fun _ _ _ => trivial
  have hreach' : Reachable pool_size s' := .step hreach trivial he
  refine (step_pool he).counted (FakeIpPool.reachable_inv hreach.pool) hroomy.ring (refs_lt hreach hc hroomy.memory)
    (fun ip => ?_) hc
  have := hreach'.balance.refs ip
  omega

theorem PoolChange.resolve_kept {p : FakeIpPool} (h : PoolChange s e p) (hi : s.fake_pool.Inv) (hroom : s.RoomForName e)
    {ip : Ipv4Addr} {name : String} (hname : s.fake_pool.resolve ip = some name)
    (hheld : ∀ now, e = .fake_ip_sweep now → 0 < s.fake_pool.refs ip) : p.resolve ip = some name := by
  cases h with
  | same h => exact h ▸ hname
  | alloc udp query accepted timers order now he hport hq h =>
    subst he h
    exact FakeIpPool.resolve_alloc hi (hroom hport hq) now hname
  | sweep now he h => rw [h, FakeIpPool.resolve_sweep (hheld now he), hname]
  | refs fake_ip ips now _ h => rw [h, FakeIpPool.resolve_release_all, FakeIpPool.resolve_acquireOpt, hname]

/-- A flow that is let through stays so, if its fake-IP is held when a sweep comes. -/
theorem PoolChange.target_kept {p : FakeIpPool} (h : PoolChange s e p) (hp : s.fake_pool.Reachable)
    (hroom : s.RoomForName e) {endpoint : IpEndpoint} {target : TargetAddr} {fake_ip : Option Ipv4Addr}
    (hres : resolve_target endpoint s.fake_pool = .Direct target fake_ip)
    (hheld : ∀ ip now, fake_ip = some ip → e = .fake_ip_sweep now → 0 < s.fake_pool.refs ip) :
    resolve_target endpoint p = .Direct target fake_ip := by
  have hi := FakeIpPool.reachable_inv hp
  refine resolve_target_kept hi (FakeIpPool.reachable_inv (h.reachable hp)) hres fun ip name hip hname => ?_
  exact h.resolve_kept hi hroom hname fun now => hheld ip now hip

end Sys

end MiniVpn
