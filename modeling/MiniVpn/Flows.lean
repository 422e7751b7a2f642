import MiniVpn.Loop
/-!
# References of UDP flows

How the UDP branches of the loop move fake-IP references: what they acquire and
release in the pool is what associations gain and lose.
-/
open Lib

namespace MiniVpn

/-- `acquire` calls made for `ip`. -/
def FakeIpPool.acquires (p : FakeIpPool) (ip : Ipv4Addr) : Nat := p.calls.count (.acquire ip)

/-- `release` calls made for `ip`. -/
def FakeIpPool.releases (p : FakeIpPool) (ip : Ipv4Addr) : Nat := p.calls.count (.release ip)

namespace FakeIpPool

theorem acquires_acquire (p : FakeIpPool) (ip ip' : Ipv4Addr) (now : Nat) :
    (p.acquire ip' now).acquires ip = p.acquires ip + if ip' = ip then 1 else 0 := by
  simp [acquires, List.count_cons]

@[simp] theorem releases_acquire (p : FakeIpPool) (ip ip' : Ipv4Addr) (now : Nat) :
    (p.acquire ip' now).releases ip = p.releases ip := by
  simp [releases]

@[simp] theorem acquires_release (p : FakeIpPool) (ip ip' : Ipv4Addr) (now : Nat) :
    (p.release ip' now).acquires ip = p.acquires ip := by
  simp [acquires]

theorem releases_release (p : FakeIpPool) (ip ip' : Ipv4Addr) (now : Nat) :
    (p.release ip' now).releases ip = p.releases ip + if ip' = ip then 1 else 0 := by
  simp [releases, List.count_cons]

theorem acquires_release_all (ips : List Ipv4Addr) (p : FakeIpPool) (ip : Ipv4Addr) (now : Nat) :
    (Sys.release_all p ips now).acquires ip = p.acquires ip := by
  unfold Sys.release_all
  induction ips generalizing p with
  | nil => rfl
  | cons x xs ih => rw [List.foldl_cons, ih, acquires_release]

theorem releases_release_all (ips : List Ipv4Addr) (p : FakeIpPool) (ip : Ipv4Addr) (now : Nat) :
    (Sys.release_all p ips now).releases ip = p.releases ip + ips.count ip := by
  unfold Sys.release_all
  induction ips generalizing p with
  | nil => rfl
  | cons x xs ih =>
    rw [List.foldl_cons, ih, releases_release, List.count_cons]
    simp only [beq_iff_eq]
    omega

end FakeIpPool

/-- References are held by live associations and none waits to be released. -/
structure AssocTable.Settled (t : AssocTable) : Prop where
  live : t.Live
  drained : t.reclaimed_fake_ips = []

/-- A change of the association table and the pool in which every reference that
an association gains is acquired and every one it loses is released. -/
structure FlowsKept (t : AssocTable) (p : FakeIpPool) (t' : AssocTable) (p' : FakeIpPool) : Prop where
  settled : t.Settled → t'.Settled
  refs : t.Settled → ∀ ip,
    p'.acquires ip + p.releases ip + t.holders ip = p.acquires ip + p'.releases ip + t'.holders ip

theorem FlowsKept.refl (t : AssocTable) (p : FakeIpPool) : FlowsKept t p t p := ⟨id, fun _ _ => rfl⟩

theorem touch_flowsKept (t : AssocTable) (p : FakeIpPool) (id : UInt16) (now : Nat) :
    FlowsKept t p (t.touch id now) p where
  settled h := ⟨AssocTable.touch_live h.live id now, by rw [AssocTable.touch_reclaimed]; exact h.drained⟩
  refs _ ip := by simp only [AssocTable.holders, AssocTable.touch_fake_ip]

theorem sweep_flowsKept (t : AssocTable) (p : FakeIpPool) (now idle : Nat) :
    FlowsKept t p (t.sweep now idle).2 (Sys.release_all p (t.sweep now idle).1 now) where
  settled h := ⟨AssocTable.sweep_live h.live now idle, by rw [AssocTable.sweep_reclaimed]; exact h.drained⟩
  refs _ ip := by
    have := AssocTable.sweep_holders t now idle ip
    rw [FakeIpPool.acquires_release_all, FakeIpPool.releases_release_all]
    omega

/-- Taking the reclaimed addresses and releasing each of them. -/
theorem drain_refs (t : AssocTable) (p : FakeIpPool) (now : Nat) (ip : Ipv4Addr) :
    (Sys.release_all p t.take_reclaimed_fake_ips.1 now).releases ip + t.take_reclaimed_fake_ips.2.holders ip =
      p.releases ip + (t.holders ip + t.reclaimed_fake_ips.count ip) := by
  simp only [AssocTable.take_reclaimed_fake_ips, FakeIpPool.releases_release_all, AssocTable.holders]
  omega

/-- After `intern`, the associations that hold a reference and those whose
reference waits to be released are the ones that held it before; a minted id
holds none yet. -/
theorem intern_refs {t t' : AssocTable} {tuple : FourTuple} {id : UInt16} (h : t.intern tuple = some (id, t'))
    (hs : t.Settled) :
    t'.Live ∧ (∀ ip, t'.holders ip + t'.reclaimed_fake_ips.count ip = t.holders ip) ∧
      (t.contains tuple = false → t'.id_to_fake_ip.get id = none ∧ ∃ e, t'.id_to_entry.get id = some e) := by
  obtain ⟨hl, hr⟩ := hs
  rcases AssocTable.intern_cases h with ⟨hc, rfl⟩ | ⟨-, t₀, next, hcase, hnone, rfl⟩
  · exact ⟨hl, by simp [hr], by simp [hc]⟩
  · have h₀ : t₀.Live ∧ ∀ ip, t₀.holders ip + t₀.reclaimed_fake_ips.count ip = t.holders ip := by
      rcases hcase with rfl | rfl
      · exact ⟨hl, by simp [hr]⟩
      · exact ⟨AssocTable.evict_lru_live hl, fun ip => by rw [AssocTable.evict_lru_holders, hr]; rfl⟩
    refine ⟨fun x ip hx => ?_, h₀.2, fun _ => ⟨?_, _, Table.get_insert_self _ _ _⟩⟩
    · obtain ⟨e, he⟩ := h₀.1 x ip hx
      simp only [Table.get_insert]
      split
      · exact ⟨_, rfl⟩
      · exact ⟨e, he⟩
    · -- The minted id is not live, and only live ids hold references.
      by_contra hsome
      obtain ⟨ip, hip⟩ := Option.ne_none_iff_exists'.1 hsome
      obtain ⟨e, he⟩ := h₀.1 id ip hip
      simp [hnone] at he

/-- Releasing what an eviction reclaimed settles the table again. -/
theorem drain_flowsKept {t t₁ : AssocTable} {p p₁ : FakeIpPool} (now : Nat) (hl : t.Settled → t₁.Live)
    (hrefs : t.Settled → ∀ ip, p₁.acquires ip + p.releases ip + t.holders ip =
      p.acquires ip + p₁.releases ip + (t₁.holders ip + t₁.reclaimed_fake_ips.count ip)) :
    FlowsKept t p t₁.take_reclaimed_fake_ips.2 (Sys.release_all p₁ t₁.take_reclaimed_fake_ips.1 now) where
  settled h := ⟨hl h, rfl⟩
  refs h ip := by
    have h1 := hrefs h ip
    have h2 := drain_refs t₁ p₁ now ip
    rw [FakeIpPool.acquires_release_all]
    omega

theorem udp_uplink_flowsKept {t t' : AssocTable} {p p' : FakeIpPool} {udp : UdpInbound} {now : Nat}
    (h : Sys.handle_tuic_udp_uplink t p udp now = some (t', p')) : FlowsKept t p t' p' := by
  unfold Sys.handle_tuic_udp_uplink at h
  split at h
  · simp only [Option.some.injEq, Prod.mk.injEq] at h
    obtain ⟨rfl, rfl⟩ := h
    exact .refl t p
  · simp only [Option.some.injEq, Prod.mk.injEq] at h
    obtain ⟨rfl, rfl⟩ := h
    exact .refl t p
  · simp only [Option.bind_eq_bind, Option.bind_eq_some_iff, Prod.exists, Option.pure_def, Option.some.injEq,
      Prod.mk.injEq] at h
    obtain ⟨id, t₁, hin, rfl, rfl⟩ := h
    split
    · -- A new flow to a fake-IP: the minted id takes a reference.
      rename_i ip hnew _
      have hc := by simpa using hnew
      refine drain_flowsKept now (fun hs => ?_) (fun hs ip' => ?_)
      · obtain ⟨hl, -, hfresh⟩ := intern_refs hin hs
        exact AssocTable.set_fake_ip_live (AssocTable.touch_live hl id now)
          (AssocTable.touch_entry (hfresh hc).2 id now) ip
      · obtain ⟨-, hrefs, hfresh⟩ := intern_refs hin hs
        have hnone : (t₁.touch id now).id_to_fake_ip.get id = none := by
          rw [AssocTable.touch_fake_ip]; exact (hfresh hc).1
        have h1 := hrefs ip'
        have h2 := AssocTable.set_fake_ip_holders hnone ip ip'
        have h3 : (t₁.touch id now).holders ip' = t₁.holders ip' := by
          simp only [AssocTable.holders, AssocTable.touch_fake_ip]
        have h4 : ((t₁.touch id now).set_fake_ip id ip).reclaimed_fake_ips = t₁.reclaimed_fake_ips :=
          AssocTable.touch_reclaimed t₁ id now
        rw [FakeIpPool.acquires_acquire, FakeIpPool.releases_acquire, h2, h3, h4]
        omega
    · refine drain_flowsKept now (fun hs => ?_) (fun hs ip' => ?_)
      · exact AssocTable.touch_live (intern_refs hin hs).1 id now
      · have h1 := (intern_refs hin hs).2.1 ip'
        simp only [AssocTable.holders, AssocTable.touch_fake_ip, AssocTable.touch_reclaimed] at h1 ⊢
        omega

end MiniVpn
