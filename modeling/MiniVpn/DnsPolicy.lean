import MiniVpn.Lib.Labels
import MiniVpn.Target
/-!
# Which flows count as DNS

`is_doh_domain` compares strings; what it decides is a question about labels.
`resolve_target` blocks exactly the flows that `IsDns` describes.
-/
open Lib

namespace MiniVpn

/-- The labels of a name, in lower case and without the empty ones at the end. -/
def nameLabels (name : String) : List (List Char) :=
  ((name.toList.splitOn '.').rdropWhile List.isEmpty).map (List.map Char.toLower)

/-- The labels of `name` end in those of a listed name. -/
def IsDohName (name : String) : Prop := ∃ doh ∈ DOH_DOMAINS, nameLabels doh <:+ nameLabels name

theorem toLower_eq_dot (c : Char) (h : c.toLower = '.') : c = '.' := by
  unfold Char.toLower at h
  split at h
  · rename_i hc
    have hval := congrArg (fun c : Char => c.val.toNat) h
    have hle := UInt32.le_iff_toNat_le.1 hc.1
    have hge := UInt32.le_iff_toNat_le.1 hc.2
    simp only [UInt32.toNat_add] at hval
    simp at hval hle hge
    omega
  · exact h

/-- The labels as the source has them: dots cut off first, then lower case. -/
theorem nameLabels_eq (name : String) : nameLabels name =
    if trim_end_matches name.toList '.' = [] then []
    else ((trim_end_matches name.toList '.').map Char.toLower).splitOn '.' := by
  rw [nameLabels, rdropWhile_splitOn]
  change List.map _ (if trim_end_matches name.toList '.' = [] then [] else (trim_end_matches name.toList '.').splitOn '.') = _
  split
  · rfl
  · have hlower : ∀ c, Char.toLower c = Char.toLower '.' → c = '.' := toLower_eq_dot
    exact (splitOn_map Char.toLower hlower _).symm

theorem strip_suffix_append (p q : List Char) : strip_suffix (p ++ q) q = some p := by
  rw [strip_suffix, if_pos (List.isSuffixOf_iff_suffix.2 (List.suffix_append p q))]
  simp

/-- A suffix is stripped behind a dot exactly when a dot stands before it. -/
theorem strip_suffix_dot_iff {d q : List Char} :
    ((strip_suffix d q).any fun p => p.getLast? == some '.') = true ↔ ∃ p, d = p ++ '.' :: q := by
  constructor
  · intro h
    obtain ⟨p, hp, hdot⟩ := (Option.any_eq_true _ _).1 h
    have hsuf : q <:+ d := by
      rw [strip_suffix, Option.ite_none_right_eq_some] at hp
      exact List.isSuffixOf_iff_suffix.1 hp.1
    obtain ⟨front, rfl⟩ := hsuf
    obtain rfl : front = p := Option.some.inj ((strip_suffix_append front q).symm.trans hp)
    obtain ⟨p, rfl⟩ := List.getLast?_eq_some_iff.1 (by simpa using hdot)
    exact ⟨p, by simp⟩
  · rintro ⟨p, rfl⟩
    rw [List.append_cons, strip_suffix_append]
    simp

/-- The listed names have no empty labels and no capitals. -/
theorem nameLabels_listed : ∀ doh ∈ DOH_DOMAINS, nameLabels doh = doh.toList.splitOn '.' ∧ doh.toList ≠ [] := by
  decide +kernel

/-- The string comparison of the source decides the question about labels. -/
theorem is_doh_domain_iff (name : String) : is_doh_domain name = true ↔ IsDohName name := by
  simp only [is_doh_domain, IsDohName, List.any_eq_true, Bool.or_eq_true, beq_iff_eq, strip_suffix_dot_iff]
  refine exists_congr fun doh => and_congr_right fun hdoh => ?_
  obtain ⟨hlabels, hne⟩ := nameLabels_listed doh hdoh
  rw [hlabels, nameLabels_eq]
  split
  · rename_i hnil
    -- A name of dots alone has no labels, and a listed name has some.
    rw [hnil, List.suffix_nil]
    simp [hne.symm, List.splitOn_ne_nil]
  · rw [splitOn_suffix_iff]

/-! ## What is blocked -/

/-- A flow to `endpoint` is plain or encrypted DNS, going by the names in the
pool. -/
inductive IsDns (fake_pool : FakeIpPool) (endpoint : IpEndpoint) : Prop
  | plain : endpoint.port = 53 → IsDns fake_pool endpoint
  | encrypted : endpoint.port = 853 → IsDns fake_pool endpoint
  | ip : endpoint.port = 443 → endpoint.addr ∈ DOH_IPS → IsDns fake_pool endpoint
  | name (name : String) : endpoint.port = 443 → fake_pool.resolve endpoint.addr = some name → IsDohName name →
      IsDns fake_pool endpoint

theorem is_dns_relay_port_iff (port : UInt16) : is_dns_relay_port port = true ↔ port = 53 ∨ port = 853 := by
  simp [is_dns_relay_port, is_encrypted_dns_port]

namespace FakeIpPool

theorem is_fake_of_mapping {p : FakeIpPool} (hi : Inv p) {ip : Ipv4Addr} {m : Mapping}
    (h : p.ip_to_mapping.get ip = some m) : p.is_fake ip = true := by
  obtain ⟨k, hk⟩ := hi.ring
  obtain ⟨i, hlt, rfl⟩ := hi.addrs ip m h
  have hlt' := hlt
  simp only [ringSize] at hlt'
  simp only [is_fake, hk.start, hk.stop, UInt32.le_iff_toNat_le, ringAddr_toNat hlt, UInt32.reduceToNat, Bool.and_eq_true,
    decide_eq_true_eq]
  omega

theorem is_fake_of_resolve {p : FakeIpPool} (hi : Inv p) {ip : Ipv4Addr} {name : String} (h : p.resolve ip = some name) :
    p.is_fake ip = true := by
  obtain ⟨m, hm, -⟩ := Option.map_eq_some_iff.1 h
  exact is_fake_of_mapping hi hm

/-- No listed address is a fake one. -/
theorem is_fake_listed {p : FakeIpPool} (hi : Inv p) {ip : Ipv4Addr} (h : ip ∈ DOH_IPS) : p.is_fake ip = false := by
  obtain ⟨k, hk⟩ := hi.ring
  have hlisted : DOH_IPS.all (fun ip => !(decide ((3323068416 : UInt32) ≤ ip) && decide (ip ≤ 3323199487))) = true := by
    decide
  rw [is_fake, hk.start, hk.stop]
  simpa only [Bool.not_eq_true'] using List.all_eq_true.1 hlisted ip h

end FakeIpPool

/-- The policy blocks DNS, and nothing else. -/
theorem resolve_target_eq_block_iff {fake_pool : FakeIpPool} (hi : fake_pool.Inv) (endpoint : IpEndpoint) :
    resolve_target endpoint fake_pool = .Block ↔ IsDns fake_pool endpoint := by
  constructor
  · intro h
    unfold resolve_target at h
    split at h
    · rename_i hport
      exact ((is_dns_relay_port_iff _).1 hport).elim .plain .encrypted
    · split at h
      · rename_i hfake
        split at h
        · rename_i name hname
          split at h
          · rename_i hdoh
            simp only [Bool.and_eq_true, beq_iff_eq] at hdoh
            exact .name name hdoh.1 hname ((is_doh_domain_iff name).1 hdoh.2)
          · cases h
        · cases h
      · split at h
        · rename_i hdoh
          simp only [Bool.and_eq_true, beq_iff_eq, is_doh_ip, List.contains_iff_mem] at hdoh
          exact .ip hdoh.1 hdoh.2
        · cases h
  · intro h
    unfold resolve_target
    cases h with
    | plain hport => rw [if_pos ((is_dns_relay_port_iff _).2 (.inl hport))]
    | encrypted hport => rw [if_pos ((is_dns_relay_port_iff _).2 (.inr hport))]
    | ip hport hip =>
      simp [is_dns_relay_port, is_encrypted_dns_port, hport, FakeIpPool.is_fake_listed hi hip, is_doh_ip, hip]
    | name name hport hname hdoh =>
      simp [is_dns_relay_port, is_encrypted_dns_port, hport, FakeIpPool.is_fake_of_resolve hi hname, hname,
        (is_doh_domain_iff name).2 hdoh]

end MiniVpn
