import MiniVpn.SocketDisplay
/-!
# Targets as text

`shared/target.rs`: a target is a socket address, or else anything in front of the
last colon and a port behind it. The port of a socket address is a number without
a sign, that of a domain may have one.
-/
open Lib

namespace MiniVpn

namespace TargetAddr

def parse (input : String) : Except ClientError TargetAddr :=
  match SocketAddr.from_str input with
  | some addr => .ok (.IpPort addr)
  | none =>
    match rsplitOnce ':' input.toList with
    | none => .error (.InvalidTarget input)
    | some (host, port_str) =>
      match parse_unsigned 16 (String.ofList port_str) with
      | none => .error (.InvalidTarget input)
      | some port =>
        if host.isEmpty then .error (.InvalidTarget input)
        else .ok (.DomainPort (String.ofList host) (UInt16.ofNat port.val))

def to_wire_string : TargetAddr → String
  | .IpPort addr => addr.to_string
  | .DomainPort host port => host ++ ":" ++ Nat.repr port.toNat

end TargetAddr

/-! ## Unsigned numbers -/

theorem toDigit_ten (c : Char) : toDigit 10 c = if c.isDigit then some (c.toNat - '0'.toNat) else none := by
  by_cases h : '0' ≤ c ∧ c ≤ '9'
  · have hd : c.isDigit = true := by
      simp only [Char.isDigit, ge_iff_le, Bool.and_eq_true, decide_eq_true_eq]
      exact ⟨Char.le_def.1 h.1, Char.le_def.1 h.2⟩
    have hle : c.toNat ≤ 57 := UInt32.le_iff_toNat_le.1 (Char.le_def.1 h.2)
    have hlt : c.toNat - '0'.toNat < 10 := by
      have hzero : '0'.toNat = 48 := rfl
      omega
    rw [toDigit, if_pos h, if_pos hd, if_pos hlt]
  · have hd : c.isDigit = false := by
      by_contra hne
      simp only [Char.isDigit, ge_iff_le, Bool.and_eq_false_iff, decide_eq_false_iff_not, not_or, not_not] at hne
      exact h ⟨Char.le_def.2 hne.1, Char.le_def.2 hne.2⟩
    -- A letter is ten at least.
    rw [toDigit, if_neg h, hd]
    simp only [Bool.false_eq_true, if_false]
    refine if_neg ?_
    split
    · omega
    · split <;> omega

theorem isDigit_ten (c : Char) : isDigit 10 c = c.isDigit := by
  rw [isDigit, toDigit_ten]
  split
  · rename_i h
    simp [h]
  · rename_i h
    simpa using h

theorem ofDigits_ten {ds : List Char} (h : ∀ c ∈ ds, c.isDigit = true) :
    ds.foldl (fun n c => 10 * n + (c.toNat - '0'.toNat)) 0 = ofDigits 10 ds := by
  refine List.foldl_ext _ _ 0 fun n c hc => ?_
  rw [toDigit_ten, if_pos (h c hc), Option.getD_some]

/-- The digits of a number, without the sign. -/
def unsigned_digits (s : List Char) : List Char :=
  match s with
  | '+' :: digits => digits
  | digits => digits

theorem parse_unsigned_eq_some_iff {bits : Nat} {s : String} {n : Nat} :
    (parse_unsigned bits s).map Subtype.val = some n ↔ n < 2 ^ bits ∧ IsDecimal (unsigned_digits s.toList) n := by
  have heq : parse_unsigned bits s =
      if (unsigned_digits s.toList).isEmpty || !(unsigned_digits s.toList).all Char.isDigit then none
      else
        if h : (unsigned_digits s.toList).foldl (fun n c => 10 * n + (c.toNat - '0'.toNat)) 0 < 2 ^ bits then
          some ⟨_, h⟩
        else none := rfl
  rw [heq]
  generalize unsigned_digits s.toList = ds
  by_cases hds : ds ≠ [] ∧ ∀ c ∈ ds, c.isDigit = true
  · have hdec : IsDecimal ds n ↔ ofDigits 10 ds = n := by
      simp only [IsDecimal, isDigit_ten]
      exact ⟨fun h => h.2.2, fun h => ⟨hds.1, hds.2, h⟩⟩
    rw [if_neg (by simpa [hds.1] using hds.2), hdec]
    simp only [ofDigits_ten hds.2]
    split
    · rename_i hlt
      simp only [Option.map_some, Option.some.injEq]
      exact ⟨fun h => ⟨h ▸ hlt, h⟩, fun h => h.2⟩
    · rename_i hge
      simp only [Option.map_none, reduceCtorEq, false_iff, not_and]
      exact fun hlt h => hge (h ▸ hlt)
  · have hnot : ¬ IsDecimal ds n := fun h => hds ⟨h.1, fun c hc => by rw [← isDigit_ten]; exact h.2.1 c hc⟩
    rw [if_pos]
    · simp [hnot]
    · by_contra hne
      simp only [Bool.or_eq_true, List.isEmpty_iff, Bool.not_eq_true', not_or, Bool.not_eq_false, List.all_eq_true] at hne
      exact hds hne

theorem unsigned_digits_of_decimal {ds : List Char} {n : Nat} (h : IsDecimal ds n) : unsigned_digits ds = ds := by
  unfold unsigned_digits
  split
  · exact absurd List.mem_cons_self (h.not_mem (by decide))
  · rfl

theorem unsigned_digits_cases (s : List Char) : unsigned_digits s = s ∨ ∃ ds, s = '+' :: ds ∧ unsigned_digits s = ds := by
  unfold unsigned_digits
  split
  · exact .inr ⟨_, rfl, rfl⟩
  · exact .inl rfl

/-! ## What is parsed -/

/-- A domain: what stands in front of the last colon, and the number behind it. -/
structure IsDomain (s : String) (host port_str : List Char) (port : UInt16) : Prop where
  text : s.toList = host ++ ':' :: port_str
  last : ':' ∉ port_str
  host : host ≠ []
  port : IsDecimal (unsigned_digits port_str) port.toNat

theorem parse_eq_ok_iff {s : String} {t : TargetAddr} : TargetAddr.parse s = .ok t ↔
    (∃ addr, SocketAddr.from_str s = some addr ∧ t = .IpPort addr) ∨
    (SocketAddr.from_str s = none ∧ ∃ host port_str port, IsDomain s host port_str port ∧
      t = .DomainPort (String.ofList host) port) := by
  unfold TargetAddr.parse
  cases SocketAddr.from_str s with
  | some addr => simp [eq_comm]
  | none =>
    simp only [reduceCtorEq, false_and, exists_false, true_and, false_or]
    constructor
    · intro h
      split at h
      · cases h
      · rename_i host port_str hsplit
        split at h
        · cases h
        · rename_i port hport
          split at h
          · cases h
          · rename_i hhost
            obtain rfl := Except.ok.inj h
            obtain ⟨htext, hlast⟩ := rsplitOnce_eq_some_iff.1 hsplit
            have hnum := (parse_unsigned_eq_some_iff (s := String.ofList port_str)).1 (by rw [hport]; rfl)
            rw [String.toList_ofList] at hnum
            refine ⟨host, port_str, _, ⟨htext, hlast, by simpa using hhost, ?_⟩, rfl⟩
            rw [UInt16.toNat_ofNat', Nat.mod_eq_of_lt hnum.1]
            exact hnum.2
    · rintro ⟨host, port_str, port, ⟨htext, hlast, hhost, hport⟩, rfl⟩
      have hnum := (@parse_unsigned_eq_some_iff 16 (String.ofList port_str) port.toNat).2
        ⟨port.toNat_lt, by rwa [String.toList_ofList]⟩
      obtain ⟨n, hn, hval⟩ := Option.map_eq_some_iff.1 hnum
      rw [htext, rsplitOnce_append hlast]
      simp only [hn, hval, UInt16.ofNat_toNat]
      rw [if_neg (by simpa using hhost)]

/-! ## The text of a target -/

theorem toList_to_wire_string (host : List Char) (port : UInt16) :
    (TargetAddr.DomainPort (String.ofList host) port).to_wire_string =
      String.ofList (host ++ ':' :: Nat.toDigits 10 port.toNat) := by
  rw [← String.toList_inj]
  simp [TargetAddr.to_wire_string, Nat.toList_repr]

theorem isHost_ne_nil {w : List Char} {mk : UInt16 → SocketAddr} (h : IsHost w mk) : w ≠ [] := by
  cases h with
  | v4 h =>
    rintro rfl
    cases h
  | v6 => simp

/-- The text of a domain is parsed as that domain, unless it is that of a socket
address. -/
theorem parse_domain_text {s : String} {host port_str : List Char} {port : UInt16} (h : IsDomain s host port_str port) :
    TargetAddr.parse (TargetAddr.DomainPort (String.ofList host) port).to_wire_string =
        .ok (.DomainPort (String.ofList host) port) ↔
      ¬ ∃ mk, IsHost host mk := by
  have hdec := isDecimal_toDigits port.toNat
  rw [toList_to_wire_string, parse_eq_ok_iff]
  constructor
  · rintro (⟨addr, -, heq⟩ | ⟨hnone, -⟩)
    · cases heq
    · rintro ⟨mk, hhost⟩
      rw [(from_str_host_port_iff hdec).2 ⟨port.toNat_lt, mk, hhost, rfl⟩] at hnone
      cases hnone
  · intro hnot
    refine .inr ⟨?_, host, _, port, ⟨String.toList_ofList, hdec.not_mem (by decide), h.host, ?_⟩, rfl⟩
    · rw [Option.eq_none_iff_forall_ne_some]
      intro addr haddr
      obtain ⟨-, mk, hhost, -⟩ := (from_str_host_port_iff hdec).1 haddr
      exact hnot ⟨mk, hhost⟩
    · rwa [unsigned_digits_of_decimal hdec]

/-- A text whose host is that of a socket address, and which is none because of the
sign of its port. -/
def SignedPort (s : String) : Prop :=
  ∃ host ds : String, s = host ++ ":+" ++ ds ∧ (∀ c ∈ ds.toList, c.isDigit = true) ∧
    (SocketAddr.from_str (host ++ ":" ++ ds)).isSome

/-- Without its sign such a text is the host and the port of a socket address. -/
theorem signedPort_iff {s : String} : SignedPort s ↔
    ∃ host ds mk port, s.toList = host ++ ':' :: '+' :: ds ∧ IsHost host mk ∧ IsDecimal ds (UInt16.toNat port) := by
  constructor
  · rintro ⟨host, ds, rfl, hds, haddr⟩
    obtain ⟨addr, haddr⟩ := Option.isSome_iff_exists.1 haddr
    obtain ⟨w, ds', mk, port, heq, hw, hds', -⟩ := from_str_eq_some_iff.1 haddr
    have hcolon : ':' ∉ ds.toList := fun hmem => absurd (hds ':' hmem) (by decide)
    rw [show (host ++ ":" ++ ds).toList = host.toList ++ ':' :: ds.toList by simp] at heq
    obtain ⟨rfl, rfl⟩ := append_cons_inj_of_last hcolon (hds'.not_mem (by decide)) heq
    exact ⟨host.toList, ds.toList, mk, port, by simp, hw, hds'⟩
  · rintro ⟨host, ds, mk, port, heq, hw, hds⟩
    refine ⟨String.ofList host, String.ofList ds, ?_, ?_, ?_⟩
    · rw [← String.toList_inj, heq]
      simp
    · intro c hc
      rw [String.toList_ofList] at hc
      rw [← isDigit_ten]
      exact hds.2.1 c hc
    · have htext : String.ofList host ++ ":" ++ String.ofList ds = String.ofList (host ++ ':' :: ds) := by
        rw [← String.toList_inj]
        simp
      rw [htext, (from_str_host_port_iff hds).2 ⟨port.toNat_lt, mk, hw, rfl⟩]
      rfl

theorem colon_not_mem_signed {ds : List Char} {n : Nat} (h : IsDecimal ds n) : ':' ∉ '+' :: ds := by
  rw [List.mem_cons, not_or]
  exact ⟨by decide, h.not_mem (by decide)⟩

/-- A domain whose host is that of a socket address has a sign in front of its port. -/
theorem IsDomain.isHost_iff {s : String} {host port_str : List Char} {port : UInt16} (h : IsDomain s host port_str port)
    (hnone : SocketAddr.from_str s = none) : (∃ mk, IsHost host mk) ↔ SignedPort s := by
  rw [signedPort_iff]
  constructor
  · rintro ⟨mk, hhost⟩
    rcases unsigned_digits_cases port_str with hds | ⟨ds, rfl, hds⟩
    · -- Without a sign the text would have been that of the address itself.
      have hport := hds ▸ h.port
      have haddr := (from_str_host_port_iff hport).2 ⟨port.toNat_lt, mk, hhost, rfl⟩
      rw [← h.text, String.ofList_toList, hnone] at haddr
      cases haddr
    · exact ⟨host, ds, mk, port, h.text, hhost, hds ▸ h.port⟩
  · rintro ⟨host', ds, mk, port', heq, hhost, hds⟩
    obtain ⟨rfl, -⟩ := append_cons_inj_of_last h.last (colon_not_mem_signed hds) (h.text.symm.trans heq)
    exact ⟨mk, hhost⟩

/-- A text with a signed port is that of a domain. -/
theorem SignedPort.isDomain {s : String} (h : SignedPort s) : SocketAddr.from_str s = none ∧
    ∃ host port_str port, IsDomain s host port_str port := by
  obtain ⟨host, ds, mk, port, heq, hhost, hds⟩ := signedPort_iff.1 h
  have hcolon := colon_not_mem_signed hds
  refine ⟨?_, host, '+' :: ds, port, heq, hcolon, isHost_ne_nil hhost, hds⟩
  rw [Option.eq_none_iff_forall_ne_some]
  intro addr haddr
  obtain ⟨w, ds', mk', port', heq', -, hds', -⟩ := from_str_eq_some_iff.1 haddr
  obtain ⟨-, rfl⟩ := append_cons_inj_of_last hcolon (hds'.not_mem (by decide)) (heq.symm.trans heq')
  exact hds'.not_mem (by decide) List.mem_cons_self

/-- Rendering a target that was parsed and parsing it again gives the same target,
except where the text had a sign in front of the port of a socket address. -/
theorem target_text_stable_iff (s : String) :
    (∀ t, TargetAddr.parse s = .ok t → TargetAddr.parse t.to_wire_string = .ok t) ↔ ¬ SignedPort s := by
  constructor
  · intro hstable hsigned
    obtain ⟨hnone, host, port_str, port, hdomain⟩ := hsigned.isDomain
    have hparse := parse_eq_ok_iff.2 (.inr ⟨hnone, host, port_str, port, hdomain, rfl⟩)
    exact (parse_domain_text hdomain).1 (hstable _ hparse) ((hdomain.isHost_iff hnone).2 hsigned)
  · intro hsigned t ht
    rcases parse_eq_ok_iff.1 ht with ⟨addr, haddr, rfl⟩ | ⟨hnone, host, port_str, port, hdomain, rfl⟩
    · exact parse_eq_ok_iff.2 (.inl ⟨addr, from_str_to_string haddr, rfl⟩)
    · exact (parse_domain_text hdomain).2 fun hhost => hsigned ((hdomain.isHost_iff hnone).1 hhost)

/-- A domain is rendered as an address. -/
theorem target_text_not_stable : TargetAddr.parse "1.2.3.4:+80" = .ok (.DomainPort "1.2.3.4" 80) ∧
    (TargetAddr.DomainPort "1.2.3.4" 80).to_wire_string = "1.2.3.4:80" ∧
    TargetAddr.parse "1.2.3.4:80" = .ok (.IpPort (.v4 (ipv4 1 2 3 4) 80)) := by
  decide +kernel

end MiniVpn
