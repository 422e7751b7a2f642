import MiniVpn.Lib.Scan
import MiniVpn.Reality.KeySchedule
/-!
# Identifiers in hexadecimal

`parse_uuid`, of which TUIC and REALITY have a copy each, and `parse_short_id`. A
text is cut into groups of two bytes, and `u8::from_str_radix` reads each of them:
it takes a plus sign in front of the digits, and cutting a `str` inside a character
panics. A `str` is given by its bytes.
-/
open Lib

namespace MiniVpn

open Reality (Block Stop)

/-! ## `std` -/

/-- `(*b as char).to_digit(16)`. -/
def byte_digit (b : UInt8) : Option Nat := toDigit 16 (Char.ofNat b.toNat)

/-- The digits, with the check for overflow at each. -/
def read_digits (n : Nat) : Bytes → Option UInt8
  | [] => some (UInt8.ofNat n)
  | b :: bs => do
    let d ← byte_digit b
    if n * 16 + d < 256 then read_digits (n * 16 + d) bs else none

/-- `u8::from_str_radix(s, 16).ok()`. -/
def from_str_radix_16 (s : Bytes) : Option UInt8 :=
  match s with
  | [] => none
  | b :: digits => if b = 0x2B ∧ digits ≠ [] then read_digits 0 digits else read_digits 0 (b :: digits)

/-- A byte inside a character. -/
def is_continuation (b : UInt8) : Bool := 0x80 ≤ b && b < 0xC0

def is_char_boundary (s : Bytes) (i : Nat) : Bool :=
  if i = 0 then true
  else
    match s[i]? with
    | none => i == s.length
    | some b => !is_continuation b

/-- `&s[i..j]`, or `none` where it panics. -/
def str_slice (s : Bytes) (i j : Nat) : Option Bytes :=
  if i ≤ j ∧ is_char_boundary s i ∧ is_char_boundary s j then some ((s.take j).drop i) else none

/-- `bytes.chunks(2)`. -/
def chunks2 : Bytes → List Bytes
  | a :: b :: rest => [a, b] :: chunks2 rest
  | [a] => [[a]]
  | [] => []

/-! ## The two parsers -/

def Reality.Block.cons {n : Nat} (b : UInt8) (bs : Block n) : Block (n + 1) := ⟨b :: bs.val, congrArg (· + 1) bs.property⟩

def Reality.Block.set {n : Nat} (bs : Block n) (i : Nat) (b : UInt8) : Block n :=
  ⟨bs.val.set i b, (List.length_set ..).trans bs.property⟩

/-- The loop of `parse_uuid` from the group `i` on. The outer `none` is a panic. -/
def read_groups_from (hex : Bytes) (i : Nat) : (n : Nat) → Option (Option (Block n))
  | 0 => some (some ⟨[], rfl⟩)
  | n + 1 =>
    match str_slice hex (i * 2) (i * 2 + 2) with
    | none => none
    | some pair =>
      match from_str_radix_16 pair with
      | none => some none
      | some b => (read_groups_from hex (i + 1) n).map fun out => out.map (Reality.Block.cons b)

/-- `tuic::parse_uuid`. -/
def parse_uuid (s : String) : Option (Option (Block 16)) :=
  let hex := Wire.utf8 (String.ofList (s.toList.filter fun c => c != '-'))
  if hex.length ≠ 32 then some none else read_groups_from hex 0 16

/-- `reality_upstream::parse_uuid`, which is a copy. -/
def Reality.parse_uuid (s : String) : Option (Option (Block 16)) := MiniVpn.parse_uuid s

section
variable (debug : String → String)

/-- The loop of `parse_short_id` from the group `i` on. `debug` is the rendering of a
text by `{:?}`. -/
def short_id_from (out : Block 8) (i : Nat) : List Bytes → Except Stop (Block 8)
  | [] => .ok out
  | pair :: pairs =>
    match Wire.fromUtf8 pair with
    | none => .error (.error "short_id 非法字节")
    | some s =>
      match from_str_radix_16 (Wire.utf8 s) with
      | none => .error (.error ("short_id 非 hex: " ++ debug s))
      | some b => if i < 8 then short_id_from (out.set i b) (i + 1) pairs else .error .panicked

def parse_short_id (hex : String) : Except Stop (Block 8) :=
  let bytes := Wire.utf8 hex
  if bytes.length % 2 ≠ 0 then .error (.error ("short_id hex 位数为奇数: " ++ debug hex))
  else if 16 < bytes.length then .error (.error ("short_id 超过 8 字节: " ++ debug hex))
  else short_id_from debug (Reality.Block.zero 8) 0 (chunks2 bytes)

end

/-! ## What the identifiers should be -/

/-- Digits two to a byte. -/
def pack : List Nat → Bytes
  | hi :: lo :: rest => UInt8.ofNat (16 * hi + lo) :: pack rest
  | _ => []

/-- The bytes a text of hexadecimal digits stands for. -/
def strict_hex (cs : List Char) : Option Bytes := (cs.mapM (toDigit 16)).map pack

def strict_uuid (s : String) : Option Bytes :=
  let cs := s.toList.filter fun c => c != '-'
  if cs.length = 32 then strict_hex cs else none

/-- Left-aligned in eight bytes. -/
def strict_short_id (s : String) : Option Bytes :=
  if s.toList.length % 2 = 0 ∧ s.toList.length ≤ 16 then
    (strict_hex s.toList).map fun bs => bs ++ List.replicate (8 - bs.length) 0
  else none

/-- `parse` gives the bytes of a UUID, and `None` for everything else. -/
def StrictUuid (parse : String → Option (Option (Block 16))) (s : String) : Prop :=
  (parse s).map (fun out => out.map Subtype.val) = some (strict_uuid s)

/-- `Ok` with the bytes of a short id, and `Err` for everything else. -/
def StrictShortId (parse : String → Except Stop (Block 8)) (s : String) : Prop :=
  (∀ bs, strict_short_id s = some bs → ∃ out, parse s = .ok out ∧ out.val = bs) ∧
  (strict_short_id s = none → ∃ message, parse s = .error (.error message))

/-! ## What the groups are -/

/-- Two hexadecimal digits, or a plus sign and one. -/
def Accepted (a b : UInt8) : Prop := (a = 0x2B ∨ (byte_digit a).isSome) ∧ (byte_digit b).isSome

/-- Groups that are all accepted. -/
inductive Groups : Bytes → Prop
  | nil : Groups []
  | cons {a b : UInt8} {rest : Bytes} : Accepted a b → Groups rest → Groups (a :: b :: rest)

/-- Behind accepted groups there is one that ends inside a character. -/
def SplitsChar (hex : Bytes) : Prop :=
  ∃ pre a b c rest, hex = pre ++ a :: b :: c :: rest ∧ Groups pre ∧ is_continuation c = true

/-- What the groups are read as, if none of them makes the slice panic. -/
def lenient : Bytes → Option Bytes
  | a :: b :: rest => (from_str_radix_16 [a, b]).bind fun v => (lenient rest).map fun vs => v :: vs
  | _ => some []

/-- The same if both bytes of every group have to be digits. -/
def strict (hex : Bytes) : Option Bytes := (hex.mapM byte_digit).map pack

theorem byte_digit_lt {b : UInt8} {d : Nat} (h : byte_digit b = some d) : d < 16 := by
  simp only [byte_digit, toDigit, Option.ite_none_right_eq_some, Option.some.injEq] at h
  omega

theorem from_str_radix_16_plus (b : UInt8) : from_str_radix_16 [0x2B, b] = (byte_digit b).map UInt8.ofNat := by
  cases hb : byte_digit b with
  | none => simp [from_str_radix_16, read_digits, hb]
  | some d =>
    have hlt := byte_digit_lt hb
    simp [from_str_radix_16, read_digits, hb, show d < 256 by omega]

theorem from_str_radix_16_digits {a : UInt8} (ha : a ≠ 0x2B) (b : UInt8) : from_str_radix_16 [a, b] =
    (byte_digit a).bind fun hi => (byte_digit b).map fun lo => UInt8.ofNat (16 * hi + lo) := by
  have hread : from_str_radix_16 [a, b] = read_digits 0 [a, b] := if_neg fun h => ha h.1
  rw [hread]
  cases hda : byte_digit a with
  | none => simp [read_digits, hda]
  | some hi =>
    have hhi := byte_digit_lt hda
    cases hdb : byte_digit b with
    | none => simp [read_digits, hda, hdb]
    | some lo =>
      have hlo := byte_digit_lt hdb
      rw [Option.bind_some, Option.map_some, Nat.mul_comm 16 hi]
      simp [read_digits, hda, hdb, show hi < 256 by omega, show hi * 16 + lo < 256 by omega]

theorem isSome_from_str_radix_16_iff (a b : UInt8) : (from_str_radix_16 [a, b]).isSome ↔ Accepted a b := by
  by_cases ha : a = 0x2B
  · subst ha
    rw [from_str_radix_16_plus]
    simp [Accepted]
  · rw [from_str_radix_16_digits ha]
    cases hda : byte_digit a <;> simp [Accepted, ha, hda]

theorem groups_cons_iff {a b : UInt8} {rest : Bytes} : Groups (a :: b :: rest) ↔ Accepted a b ∧ Groups rest := by
  constructor
  · intro h
    cases h with
    | cons hab hrest => exact ⟨hab, hrest⟩
  · rintro ⟨hab, hrest⟩
    exact .cons hab hrest

/-- The text is read if all its groups are accepted. -/
theorem isSome_lenient_iff {bs : Bytes} (heven : bs.length % 2 = 0) : (lenient bs).isSome ↔ Groups bs := by
  induction bs, heven using Wire.pair_induction with
  | nil => simp [lenient, Groups.nil]
  | cons a b rest h h' ih =>
    rw [groups_cons_iff, ← isSome_from_str_radix_16_iff, ← ih, lenient]
    cases from_str_radix_16 [a, b] <;> simp

/-- Without a plus sign the groups are read as digits. -/
theorem lenient_eq_strict {bs : Bytes} (heven : bs.length % 2 = 0) (hplus : 0x2B ∉ bs) : lenient bs = strict bs := by
  induction bs, heven using Wire.pair_induction with
  | nil => rfl
  | cons a b rest h h' ih =>
    simp only [List.mem_cons, not_or] at hplus
    rw [lenient, from_str_radix_16_digits (Ne.symm hplus.1), ih hplus.2.2, strict, strict, List.mapM_cons, List.mapM_cons]
    cases byte_digit a with
    | none => rfl
    | some hi =>
      cases byte_digit b with
      | none => rfl
      | some lo => cases List.mapM byte_digit rest <;> rfl

/-- A plus sign is no digit. -/
theorem strict_eq_none {bs : Bytes} (hplus : 0x2B ∈ bs) : strict bs = none := by
  have hnone : bs.mapM byte_digit = none := by
    induction bs with
    | nil => cases hplus
    | cons b bs ih =>
      rw [List.mapM_cons]
      rcases List.mem_cons.1 hplus with rfl | hmem
      · rfl
      · rw [ih hmem]
        cases byte_digit b <;> rfl
  rw [strict, hnone]
  rfl

/-- The two readings differ where all groups are accepted and a plus sign is among
them. -/
theorem lenient_eq_strict_iff {bs : Bytes} (heven : bs.length % 2 = 0) :
    lenient bs = strict bs ↔ ¬ (Groups bs ∧ 0x2B ∈ bs) := by
  by_cases hplus : 0x2B ∈ bs
  · rw [strict_eq_none hplus, ← isSome_lenient_iff heven]
    simp [hplus]
  · simp [hplus, lenient_eq_strict heven hplus]

/-! ## Texts and their bytes -/

theorem byte_digit_of_ge {b : UInt8} (h : 128 ≤ b.toNat) : byte_digit b = none := by
  have hall : ∀ n : Fin 256, 128 ≤ n.val → byte_digit (UInt8.ofNat n) = none := by decide +kernel
  simpa using hall ⟨b.toNat, b.toNat_lt⟩ h

theorem mapM_byte_digit_encode (c : Char) :
    (String.utf8EncodeChar c).mapM byte_digit = (toDigit 16 c).map fun d => [d] := by
  rcases Wire.utf8EncodeChar_ascii c with ⟨hlt, heq⟩ | ⟨hge, b, bs, heq, hb⟩
  · have hbyte : byte_digit (UInt8.ofNat c.toNat) = toDigit 16 c := by
      rw [byte_digit, UInt8.toNat_ofNat', Nat.mod_eq_of_lt (by omega), Char.ofNat_toNat]
    rw [heq, List.mapM_cons, hbyte]
    cases toDigit 16 c <;> rfl
  · rw [heq, List.mapM_cons, byte_digit_of_ge hb, toDigit_of_ge hge]
    rfl

/-- Digits are found in the bytes of a text as in its characters. -/
theorem mapM_byte_digit_utf8 (cs : List Char) :
    (Wire.utf8 (String.ofList cs)).mapM byte_digit = cs.mapM (toDigit 16) := by
  rw [Wire.utf8_ofList]
  induction cs with
  | nil => rfl
  | cons c cs ih =>
    rw [List.flatMap_cons, List.mapM_append, mapM_byte_digit_encode, ih, List.mapM_cons]
    cases toDigit 16 c <;> cases List.mapM (toDigit 16) cs <;> rfl

theorem length_of_mapM {α β : Type} {f : α → Option β} {as : List α} {bs : List β} (h : as.mapM f = some bs) :
    bs.length = as.length := by
  induction as generalizing bs with
  | nil =>
    obtain rfl := Option.some.inj h
    rfl
  | cons a as ih =>
    simp only [List.mapM_cons, Option.bind_eq_bind, Option.bind_eq_some_iff, Option.pure_def, Option.some.injEq] at h
    obtain ⟨b, -, bs', hbs, rfl⟩ := h
    simp [ih hbs]

/-- A condition on the number of characters may as well be put to the bytes: if they
differ there are other characters than digits. -/
theorem strict_hex_eq (cs : List Char) (p : Nat → Prop) [DecidablePred p] :
    (if p cs.length then strict_hex cs else none) =
      if p (Wire.utf8 (String.ofList cs)).length then strict (Wire.utf8 (String.ofList cs)) else none := by
  rw [strict_hex, strict, mapM_byte_digit_utf8]
  cases h : cs.mapM (toDigit 16) with
  | none => simp
  | some ds =>
    have hbytes := (mapM_byte_digit_utf8 cs).trans h
    rw [← length_of_mapM h, ← length_of_mapM hbytes]

/-! ## UUIDs -/

theorem splitsChar_cons_iff {a b : UInt8} {rest : Bytes} : SplitsChar (a :: b :: rest) ↔
    rest.head?.any is_continuation = true ∨ (Accepted a b ∧ SplitsChar rest) := by
  constructor
  · rintro ⟨pre, a', b', c, rest', heq, hpre, hc⟩
    cases hpre with
    | nil =>
      simp only [List.nil_append, List.cons.injEq] at heq
      obtain ⟨-, -, rfl⟩ := heq
      exact .inl hc
    | cons hab hpre =>
      simp only [List.cons_append, List.cons.injEq] at heq
      obtain ⟨rfl, rfl, rfl⟩ := heq
      exact .inr ⟨hab, _, a', b', c, rest', rfl, hpre, hc⟩
  · rintro (hhead | ⟨hab, pre, a', b', c, rest', rfl, hpre, hc⟩)
    · obtain ⟨c, hc, hcont⟩ := (Option.any_eq_true _ _).1 hhead
      obtain ⟨rest', rfl⟩ := List.head?_eq_some_iff.1 hc
      exact ⟨[], a, b, c, rest', rfl, .nil, hcont⟩
    · exact ⟨a :: b :: pre, a', b', c, rest', rfl, .cons hab hpre, hc⟩

theorem is_char_boundary_eq {s : Bytes} {i : Nat} (h0 : 0 < i) (hi : i ≤ s.length) :
    is_char_boundary s i = !(s.drop i).head?.any is_continuation := by
  rw [is_char_boundary, if_neg (by omega), List.head?_drop]
  cases h : s[i]? with
  | none =>
    have hge := List.getElem?_eq_none_iff.1 h
    simp
    omega
  | some b => rfl

/-- The slice of a group panics if the group ends inside a character. -/
theorem str_slice_group {hex rest : Bytes} {i : Nat} {a b : UInt8} (hdrop : hex.drop i = a :: b :: rest)
    (hstart : is_char_boundary hex i = true) :
    is_char_boundary hex (i + 2) = !rest.head?.any is_continuation ∧
    str_slice hex i (i + 2) = if rest.head?.any is_continuation then none else some [a, b] := by
  have hlen := congrArg List.length hdrop
  simp only [List.length_drop, List.length_cons] at hlen
  have hrest : hex.drop (i + 2) = rest := by
    rw [← List.drop_drop, hdrop]
    rfl
  have hpair : (hex.take (i + 2)).drop i = [a, b] := by
    rw [List.drop_take, hdrop, Nat.add_sub_cancel_left]
    rfl
  have hend := @is_char_boundary_eq hex (i + 2) (by omega) (by omega)
  rw [hrest] at hend
  refine ⟨hend, ?_⟩
  rw [str_slice, hstart, hend, hpair]
  cases rest.head?.any is_continuation <;> simp

/-- The loop from the group `i` on. -/
theorem read_groups_from_spec {hex : Bytes} {i n : Nat} (hlen : hex.length = i * 2 + n * 2)
    (hstart : is_char_boundary hex (i * 2) = true) :
    (SplitsChar (hex.drop (i * 2)) → read_groups_from hex i n = none) ∧
    (¬ SplitsChar (hex.drop (i * 2)) →
      (read_groups_from hex i n).map (fun out => out.map Subtype.val) = some (lenient (hex.drop (i * 2)))) := by
  induction n generalizing i with
  | zero =>
    rw [List.drop_eq_nil_of_le (by omega)]
    refine ⟨?_, fun _ => rfl⟩
    rintro ⟨pre, a, b, c, rest, heq, -⟩
    simp at heq
  | succ n ih =>
    obtain ⟨a, b, hdrop⟩ : ∃ a b, hex.drop (i * 2) = a :: b :: hex.drop ((i + 1) * 2) := by
      rw [List.drop_eq_getElem_cons (by omega), List.drop_eq_getElem_cons (by omega), Nat.succ_mul]
      exact ⟨_, _, rfl⟩
    obtain ⟨hend, hslice⟩ := str_slice_group hdrop hstart
    rw [hdrop, splitsChar_cons_iff, read_groups_from, hslice, lenient, ← isSome_from_str_radix_16_iff]
    cases hcont : (hex.drop ((i + 1) * 2)).head?.any is_continuation with
    | true => simp
    | false =>
      simp only [Bool.false_eq_true, if_false, false_or]
      cases from_str_radix_16 [a, b] with
      | none => simp
      | some v =>
        rw [hcont] at hend
        obtain ⟨hpanic, hread⟩ := @ih (i + 1) (by omega) (by rw [Nat.succ_mul]; exact hend)
        simp only [Option.isSome_some, true_and, Option.bind_some]
        refine ⟨fun hsplit => by rw [hpanic hsplit]; rfl, fun hsplit => ?_⟩
        obtain ⟨out, hout, hval⟩ := Option.map_eq_some_iff.1 (hread hsplit)
        rw [hout, ← hval]
        cases out <;> rfl

/-- The bytes of a text without its hyphens. -/
def uuid_hex (s : String) : Bytes := Wire.utf8 (String.ofList (s.toList.filter fun c => c != '-'))

/-- A text of the right length that is not read as it should be: the slices cut a
character, or there are only accepted groups and a plus sign among them. -/
def UuidTrap (s : String) : Prop :=
  (uuid_hex s).length = 32 ∧ (SplitsChar (uuid_hex s) ∨ (Groups (uuid_hex s) ∧ 0x2B ∈ uuid_hex s))

theorem strictUuid_iff (s : String) : StrictUuid parse_uuid s ↔ ¬ UuidTrap s := by
  have hstrict : strict_uuid s = if (uuid_hex s).length = 32 then strict (uuid_hex s) else none :=
    strict_hex_eq _ (fun n => n = 32)
  rw [StrictUuid, hstrict, UuidTrap]
  by_cases hlen : (uuid_hex s).length = 32
  · have hparse : parse_uuid s = read_groups_from (uuid_hex s) 0 16 := if_neg (by simp [uuid_hex] at hlen ⊢; exact hlen)
    obtain ⟨hpanic, hread⟩ := @read_groups_from_spec (uuid_hex s) 0 16 (by omega) rfl
    rw [Nat.zero_mul, List.drop_zero] at hpanic hread
    rw [hparse, if_pos hlen]
    by_cases hsplit : SplitsChar (uuid_hex s)
    · simp [hpanic hsplit, hlen, hsplit]
    · rw [hread hsplit, Option.some.injEq, lenient_eq_strict_iff (by omega)]
      simp [hlen, hsplit]
  · have hparse : parse_uuid s = some none := if_pos hlen
    simp [hparse, hlen]

/-! ## Short ids -/

theorem exists_fromUtf8_of_accepted {a b : UInt8} (h : Accepted a b) : ∃ s, Wire.fromUtf8 [a, b] = some s := by
  have hlt : ∀ {c : UInt8}, (byte_digit c).isSome → c.toNat < 128 := by
    intro c hc
    by_contra hge
    rw [byte_digit_of_ge (by omega)] at hc
    cases hc
  refine Wire.exists_fromUtf8_of_ascii ?_
  simp only [List.forall_mem_cons, List.not_mem_nil, false_imp_iff, implies_true, and_true]
  refine ⟨?_, hlt h.2⟩
  rcases h.1 with rfl | ha
  · decide
  · exact hlt ha

theorem set_append {l vs : Bytes} {i : Nat} (hi : i < l.length) (v : UInt8) :
    (l.set i v).take (i + 1) ++ vs ++ (l.set i v).drop (i + 1 + vs.length) =
      l.take i ++ v :: vs ++ l.drop (i + (v :: vs).length) := by
  have htake : (l.set i v).take (i + 1) = l.take i ++ [v] := by
    rw [List.take_add_one, List.getElem?_set_self hi, List.take_set_of_le (Nat.le_refl i)]
    rfl
  rw [htake, List.drop_set_of_lt (by omega), List.length_cons, Nat.add_assoc, Nat.add_comm 1]
  simp

section
variable (debug : String → String)

/-- The loop from the group `i` on: it fails, or writes what it reads from there. -/
theorem short_id_from_spec {bs : Bytes} (heven : bs.length % 2 = 0) {i : Nat} (hi : i * 2 + bs.length ≤ 16)
    (out : Block 8) :
    (∀ vs, lenient bs = some vs → ∃ out', short_id_from debug out i (chunks2 bs) = .ok out' ∧
      out'.val = out.val.take i ++ vs ++ out.val.drop (i + vs.length)) ∧
    (lenient bs = none → ∃ message, short_id_from debug out i (chunks2 bs) = .error (.error message)) := by
  induction bs, heven using Wire.pair_induction generalizing i out with
  | nil =>
    refine ⟨fun vs hvs => ⟨out, rfl, ?_⟩, fun hnone => (by cases hnone)⟩
    obtain rfl := Option.some.inj hvs
    simp
  | cons a b rest h h' ih =>
    simp only [List.length_cons] at hi
    have hacc := isSome_from_str_radix_16_iff a b
    rw [chunks2, short_id_from, lenient]
    cases hutf8 : Wire.fromUtf8 [a, b] with
    | none =>
      cases hv : from_str_radix_16 [a, b] with
      | none => exact ⟨fun vs hvs => (by cases hvs), fun _ => ⟨_, rfl⟩⟩
      | some v =>
        obtain ⟨s, hs⟩ := exists_fromUtf8_of_accepted (hacc.1 (by rw [hv]; rfl))
        rw [hutf8] at hs
        cases hs
    | some s =>
      rw [Wire.fromUtf8_eq_some_iff] at hutf8
      simp only [hutf8]
      cases hv : from_str_radix_16 [a, b] with
      | none => exact ⟨fun vs hvs => (by cases hvs), fun _ => ⟨_, rfl⟩⟩
      | some v =>
        simp only [Option.bind_some]
        rw [if_pos (by omega)]
        obtain ⟨hok, herr⟩ := @ih (i + 1) (by omega) (out.set i v)
        refine ⟨fun vs hvs => ?_, fun hnone => herr (by simpa using hnone)⟩
        obtain ⟨vs', hvs', rfl⟩ := Option.map_eq_some_iff.1 hvs
        obtain ⟨out', hout', hval⟩ := hok vs' hvs'
        have hlen := out.property
        exact ⟨out', hout', hval.trans (set_append (by omega) v)⟩

/-- A text that is read although it is none of digits only. -/
def ShortIdTrap (s : String) : Prop :=
  (Wire.utf8 s).length % 2 = 0 ∧ (Wire.utf8 s).length ≤ 16 ∧ Groups (Wire.utf8 s) ∧ 0x2B ∈ Wire.utf8 s

theorem strict_short_id_eq (s : String) : strict_short_id s =
    (if (Wire.utf8 s).length % 2 = 0 ∧ (Wire.utf8 s).length ≤ 16 then strict (Wire.utf8 s) else none).map
      fun bs => bs ++ List.replicate (8 - bs.length) 0 := by
  have h := strict_hex_eq s.toList fun n => n % 2 = 0 ∧ n ≤ 16
  rw [String.ofList_toList] at h
  rw [← h, strict_short_id]
  split <;> rfl

/-- A text of the right length is read group by group. -/
theorem parse_short_id_spec {s : String} (heven : (Wire.utf8 s).length % 2 = 0) (hle : (Wire.utf8 s).length ≤ 16) :
    (∀ vs, lenient (Wire.utf8 s) = some vs → ∃ out, parse_short_id debug s = .ok out ∧
      out.val = vs ++ List.replicate (8 - vs.length) 0) ∧
    (lenient (Wire.utf8 s) = none → ∃ message, parse_short_id debug s = .error (.error message)) := by
  have hparse : parse_short_id debug s = short_id_from debug (Reality.Block.zero 8) 0 (chunks2 (Wire.utf8 s)) := by
    rw [parse_short_id, if_neg (by omega), if_neg (by omega)]
  obtain ⟨hok, herr⟩ := @short_id_from_spec debug _ heven 0 (by omega) (Reality.Block.zero 8)
  rw [hparse]
  refine ⟨fun vs hvs => ?_, herr⟩
  obtain ⟨out, hout, hval⟩ := hok vs hvs
  refine ⟨out, hout, hval.trans ?_⟩
  rw [List.take_zero, List.nil_append, Nat.zero_add, Reality.Block.zero, List.drop_replicate]

theorem strictShortId_iff (s : String) : StrictShortId (parse_short_id debug) s ↔ ¬ ShortIdTrap s := by
  rw [StrictShortId, strict_short_id_eq, ShortIdTrap]
  by_cases hlen : (Wire.utf8 s).length % 2 = 0 ∧ (Wire.utf8 s).length ≤ 16
  · obtain ⟨hok, herr⟩ := parse_short_id_spec debug hlen.1 hlen.2
    rw [if_pos hlen]
    by_cases htrap : Groups (Wire.utf8 s) ∧ 0x2B ∈ Wire.utf8 s
    · obtain ⟨vs, hvs⟩ := Option.isSome_iff_exists.1 ((isSome_lenient_iff hlen.1).2 htrap.1)
      obtain ⟨out, hout, -⟩ := hok vs hvs
      simp [strict_eq_none htrap.2, hout, hlen, htrap]
    · rw [← (lenient_eq_strict_iff hlen.1).2 htrap]
      refine iff_of_true ⟨fun bs hbs => ?_, fun hnone => herr (Option.map_eq_none_iff.1 hnone)⟩ fun h => htrap h.2.2
      obtain ⟨vs, hvs, rfl⟩ := Option.map_eq_some_iff.1 hbs
      exact hok vs hvs
  · rw [if_neg hlen]
    refine iff_of_true ⟨fun bs hbs => (by cases hbs), fun _ => ?_⟩ fun h => hlen ⟨h.1, h.2.1⟩
    rw [parse_short_id]
    split
    · exact ⟨_, rfl⟩
    · rw [if_pos (by omega)]
      exact ⟨_, rfl⟩

/-! ## Strictness -/

/-- The identifiers are read strictly except for the texts described: those whose
length is right but whose groups cut a character, on which `parse_uuid` panics, and
those whose groups are digits or a digit behind a plus sign. -/
theorem hex_identifiers_strict_iff (s : String) :
    (StrictUuid parse_uuid s ↔ ¬ UuidTrap s) ∧ (StrictUuid Reality.parse_uuid s ↔ ¬ UuidTrap s) ∧
    (StrictShortId (parse_short_id debug) s ↔ ¬ ShortIdTrap s) :=
  ⟨strictUuid_iff s, strictUuid_iff s, strictShortId_iff debug s⟩

end

/-- A sign is taken for a digit, by both parsers, and a text of thirty-two bytes with a
character of two bytes at an odd place is cut in the middle. -/
theorem hex_identifiers_not_strict :
    (parse_uuid "+1000000-0000-0000-0000-000000000000").map (fun out => out.map Subtype.val) =
      some (some (1 :: List.replicate 15 0)) ∧ strict_uuid "+1000000-0000-0000-0000-000000000000" = none ∧
    parse_uuid "0é00000000000000000000000000000" = none ∧
    Reality.parse_uuid "0é00000000000000000000000000000" = none ∧
    (∃ out, parse_short_id id "+a" = .ok out ∧ out.val = [10, 0, 0, 0, 0, 0, 0, 0]) ∧ strict_short_id "+a" = none := by
  refine ⟨by decide +kernel, by decide +kernel, by decide +kernel, by decide +kernel, ⟨⟨[10, 0, 0, 0, 0, 0, 0, 0], rfl⟩, ?_, rfl⟩,
    by decide +kernel⟩
  decide +kernel

end MiniVpn
