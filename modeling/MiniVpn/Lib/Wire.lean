import Mathlib.Data.List.Basic
import Mathlib.Data.UInt
import Mathlib.Tactic.Ring
/-!
# Byte strings on the wire

Big-endian fields of a fixed width, slices with a bounds check and UTF-8 text.
`slice` is `none` where indexing a byte slice panics.
-/

namespace Lib

namespace Wire

/-! ## Big-endian numbers -/

/-- The low `n` bytes of `x`, most significant first. -/
def be : Nat → Nat → List UInt8
  | 0, _ => []
  | n + 1, x => be n (x / 256) ++ [UInt8.ofNat x]

/-- The number a big-endian byte string denotes. -/
def ofBe (bs : List UInt8) : Nat := bs.foldl (fun x b => x * 256 + b.toNat) 0

@[simp] theorem ofBe_nil : ofBe [] = 0 := rfl

theorem ofBe_concat (bs : List UInt8) (b : UInt8) : ofBe (bs ++ [b]) = ofBe bs * 256 + b.toNat := by
  simp [ofBe]

@[simp] theorem length_be (n x : Nat) : (be n x).length = n := by
  induction n generalizing x with
  | zero => rfl
  | succ n ih => simp [be, ih]

theorem be_two (x : Nat) : be 2 x = [UInt8.ofNat (x / 256), UInt8.ofNat x] := rfl

theorem ofBe_be (n x : Nat) : ofBe (be n x) = x % 256 ^ n := by
  induction n generalizing x with
  | zero => simp [be, Nat.mod_one]
  | succ n ih =>
    rw [be, ofBe_concat, ih, pow_succ', Nat.mod_mul]
    simp only [UInt8.toNat_ofNat']
    ring

/-- A field that fits its width is read back. -/
theorem ofBe_be_of_lt {n x : Nat} (h : x < 256 ^ n) : ofBe (be n x) = x := by
  rw [ofBe_be, Nat.mod_eq_of_lt h]

theorem be_ofBe (bs : List UInt8) : be bs.length (ofBe bs) = bs := by
  induction bs using List.reverseRecOn with
  | nil => rfl
  | append_singleton bs b ih =>
    have hb := b.toNat_lt
    rw [List.length_append, List.length_singleton, be, ofBe_concat,
      show (ofBe bs * 256 + b.toNat) / 256 = ofBe bs by omega, ih]
    congr 2
    apply UInt8.toNat_inj.1
    rw [UInt8.toNat_ofNat']
    omega

theorem ofBe_lt (bs : List UInt8) : ofBe bs < 256 ^ bs.length := by
  have h := ofBe_be bs.length (ofBe bs)
  rw [be_ofBe] at h
  rw [h]
  exact Nat.mod_lt _ (Nat.pow_pos (by decide))

/-- The bytes of a field are known from its width and its value. -/
theorem ofBe_eq_iff {bs : List UInt8} {n x : Nat} (h : bs.length = n) : ofBe bs = x ↔ bs = be n x ∧ x < 256 ^ n := by
  constructor
  · rintro rfl
    exact ⟨by rw [← h, be_ofBe], h ▸ ofBe_lt bs⟩
  · rintro ⟨rfl, hx⟩
    exact ofBe_be_of_lt hx

theorem ofBe_pair_lt (a b : UInt8) : ofBe [a, b] < 65536 := by
  have ha := a.toNat_lt
  have hb := b.toNat_lt
  simp [ofBe]
  omega

/-- Two bytes as a 16-bit number, and back. -/
theorem be_toNat_ofBe_pair (a b : UInt8) : be 2 (UInt16.ofNat (ofBe [a, b])).toNat = [a, b] := by
  rw [UInt16.toNat_ofNat', Nat.mod_eq_of_lt (ofBe_pair_lt a b)]
  exact be_ofBe [a, b]

/-! ## Slices -/

/-- The bytes at `lo..hi`, if the range is in bounds. -/
def slice (bs : List UInt8) (lo hi : Nat) : Option (List UInt8) :=
  if lo ≤ hi ∧ hi ≤ bs.length then some ((bs.take hi).drop lo) else none

theorem slice_eq_some {bs : List UInt8} {lo hi : Nat} (hlo : lo ≤ hi) (hhi : hi ≤ bs.length) :
    slice bs lo hi = some ((bs.take hi).drop lo) := if_pos ⟨hlo, hhi⟩

theorem slice_add {bs : List UInt8} {lo : Nat} (h : lo ≤ bs.length) (n : Nat) :
    slice bs lo (lo + n) = slice (bs.drop lo) 0 n := by
  unfold slice
  rw [List.length_drop, List.drop_take, Nat.add_sub_cancel_left, List.drop_zero]
  exact if_congr (by omega) rfl rfl

theorem getElem?_of_drop {bs rest : List UInt8} {i : Nat} {b : UInt8} (h : bs.drop i = b :: rest) : bs[i]? = some b := by
  have hget : (bs.drop i)[0]? = bs[i + 0]? := List.getElem?_drop
  rwa [h, List.getElem?_cons_zero, Nat.add_zero, eq_comm] at hget

theorem slice_of_drop {bs mid rest : List UInt8} {lo : Nat} (h : bs.drop lo = mid ++ rest) (hlo : lo ≤ bs.length) :
    slice bs lo (lo + mid.length) = some mid := by
  have hlen := congrArg List.length h
  rw [List.length_drop, List.length_append] at hlen
  rw [slice_eq_some (by omega) (by omega), List.drop_take, h, Nat.add_sub_cancel_left, List.take_left']
  rfl

theorem drop_of_slice {bs mid : List UInt8} {lo hi : Nat} (h : slice bs lo hi = some mid) :
    lo + mid.length = hi ∧ bs.drop lo = mid ++ bs.drop hi := by
  rw [slice, Option.ite_none_right_eq_some] at h
  obtain ⟨⟨hlo, hhi⟩, h⟩ := h
  obtain rfl := Option.some.inj h
  have hlen : ((bs.take hi).drop lo).length = hi - lo := by
    rw [List.length_drop, List.length_take_of_le hhi]
  refine ⟨by omega, ?_⟩
  have hsplit := List.take_append_drop (hi - lo) (bs.drop lo)
  rw [List.drop_drop, Nat.add_sub_cancel' hlo] at hsplit
  rw [List.drop_take, hsplit]

/-! ## Where bytes stand -/

/-- `mid` stands in `bs` at `pos`. -/
def At (bs : List UInt8) (pos : Nat) (mid : List UInt8) : Prop := pos ≤ bs.length ∧ ∃ back, bs.drop pos = mid ++ back

theorem at_zero {bs mid : List UInt8} : At bs 0 mid ↔ ∃ back, bs = mid ++ back := by
  simp [At]

theorem at_append {bs a b : List UInt8} {pos : Nat} : At bs pos (a ++ b) ↔ At bs pos a ∧ At bs (pos + a.length) b := by
  constructor
  · rintro ⟨hpos, back, h⟩
    rw [List.append_assoc] at h
    have hlen := congrArg List.length h
    rw [List.length_drop, List.length_append] at hlen
    refine ⟨⟨hpos, _, h⟩, by omega, back, ?_⟩
    rw [← List.drop_drop, h, List.drop_left' rfl]
  · rintro ⟨⟨hpos, back, h⟩, -, back', h'⟩
    rw [← List.drop_drop, h, List.drop_left' rfl] at h'
    exact ⟨hpos, back', by rw [h, h', List.append_assoc]⟩

theorem slice_eq_some_iff {bs mid : List UInt8} {lo hi : Nat} :
    slice bs lo hi = some mid ↔ lo + mid.length = hi ∧ At bs lo mid := by
  constructor
  · intro h
    obtain ⟨hhi, hdrop⟩ := drop_of_slice h
    rw [slice, Option.ite_none_right_eq_some] at h
    exact ⟨hhi, by omega, _, hdrop⟩
  · rintro ⟨rfl, hlo, back, h⟩
    exact slice_of_drop h hlo

theorem getElem?_eq_some_iff_at {bs : List UInt8} {i : Nat} {b : UInt8} : bs[i]? = some b ↔ At bs i [b] := by
  constructor
  · intro h
    obtain ⟨hi, rfl⟩ := List.getElem?_eq_some_iff.1 h
    exact ⟨by omega, _, List.drop_eq_getElem_cons hi⟩
  · rintro ⟨-, back, h⟩
    exact getElem?_of_drop h

/-- What follows a header of four bytes and a body is shorter than the whole. -/
theorem length_drop_lt (rest : List UInt8) (n : Nat) (a b c d : UInt8) :
    (rest.drop n).length < (a :: b :: c :: d :: rest).length := by
  simp only [List.length_drop, List.length_cons]
  omega

/-- Induction over the pairs of a byte string of even length. -/
@[elab_as_elim]
theorem pair_induction {motive : (bs : List UInt8) → bs.length % 2 = 0 → Prop} (nil : motive [] rfl)
    (cons : ∀ a b rest (h : rest.length % 2 = 0) (h' : (a :: b :: rest).length % 2 = 0),
      motive rest h → motive (a :: b :: rest) h') : ∀ (bs : List UInt8) (h : bs.length % 2 = 0), motive bs h
  | [], _ => nil
  | a :: b :: rest, h' =>
    have h : rest.length % 2 = 0 := by
      rw [List.length_cons, List.length_cons] at h'
      omega
    cons a b rest h h' (pair_induction nil cons rest h)

/-! ## UTF-8 -/

theorem toList_loop_eq (b : ByteArray) (i : Nat) (r : List UInt8) :
    ByteArray.toList.loop b i r = r.reverse ++ b.data.toList.drop i := by
  fun_induction ByteArray.toList.loop b i r with
  | case1 i r hi ih =>
    have hget : b.get! i = b.data.toList[i] := by
      rw [ByteArray.get!, getElem!_pos b.data i hi, Array.getElem_toList]
    rw [ih, List.drop_eq_getElem_cons (l := b.data.toList) (i := i) (by simpa using hi), hget]
    simp
  | case2 i r hi =>
    rw [List.drop_eq_nil_of_le (by simpa using hi), List.append_nil]

theorem toList_eq_data (b : ByteArray) : b.toList = b.data.toList := by
  rw [ByteArray.toList, toList_loop_eq]
  rfl

/-- The bytes of a text. -/
def utf8 (s : String) : List UInt8 := s.toUTF8.toList

/-- The text a byte string encodes, if it is valid UTF-8. -/
def fromUtf8 (bs : List UInt8) : Option String := String.fromUTF8? ⟨bs.toArray⟩

theorem fromUtf8_eq_some_iff {bs : List UInt8} {s : String} : fromUtf8 bs = some s ↔ utf8 s = bs := by
  rw [utf8, toList_eq_data, fromUtf8, String.fromUTF8?]
  constructor
  · intro h
    split at h
    · obtain rfl := Option.some.inj h
      rfl
    · cases h
  · rintro rfl
    exact dif_pos s.isValidUTF8

@[simp] theorem fromUtf8_utf8 (s : String) : fromUtf8 (utf8 s) = some s := fromUtf8_eq_some_iff.2 rfl

theorem utf8_inj {s t : String} (h : utf8 s = utf8 t) : s = t :=
  Option.some.inj ((fromUtf8_eq_some_iff.2 h).symm.trans (fromUtf8_utf8 t))

theorem utf8_ofList (cs : List Char) : utf8 (String.ofList cs) = cs.flatMap String.utf8EncodeChar := by
  simp [utf8, toList_eq_data, List.utf8Encode]

/-- A character is one byte, its own code, or several bytes that are none of ASCII. -/
theorem utf8EncodeChar_ascii (c : Char) : (c.toNat < 128 ∧ String.utf8EncodeChar c = [UInt8.ofNat c.toNat]) ∨
    (128 ≤ c.toNat ∧ ∃ b bs, String.utf8EncodeChar c = b :: bs ∧ 128 ≤ b.toNat) := by
  unfold String.utf8EncodeChar
  simp only [Char.toNat]
  split
  · exact .inl ⟨by omega, rfl⟩
  · refine .inr ⟨by omega, ?_⟩
    split
    · exact ⟨_, _, rfl, by rw [UInt8.toNat_ofNat']; omega⟩
    · split
      · exact ⟨_, _, rfl, by rw [UInt8.toNat_ofNat']; omega⟩
      · exact ⟨_, _, rfl, by rw [UInt8.toNat_ofNat']; omega⟩

/-- ASCII bytes are a text. -/
theorem exists_fromUtf8_of_ascii {bs : List UInt8} (h : ∀ b ∈ bs, b.toNat < 128) : ∃ s, fromUtf8 bs = some s := by
  refine ⟨String.ofList (bs.map fun b => Char.ofNat b.toNat), fromUtf8_eq_some_iff.2 ?_⟩
  rw [utf8_ofList, List.flatMap_map]
  induction bs with
  | nil => rfl
  | cons b bs ih =>
    have hb := h b List.mem_cons_self
    have hall : ∀ n : Fin 128, (Char.ofNat n).toNat = n := by decide +kernel
    have hchar : (Char.ofNat b.toNat).toNat = b.toNat := hall ⟨b.toNat, hb⟩
    rw [List.flatMap_cons, ih fun b' hb' => h b' (List.mem_cons_of_mem _ hb')]
    rcases utf8EncodeChar_ascii (Char.ofNat b.toNat) with ⟨-, heq⟩ | ⟨hge, -⟩
    · rw [heq, hchar, UInt8.ofNat_toNat]
      rfl
    · omega

end Wire

end Lib
