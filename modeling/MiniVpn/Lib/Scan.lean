import Mathlib.Control.Monad.Basic
import Mathlib.Data.List.TakeWhile
import Mathlib.Tactic.IntervalCases
/-!
# Scanning text

A scanner takes a value off the front of a text, or fails and takes nothing. A
scanner that `Stops` at a character never takes it and sees nothing behind it, so
that a piece of text is read alike at the end of the text and in front of its
delimiter.
-/

namespace Lib

/-! ## Windows -/

section
variable {α : Type}

/-- The pieces of `n` consecutive elements, from the front. -/
def windows (n : Nat) (xs : List α) : List (List α) := (List.range (xs.length + 1 - n)).map fun i => (xs.drop i).take n

/-- A search through the windows finds the first place where the pattern stands. -/
theorem findIdx?_windows [DecidableEq α] {pat : List α} (hpat : pat ≠ []) (xs : List α) (i : Nat) :
    (windows pat.length xs).findIdx? (· == pat) = some i ↔ pat <+: xs.drop i ∧ ∀ j < i, ¬ pat <+: xs.drop j := by
  have hpos := List.length_pos_iff.2 hpat
  simp only [List.findIdx?_eq_some_iff_getElem, windows, List.length_map, List.length_range, List.getElem_map,
    List.getElem_range, beq_iff_eq, List.prefix_iff_eq_take, eq_comm (a := pat), exists_prop]
  refine ⟨fun h => ⟨h.2.1, h.2.2⟩, fun h => ⟨?_, h.1, h.2⟩⟩
  have hlen := congrArg List.length h.1
  rw [List.length_take, List.length_drop] at hlen
  omega

end

/-! ## Digits -/

/-- The value of a digit in a radix up to 36, in either case. -/
def toDigit (radix : Nat) (c : Char) : Option Nat :=
  let d :=
    if '0' ≤ c ∧ c ≤ '9' then c.toNat - '0'.toNat
    else if 'a' ≤ c ∧ c ≤ 'z' then c.toNat - 'a'.toNat + 10
    else if 'A' ≤ c ∧ c ≤ 'Z' then c.toNat - 'A'.toNat + 10
    else radix
  if d < radix then some d else none

def isDigit (radix : Nat) (c : Char) : Bool := (toDigit radix c).isSome

/-- The number a sequence of digits denotes. -/
def ofDigits (radix : Nat) (cs : List Char) : Nat := cs.foldl (fun n c => radix * n + (toDigit radix c).getD 0) 0

theorem ofDigits_concat (radix : Nat) (cs : List Char) (c : Char) :
    ofDigits radix (cs ++ [c]) = radix * ofDigits radix cs + (toDigit radix c).getD 0 := by
  simp [ofDigits]

theorem toDigit_digitChar {radix d : Nat} (hradix : radix ≤ 16) (hd : d < radix) :
    toDigit radix (Nat.digitChar d) = some d := by
  have h16 : d < 16 := by omega
  interval_cases d <;> simp [toDigit, Nat.digitChar, hd]

/-- Digits are ASCII characters. -/
theorem toDigit_of_ge {radix : Nat} {c : Char} (h : 128 ≤ c.toNat) : toDigit radix c = none := by
  have hle : ∀ d : Char, d.toNat < 128 → ¬ c ≤ d := by
    intro d hd hcd
    have hnat := UInt32.le_iff_toNat_le.1 (Char.le_def.1 hcd)
    simp only [Char.toNat] at h hd
    omega
  simp [toDigit, hle '9' (by decide), hle 'z' (by decide), hle 'Z' (by decide)]

/-- The digits of a number denote it. -/
theorem ofDigits_toDigits {radix : Nat} (h1 : 1 < radix) (h16 : radix ≤ 16) (n : Nat) :
    ofDigits radix (Nat.toDigits radix n) = n := by
  induction n using Nat.strong_induction_on with
  | _ n ih =>
    rw [Nat.toDigits_eq_if h1]
    split
    · rename_i hlt
      simp [ofDigits, toDigit_digitChar h16 hlt]
    · rename_i hge
      have hlt : n / radix < n := Nat.div_lt_self (by omega) h1
      rw [ofDigits_concat, ih _ hlt, toDigit_digitChar h16 (Nat.mod_lt _ (by omega)), Option.getD_some]
      exact Nat.div_add_mod n radix

theorem isDigit_of_mem_toDigits {radix : Nat} (h1 : 1 < radix) (h16 : radix ≤ 16) (n : Nat) :
    ∀ c ∈ Nat.toDigits radix n, isDigit radix c = true := by
  induction n using Nat.strong_induction_on with
  | _ n ih =>
    rw [Nat.toDigits_eq_if h1]
    split
    · rename_i hlt
      simp [isDigit, toDigit_digitChar h16 hlt]
    · rename_i hge
      have hlt : n / radix < n := Nat.div_lt_self (by omega) h1
      intro c hc
      rcases List.mem_append.1 hc with hc | hc
      · exact ih _ hlt c hc
      · obtain rfl := List.mem_singleton.1 hc
        simp [isDigit, toDigit_digitChar h16 (Nat.mod_lt n (by omega : radix > 0))]

/-- `ds` is the number `n` in the decimal system; zeros may stand in front. -/
def IsDecimal (ds : List Char) (n : Nat) : Prop := ds ≠ [] ∧ (∀ c ∈ ds, isDigit 10 c = true) ∧ ofDigits 10 ds = n

theorem isDecimal_toDigits (n : Nat) : IsDecimal (Nat.toDigits 10 n) n :=
  ⟨Nat.toDigits_ne_nil, isDigit_of_mem_toDigits (by decide) (by decide) n, ofDigits_toDigits (by decide) (by decide) n⟩

theorem IsDecimal.not_mem {ds : List Char} {n : Nat} (h : IsDecimal ds n) {c : Char} (hc : isDigit 10 c = false) :
    c ∉ ds := by
  intro hmem
  rw [h.2.1 c hmem] at hc
  cases hc

/-! ## Splitting -/

/-- `s` around its last `c`. -/
def rsplitOnce (c : Char) : List Char → Option (List Char × List Char)
  | [] => none
  | x :: xs =>
    match rsplitOnce c xs with
    | some (front, back) => some (x :: front, back)
    | none => if x = c then some ([], xs) else none

theorem rsplitOnce_eq_none_iff {c : Char} {s : List Char} : rsplitOnce c s = none ↔ c ∉ s := by
  induction s with
  | nil => simp [rsplitOnce]
  | cons x xs ih =>
    rw [rsplitOnce, List.mem_cons, not_or, ← ih]
    cases rsplitOnce c xs with
    | none => simp [eq_comm]
    | some fb => simp

theorem rsplitOnce_append {c : Char} {front back : List Char} (h : c ∉ back) :
    rsplitOnce c (front ++ c :: back) = some (front, back) := by
  induction front with
  | nil => simp [rsplitOnce, rsplitOnce_eq_none_iff.2 h]
  | cons x front ih => rw [List.cons_append, rsplitOnce, ih]

theorem rsplitOnce_eq_some_iff {c : Char} {s front back : List Char} :
    rsplitOnce c s = some (front, back) ↔ s = front ++ c :: back ∧ c ∉ back := by
  constructor
  · intro h
    induction s generalizing front with
    | nil => cases h
    | cons x xs ih =>
      rw [rsplitOnce] at h
      cases hxs : rsplitOnce c xs with
      | some fb =>
        rw [hxs] at h
        obtain ⟨rfl, rfl⟩ := Prod.mk.inj (Option.some.inj h)
        obtain ⟨rfl, hback⟩ := ih hxs
        exact ⟨rfl, hback⟩
      | none =>
        rw [hxs] at h
        simp only [Option.ite_none_right_eq_some, Option.some.injEq, Prod.mk.injEq] at h
        obtain ⟨rfl, rfl, rfl⟩ := h
        exact ⟨rfl, rsplitOnce_eq_none_iff.1 hxs⟩
  · rintro ⟨rfl, hback⟩
    exact rsplitOnce_append hback

/-- The last `c` of a text is at one place only. -/
theorem append_cons_inj_of_last {c : Char} {front back front' back' : List Char} (h : c ∉ back) (h' : c ∉ back')
    (heq : front ++ c :: back = front' ++ c :: back') : front = front' ∧ back = back' := by
  have hsplit := congrArg (rsplitOnce c) heq
  rw [rsplitOnce_append h, rsplitOnce_append h'] at hsplit
  exact Prod.mk.inj (Option.some.inj hsplit)

/-! ## Scanners -/

abbrev Scanner (β : Type) := StateT (List Char) Option β

namespace Scanner

variable {α β : Type}

/-- The character `c`. -/
def given (c : Char) : Scanner Unit
  | [] => none
  | x :: xs => if x = c then some ((), xs) else none

/-- The number that `digits` is a numeral of, if it has no more than `max_digits`
digits, no zero in front where there may be none, and stays below `bound`. -/
def numeral (radix bound : Nat) (max_digits : Option Nat) (allow_zeros : Bool) (digits : List Char) : Option Nat :=
  if digits = [] then none
  else if max_digits.any (· < digits.length) then none
  else if !allow_zeros && digits.head? == some '0' && decide (1 < digits.length) then none
  else if ofDigits radix digits < bound then some (ofDigits radix digits)
  else none

/-- As many digits as there are, and the number they denote. -/
def number (radix bound : Nat) (max_digits : Option Nat) (allow_zeros : Bool) : Scanner Nat := fun s =>
  (numeral radix bound max_digits allow_zeros (s.takeWhile (isDigit radix))).map
    fun n => (n, s.dropWhile (isDigit radix))

/-- The value of the whole text: nothing may be left. -/
def whole (p : Scanner β) (s : List Char) : Option β :=
  match p s with
  | some (a, []) => some a
  | _ => none

theorem whole_eq_some_iff {p : Scanner β} {s : List Char} {a : β} : whole p s = some a ↔ p s = some (a, []) := by
  unfold whole
  split
  · rename_i heq
    simp [heq]
  · rename_i hne
    constructor
    · intro h
      cases h
    · intro h
      exact absurd h (hne a)

/-! ### What a step of a scanner does -/

theorem bind_apply (p : Scanner α) (f : α → Scanner β) (s : List Char) :
    (p >>= f) s = (p s).bind fun ar => f ar.1 ar.2 := rfl

theorem guard_apply (b : Prop) [Decidable b] (s : List Char) :
    (guard b : Scanner Unit) s = if b then some ((), s) else none := by
  unfold guard
  split <;> rfl

theorem orElse_apply (p q : Scanner β) (s : List Char) : (p <|> q) s = (p s <|> q s) := rfl

theorem bind_eq_some_iff {p : Scanner α} {f : α → Scanner β} {s : List Char} {b : β × List Char} :
    (p >>= f) s = some b ↔ ∃ a r, p s = some (a, r) ∧ f a r = some b := by
  rw [bind_apply, Option.bind_eq_some_iff, Prod.exists]

theorem given_eq_some_iff {c : Char} {s : List Char} {r : Unit × List Char} :
    given c s = some r ↔ s = c :: r.2 := by
  cases s with
  | nil => simp [given]
  | cons x xs =>
    simp only [given, Option.ite_none_right_eq_some, Option.some.injEq, List.cons.injEq]
    constructor
    · rintro ⟨rfl, rfl⟩
      exact ⟨rfl, rfl⟩
    · rintro ⟨rfl, rfl⟩
      exact ⟨rfl, rfl⟩

theorem takeWhile_eq_self {cs : List Char} {radix : Nat} (h : ∀ c ∈ cs, isDigit radix c = true) :
    cs.takeWhile (isDigit radix) = cs ∧ cs.dropWhile (isDigit radix) = [] :=
  ⟨List.takeWhile_eq_self_iff.2 h, List.dropWhile_eq_nil_iff.2 h⟩

/-- A text is a number if it is a numeral made of digits. -/
theorem number_eq_some_nil_iff {radix bound n : Nat} {max_digits : Option Nat} {zero : Bool} {cs : List Char} :
    number radix bound max_digits zero cs = some (n, []) ↔
      (∀ c ∈ cs, isDigit radix c = true) ∧ numeral radix bound max_digits zero cs = some n := by
  simp only [number, Option.map_eq_some_iff, Prod.mk.injEq]
  constructor
  · rintro ⟨m, hm, rfl, hdrop⟩
    have hall := List.dropWhile_eq_nil_iff.1 hdrop
    rw [(takeWhile_eq_self hall).1] at hm
    exact ⟨hall, hm⟩
  · rintro ⟨hall, hn⟩
    rw [(takeWhile_eq_self hall).1, (takeWhile_eq_self hall).2]
    exact ⟨n, hn, rfl, rfl⟩

theorem map_apply (f : α → β) (p : Scanner α) (s : List Char) :
    (f <$> p) s = (p s).map fun ar => (f ar.1, ar.2) := by
  show (p s).bind _ = _
  cases p s <;> rfl

theorem map_eq_some_iff {f : α → β} {p : Scanner α} {s r : List Char} {b : β} :
    (f <$> p) s = some (b, r) ↔ ∃ a, p s = some (a, r) ∧ f a = b := by
  rw [map_apply, Option.map_eq_some_iff, Prod.exists]
  simp only [Prod.mk.injEq]
  constructor
  · rintro ⟨a, r', hp, rfl, rfl⟩
    exact ⟨a, hp, rfl⟩
  · rintro ⟨a, hp, rfl⟩
    exact ⟨a, r, hp, rfl, rfl⟩

theorem orElse_eq_some_iff {p q : Scanner β} {s : List Char} {b : β × List Char} :
    (p <|> q) s = some b ↔ p s = some b ∨ (p s = none ∧ q s = some b) := by
  rw [orElse_apply]
  cases p s <;> simp

/-- A text of decimal digits is a number, however many zeros stand in front. -/
theorem number_decimal_iff {bound n : Nat} {ds : List Char} :
    number 10 bound none true ds = some (n, []) ↔ IsDecimal ds n ∧ n < bound := by
  rw [number_eq_some_nil_iff]
  constructor
  · rintro ⟨hall, hn⟩
    simp only [numeral, Option.any_none, Bool.false_eq_true, if_false, Bool.not_true, Bool.false_and,
      Option.ite_none_left_eq_some, Option.ite_none_right_eq_some, Option.some.injEq] at hn
    obtain ⟨hne, hlt, rfl⟩ := hn
    exact ⟨⟨hne, hall, rfl⟩, hlt⟩
  · rintro ⟨⟨hne, hall, rfl⟩, hlt⟩
    exact ⟨hall, by simp [numeral, hne, hlt]⟩

/-! ### Scanners that stop at a character -/

/-- `p` takes a front part of the text, and what stands behind a `d` is the same to it
as the end of the text. -/
structure Stops (d : Char) (p : Scanner β) : Prop where
  takes : ∀ {s : List Char} {a : β} {r : List Char}, p s = some (a, r) → r <:+ s
  blind : ∀ s r, p (s ++ d :: r) = (p s).map fun ar => (ar.1, ar.2 ++ d :: r)

section
variable {d : Char}

theorem stops_pure (a : β) : Stops d (pure a : Scanner β) where
  takes h := by
    obtain ⟨-, rfl⟩ := Prod.mk.inj (Option.some.inj h)
    exact List.suffix_rfl
  blind _ _ := rfl

theorem stops_failure : Stops d (failure : Scanner β) where
  takes h := by cases h
  blind _ _ := rfl

theorem Stops.bind {p : Scanner α} {f : α → Scanner β} (hp : Stops d p) (hf : ∀ a, Stops d (f a)) : Stops d (p >>= f) where
  takes h := by
    obtain ⟨a, r, hr, hfr⟩ := bind_eq_some_iff.1 h
    exact ((hf a).takes hfr).trans (hp.takes hr)
  blind s r := by
    rw [bind_apply, bind_apply, hp.blind]
    cases hps : p s with
    | none => rfl
    | some ar => exact (hf ar.1).blind ar.2 r

theorem Stops.orElse {p q : Scanner β} (hp : Stops d p) (hq : Stops d q) : Stops d (p <|> q) where
  takes h := by
    rcases orElse_eq_some_iff.1 h with h | ⟨-, h⟩
    · exact hp.takes h
    · exact hq.takes h
  blind s r := by
    rw [orElse_apply, orElse_apply, hp.blind, hq.blind]
    cases p s <;> rfl

theorem Stops.map {p : Scanner α} (hp : Stops d p) (f : α → β) : Stops d (f <$> p) := by
  rw [map_eq_pure_bind]
  exact hp.bind fun a => stops_pure (f a)

theorem stops_guard (b : Prop) [Decidable b] : Stops d (guard b : Scanner Unit) := by
  unfold guard
  split
  · exact stops_pure ()
  · exact stops_failure

theorem stops_given {c : Char} (h : d ≠ c) : Stops d (given c) where
  takes hs := by
    rw [given_eq_some_iff.1 hs]
    exact List.suffix_cons ..
  blind s r := by
    cases s with
    | nil => simp [given, h]
    | cons x xs =>
      simp only [given, List.cons_append]
      split <;> rfl

theorem takeWhile_append_cons {p : Char → Bool} (h : p d = false) (s r : List Char) :
    (s ++ d :: r).takeWhile p = s.takeWhile p ∧ (s ++ d :: r).dropWhile p = s.dropWhile p ++ d :: r := by
  induction s with
  | nil => simp [h]
  | cons x xs ih =>
    rw [List.cons_append, List.takeWhile_cons, List.takeWhile_cons, List.dropWhile_cons, List.dropWhile_cons]
    split
    · exact ⟨by rw [ih.1], ih.2⟩
    · exact ⟨rfl, rfl⟩

theorem stops_number {radix : Nat} (h : isDigit radix d = false) (bound : Nat) (max_digits : Option Nat) (zero : Bool) :
    Stops d (number radix bound max_digits zero) where
  takes hs := by
    simp only [number, Option.map_eq_some_iff, Prod.mk.injEq] at hs
    obtain ⟨n, -, -, rfl⟩ := hs
    exact List.dropWhile_suffix _
  blind s r := by
    simp only [number, (takeWhile_append_cons h s r).1, (takeWhile_append_cons h s r).2, Option.map_map]
    rfl

/-- A text read up to a `d` is a text read as a whole, and a `d`. -/
theorem Stops.eq_some_cons_iff {p : Scanner β} (hp : Stops d p) {s r : List Char} {a : β} :
    p s = some (a, d :: r) ↔ ∃ w, s = w ++ d :: r ∧ p w = some (a, []) := by
  constructor
  · intro h
    obtain ⟨w, rfl⟩ := hp.takes h
    refine ⟨w, rfl, ?_⟩
    rw [hp.blind, Option.map_eq_some_iff] at h
    obtain ⟨ar, hw, heq⟩ := h
    obtain ⟨rfl, hr⟩ := Prod.mk.inj heq
    rw [hw, ← List.append_left_eq_self.1 hr]
  · rintro ⟨w, rfl, hw⟩
    rw [hp.blind, hw]
    rfl

end

end Scanner

end Lib
