import MiniVpn.Lib.Wire
import Mathlib.Control.Monad.Basic
/-!
# Decoders

A decoder takes a value off the front of a byte string. `Reads p bs a` says that
`p` takes exactly `bs` and gives `a`, whatever follows; it is put together from
the fields of a format in the order they are written.
-/

namespace Lib

abbrev Decoder (α : Type) := StateT (List UInt8) Option α

namespace Decoder

variable {α β : Type}

/-! ## Fields -/

def bytes (n : Nat) : Decoder (List UInt8) := fun bs => if n ≤ bs.length then some (bs.take n, bs.drop n) else none

def byte : Decoder UInt8
  | [] => none
  | b :: bs => some (b, bs)

/-- A big-endian number of `n` bytes. -/
def uint (n : Nat) : Decoder Nat := Wire.ofBe <$> bytes n

def u16 : Decoder UInt16 := UInt16.ofNat <$> uint 2

/-- The value of the whole of `bs`: nothing may be left. -/
def whole (p : Decoder α) (bs : List UInt8) : Option α :=
  match p bs with
  | some (a, []) => some a
  | _ => none

/-- A length of `n` bytes and as many bytes, the whole of which `p` reads. -/
def within (n : Nat) (p : Decoder α) : Decoder α := do
  let body ← bytes (← uint n)
  match p.whole body with
  | some a => pure a
  | none => failure

/-- Everything that is left. -/
def remaining : Decoder (List UInt8) := fun bs => some (bs, [])

/-- A length of `n` bytes and as many bytes. -/
def block (n : Nat) : Decoder (List UInt8) := within n remaining

/-- Values up to the end; each has to take a byte at least. -/
def many (p : Decoder α) (bs : List UInt8) : Option (List α × List UInt8) :=
  match bs with
  | [] => some ([], [])
  | b :: bs =>
    match p (b :: bs) with
    | none => none
    | some (a, rest) =>
      if rest.length < (b :: bs).length then
        match many p rest with
        | none => none
        | some (as, rest) => some (a :: as, rest)
      else none
termination_by bs.length
decreasing_by assumption

/-- One value at least. -/
def nonempty (p : Decoder (List α)) : Decoder (List α) := do
  let as ← p
  guard (as ≠ [])
  return as

/-- A length of `n` bytes and values that take up as many bytes. -/
def listOf (n : Nat) (p : Decoder α) : Decoder (List α) := within n (many p)

/-! ## What a decoder reads -/

def Reads (p : Decoder α) (bs : List UInt8) (a : α) : Prop := ∀ rest, p (bs ++ rest) = some (a, rest)

theorem reads_pure (a : α) : Reads (pure a) [] a := fun _ => rfl

theorem Reads.bind {p : Decoder α} {f : α → Decoder β} {bs cs : List UInt8} {a : α} {b : β} (hp : Reads p bs a)
    (hf : Reads (f a) cs b) : Reads (p >>= f) (bs ++ cs) b := by
  intro rest
  have hrun : (p >>= f) (bs ++ (cs ++ rest)) = f a (cs ++ rest) := by
    show (p (bs ++ (cs ++ rest))).bind _ = _
    rw [hp]
    rfl
  rw [List.append_assoc, hrun, hf]

/-- The last field, with a result made of what was read. -/
theorem Reads.last {p : Decoder α} {f : α → Decoder β} {bs : List UInt8} {a : α} {b : β} (hp : Reads p bs a)
    (hf : Reads (f a) [] b) : Reads (p >>= f) bs b := by
  have h := hp.bind hf
  rwa [List.append_nil] at h

theorem Reads.map {p : Decoder α} {bs : List UInt8} {a : α} (hp : Reads p bs a) (f : α → β) :
    Reads (f <$> p) bs (f a) := by
  intro rest
  show (p (bs ++ rest)).bind _ = _
  rw [hp]
  rfl

theorem reads_bytes (bs : List UInt8) : Reads (bytes bs.length) bs bs := by
  intro rest
  simp [bytes]

theorem reads_byte (b : UInt8) : Reads byte [b] b := fun _ => rfl

theorem reads_uint {n x : Nat} (h : x < 256 ^ n) : Reads (uint n) (Wire.be n x) x := by
  have hread := (reads_bytes (Wire.be n x)).map Wire.ofBe
  rwa [Wire.length_be, Wire.ofBe_be_of_lt h] at hread

theorem reads_u16 (x : UInt16) : Reads u16 (Wire.be 2 x.toNat) x := by
  have h := (reads_uint (n := 2) x.toNat_lt).map UInt16.ofNat
  rwa [UInt16.ofNat_toNat] at h

/-- A check takes no bytes. -/
theorem Reads.check {p : Prop} [Decidable p] {f : Unit → Decoder β} {bs : List UInt8} {b : β} (hp : p)
    (hf : Reads (f ()) bs b) : Reads (guard p >>= f) bs b := by
  rw [guard, if_pos hp]
  exact (reads_pure ()).bind hf

theorem Reads.whole {p : Decoder α} {bs : List UInt8} {a : α} (hp : Reads p bs a) : p.whole bs = some a := by
  have hread := hp []
  rw [List.append_nil] at hread
  rw [Decoder.whole, hread]

theorem reads_within {n : Nat} {p : Decoder α} {bs : List UInt8} {a : α} (hlen : bs.length < 256 ^ n)
    (hp : p.whole bs = some a) : Reads (within n p) (Wire.be n bs.length ++ bs) a := by
  refine (reads_uint hlen).bind ?_
  refine (reads_bytes bs).last ?_
  rw [hp]
  exact reads_pure a

theorem reads_block {n : Nat} {bs : List UInt8} (hlen : bs.length < 256 ^ n) :
    Reads (block n) (Wire.be n bs.length ++ bs) bs := reads_within hlen rfl

/-- Two readings of one byte string agree on the value and on where it ends. -/
theorem Reads.unique {p : Decoder α} {bs cs r s : List UInt8} {a b : α} (hp : Reads p bs a) (hq : Reads p cs b)
    (h : bs ++ r = cs ++ s) : a = b ∧ r = s := by
  have heq := (hp r).symm.trans (h ▸ hq s)
  exact Prod.mk.inj (Option.some.inj heq)

theorem Reads.nonempty {p : Decoder (List α)} {bs : List UInt8} {as : List α} (hp : Reads p bs as) (h : as ≠ []) :
    Reads (nonempty p) bs as := hp.last (.check h (reads_pure as))

theorem whole_many {p : Decoder α} {encode : α → List UInt8} {as : List α}
    (h : ∀ a ∈ as, Reads p (encode a) a ∧ encode a ≠ []) : whole (many p) (as.flatMap encode) = some as := by
  suffices hmany : many p (as.flatMap encode) = some (as, []) by rw [whole, hmany]
  induction as with
  | nil => rw [List.flatMap_nil, many]
  | cons a as ih =>
    obtain ⟨hread, hne⟩ := h a List.mem_cons_self
    obtain ⟨b, bs, henc⟩ := List.exists_cons_of_ne_nil hne
    have hrun := hread (as.flatMap encode)
    rw [henc, List.cons_append] at hrun
    rw [List.flatMap_cons, henc, List.cons_append, many, hrun]
    simp only [List.length_cons, List.length_append]
    rw [if_pos (by omega), ih fun a' ha' => h a' (List.mem_cons_of_mem _ ha')]

theorem reads_listOf {n : Nat} {p : Decoder α} {encode : α → List UInt8} {as : List α}
    (hlen : (as.flatMap encode).length < 256 ^ n) (h : ∀ a ∈ as, Reads p (encode a) a ∧ encode a ≠ []) :
    Reads (listOf n p) (Wire.be n (as.flatMap encode).length ++ as.flatMap encode) as :=
  reads_within hlen (whole_many h)

end Decoder

end Lib
