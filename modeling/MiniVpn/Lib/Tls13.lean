import MiniVpn.Lib.Wire
/-!
# The record layer of TLS 1.3

One direction of a connection after the handshake, as RFC 8446 describes it. A
record is protected under a traffic secret and a sequence number; a KeyUpdate
message is the last one under its secret, and the sequence number starts again
with the next. `transmit` is a sender's side of this, `receive` the other end's.
-/

namespace Lib

namespace Tls13

/-- What a cipher suite gives one direction: the secret that follows a KeyUpdate,
and an AEAD whose key and nonce come from a secret and a sequence number. -/
structure Suite (σ : Type) where
  next : σ → σ
  encrypt : σ → Nat → (aad msg : List UInt8) → List UInt8
  decrypt : σ → Nat → (aad msg : List UInt8) → Option (List UInt8)
  decrypt_encrypt : ∀ s n aad msg, decrypt s n aad (encrypt s n aad msg) = some msg
  length_encrypt : ∀ s n aad msg, (encrypt s n aad msg).length = msg.length + 16

/-- The secret in use and the number of records protected under it. -/
structure Position (σ : Type) where
  secret : σ
  seq : Nat

variable {σ : Type} (S : Suite σ)

namespace Position

def after (p : Position σ) (rotates : Bool) : Position σ :=
  if rotates then { secret := S.next p.secret, seq := 0 } else { p with seq := p.seq + 1 }

theorem after_seq (p : Position σ) (rotates : Bool) : (p.after S rotates).seq = if rotates then 0 else p.seq + 1 := by
  cases rotates <;> rfl

end Position

/-! ## Records -/

/-- The header of a protected record, which is also its additional data. -/
def header (len : Nat) : List UInt8 := [0x17, 0x03, 0x03] ++ Wire.be 2 len

/-- TLSInnerPlaintext: the content, its type, and zeros. -/
def inner (typ : UInt8) (content : List UInt8) (padding : Nat) : List UInt8 :=
  content ++ typ :: List.replicate padding 0

/-- The type is the last byte that is not zero. -/
def splitInner (plaintext : List UInt8) : Option (UInt8 × List UInt8) :=
  let unpadded := (plaintext.reverse.dropWhile (· == 0)).reverse
  unpadded.getLast?.map fun typ => (typ, unpadded.dropLast)

theorem splitInner_inner {typ : UInt8} (h : typ ≠ 0) (content : List UInt8) (padding : Nat) :
    splitInner (inner typ content padding) = some (typ, content) := by
  have hstrip : ((inner typ content padding).reverse.dropWhile (· == 0)).reverse = content ++ [typ] := by
    rw [inner, List.reverse_append, List.reverse_cons, List.reverse_replicate, List.append_assoc,
      List.dropWhile_append_of_pos (by simp)]
    simp [h]
  simp [splitInner, hstrip]

def protect (p : Position σ) (typ : UInt8) (content : List UInt8) (padding : Nat) : List UInt8 :=
  let head := header (content.length + 1 + padding + 16)
  head ++ S.encrypt p.secret p.seq head (inner typ content padding)

theorem length_inner (typ : UInt8) (content : List UInt8) (padding : Nat) :
    (inner typ content padding).length = content.length + 1 + padding := by
  simp [inner]
  omega

/-- The length in the header of a protected record is that of what follows. -/
theorem protect_frame (p : Position σ) (typ : UInt8) {content : List UInt8} {padding : Nat}
    (h : content.length + 1 + padding ≤ 2 ^ 14 + 1) :
    ∃ l₁ l₀ ct, protect S p typ content padding = 0x17 :: 0x03 :: 0x03 :: l₁ :: l₀ :: ct ∧
      ct = S.encrypt p.secret p.seq [0x17, 0x03, 0x03, l₁, l₀] (inner typ content padding) ∧
      Wire.ofBe [l₁, l₀] = ct.length ∧ ct.length ≤ 2 ^ 14 + 17 := by
  have hct := S.length_encrypt p.secret p.seq (header (content.length + 1 + padding + 16)) (inner typ content padding)
  rw [length_inner] at hct
  refine ⟨_, _, S.encrypt p.secret p.seq (header (content.length + 1 + padding + 16)) (inner typ content padding), rfl,
    rfl, ?_, by omega⟩
  rw [hct, ← Wire.be_two]
  exact Wire.ofBe_be_of_lt (by omega)

/-! ## Messages after the handshake -/

def message (typ : UInt8) (body : List UInt8) : List UInt8 := typ :: Wire.be 3 body.length ++ body

def keyUpdate (requested : Bool) : List UInt8 := message 0x18 [if requested then 1 else 0]

/-! ## The sender -/

/-- What a record carries: application data, whole NewSessionTickets with a
KeyUpdate behind them or not, or close_notify. -/
inductive Content where
  | data (bytes : List UInt8)
  | post (tickets : List (List UInt8)) (update : Option Bool)
  | close
deriving DecidableEq

namespace Content

def typ : Content → UInt8
  | data _ => 0x17
  | post _ _ => 0x16
  | close => 0x15

def bytes : Content → List UInt8
  | data b => b
  | post tickets update => (tickets.map (message 0x04)).flatten ++ (update.map keyUpdate).getD []
  | close => [1, 0]

def rotates : Content → Bool
  | post _ (some _) => true
  | _ => false

/-- The application data of a record. -/
def app : Content → List UInt8
  | data b => b
  | _ => []

theorem typ_ne_zero (c : Content) : c.typ ≠ 0 := by
  cases c <;> simp [typ]

end Content

structure Record where
  content : Content
  padding : Nat
deriving DecidableEq

namespace Record

def protect (p : Position σ) (r : Record) : List UInt8 := Tls13.protect S p r.content.typ r.content.bytes r.padding

/-- The content and its padding stay in the limit of a record. -/
def Fits (r : Record) : Prop := r.content.bytes.length + 1 + r.padding ≤ 2 ^ 14 + 1

instance (r : Record) : Decidable r.Fits := inferInstanceAs (Decidable (_ ≤ _))

end Record

/-- The bytes of a sequence of records. -/
def transmit (p : Position σ) : List Record → List UInt8
  | [] => []
  | r :: rs => r.protect S p ++ transmit (p.after S r.content.rotates) rs

/-- A sender that keeps the limits: records that fit, a sequence number that does
not wrap, and nothing after close_notify. -/
def Conforming (seq : Nat) : List Record → Prop
  | [] => True
  | r :: rs => r.Fits ∧ seq + 1 < 2 ^ 64 ∧ (r.content = .close → rs = []) ∧
      Conforming (if r.content.rotates then 0 else seq + 1) rs

instance decidableConforming : (seq : Nat) → (rs : List Record) → Decidable (Conforming seq rs)
  | _, [] => isTrue trivial
  | seq, r :: rs =>
    have := decidableConforming (if r.content.rotates then 0 else seq + 1) rs
    inferInstanceAs (Decidable (_ ∧ _ ∧ _ ∧ _))

/-- The application data of a sequence of records. -/
def appData (rs : List Record) : List UInt8 := rs.flatMap (·.content.app)

/-! ## The receiver -/

inductive Item where
  | data (bytes : List UInt8)
  | update (requested : Bool)
deriving DecidableEq

namespace Item

def rotates : Item → Bool
  | data _ => false
  | update _ => true

def app : Item → List UInt8
  | data b => b
  | update _ => []

def requests : Item → List Bool
  | data _ => []
  | update requested => [requested]

end Item

def readItem (plaintext : List UInt8) : Option Item :=
  if 2 ^ 14 + 1 < plaintext.length then none
  else
    match splitInner plaintext with
    | some (0x17, content) => some (.data content)
    | some (0x16, content) =>
      if content = keyUpdate false then some (.update false)
      else if content = keyUpdate true then some (.update true)
      else none
    | _ => none

theorem readItem_data {content : List UInt8} {padding : Nat} (h : content.length + 1 + padding ≤ 2 ^ 14 + 1) :
    readItem (inner 0x17 content padding) = some (.data content) := by
  rw [readItem, if_neg (by rw [length_inner]; omega), splitInner_inner (by decide)]
  rfl

theorem readItem_keyUpdate (requested : Bool) :
    readItem (inner 0x16 (keyUpdate requested) 0) = some (.update requested) := by
  cases requested <;> rfl

/-- Reads all of a byte string, or nothing. -/
def receive (p : Position σ) (bytes : List UInt8) : Option (List Item × Position σ) :=
  match bytes with
  | [] => some ([], p)
  | typ :: v₁ :: v₀ :: l₁ :: l₀ :: rest =>
    let len := Wire.ofBe [l₁, l₀]
    if [typ, v₁, v₀] = [0x17, 0x03, 0x03] ∧ len ≤ 2 ^ 14 + 256 ∧ len ≤ rest.length then do
      let plaintext ← S.decrypt p.secret p.seq [typ, v₁, v₀, l₁, l₀] (rest.take len)
      let item ← readItem plaintext
      let (items, p) ← receive (p.after S item.rotates) (rest.drop len)
      return (item :: items, p)
    else none
  | _ => none
termination_by bytes.length
decreasing_by simp; omega

variable {S}

theorem receive_nil (p : Position σ) : receive S p [] = some ([], p) := by rw [receive]

/-- A protected record is read back, and the rest is read at the next position. -/
theorem receive_protect (p : Position σ) {typ : UInt8} {content : List UInt8} {padding : Nat} {item : Item}
    (hlen : content.length + 1 + padding ≤ 2 ^ 14 + 1) (hitem : readItem (inner typ content padding) = some item)
    (rest : List UInt8) :
    receive S p (protect S p typ content padding ++ rest) =
      (receive S (p.after S item.rotates) rest).map fun r => (item :: r.1, r.2) := by
  obtain ⟨l₁, l₀, ct, hframe, hct, hsize, hle⟩ := protect_frame S p typ hlen
  rw [hframe]
  simp only [List.cons_append]
  rw [receive]
  dsimp only
  rw [hsize, if_pos ⟨rfl, by omega, by rw [List.length_append]; omega⟩, List.take_left, List.drop_left, hct,
    S.decrypt_encrypt]
  simp only [Option.bind_eq_bind, Option.bind_some, hitem, Option.pure_def]
  cases receive S (p.after S item.rotates) rest <;> rfl

/-- Reading in two parts. -/
theorem receive_append {p p' : Position σ} {items : List Item} {a : List UInt8} (h : receive S p a = some (items, p'))
    (b : List UInt8) : receive S p (a ++ b) = (receive S p' b).map fun r => (items ++ r.1, r.2) := by
  fun_induction receive S p a generalizing items with
  | case1 p =>
    simp only [Option.some.injEq, Prod.mk.injEq] at h
    obtain ⟨rfl, rfl⟩ := h
    simp
  | case2 p typ v₁ v₀ l₁ l₀ rest len hhead =>
    rename_i ih
    simp only [Option.bind_eq_bind, Option.bind_eq_some_iff, Option.pure_def, Option.some.injEq, Prod.mk.injEq,
      Prod.exists] at h
    obtain ⟨plaintext, hdec, item, hitem, items', p₁, hrest, rfl, rfl⟩ := h
    rw [List.cons_append, List.cons_append, List.cons_append, List.cons_append, List.cons_append, receive]
    dsimp only
    rw [if_pos ⟨hhead.1, hhead.2.1, by rw [List.length_append]; omega⟩, List.take_append_of_le_length hhead.2.2,
      List.drop_append_of_le_length hhead.2.2, hdec]
    simp only [Option.bind_eq_bind, Option.bind_some, hitem, Option.pure_def, ih item hrest]
    cases receive S p₁ b <;> rfl
  | case3 => cases h
  | case4 => cases h

end Tls13

end Lib
