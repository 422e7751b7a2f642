import MiniVpn.Lib.Tls13
import MiniVpn.Reality.KeySchedule
/-!
# Record protection

`record.rs`: one direction of a connection, with the sequence number that makes
the nonce. `seal` and `open` panic when the sequence number would leave 64 bits;
that is the `none` of their models.
-/
open Lib

namespace MiniVpn

namespace Reality

def MAX_TLS_PLAINTEXT : Nat := 16384
def MAX_TLS_RECORD : Nat := 16640

/-- The sequence number, big-endian, is xored into the last eight bytes. -/
def per_record_nonce (iv : Block 12) (seq : Nat) : Block 12 :=
  ⟨iv.1.take 4 ++ List.zipWith (· ^^^ ·) (iv.1.drop 4) (Wire.be 8 seq), by simp [iv.2]⟩

def record_header (enc_len : Nat) : Bytes := [0x17, 0x03, 0x03] ++ Wire.be 2 enc_len

structure RecordKeys where
  key : Block 16
  iv : Block 12
  seq : Nat
deriving DecidableEq

namespace RecordKeys

def new (key : Block 16) (iv : Block 12) : RecordKeys := { key := key, iv := iv, seq := 0 }

/-- `seq.checked_add(1).expect(..)`. -/
def bump (k : RecordKeys) : Option RecordKeys :=
  if k.seq + 1 < 2 ^ 64 then some { k with seq := k.seq + 1 } else none

/-- `seal`. -/
def seal_record (c : Crypto) (k : RecordKeys) (content_type : UInt8) (content : Bytes) : Option (Bytes × RecordKeys) := do
  let inner := content ++ [content_type]
  let header := record_header (inner.length + 16)
  let ct := c.encrypt k.key (per_record_nonce k.iv k.seq) header inner
  let k ← k.bump
  return (header ++ ct, k)

/-- The loop that pops trailing zeros. -/
def strip_zeros (inner : Bytes) : Bytes := (inner.reverse.dropWhile (· == 0)).reverse

/-- `open`. The keys that come back are also those after an error. -/
def open_record (c : Crypto) (k : RecordKeys) (header encrypted_record : Bytes) :
    Option (Except String (UInt8 × Bytes) × RecordKeys) :=
  match c.decrypt k.key (per_record_nonce k.iv k.seq) header encrypted_record with
  | none => some (.error "record 解密/认证失败", k)
  | some inner => do
    let k ← k.bump
    let inner := strip_zeros inner
    match inner.getLast? with
    | none => return (.error "record 明文全零（无 content type）", k)
    | some content_type => return (.ok (content_type, inner.dropLast), k)

end RecordKeys

def record_keys_from_secret (c : Crypto) (secret : Block 32) : RecordKeys :=
  .new (expand_label c secret "key" [] 16) (expand_label c secret "iv" [] 12)

/-! ## The record layer of the standard -/

/-- The nonce of RFC 8446: the sequence number, padded on the left to the length
of the vector, xored with it. -/
def xor_nonce (iv : Block 12) (seq : Nat) : Block 12 :=
  ⟨List.zipWith (· ^^^ ·) iv.1 (List.replicate 4 0 ++ Wire.be 8 seq), by simp [iv.2]⟩

theorem zipWith_xor_zero (bs : Bytes) : List.zipWith (· ^^^ ·) bs (List.replicate bs.length 0) = bs := by
  induction bs with
  | nil => rfl
  | cons b bs ih => simp [List.replicate_succ, ih]

theorem per_record_nonce_eq (iv : Block 12) (seq : Nat) : per_record_nonce iv seq = xor_nonce iv seq := by
  obtain ⟨iv, hiv⟩ := iv
  have hzero : List.zipWith (· ^^^ ·) (iv.take 4) (List.replicate 4 0) = iv.take 4 := by
    have h := zipWith_xor_zero (iv.take 4)
    rwa [List.length_take, hiv] at h
  apply Subtype.ext
  show iv.take 4 ++ _ = List.zipWith _ iv _
  conv_rhs => rw [← List.take_append_drop 4 iv]
  rw [List.zipWith_append (by simp [hiv]), hzero]

namespace Crypto.Lawful
variable {c : Crypto}

/-- TLS_AES_128_GCM_SHA256. -/
def suite (h : c.Lawful) : Tls13.Suite (Block 32) where
  next := next_application_traffic_secret c
  encrypt secret seq := c.encrypt (expand_label c secret "key" [] 16) (xor_nonce (expand_label c secret "iv" [] 12) seq)
  decrypt secret seq := c.decrypt (expand_label c secret "key" [] 16) (xor_nonce (expand_label c secret "iv" [] 12) seq)
  decrypt_encrypt _ _ := h.decrypt_encrypt _ _
  length_encrypt _ _ := h.length_encrypt _ _

end Crypto.Lawful

/-- The keys of a direction at a position. -/
def keys_at (c : Crypto) (p : Tls13.Position (Block 32)) : RecordKeys :=
  { record_keys_from_secret c p.secret with seq := p.seq }

section
variable {c : Crypto} (hc : c.Lawful)

theorem bump_keys_at {p : Tls13.Position (Block 32)} (hseq : p.seq + 1 < 2 ^ 64) :
    (keys_at c p).bump = some (keys_at c (p.after hc.suite false)) := if_pos hseq

/-- A sealed record is a protected one without padding. -/
theorem seal_record_eq {p : Tls13.Position (Block 32)} {typ : UInt8} {content : Bytes} :
    (keys_at c p).seal_record c typ content =
      (keys_at c p).bump.map fun k => (Tls13.protect hc.suite p typ content 0, k) := by
  have hrec : record_header ((content ++ [typ]).length + 16) ++
      c.encrypt (keys_at c p).key (per_record_nonce (keys_at c p).iv (keys_at c p).seq)
        (record_header ((content ++ [typ]).length + 16)) (content ++ [typ]) =
      Tls13.protect hc.suite p typ content 0 := by
    rw [per_record_nonce_eq, List.length_append]
    rfl
  rw [RecordKeys.seal_record, hrec]
  cases (keys_at c p).bump <;> rfl

/-- A protected record is opened, with its padding gone. -/
theorem open_record_protect {p : Tls13.Position (Block 32)} {typ : UInt8} (htyp : typ ≠ 0) (content : Bytes) (padding : Nat)
    (hseq : p.seq + 1 < 2 ^ 64) (aad : Bytes) :
    (keys_at c p).open_record c aad (hc.suite.encrypt p.secret p.seq aad (Tls13.inner typ content padding)) =
      some (.ok (typ, content), keys_at c (p.after hc.suite false)) := by
  have hdec : c.decrypt (keys_at c p).key (per_record_nonce (keys_at c p).iv (keys_at c p).seq) aad
      (hc.suite.encrypt p.secret p.seq aad (Tls13.inner typ content padding)) = some (Tls13.inner typ content padding) := by
    rw [per_record_nonce_eq]
    exact hc.suite.decrypt_encrypt p.secret p.seq aad _
  have hsplit := Tls13.splitInner_inner htyp content padding
  obtain ⟨t, ht, heq⟩ := Option.map_eq_some_iff.1 hsplit
  obtain ⟨rfl, hcontent⟩ := Prod.mk.inj heq
  unfold RecordKeys.open_record
  rw [hdec]
  simp only [bump_keys_at hc hseq, Option.bind_eq_bind, Option.bind_some, RecordKeys.strip_zeros, ht, hcontent,
    Option.pure_def]

end

end Reality

end MiniVpn
