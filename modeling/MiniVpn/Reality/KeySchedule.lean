import MiniVpn.Lib.Wire
import MiniVpn.Net
/-!
# Primitives and the TLS 1.3 key schedule

`key_schedule.rs`. The functions of the cryptographic crates are parameters,
collected in `Crypto`; a fixed-size array of the source is a `Block`.
-/
open Lib

namespace MiniVpn

namespace Reality

/-- `[u8; n]`. -/
abbrev Block (n : Nat) := { b : Bytes // b.length = n }

namespace Block

def ofNat (n x : Nat) : Block n := ⟨Wire.be n x, Wire.length_be n x⟩

def zero (n : Nat) : Block n := ⟨List.replicate n 0, List.length_replicate⟩

/-- `try_into` from a slice. -/
def try_into (n : Nat) (b : Bytes) : Option (Block n) := if h : b.length = n then some ⟨b, h⟩ else none

theorem try_into_eq {n : Nat} {b : Bytes} (h : b.length = n) : try_into n b = some ⟨b, h⟩ := dif_pos h

end Block

/-- What the client takes from its cryptographic crates: SHA-256, HMAC-SHA-256,
HKDF-SHA-256, X25519 and AES-128-GCM, whose ciphertext ends with the tag. -/
structure Crypto where
  sha256 : Bytes → Block 32
  hmac : (key msg : Bytes) → Block 32
  hkdf_extract : (salt ikm : Bytes) → Block 32
  hkdf_expand : (prk : Block 32) → (info : Bytes) → (n : Nat) → Block n
  x25519 : (scalar point : Block 32) → Block 32
  encrypt : (key : Block 16) → (nonce : Block 12) → (aad msg : Bytes) → Bytes
  decrypt : (key : Block 16) → (nonce : Block 12) → (aad msg : Bytes) → Option Bytes

/-- Decryption inverts encryption under equal key, nonce and AAD, and the tag
has 16 bytes. -/
structure Crypto.Lawful (c : Crypto) : Prop where
  decrypt_encrypt : ∀ key nonce aad msg, c.decrypt key nonce aad (c.encrypt key nonce aad msg) = some msg
  length_encrypt : ∀ key nonce aad msg, (c.encrypt key nonce aad msg).length = msg.length + 16

/-- How a function of the client ends without a result. -/
inductive Stop where
  /-- `ClientError::Reality`. -/
  | error (message : String)
  /-- The future waits for bytes the peer has not sent. -/
  | waiting
  | panicked
deriving DecidableEq, Repr

theorem bind_eq_ok {α β : Type} {x : Except Stop α} {f : α → Except Stop β} {b : β} :
    (x >>= f) = .ok b ↔ ∃ a, x = .ok a ∧ f a = .ok b := by
  cases x <;> simp [bind, Except.bind]

/-! ## The key schedule -/

section
variable (c : Crypto)

def hkdf_label (length : Nat) (label : String) (context : Bytes) : Bytes :=
  let full_label := "tls13 ".toUTF8.toList ++ label.toUTF8.toList
  Wire.be 2 length ++ UInt8.ofNat full_label.length :: full_label ++ UInt8.ofNat context.length :: context

def expand_label (secret : Block 32) (label : String) (context : Bytes) (length : Nat) : Block length :=
  c.hkdf_expand secret (hkdf_label length label context) length

def transcript_hash (msgs : List Bytes) : Block 32 := c.sha256 msgs.flatten

def derive_secret (secret : Block 32) (label : String) (transcript_hash : Block 32) : Block 32 :=
  expand_label c secret label transcript_hash.1 32

def extract (salt ikm : Bytes) : Block 32 := c.hkdf_extract salt ikm

def compute_finished_verify_data (base_secret transcript_hash : Block 32) : Block 32 :=
  let finished_key := expand_label c base_secret "finished" [] 32
  c.hmac finished_key.1 transcript_hash.1

structure HsKeys where
  handshake_secret : Block 32
  c_hs_secret : Block 32
  s_hs_secret : Block 32
  client_key : Block 16
  server_key : Block 16
  client_iv : Block 12
  server_iv : Block 12

structure AppKeys where
  c_ap_secret : Block 32
  s_ap_secret : Block 32
  client_key : Block 16
  server_key : Block 16
  client_iv : Block 12
  server_iv : Block 12

/-- The traffic keys of the handshake, once the shared secret is accepted. -/
def handshake_keys (ecdhe : Block 32) (client_hello server_hello : Bytes) : HsKeys :=
  let early := extract c (Block.zero 32).1 (Block.zero 32).1
  let derived1 := derive_secret c early "derived" (transcript_hash c [])
  let handshake := extract c derived1.1 ecdhe.1
  let th := transcript_hash c [client_hello, server_hello]
  let c_hs := derive_secret c handshake "c hs traffic" th
  let s_hs := derive_secret c handshake "s hs traffic" th
  { client_key := expand_label c c_hs "key" [] 16
    server_key := expand_label c s_hs "key" [] 16
    client_iv := expand_label c c_hs "iv" [] 12
    server_iv := expand_label c s_hs "iv" [] 12
    handshake_secret := handshake
    c_hs_secret := c_hs
    s_hs_secret := s_hs }

def derive_handshake_keys (ecdhe : Block 32) (client_hello server_hello : Bytes) : Except Stop HsKeys :=
  if ecdhe = Block.zero 32 then .error (.error "ECDHE 共享密钥全零（低阶点/非贡献点）→ 拒绝握手")
  else .ok (handshake_keys c ecdhe client_hello server_hello)

def derive_application_keys (handshake_secret transcript_ch_sfin : Block 32) : AppKeys :=
  let derived2 := derive_secret c handshake_secret "derived" (transcript_hash c [])
  let master := extract c derived2.1 (Block.zero 32).1
  let c_ap := derive_secret c master "c ap traffic" transcript_ch_sfin
  let s_ap := derive_secret c master "s ap traffic" transcript_ch_sfin
  { client_key := expand_label c c_ap "key" [] 16
    server_key := expand_label c s_ap "key" [] 16
    client_iv := expand_label c c_ap "iv" [] 12
    server_iv := expand_label c s_ap "iv" [] 12
    c_ap_secret := c_ap
    s_ap_secret := s_ap }

def next_application_traffic_secret (secret : Block 32) : Block 32 := expand_label c secret "traffic upd" [] 32

end

/-! ## Primitives given by tables -/

/-- A function known at finitely many points, zero elsewhere. -/
def known {α : Type} [DecidableEq α] (n : Nat) (points : List (α × Nat)) (a : α) : Block n :=
  .ofNat n ((points.lookup a).getD 0)

/-- A message and what it is sealed to, under a key of `n` bytes. -/
structure Sealed (n : Nat) where
  key : Block n
  nonce : Block 12
  aad : Bytes
  msg : Bytes
  ct : Bytes
deriving DecidableEq

namespace Sealed
variable {n : Nat}

/-- An AEAD known at finitely many points; elsewhere the tag is zero. -/
def encrypt (points : List (Sealed n)) (key : Block n) (nonce : Block 12) (aad msg : Bytes) : Bytes :=
  match points.find? fun q => q.key = key ∧ q.nonce = nonce ∧ q.aad = aad ∧ q.msg = msg with
  | some q => q.ct
  | none => msg ++ List.replicate 16 0

def decrypt (points : List (Sealed n)) (key : Block n) (nonce : Block 12) (aad ct : Bytes) : Option Bytes :=
  match points.find? fun q => q.key = key ∧ q.nonce = nonce ∧ q.aad = aad ∧ q.ct = ct with
  | some q => some q.msg
  | none => if ct.drop (ct.length - 16) = List.replicate 16 0 then some (ct.take (ct.length - 16)) else none

/-- Different points have different ciphertexts, none with a zero tag. -/
def Distinct (points : List (Sealed n)) : Prop :=
  (∀ q ∈ points, ∀ q' ∈ points, q.ct = q'.ct → q = q') ∧
  ∀ q ∈ points, q.ct.length = q.msg.length + 16 ∧ q.ct.drop q.msg.length ≠ List.replicate 16 0

instance (points : List (Sealed n)) : Decidable (Distinct points) :=
  inferInstanceAs (Decidable (_ ∧ _))

theorem found {points : List (Sealed n)} {p : Sealed n → Prop} [DecidablePred p] {q : Sealed n}
    (h : points.find? (fun q => p q) = some q) : p q := by
  simpa using List.find?_some h

theorem length_encrypt {points : List (Sealed n)} (h : Distinct points) (key : Block n) (nonce : Block 12) (aad msg : Bytes) :
    (encrypt points key nonce aad msg).length = msg.length + 16 := by
  unfold encrypt
  split
  · rename_i q hq
    obtain ⟨-, -, -, rfl⟩ := found hq
    exact (h.2 q (List.mem_of_find?_eq_some hq)).1
  · simp

theorem decrypt_encrypt {points : List (Sealed n)} (h : Distinct points) (key : Block n) (nonce : Block 12) (aad msg : Bytes) :
    decrypt points key nonce aad (encrypt points key nonce aad msg) = some msg := by
  unfold encrypt
  split
  · rename_i q hq
    have hmem := List.mem_of_find?_eq_some hq
    obtain ⟨rfl, rfl, rfl, rfl⟩ := found hq
    unfold decrypt
    split
    · rename_i q' hq'
      obtain ⟨-, -, -, hct⟩ := found hq'
      rw [h.1 q' (List.mem_of_find?_eq_some hq') q hmem hct]
    · rename_i hnone
      simpa using List.find?_eq_none.1 hnone q hmem
  · unfold decrypt
    split
    · rename_i q hq
      obtain ⟨-, -, -, hct⟩ := found hq
      obtain ⟨hlen, htag⟩ := h.2 q (List.mem_of_find?_eq_some hq)
      rw [hct, List.length_append, List.length_replicate, Nat.add_right_cancel_iff] at hlen
      rw [hct, ← hlen, List.drop_left] at htag
      exact (htag rfl).elim
    · simp

end Sealed

end Reality

end MiniVpn
