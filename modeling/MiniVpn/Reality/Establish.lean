import Mathlib.Data.Sym.Sym2
import Mathlib.Logic.Equiv.Basic
import MiniVpn.Addresses
import MiniVpn.Reality.Certificate
import MiniVpn.Reality.ClientHello
/-!
# Opening a connection through REALITY

`RealityUpstream::establish`: an ephemeral key, a ClientHello that only the owner
of the configured public key can open, the handshake, and the VLESS request as
its first record. What the client draws at random and reads off its clock is a
parameter.
-/
open Lib

namespace MiniVpn

namespace Reality
open ServerHello (must)

/-! ## Keys -/

section
variable (c : Crypto)

def x25519_shared_secret (my_secret peer_public : Block 32) : Block 32 := c.x25519 my_secret peer_public

/-- The base point, `u = 9`. -/
def BASEPOINT : Block 32 := ⟨9 :: List.replicate 31 0, rfl⟩

/-- The key pair of a secret that was drawn. -/
def generate_ephemeral_keypair (secret : Block 32) : Block 32 × Block 32 := (secret, c.x25519 secret BASEPOINT)

def derive_auth_key (shared_secret client_random : Block 32) : Block 32 :=
  let hk := c.hkdf_extract (client_random.1.take 20) shared_secret.1
  c.hkdf_expand hk (Wire.utf8 "REALITY") 32

end

/-- X25519 is a Diffie-Hellman function: both sides of an exchange compute the same
secret. -/
def Crypto.Agrees (c : Crypto) : Prop :=
  ∀ a b, c.x25519 a (c.x25519 b BASEPOINT) = c.x25519 b (c.x25519 a BASEPOINT)

/-! ## The client -/

structure RealityClientConfig where
  server : String
  uuid : Vector UInt8 16
  pbk : Block 32
  short_id : Block 8
  sni : String

/-- What `OsRng` and the clock give. -/
structure Draw where
  secret : Block 32
  random : Block 32
  timestamp : UInt32

section
variable (c : Crypto) (aes : Aes256Gcm) (mac : HmacSha512) (cfg : RealityClientConfig) (draw : Draw)

def auth_key : Block 32 :=
  derive_auth_key c (x25519_shared_secret c (generate_ephemeral_keypair c draw.secret).1 cfg.pbk) draw.random

/-- The ClientHello that is asked for. -/
def hello_params : AuthedClientHelloParams where
  server_name := cfg.sni
  key_share := (generate_ephemeral_keypair c draw.secret).2
  random := draw.random
  auth_key := auth_key c cfg draw
  short_id := cfg.short_id
  timestamp := draw.timestamp

def establish (s : Conn) (target : TargetAddr) : Except Stop (HandshakeOutput × Conn) := do
  let ch ← must (build_authed_client_hello aes (hello_params c cfg draw))
  let expected_session_id ← must (authed_session_id ch)
  let input := {
    client_hello := ch
    client_eph_secret := (generate_ephemeral_keypair c draw.secret).1
    expected_session_id := expected_session_id }
  let (out, s) ← drive c s input (check_cert mac (auth_key c cfg draw))
  let (vless, send_keys) ← must (out.send_keys.seal_record c 0x17 (encode_vless_request cfg.uuid VLESS_CMD_TCP target))
  let s ← s.write_all "写 VLESS 请求" vless
  let s ← s.flush "flush VLESS 请求"
  return ({ out with send_keys := send_keys }, s)

end

/-! ## What the server reads -/

/-- The parts of a ClientHello that a REALITY server looks at. -/
structure HelloView where
  share : Block 32
  random : Block 32
  session_id : Block 32
deriving DecidableEq

def view_hello (msg : Bytes) : Option HelloView := do
  let ch ← Tls13.ClientHello.message.whole msg
  let shares ← ch.extensions.findSome? Tls13.Extension.shares
  let share ← (shares.lookup 0x001d).bind (Block.try_into 32)
  let random ← Block.try_into 32 ch.random
  let session_id ← Block.try_into 32 ch.sessionId
  return { share := share, random := random, session_id := session_id }

namespace HelloView

/-- The key the server derives with its private key. -/
def auth_key (c : Crypto) (static_secret : Block 32) (v : HelloView) : Block 32 :=
  derive_auth_key c (c.x25519 static_secret v.share) v.random

def nonce (v : HelloView) : Block 12 := ⟨v.random.1.drop 20, by simp [v.random.2]⟩

/-- What the session id says, if it is sealed under the server's key. -/
def open_with (c : Crypto) (aes : Aes256Gcm) (static_secret : Block 32) (v : HelloView) (msg : Bytes) :
    Option SessionIdPlaintext :=
  (open_session_id aes (v.auth_key c static_secret) v.session_id v.nonce (zero_session_id msg)).map
    SessionIdPlaintext.of_bytes

end HelloView

section
variable {c : Crypto} {aes : Aes256Gcm} {cfg : RealityClientConfig} {draw : Draw} {msg : Bytes}

/-- The server sees the client's share, its random bytes and the sealed block. -/
theorem view_hello_build (hsni : cfg.sni ≠ "") (hmsg : build_authed_client_hello aes (hello_params c cfg draw) = some msg)
    (hlen : msg.length ≤ MAX_TLS_PLAINTEXT) :
    ∃ v, view_hello msg = some v ∧ v.share = (generate_ephemeral_keypair c draw.secret).2 ∧ v.random = draw.random ∧
      authed_session_id msg = some v.session_id.1 ∧
      v.session_id.1 = (aes.encrypt (auth_key c cfg draw) (hello_params c cfg draw).nonce (zero_session_id msg)
        (hello_params c cfg draw).plaintext.to_bytes.1).1 := by
  obtain ⟨sealed, hct, hbuild, hsid, hzero⟩ := build_authed_client_hello_eq aes (hello_params c cfg draw)
  obtain rfl := Option.some.inj (hbuild.symm.trans hmsg)
  have hvalid := @hello_valid ((hello_params c cfg draw).withSessionId sealed) hsni hlen
  have hread := Tls13.ClientHello.whole_message_encode hvalid
  rw [← build_client_hello_eq] at hread
  refine ⟨⟨_, draw.random, sealed⟩, ?_, rfl, rfl, hsid, ?_⟩
  · have hshares : ((hello_params c cfg draw).withSessionId sealed).hello.extensions.findSome? Tls13.Extension.shares =
      some [(0x001d, (generate_ephemeral_keypair c draw.secret).2.1)] := rfl
    have hlookup : ([(0x001d, (generate_ephemeral_keypair c draw.secret).2.1)] : List (UInt16 × Bytes)).lookup 0x001d =
      some (generate_ephemeral_keypair c draw.secret).2.1 := rfl
    have hshare := Block.try_into_eq (generate_ephemeral_keypair c draw.secret).2.2
    have hrandom : Block.try_into 32 ((hello_params c cfg draw).withSessionId sealed).hello.random = some draw.random :=
      Block.try_into_eq draw.random.2
    have hsealed : Block.try_into 32 ((hello_params c cfg draw).withSessionId sealed).hello.sessionId = some sealed :=
      Block.try_into_eq sealed.2
    simp only [view_hello, hread, hshares, hlookup, hshare, hrandom, hsealed, Option.bind_eq_bind,
      Option.bind_some, Option.pure_def]
  · rw [hzero, hct]
    rfl

/-- The server derives the client's key with its private key. -/
theorem auth_key_agrees (hc : c.Agrees) {static_secret : Block 32} (hpbk : cfg.pbk = c.x25519 static_secret BASEPOINT)
    {v : HelloView} (hshare : v.share = (generate_ephemeral_keypair c draw.secret).2) (hrandom : v.random = draw.random) :
    v.auth_key c static_secret = auth_key c cfg draw := by
  rw [HelloView.auth_key, hshare, hrandom, auth_key, x25519_shared_secret, hpbk]
  exact congrArg (derive_auth_key c · draw.random) (hc static_secret draw.secret)

/-- The server derives the client's key, and opens the block under it: the client
has shown that it knows the public key, and says its short id. -/
theorem server_opens_session_id (hc : c.Agrees) (haes : aes.Lawful) {static_secret : Block 32}
    (hpbk : cfg.pbk = c.x25519 static_secret BASEPOINT) (hsni : cfg.sni ≠ "")
    (hmsg : build_authed_client_hello aes (hello_params c cfg draw) = some msg) (hlen : msg.length ≤ MAX_TLS_PLAINTEXT) :
    ∃ v, view_hello msg = some v ∧ v.auth_key c static_secret = auth_key c cfg draw ∧
      v.open_with c aes static_secret msg =
        some { version := REALITY_VERSION, timestamp := draw.timestamp, short_id := cfg.short_id } := by
  obtain ⟨v, hv, hshare, hrandom, -, hsealed⟩ := view_hello_build hsni hmsg hlen
  have hkey : v.auth_key c static_secret = auth_key c cfg draw := auth_key_agrees hc hpbk hshare hrandom
  have hnonce : v.nonce = (hello_params c cfg draw).nonce := by
    rw [HelloView.nonce, AuthedClientHelloParams.nonce]
    simp only [hrandom, hello_params]
  refine ⟨v, hv, hkey, ?_⟩
  rw [HelloView.open_with, hkey, hnonce, open_session_id, hsealed, haes, Option.bind_some,
    Block.try_into_eq (hello_params c cfg draw).plaintext.to_bytes.2, Option.map_some]
  exact congrArg some (SessionIdPlaintext.of_bytes_to_bytes _)

end

/-! ## A client -/

section
variable (pairs : Equiv.Perm (Block 32)) (points : List (Sym2 (Block 32) × Nat))

/-- A Diffie-Hellman function given by key pairs, and by what finitely many pairs of
secrets share. The base point is the public key of one. -/
def exchange (scalar point : Block 32) : Block 32 :=
  let peer := pairs.symm point
  if peer = pairs.symm BASEPOINT then pairs scalar
  else if scalar = pairs.symm BASEPOINT then pairs peer
  else known 32 points s(scalar, peer)

theorem exchange_basepoint (secret : Block 32) : exchange pairs points secret BASEPOINT = pairs secret := if_pos rfl

theorem exchange_comm (a b : Block 32) : exchange pairs points a (pairs b) = exchange pairs points b (pairs a) := by
  simp only [exchange, Equiv.symm_apply_apply]
  rw [Sym2.eq_swap]
  split <;> split <;> simp_all

theorem agrees_of_exchange {c : Crypto} (h : c.x25519 = exchange pairs points) : c.Agrees := by
  intro a b
  rw [h, exchange_basepoint, exchange_basepoint]
  exact exchange_comm pairs points a b

end

namespace Sample

/-! The key pairs of RFC 8448, and one for the server. The values are those of the
real primitives. -/

def static_secret : Block 32 := .ofNat 32 0x77076d0a7318a57d3c16c17251b26645df4c2f92ebc0992ac177fba51db92c2a
def static_public : Block 32 := .ofNat 32 0xf8a9535a2d2ff605e8e144d54f4ef5c62313a2055dbb21fddd3fd9c299eb015d
def client_secret : Block 32 := .ofNat 32 0x49af42ba7f7994852d713ef2784bcbcaa7911de26adc5642cb634540e7ea5005
def client_public : Block 32 := .ofNat 32 0x99381de560e4bd43d23d8e435a7dbafeb3c06e51c13cae4d5413691e529aaf2c
def eph_secret : Block 32 := .ofNat 32 0xb1580eeadf6dd589b8ef4f2d5652578cc810e9980191ec8d058308cea216a21e
def eph_public : Block 32 := .ofNat 32 0xc9828876112095fe66762bdbf7c672e156d6cc253b833df1dd69b1b04e751f0f

def key_pairs : Equiv.Perm (Block 32) :=
  (Equiv.swap static_secret static_public).trans
    ((Equiv.swap client_secret client_public).trans (Equiv.swap eph_secret eph_public))

def shared_secrets : List (Sym2 (Block 32) × Nat) := [
  (s(client_secret, static_secret), 0x821618df305aa27739244cff5976a770b9ccfca4dd876da471ba0ace3cad293a),
  (s(client_secret, eph_secret), 0x8bd4054fb55b9d63fdfbacf9f04b9f0d35e6d63f537563efd46272900f89492d)]

def client_config : RealityClientConfig where
  server := "203.0.113.7:443"
  uuid := Vector.replicate 16 0x5a
  pbk := static_public
  short_id := ⟨[0xc5, 0x1e, 0, 0, 0, 0, 0, 0], rfl⟩
  sni := "www.microsoft.com"

def client_draw : Draw where
  secret := client_secret
  random := .ofNat 32 0xcb34ecb1e78163ba1c38c6dacb196a6dffa21a8d9912ec18a2ef6283024dece7
  timestamp := 0x01020304

/-- How the key for the session id is derived. -/
def auth_extracts : List ((Bytes × Bytes) × Nat) :=
  [((client_draw.random.1.take 20, Wire.be 32 0x821618df305aa27739244cff5976a770b9ccfca4dd876da471ba0ace3cad293a),
    0xc76c6fe9e5c22d2017f309bd7fc511270aac99e2bdca08f15c3c235c5e7831f1)]

def auth_expands : List ((Block 32 × Bytes) × Nat) :=
  [((.ofNat 32 0xc76c6fe9e5c22d2017f309bd7fc511270aac99e2bdca08f15c3c235c5e7831f1, Wire.utf8 "REALITY"),
    0xd15968ad2ddedac59d8ba44cade515c822703be0db7c7227c9ff0991506dda4b)]

/-- The primitives, as far as the ClientHello needs them. -/
def hello_crypto : Crypto where
  sha256 _ := .zero 32
  hmac _ _ := .zero 32
  hkdf_extract salt ikm := known 32 auth_extracts (salt, ikm)
  hkdf_expand prk info n := known n auth_expands (prk, info)
  x25519 := exchange key_pairs shared_secrets
  encrypt _ _ _ _ := []
  decrypt _ _ _ _ := none

/-- The session id that the client sends. -/
def sealed_id : Block 32 := .ofNat 32 0x2ad2d5c7d774d3b8446f407fe64de1c84d0be33bdfdb474433bf6f2b16db25c8

def hello_with (session_id : Block 32) : Bytes :=
  build_client_hello {
    server_name := "www.microsoft.com"
    key_share := client_public
    random := client_draw.random
    session_id := session_id }

def sealed_ids : List (Sealed 32) :=
  [⟨.ofNat 32 0xd15968ad2ddedac59d8ba44cade515c822703be0db7c7227c9ff0991506dda4b, .ofNat 12 0x9912ec18a2ef6283024dece7,
    hello_with (.zero 32), Wire.be 16 0x0108000001020304c51e000000000000, sealed_id.1⟩]

theorem distinct_sealed_ids : Sealed.Distinct sealed_ids := by decide +kernel

def aes : Aes256Gcm := Sealed.aes256 distinct_sealed_ids

theorem length_hello : (hello_with sealed_id).length = 265 := by decide +kernel

end Sample

open Sample in
theorem server_opens_session_id_sample :
    build_authed_client_hello aes (hello_params hello_crypto client_config client_draw) = some (hello_with sealed_id) ∧
    ∃ v, view_hello (hello_with sealed_id) = some v ∧ v.open_with hello_crypto aes static_secret (hello_with sealed_id) =
      some { version := REALITY_VERSION, timestamp := 0x01020304, short_id := client_config.short_id } := by
  have hmsg : build_authed_client_hello aes (hello_params hello_crypto client_config client_draw) =
      some (hello_with sealed_id) := by decide +kernel
  have hpbk : client_config.pbk = hello_crypto.x25519 static_secret BASEPOINT := by decide +kernel
  obtain ⟨v, hv, -, hopen⟩ := server_opens_session_id (agrees_of_exchange _ _ rfl) (Sealed.aes256_lawful distinct_sealed_ids) hpbk
    (show client_config.sni ≠ "" by decide) hmsg (by rw [length_hello]; decide)
  exact ⟨hmsg, v, hv, hopen⟩

end Reality

end MiniVpn
