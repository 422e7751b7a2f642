import MiniVpn.Lib.ClientHello
import MiniVpn.Reality.Record
/-!
# The ClientHello and what is hidden in it

`client_hello.rs` writes the message by hand and puts a sealed block of
`auth.rs` where the session id stands. A `none` is a panic of the source: a range
out of bounds, a length that does not fit, or the assertion of a debug build.
-/
open Lib

namespace MiniVpn

namespace Reality

/-! ## The sealed session id -/

/-- AES-256-GCM; the tag has 16 bytes. -/
structure Aes256Gcm where
  encrypt : (key : Block 32) → (nonce : Block 12) → (aad msg : Bytes) → Block (msg.length + 16)
  decrypt : (key : Block 32) → (nonce : Block 12) → (aad ct : Bytes) → Option Bytes

/-- Opening inverts sealing under equal key, nonce and AAD. -/
def Aes256Gcm.Lawful (a : Aes256Gcm) : Prop :=
  ∀ key nonce aad msg, a.decrypt key nonce aad (a.encrypt key nonce aad msg).1 = some msg

def REALITY_VERSION : Block 4 := ⟨[1, 8, 0, 0], rfl⟩

structure SessionIdPlaintext where
  version : Block 4
  timestamp : UInt32
  short_id : Block 8
deriving DecidableEq

namespace SessionIdPlaintext

def to_bytes (p : SessionIdPlaintext) : Block 16 :=
  ⟨p.version.1 ++ (Wire.be 4 p.timestamp.toNat ++ p.short_id.1), by simp [p.version.2, p.short_id.2]⟩

/-- How the server reads the 16 bytes. -/
def of_bytes (b : Block 16) : SessionIdPlaintext where
  version := ⟨b.1.take 4, by simp [b.2]⟩
  timestamp := UInt32.ofNat (Wire.ofBe ((b.1.drop 4).take 4))
  short_id := ⟨b.1.drop 8, by simp [b.2]⟩

theorem of_bytes_to_bytes (p : SessionIdPlaintext) : of_bytes p.to_bytes = p := by
  obtain ⟨⟨version, hversion⟩, timestamp, ⟨short_id, hshort⟩⟩ := p
  have hdrop : (version ++ (Wire.be 4 timestamp.toNat ++ short_id)).drop 4 = Wire.be 4 timestamp.toNat ++ short_id :=
    List.drop_left' hversion
  have hdrop8 : (version ++ (Wire.be 4 timestamp.toNat ++ short_id)).drop 8 = short_id := by
    rw [show 8 = 4 + 4 from rfl, ← List.drop_drop, hdrop, List.drop_left' (Wire.length_be ..)]
  simp only [of_bytes, to_bytes, hdrop, hdrop8, List.take_left' hversion, List.take_left' (Wire.length_be 4 _),
    Wire.ofBe_be_of_lt (n := 4) timestamp.toNat_lt, UInt32.ofNat_toNat]

end SessionIdPlaintext

def seal_session_id (a : Aes256Gcm) (auth_key : Block 32) (plaintext : Block 16) (nonce : Block 12) (aad : Bytes) :
    Option (Block 32) := Block.try_into 32 (a.encrypt auth_key nonce aad plaintext.1).1

def open_session_id (a : Aes256Gcm) (auth_key sealed : Block 32) (nonce : Block 12) (aad : Bytes) : Option (Block 16) :=
  (a.decrypt auth_key nonce aad sealed.1).bind (Block.try_into 16)

/-! ## The message -/

def GREASE : UInt16 := 0x0a0a
def GREASE_EXT2 : UInt16 := 0x1a1a
def SESSION_ID_OFFSET : Nat := 39
def SESSION_ID_LEN : Nat := 32

def CIPHERS : List UInt16 :=
  [GREASE, 0x1301, 0xc02b, 0xc02f, 0xc02c, 0xc030, 0xcca9, 0xcca8, 0xc013, 0xc014, 0x009c, 0x009d, 0x002f, 0x0035]

structure ClientHelloParams where
  server_name : String
  key_share : Block 32
  random : Block 32
  session_id : Block 32

def ext (typ : UInt16) (body : Bytes) : Bytes := Wire.be 2 typ.toNat ++ Wire.be 2 body.length ++ body

def u16_vec (body : Bytes) : Bytes := Wire.be 2 body.length ++ body

def u16s (values : List UInt16) : Bytes := values.flatMap fun x => Wire.be 2 x.toNat

def build_extensions (p : ClientHelloParams) : Bytes :=
  ext GREASE [] ++
  (let host := Wire.utf8 p.server_name
   let entry := [0] ++ u16_vec host
   ext 0x0000 (u16_vec entry)) ++
  ext 0x0017 [] ++
  ext 0xff01 [0] ++
  ext 0x000a (u16_vec (u16s [GREASE, 0x001d, 0x0017, 0x0018])) ++
  ext 0x000b [1, 0] ++
  (let list := ["h2", "http/1.1"].flatMap fun proto => UInt8.ofNat (Wire.utf8 proto).length :: Wire.utf8 proto
   ext 0x0010 (u16_vec list)) ++
  ext 0x000d (u16_vec (u16s [0x0403, 0x0804, 0x0401, 0x0503, 0x0805, 0x0501, 0x0806, 0x0601])) ++
  (let entry := Wire.be 2 0x001d ++ u16_vec p.key_share.1
   ext 0x0033 (u16_vec entry)) ++
  ext 0x002d [1, 1] ++
  (let vers := u16s [GREASE, 0x0304]
   ext 0x002b (UInt8.ofNat vers.length :: vers)) ++
  ext GREASE_EXT2 []

def build_client_hello (p : ClientHelloParams) : Bytes :=
  let body := [0x03, 0x03] ++ p.random.1 ++ [32] ++ p.session_id.1 ++ u16_vec (u16s CIPHERS) ++ [1, 0] ++
    u16_vec (build_extensions p)
  [0x01] ++ Wire.be 3 body.length ++ body

def authed_session_id (client_hello : Bytes) : Option Bytes :=
  Wire.slice client_hello SESSION_ID_OFFSET (SESSION_ID_OFFSET + SESSION_ID_LEN)

/-- `bs[lo..hi].copy_from_slice(src)`. -/
def copy_from_slice (bs : Bytes) (lo hi : Nat) (src : Bytes) : Option Bytes :=
  if lo ≤ hi ∧ hi ≤ bs.length ∧ hi - lo = src.length then some (bs.take lo ++ (src ++ bs.drop hi)) else none

structure AuthedClientHelloParams where
  server_name : String
  key_share : Block 32
  random : Block 32
  auth_key : Block 32
  short_id : Block 8
  timestamp : UInt32

def build_authed_client_hello (a : Aes256Gcm) (p : AuthedClientHelloParams) : Option Bytes := do
  let msg := build_client_hello {
    server_name := p.server_name
    key_share := p.key_share
    random := p.random
    session_id := .zero 32 }
  let pt := SessionIdPlaintext.to_bytes {
    version := REALITY_VERSION
    timestamp := p.timestamp
    short_id := p.short_id }
  let nonce ← (Wire.slice p.random.1 20 32).bind (Block.try_into 12)
  guard (Wire.slice msg SESSION_ID_OFFSET (SESSION_ID_OFFSET + SESSION_ID_LEN) = some (Block.zero 32).1)
  let sealed ← seal_session_id a p.auth_key pt nonce msg
  copy_from_slice msg SESSION_ID_OFFSET (SESSION_ID_OFFSET + SESSION_ID_LEN) sealed.1

/-! ## The message as the standard reads it -/

/-- What the client means to say. -/
def ClientHelloParams.hello (p : ClientHelloParams) : Tls13.ClientHello where
  random := p.random.1
  sessionId := p.session_id.1
  cipherSuites := CIPHERS
  extensions := [
    .other GREASE [],
    .serverName (Wire.utf8 p.server_name),
    .extendedMasterSecret,
    .renegotiationInfo [],
    .supportedGroups [GREASE, 0x001d, 0x0017, 0x0018],
    .ecPointFormats [0],
    .alpn [Wire.utf8 "h2", Wire.utf8 "http/1.1"],
    .signatureAlgorithms [0x0403, 0x0804, 0x0401, 0x0503, 0x0805, 0x0501, 0x0806, 0x0601],
    .keyShare [(0x001d, p.key_share.1)],
    .pskKeyExchangeModes [1],
    .supportedVersions [GREASE, 0x0304],
    .other GREASE_EXT2 []]

theorem ext_eq (e : Tls13.Extension) : e.encode = ext e.typ e.body := (List.append_assoc ..).symm

theorem build_extensions_eq (p : ClientHelloParams) :
    build_extensions p = p.hello.extensions.flatMap Tls13.Extension.encode := by
  have halpn : (Tls13.Extension.alpn [Wire.utf8 "h2", Wire.utf8 "http/1.1"]).body = u16_vec
      (["h2", "http/1.1"].flatMap fun proto => UInt8.ofNat (Wire.utf8 proto).length :: Wire.utf8 proto) := rfl
  have hshare : (Tls13.Extension.keyShare [(0x001d, p.key_share.1)]).body =
      u16_vec (Wire.be 2 0x001d ++ u16_vec p.key_share.1) := by
    simp only [Tls13.Extension.body, List.flatMap_cons, List.flatMap_nil, List.append_nil]
    rfl
  simp only [build_extensions, ClientHelloParams.hello, List.flatMap_cons, List.flatMap_nil, List.append_nil,
    List.append_assoc, ext_eq, hshare, halpn]
  rfl

theorem build_client_hello_eq (p : ClientHelloParams) : build_client_hello p = p.hello.encode := by
  have hbody : [0x03, 0x03] ++ p.random.1 ++ [32] ++ p.session_id.1 ++ u16_vec (u16s CIPHERS) ++ [1, 0] ++
      u16_vec (build_extensions p) = p.hello.encodeBody := by
    have hsid : [32] ++ p.session_id.1 = Tls13.vec 1 p.session_id.1 := by
      rw [Tls13.vec, p.session_id.2]
      rfl
    rw [build_extensions_eq]
    simp only [List.append_assoc]
    rw [← List.append_assoc [32], hsid]
    rfl
  rw [build_client_hello, hbody, List.append_assoc]
  rfl

theorem utf8_ne_nil {s : String} (h : s ≠ "") : Wire.utf8 s ≠ [] := fun hnil =>
  h (Wire.utf8_inj (hnil.trans (by decide +kernel : Wire.utf8 "" = []).symm))

theorem hello_valid {p : ClientHelloParams} (hsni : p.server_name ≠ "")
    (hlen : (build_client_hello p).length ≤ MAX_TLS_PLAINTEXT) : p.hello.Valid where
  random := p.random.2
  sessionId := Nat.le_of_eq p.session_id.2
  cipherSuites := List.cons_ne_nil _ _
  extensions := by
    have hname : (Tls13.Extension.serverName (Wire.utf8 p.server_name)).Valid := utf8_ne_nil hsni
    have hshare : (Tls13.Extension.keyShare [(0x001d, p.key_share.1)]).Valid := by
      have hkey := p.key_share.2
      have hne : p.key_share.1 ≠ [] := List.ne_nil_of_length_pos (by omega)
      simp [Tls13.Extension.Valid, hkey, hne]
    have halpn : (Tls13.Extension.alpn [Wire.utf8 "h2", Wire.utf8 "http/1.1"]).Valid :=
      ⟨List.cons_ne_nil _ _, by decide +kernel⟩
    simp only [ClientHelloParams.hello, List.forall_mem_cons, hname, hshare, halpn]
    simp [Tls13.Extension.Valid, Tls13.Extension.known, GREASE, GREASE_EXT2]
  acceptable := by
    have htypes : p.hello.extensions.map Tls13.Extension.typ =
      [0x0a0a, 0x0000, 0x0017, 0xff01, 0x000a, 0x000b, 0x0010, 0x000d, 0x0033, 0x002d, 0x002b, 0x1a1a] := rfl
    exact ⟨htypes ▸ by decide, rfl⟩
  length := by
    rw [build_client_hello_eq, Tls13.ClientHello.encode, List.length_append, Tls13.length_vec] at hlen
    simp only [MAX_TLS_PLAINTEXT] at hlen
    omega

/-- The session id has a place of its own: the rest of the message does not
depend on it. -/
theorem build_client_hello_around (p : ClientHelloParams) : ∃ front back, front.length = SESSION_ID_OFFSET ∧
    ∀ s : Block 32, build_client_hello { p with session_id := s } = front ++ (s.1 ++ back) := by
  refine ⟨[0x01] ++ Wire.be 3 ((u16_vec (u16s CIPHERS) ++ [1, 0] ++ u16_vec (build_extensions p)).length + 67) ++
    [0x03, 0x03] ++ p.random.1 ++ [32], u16_vec (u16s CIPHERS) ++ [1, 0] ++ u16_vec (build_extensions p), ?_, ?_⟩
  · simp [p.random.2, SESSION_ID_OFFSET]
  · intro s
    have hexts : build_extensions { p with session_id := s } = build_extensions p := rfl
    have hlen : ([0x03, 0x03] ++ p.random.1 ++ [32] ++ s.1 ++ u16_vec (u16s CIPHERS) ++ [1, 0] ++
        u16_vec (build_extensions p)).length =
        (u16_vec (u16s CIPHERS) ++ [1, 0] ++ u16_vec (build_extensions p)).length + 67 := by
      simp only [List.length_append, List.length_cons, List.length_nil, p.random.2, s.2]
      omega
    rw [build_client_hello, hexts, hlen]
    simp only [List.append_assoc]

/-! ## The sealed message -/

namespace AuthedClientHelloParams

/-- `random[20..32]`. -/
def nonce (p : AuthedClientHelloParams) : Block 12 := ⟨p.random.1.drop 20, by simp [p.random.2]⟩

def plaintext (p : AuthedClientHelloParams) : SessionIdPlaintext :=
  { version := REALITY_VERSION, timestamp := p.timestamp, short_id := p.short_id }

def withSessionId (p : AuthedClientHelloParams) (s : Block 32) : ClientHelloParams :=
  { server_name := p.server_name, key_share := p.key_share, random := p.random, session_id := s }

theorem slice_nonce (p : AuthedClientHelloParams) :
    (Wire.slice p.random.1 20 32).bind (Block.try_into 12) = some p.nonce := by
  have hlen := p.random.2
  rw [Wire.slice_eq_some (by decide) (by omega), Option.bind_some, List.take_of_length_le (by omega)]
  exact Block.try_into_eq _

end AuthedClientHelloParams

/-- The message with zeros for the session id. -/
def zero_session_id (msg : Bytes) : Bytes :=
  msg.take SESSION_ID_OFFSET ++ ((Block.zero 32).1 ++ msg.drop (SESSION_ID_OFFSET + SESSION_ID_LEN))

section
variable {front back : Bytes} (hfront : front.length = SESSION_ID_OFFSET) (s : Block 32)
include hfront

theorem drop_around : (front ++ (s.1 ++ back)).drop (SESSION_ID_OFFSET + SESSION_ID_LEN) = back := by
  rw [← List.drop_drop, List.drop_left' hfront]
  exact List.drop_left' s.2

theorem slice_around : Wire.slice (front ++ (s.1 ++ back)) SESSION_ID_OFFSET (SESSION_ID_OFFSET + SESSION_ID_LEN) = some s.1 := by
  rw [Wire.slice_eq_some_iff]
  refine ⟨by rw [s.2]; rfl, by simp [hfront], back, ?_⟩
  rw [List.drop_left' hfront]

theorem copy_around (s' : Block 32) :
    copy_from_slice (front ++ (s.1 ++ back)) SESSION_ID_OFFSET (SESSION_ID_OFFSET + SESSION_ID_LEN) s'.1 =
      some (front ++ (s'.1 ++ back)) := by
  rw [copy_from_slice, if_pos, List.take_left' hfront, drop_around hfront]
  refine ⟨by omega, ?_, ?_⟩
  · simp [hfront, s.2, SESSION_ID_LEN]
  · rw [s'.2, Nat.add_sub_cancel_left]
    rfl

theorem zero_around : zero_session_id (front ++ (s.1 ++ back)) = front ++ ((Block.zero 32).1 ++ back) := by
  rw [zero_session_id, List.take_left' hfront, drop_around hfront]

end

/-- The sealed block stands where the zeros were that it was sealed with. -/
theorem build_authed_client_hello_eq (a : Aes256Gcm) (p : AuthedClientHelloParams) : ∃ sealed : Block 32,
    sealed.1 = (a.encrypt p.auth_key p.nonce (build_client_hello (p.withSessionId (.zero 32))) p.plaintext.to_bytes.1).1 ∧
    build_authed_client_hello a p = some (build_client_hello (p.withSessionId sealed)) ∧
    authed_session_id (build_client_hello (p.withSessionId sealed)) = some sealed.1 ∧
    zero_session_id (build_client_hello (p.withSessionId sealed)) = build_client_hello (p.withSessionId (.zero 32)) := by
  obtain ⟨front, back, hfront, haround⟩ := build_client_hello_around (p.withSessionId (.zero 32))
  have haround (s : Block 32) : build_client_hello (p.withSessionId s) = front ++ (s.1 ++ back) := haround s
  obtain ⟨sealed, hsealed⟩ : ∃ sealed : Block 32, seal_session_id a p.auth_key p.plaintext.to_bytes p.nonce
      (build_client_hello (p.withSessionId (.zero 32))) = some sealed := by
    refine ⟨_, Block.try_into_eq ?_⟩
    rw [(a.encrypt ..).2, p.plaintext.to_bytes.2]
  have hguard : Wire.slice (build_client_hello (p.withSessionId (.zero 32))) SESSION_ID_OFFSET
      (SESSION_ID_OFFSET + SESSION_ID_LEN) = some (Block.zero 32).1 := by
    rw [haround, slice_around hfront]
  have hcopy : copy_from_slice (build_client_hello (p.withSessionId (.zero 32))) SESSION_ID_OFFSET
      (SESSION_ID_OFFSET + SESSION_ID_LEN) sealed.1 = some (build_client_hello (p.withSessionId sealed)) := by
    rw [haround, haround, copy_around hfront]
  refine ⟨sealed, ?_, ?_, ?_, ?_⟩
  · obtain ⟨hlen, heq⟩ := Option.dite_none_right_eq_some.1 hsealed
    rw [← Option.some.inj heq]
  · simp only [AuthedClientHelloParams.withSessionId, AuthedClientHelloParams.plaintext] at hguard hsealed hcopy ⊢
    simp only [build_authed_client_hello, p.slice_nonce, guard, hguard, hsealed, hcopy, Option.bind_eq_bind,
      Option.bind_some, if_true, Option.pure_def]
  · rw [authed_session_id, haround, slice_around hfront]
  · rw [haround, zero_around hfront, haround]

/-- The server reads the client's message as it is meant, and opens the block in
it: the strict decoder accepts the whole message, and the session id opens under
the message with zeros in its place. -/
theorem authed_client_hello_strict {a : Aes256Gcm} (ha : a.Lawful) {p : AuthedClientHelloParams}
    (hsni : p.server_name ≠ "") : ∃ msg, build_authed_client_hello a p = some msg ∧
    (msg.length ≤ MAX_TLS_PLAINTEXT → ∃ ch : Tls13.ClientHello, Tls13.ClientHello.message.whole msg = some ch ∧
      ch.extensions.findSome? Tls13.Extension.host = some (Wire.utf8 p.server_name) ∧
      ch.extensions.findSome? Tls13.Extension.shares = some [(0x001d, p.key_share.1)] ∧
      ch.cipherSuites = CIPHERS ∧ (ch.extensions.map Tls13.Extension.typ).Nodup ∧
      authed_session_id msg = some ch.sessionId ∧
      zero_session_id msg = build_client_hello (p.withSessionId (.zero 32)) ∧
      ∃ sealed : Block 32, sealed.1 = ch.sessionId ∧
        (open_session_id a p.auth_key sealed p.nonce (zero_session_id msg)).map SessionIdPlaintext.of_bytes =
          some { version := REALITY_VERSION, timestamp := p.timestamp, short_id := p.short_id }) := by
  obtain ⟨sealed, hct, hmsg, hsid, hzero⟩ := build_authed_client_hello_eq a p
  refine ⟨_, hmsg, fun hlen => ?_⟩
  have hvalid := hello_valid (p := p.withSessionId sealed) hsni hlen
  have hread := Tls13.ClientHello.whole_message_encode hvalid
  rw [← build_client_hello_eq] at hread
  refine ⟨_, hread, rfl, rfl, rfl, hvalid.acceptable.1, hsid, hzero, sealed, rfl, ?_⟩
  have hopen : open_session_id a p.auth_key sealed p.nonce (build_client_hello (p.withSessionId (.zero 32))) =
      some p.plaintext.to_bytes := by
    rw [open_session_id, hct, ha, Option.bind_some]
    exact Block.try_into_eq p.plaintext.to_bytes.2
  rw [hzero, hopen, Option.map_some, SessionIdPlaintext.of_bytes_to_bytes]
  rfl

/-- AES-256-GCM known at finitely many points. -/
def Sealed.aes256 {points : List (Sealed 32)} (h : Distinct points) : Aes256Gcm where
  encrypt key nonce aad msg := ⟨Sealed.encrypt points key nonce aad msg, length_encrypt h key nonce aad msg⟩
  decrypt := Sealed.decrypt points

theorem Sealed.aes256_lawful {points : List (Sealed 32)} (h : Distinct points) : (aes256 h).Lawful := decrypt_encrypt h

namespace Sample

def params : AuthedClientHelloParams where
  server_name := "www.microsoft.com"
  key_share := ⟨List.replicate 32 0x42, rfl⟩
  random := ⟨List.replicate 32 0x11, rfl⟩
  auth_key := ⟨List.replicate 32 0x33, rfl⟩
  short_id := ⟨[0xab, 0x12, 0, 0, 0, 0, 0, 0], rfl⟩
  timestamp := 0x01020304

/-- What AES-256-GCM makes of the plaintext. -/
def session_id : Block 32 := .ofNat 32 0x0f564ea1adafa4bb258d0ac557063ba5e84e1998bd14f03f9e5466c7af6e5f40

def session_ids : List (Sealed 32) :=
  [⟨params.auth_key, params.nonce, build_client_hello (params.withSessionId (.zero 32)), params.plaintext.to_bytes.1,
    session_id.1⟩]

theorem distinct_session_ids : Sealed.Distinct session_ids := by decide +kernel

end Sample

open Sample in
theorem authed_client_hello_strict_microsoft :
    ∃ msg ch, build_authed_client_hello (Sealed.aes256 distinct_session_ids) params = some msg ∧ msg.length = 265 ∧
      Tls13.ClientHello.message.whole msg = some ch ∧
      ch.extensions.findSome? Tls13.Extension.host = some (Wire.utf8 "www.microsoft.com") ∧
      authed_session_id msg = some ch.sessionId ∧ ch.sessionId = session_id.1 := by
  have hmsg : build_authed_client_hello (Sealed.aes256 distinct_session_ids) params =
      some (build_client_hello (params.withSessionId session_id)) := by decide +kernel
  have hlen : (build_client_hello (params.withSessionId session_id)).length = 265 := by decide +kernel
  obtain ⟨msg, hbuild, hread⟩ :=
    authed_client_hello_strict (Sealed.aes256_lawful distinct_session_ids) (show params.server_name ≠ "" by decide)
  obtain rfl := Option.some.inj (hmsg.symm.trans hbuild)
  obtain ⟨ch, hch, hhost, -, -, -, hsid, -⟩ := hread (by rw [hlen]; decide)
  refine ⟨_, ch, hmsg, hlen, hch, hhost, hsid, ?_⟩
  have hreal : authed_session_id (build_client_hello (params.withSessionId session_id)) = some session_id.1 := by
    decide +kernel
  exact Option.some.inj (hsid.symm.trans hreal)

end Reality

end MiniVpn
