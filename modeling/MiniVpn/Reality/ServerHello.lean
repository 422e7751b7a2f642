import MiniVpn.Reality.KeySchedule
/-!
# Parsing the ServerHello

`server_hello.rs`. Every lookup of the source is a checked one, so the parser
never panics; it ends with the key share or with the text of an error.
-/
open Lib

namespace MiniVpn

namespace Reality

namespace ServerHello

/-- The constant of the source, which is not SHA-256 of `HelloRetryRequest`: its byte 19
is `0x67` where the hash has `0x16`. -/
def HRR_RANDOM : Block 32 := .ofNat 32 0xcf21ad74e59a6111be1d8c021e65b891c2a211677abb8c5e079e09e2c8a8339c

structure ParsedServerHello where
  cipher_suite : Nat
  server_key_share : Block 32
deriving DecidableEq

def err {α : Type} (m : String) : Except Stop α := .error (.error ("ServerHello: " ++ m))

/-- `ok_or_else`. -/
def ok_or {α : Type} (o : Option α) (m : String) : Except Stop α :=
  match o with
  | some a => .ok a
  | none => err m

/-- The `while` loop of the source over the extensions not yet looked at. -/
def find_ext (exts : Bytes) (want : Nat) : Option Bytes :=
  match exts with
  | t₁ :: t₀ :: l₁ :: l₀ :: rest =>
    let l := Wire.ofBe [l₁, l₀]
    match Wire.slice rest 0 l with
    | none => none
    | some body => if Wire.ofBe [t₁, t₀] = want then some body else find_ext (rest.drop l) want
  | _ => none
termination_by exts.length
decreasing_by simp; omega

def extract_selected_version (exts : Bytes) : Except Stop Nat := do
  let b ← ok_or (find_ext exts 0x002b) "缺 supported_versions 扩展"
  if b.length ≠ 2 then err "supported_versions 长度异常"
  else return Wire.ofBe b

def extract_key_share_x25519 (exts : Bytes) : Except Stop (Block 32) := do
  let b ← ok_or (find_ext exts 0x0033) "缺 key_share 扩展"
  if b.length < 4 then err "key_share 截断"
  else if Wire.ofBe (b.take 2) ≠ 0x001d then err "key_share group != X25519"
  else if Wire.ofBe ((b.drop 2).take 2) ≠ 32 then err "X25519 key_share 长度 != 32"
  else if h : (b.drop 4).length < 32 then err "key_share 截断"
  else return ⟨(b.drop 4).take 32, by simp at h ⊢; omega⟩

/-- The last eight bytes of a random that announces an older version. -/
def DOWNGRADE : List Bytes :=
  [[0x44, 0x4f, 0x57, 0x4e, 0x47, 0x52, 0x44, 0x01], [0x44, 0x4f, 0x57, 0x4e, 0x47, 0x52, 0x44, 0x00]]

def parse_server_hello (bytes expected_session_id : Bytes) : Except Stop ParsedServerHello := do
  if bytes.head? ≠ some 0x02 then err "非 ServerHello（handshake type != 0x02）"
  let len_field ← ok_or (Wire.slice bytes 1 4) "handshake 头截断"
  let body ← ok_or (Wire.slice bytes 4 bytes.length) "handshake 头截断"
  if Wire.ofBe len_field ≠ body.length then err "handshake 长度字段与实际 body 不符"
  if Wire.slice body 0 2 ≠ some [0x03, 0x03] then err "legacy_version != 0x0303"
  let random ← ok_or (Wire.slice body 2 34) "random 截断"
  if random = HRR_RANDOM.1 then err "HelloRetryRequest（暂不支持，刀8 处理）"
  if DOWNGRADE.contains (random.drop 24) then err "downgrade sentinel（服务端降级到 <1.3）"
  let sid_len := (← ok_or body[34]? "session_id 长度截断").toNat
  let p := 35 + sid_len
  let sid ← ok_or (Wire.slice body 35 p) "session_id 截断"
  if sid ≠ expected_session_id then err "session_id_echo 与我方发出的 session_id 不一致"
  let cs ← ok_or (Wire.slice body p (p + 2)) "cipher_suite 截断"
  if Wire.ofBe cs ≠ 0x1301 then
    err "不支持的 cipher_suite（刀7 仅 TLS_AES_128_GCM_SHA256 0x1301；0x1302/0x1303 见 ADR-0009 gap）"
  let compression ← ok_or body[p + 2]? "compression 截断"
  if compression ≠ 0 then err "legacy_compression != 0"
  let el ← ok_or (Wire.slice body (p + 3) (p + 5)) "extensions 长度截断"
  let exts ← ok_or (Wire.slice body (p + 5) (p + 5 + Wire.ofBe el)) "extensions 截断"
  if (← extract_selected_version exts) ≠ 0x0304 then err "selected_version != TLS 1.3"
  let server_key_share ← extract_key_share_x25519 exts
  return { cipher_suite := Wire.ofBe cs, server_key_share := server_key_share }

end ServerHello

end Reality

end MiniVpn
