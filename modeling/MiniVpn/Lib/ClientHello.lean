import MiniVpn.Lib.Decode
/-!
# The ClientHello of TLS 1.3

The message of RFC 8446, section 4.1.2, with the extensions a browser sends. The
decoder is strict: every length has to be exact at every level, lists the
standard wants non-empty are, no extension comes twice and TLS 1.3 is offered.
It reads back what `encode` writes.
-/

namespace Lib

namespace Tls13

open Decoder

variable {α : Type}

/-- A length of `n` bytes and the bytes. -/
def vec (n : Nat) (bs : List UInt8) : List UInt8 := Wire.be n bs.length ++ bs

/-! ## Extensions -/

inductive Extension where
  | serverName (host : List UInt8)
  | supportedGroups (groups : List UInt16)
  | ecPointFormats (formats : List UInt8)
  | signatureAlgorithms (schemes : List UInt16)
  | alpn (protocols : List (List UInt8))
  | extendedMasterSecret
  | supportedVersions (versions : List UInt16)
  | pskKeyExchangeModes (modes : List UInt8)
  | keyShare (shares : List (UInt16 × List UInt8))
  | renegotiationInfo (info : List UInt8)
  | other (typ : UInt16) (body : List UInt8)
deriving DecidableEq, Repr

namespace Extension

def typ : Extension → UInt16
  | serverName _ => 0x0000
  | supportedGroups _ => 0x000a
  | ecPointFormats _ => 0x000b
  | signatureAlgorithms _ => 0x000d
  | alpn _ => 0x0010
  | extendedMasterSecret => 0x0017
  | supportedVersions _ => 0x002b
  | pskKeyExchangeModes _ => 0x002d
  | keyShare _ => 0x0033
  | renegotiationInfo _ => 0xff01
  | other typ _ => typ

def known : List UInt16 := [0x0000, 0x000a, 0x000b, 0x000d, 0x0010, 0x0017, 0x002b, 0x002d, 0x0033, 0xff01]

def body : Extension → List UInt8
  | serverName host => vec 2 (0 :: vec 2 host)
  | supportedGroups groups => vec 2 (groups.flatMap fun g => Wire.be 2 g.toNat)
  | ecPointFormats formats => vec 1 formats
  | signatureAlgorithms schemes => vec 2 (schemes.flatMap fun s => Wire.be 2 s.toNat)
  | alpn protocols => vec 2 (protocols.flatMap (vec 1))
  | extendedMasterSecret => []
  | supportedVersions versions => vec 1 (versions.flatMap fun v => Wire.be 2 v.toNat)
  | pskKeyExchangeModes modes => vec 1 modes
  | keyShare shares => vec 2 (shares.flatMap fun s => Wire.be 2 s.1.toNat ++ vec 2 s.2)
  | renegotiationInfo info => vec 1 info
  | other _ body => body

def encode (e : Extension) : List UInt8 := Wire.be 2 e.typ.toNat ++ vec 2 e.body

/-- What the standard asks of an extension, its length apart. -/
def Valid : Extension → Prop
  | serverName host => host ≠ []
  | supportedGroups groups => groups ≠ []
  | ecPointFormats formats => formats ≠ [] ∧ formats.length < 256
  | signatureAlgorithms schemes => schemes ≠ []
  | alpn protocols => protocols ≠ [] ∧ ∀ p ∈ protocols, p ≠ [] ∧ p.length < 256
  | extendedMasterSecret => True
  | supportedVersions versions => versions ≠ [] ∧ versions.length < 128
  | pskKeyExchangeModes modes => modes ≠ [] ∧ modes.length < 256
  | keyShare shares => ∀ s ∈ shares, s.2 ≠ [] ∧ (s.1 = 0x001d → s.2.length = 32)
  | renegotiationInfo info => info.length < 256
  | other typ _ => typ ∉ known

def host : Extension → Option (List UInt8)
  | serverName host => some host
  | _ => none

def shares : Extension → Option (List (UInt16 × List UInt8))
  | keyShare shares => some shares
  | _ => none

def offersTls13 : Extension → Bool
  | supportedVersions versions => versions.contains 0x0304
  | _ => false

end Extension

/-! ## The decoder -/

def hostName : Decoder (List UInt8) := do
  let kind ← byte
  guard (kind = 0)
  nonempty (block 2)

def keyShareEntry : Decoder (UInt16 × List UInt8) := do
  let group ← u16
  let key ← nonempty (block 2)
  guard (group = 0x001d → key.length = 32)
  return (group, key)

def extensionBody (typ : UInt16) : Decoder Extension :=
  if typ = 0x0000 then .serverName <$> within 2 hostName
  else if typ = 0x000a then .supportedGroups <$> nonempty (listOf 2 u16)
  else if typ = 0x000b then .ecPointFormats <$> nonempty (block 1)
  else if typ = 0x000d then .signatureAlgorithms <$> nonempty (listOf 2 u16)
  else if typ = 0x0010 then .alpn <$> nonempty (listOf 2 (nonempty (block 1)))
  else if typ = 0x0017 then pure .extendedMasterSecret
  else if typ = 0x002b then .supportedVersions <$> nonempty (listOf 1 u16)
  else if typ = 0x002d then .pskKeyExchangeModes <$> nonempty (block 1)
  else if typ = 0x0033 then .keyShare <$> listOf 2 keyShareEntry
  else if typ = 0xff01 then .renegotiationInfo <$> block 1
  else .other typ <$> remaining

def extension : Decoder Extension := do
  let typ ← u16
  within 2 (extensionBody typ)

structure ClientHello where
  random : List UInt8
  sessionId : List UInt8
  cipherSuites : List UInt16
  extensions : List Extension
deriving DecidableEq, Repr

namespace ClientHello

/-- What every server checks about the extensions as a whole. -/
def Acceptable (extensions : List Extension) : Prop :=
  (extensions.map Extension.typ).Nodup ∧ extensions.any Extension.offersTls13 = true

instance (extensions : List Extension) : Decidable (Acceptable extensions) := inferInstanceAs (Decidable (_ ∧ _))

def body : Decoder ClientHello := do
  let version ← u16
  guard (version = 0x0303)
  let random ← bytes 32
  let sessionId ← block 1
  guard (sessionId.length ≤ 32)
  let cipherSuites ← nonempty (listOf 2 u16)
  let compression ← block 1
  guard (compression = [0])
  let extensions ← listOf 2 extension
  guard (Acceptable extensions)
  return { random, sessionId, cipherSuites, extensions }

def message : Decoder ClientHello := do
  let typ ← byte
  guard (typ = 0x01)
  within 3 body

def encodeBody (ch : ClientHello) : List UInt8 :=
  Wire.be 2 0x0303 ++ (ch.random ++ (vec 1 ch.sessionId ++ (vec 2 (ch.cipherSuites.flatMap fun c => Wire.be 2 c.toNat) ++
    (vec 1 [0] ++ vec 2 (ch.extensions.flatMap Extension.encode)))))

def encode (ch : ClientHello) : List UInt8 := [0x01] ++ vec 3 ch.encodeBody

/-- A ClientHello that can be written: its parts are what the standard asks for,
and as a whole it is far from the limit of any length field. -/
structure Valid (ch : ClientHello) : Prop where
  random : ch.random.length = 32
  sessionId : ch.sessionId.length ≤ 32
  cipherSuites : ch.cipherSuites ≠ []
  extensions : ∀ e ∈ ch.extensions, e.Valid
  acceptable : Acceptable ch.extensions
  length : ch.encodeBody.length < 65536

end ClientHello

/-! ## Reading back -/

theorem reads_vec {n : Nat} {p : Decoder α} {bs : List UInt8} {a : α} (hlen : bs.length < 256 ^ n)
    (hp : p.whole bs = some a) : Reads (within n p) (vec n bs) a := reads_within hlen hp

theorem length_vec (n : Nat) (bs : List UInt8) : (vec n bs).length = n + bs.length := by
  simp [vec]

theorem vec_ne_nil {n : Nat} (hn : n ≠ 0) (bs : List UInt8) : vec n bs ≠ [] := by
  intro h
  have hlen := congrArg List.length h
  rw [length_vec] at hlen
  simp at hlen
  omega

theorem length_le_flatMap {α β : Type} {f : α → List β} {l : List α} {a : α} (h : a ∈ l) :
    (f a).length ≤ (l.flatMap f).length := by
  rw [List.flatMap_def]
  exact (List.sublist_flatten_of_mem (List.mem_map_of_mem h)).length_le

theorem be_ne_nil (x : UInt16) : Wire.be 2 x.toNat ≠ [] := List.cons_ne_nil _ _

theorem reads_u16s {n : Nat} {xs : List UInt16} (hlen : (xs.flatMap fun x => Wire.be 2 x.toNat).length < 256 ^ n) :
    Reads (listOf n u16) (vec n (xs.flatMap fun x => Wire.be 2 x.toNat)) xs :=
  reads_listOf hlen fun x _ => ⟨reads_u16 x, be_ne_nil x⟩

theorem reads_keyShareEntry {s : UInt16 × List UInt8} (hne : s.2 ≠ []) (hkey : s.1 = 0x001d → s.2.length = 32)
    (hlen : s.2.length < 65536) : Reads keyShareEntry (Wire.be 2 s.1.toNat ++ vec 2 s.2) s :=
  (reads_u16 s.1).bind (((reads_block hlen).nonempty hne).last (.check hkey (reads_pure s)))

/-- The body of an extension is read as the extension it is. -/
theorem whole_extensionBody {e : Extension} (h : e.Valid) (hlen : e.body.length < 65536) :
    (extensionBody e.typ).whole e.body = some e := by
  cases e with
  | serverName host =>
    simp only [Extension.body, length_vec, List.length_cons] at hlen
    have hname : Reads hostName (0 :: vec 2 host) host :=
      (reads_byte 0).bind (.check rfl ((reads_block (by omega)).nonempty h))
    exact ((reads_vec (by simp [length_vec]; omega) hname.whole).map Extension.serverName).whole
  | supportedGroups groups =>
    simp only [Extension.body, length_vec] at hlen
    exact (((reads_u16s (by omega)).nonempty h).map Extension.supportedGroups).whole
  | ecPointFormats formats => exact (((reads_block h.2).nonempty h.1).map Extension.ecPointFormats).whole
  | signatureAlgorithms schemes =>
    simp only [Extension.body, length_vec] at hlen
    exact (((reads_u16s (by omega)).nonempty h).map Extension.signatureAlgorithms).whole
  | alpn protocols =>
    simp only [Extension.body, length_vec] at hlen
    have hlist : Reads (listOf 2 (nonempty (block 1))) (vec 2 (protocols.flatMap (vec 1))) protocols :=
      reads_listOf (by omega) fun p hp => ⟨(reads_block (h.2 p hp).2).nonempty (h.2 p hp).1, vec_ne_nil (by decide) p⟩
    exact ((hlist.nonempty h.1).map Extension.alpn).whole
  | extendedMasterSecret => rfl
  | supportedVersions versions =>
    have hsize : (versions.flatMap fun v => Wire.be 2 v.toNat).length < 256 := by
      have := h.2
      simp
      omega
    exact (((reads_u16s hsize).nonempty h.1).map Extension.supportedVersions).whole
  | pskKeyExchangeModes modes => exact (((reads_block h.2).nonempty h.1).map Extension.pskKeyExchangeModes).whole
  | keyShare shares =>
    simp only [Extension.body, length_vec] at hlen
    have hlist : Reads (listOf 2 keyShareEntry)
        (vec 2 (shares.flatMap fun s => Wire.be 2 s.1.toNat ++ vec 2 s.2)) shares := by
      refine reads_listOf (by omega) fun s hs => ⟨reads_keyShareEntry (h s hs).1 (h s hs).2 ?_, ?_⟩
      · have hle := length_le_flatMap (f := fun s : UInt16 × List UInt8 => Wire.be 2 s.1.toNat ++ vec 2 s.2) hs
        simp only [List.length_append, length_vec] at hle
        omega
      · exact List.append_ne_nil_of_left_ne_nil (be_ne_nil _) _
    exact (hlist.map Extension.keyShare).whole
  | renegotiationInfo info => exact ((reads_block h).map Extension.renegotiationInfo).whole
  | other typ body =>
    have hbody : extensionBody typ = .other typ <$> remaining := by
      simp only [Extension.Valid, Extension.known, List.mem_cons, List.not_mem_nil, or_false, not_or] at h
      obtain ⟨h1, h2, h3, h4, h5, h6, h7, h8, h9, h10⟩ := h
      simp only [extensionBody, if_neg, h1, h2, h3, h4, h5, h6, h7, h8, h9, h10, not_false_eq_true]
    show (extensionBody typ).whole body = _
    rw [hbody]
    rfl

theorem reads_extension {e : Extension} (h : e.Valid) (hlen : e.body.length < 65536) : Reads extension e.encode e :=
  (reads_u16 e.typ).bind (reads_vec hlen (whole_extensionBody h hlen))

namespace ClientHello

theorem reads_extensions {extensions : List Extension} (h : ∀ e ∈ extensions, e.Valid)
    (hlen : (extensions.flatMap Extension.encode).length < 65536) :
    Reads (listOf 2 extension) (vec 2 (extensions.flatMap Extension.encode)) extensions := by
  refine reads_listOf hlen fun e he => ⟨reads_extension (h e he) ?_, ?_⟩
  · have hle := length_le_flatMap (f := Extension.encode) he
    simp only [Extension.encode, List.length_append, length_vec] at hle
    exact Nat.lt_of_le_of_lt (by omega) hlen
  · exact List.append_ne_nil_of_left_ne_nil (be_ne_nil _) _

theorem reads_body {ch : ClientHello} (h : ch.Valid) : Reads body ch.encodeBody ch := by
  have hlen := h.length
  simp only [encodeBody, List.length_append, length_vec] at hlen
  have hrandom : Reads (bytes 32) ch.random ch.random := h.random ▸ reads_bytes ch.random
  have hsid : Reads (block 1) (vec 1 ch.sessionId) ch.sessionId := reads_block (by have := h.sessionId; omega)
  have hsuites : Reads (listOf 2 u16) (vec 2 (ch.cipherSuites.flatMap fun c => Wire.be 2 c.toNat)) ch.cipherSuites :=
    reads_u16s (by omega)
  have hcomp : Reads (block 1) (vec 1 [0]) [0] := reads_block (by decide)
  have hexts := reads_extensions h.extensions (by omega)
  refine (reads_u16 0x0303).bind (.check rfl (hrandom.bind (hsid.bind (.check h.sessionId ?_))))
  exact (hsuites.nonempty h.cipherSuites).bind (hcomp.bind (.check rfl (hexts.last (.check h.acceptable (reads_pure ch)))))

/-- The strict decoder reads the whole message as what was written. -/
theorem whole_message_encode {ch : ClientHello} (h : ch.Valid) : message.whole ch.encode = some ch := by
  have hlen := h.length
  have hbody : Reads (within 3 body) (vec 3 ch.encodeBody) ch := reads_vec (by omega) (reads_body h).whole
  exact ((reads_byte 0x01).bind (.check rfl hbody)).whole

end ClientHello

end Tls13

end Lib
