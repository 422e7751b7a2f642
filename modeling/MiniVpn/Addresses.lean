import MiniVpn.Lib.Decode
import MiniVpn.Failover
import MiniVpn.Packets
/-!
# Targets on the two wires

The upstreams write a target in different ways: `tuic.rs` puts the port last,
`reality/vless.rs` puts it first, and their address types differ. Both give a
name one length byte and cut it off behind 255 bytes. What a server reads off
either wire is the destination the client meant, so that a connection may be
tried on both.
-/
open Lib

namespace MiniVpn

namespace Reality

def VLESS_VERSION : UInt8 := 0x00
def VLESS_CMD_TCP : UInt8 := 0x01
def VLESS_ATYP_IPV4 : UInt8 := 0x01
def VLESS_ATYP_DOMAIN : UInt8 := 0x02
def VLESS_ATYP_IPV6 : UInt8 := 0x03

/-- Where the source goes through a target. -/
def vless_address : TargetAddr → Bytes
  | .IpPort (.v4 ip port) => Wire.be 2 port.toNat ++ VLESS_ATYP_IPV4 :: Wire.be 4 ip.toNat
  | .IpPort (.v6 ip port _ _) => Wire.be 2 port.toNat ++ VLESS_ATYP_IPV6 :: Wire.be 16 ip.toNat
  | .DomainPort host port =>
    let bytes := host.toUTF8.toList
    let len := min bytes.length 255
    Wire.be 2 port.toNat ++ VLESS_ATYP_DOMAIN :: UInt8.ofNat len :: bytes.take len

def encode_vless_request (uuid : Vector UInt8 16) (command : UInt8) (target : TargetAddr) : Bytes :=
  [VLESS_VERSION] ++ uuid.toList ++ [0] ++ [command] ++ vless_address target

end Reality

/-! ## Names -/

/-- The length byte of a name and the bytes behind it. -/
def nameBytes (name : String) : Bytes :=
  let len := min (Wire.utf8 name).length 255
  UInt8.ofNat len :: (Wire.utf8 name).take len

theorem take_min_length {α : Type} (l : List α) (n : Nat) : l.take (min l.length n) = l.take n := by
  rcases Nat.le_total l.length n with h | h
  · rw [Nat.min_eq_left h, List.take_length, List.take_of_length_le h]
  · rw [Nat.min_eq_right h]

theorem nameBytes_short {name : String} (h : (Wire.utf8 name).length ≤ 255) :
    nameBytes name = UInt8.ofNat (Wire.utf8 name).length :: Wire.utf8 name := by
  simp only [nameBytes, Nat.min_eq_left h, List.take_length]

theorem nameBytes_eq_iff {a b : String} :
    nameBytes a = nameBytes b ↔ (Wire.utf8 a).take 255 = (Wire.utf8 b).take 255 := by
  simp only [nameBytes, take_min_length, List.cons.injEq, and_iff_right_iff_imp]
  intro h
  have hlen := congrArg List.length h
  rw [List.length_take, List.length_take, Nat.min_comm, Nat.min_comm 255] at hlen
  rw [hlen]

/-- `encode` writes a name between the same bytes, whatever the name is. -/
structure WritesName (encode : String → Bytes) : Prop where
  /-- The name is on the wire up to its first 255 bytes. -/
  layout : ∃ front back, ∀ name, encode name = front ++ nameBytes name ++ back
  /-- So is a name of at most 255 bytes as a whole. -/
  whole : ∃ front back, ∀ name, (Wire.utf8 name).length ≤ 255 →
    encode name = front ++ (UInt8.ofNat (Wire.utf8 name).length :: Wire.utf8 name) ++ back
  /-- Names are confused when their first 255 bytes agree. -/
  confused : ∀ a b, encode a = encode b ↔ (Wire.utf8 a).take 255 = (Wire.utf8 b).take 255
  /-- Names of at most 255 bytes are not confused. -/
  told_apart : ∀ a b, (Wire.utf8 a).length ≤ 255 → (Wire.utf8 b).length ≤ 255 → encode a = encode b → a = b

theorem WritesName.of_layout {encode : String → Bytes} (front back : Bytes)
    (h : ∀ name, encode name = front ++ nameBytes name ++ back) : WritesName encode := by
  have hconf : ∀ a b, encode a = encode b ↔ (Wire.utf8 a).take 255 = (Wire.utf8 b).take 255 := by
    intro a b
    rw [h, h, List.append_left_inj, List.append_right_inj, nameBytes_eq_iff]
  refine ⟨⟨front, back, h⟩, ⟨front, back, fun name hlen => ?_⟩, hconf, fun a b ha hb he => ?_⟩
  · rw [h, nameBytes_short hlen]
  · have htake := (hconf a b).1 he
    rw [List.take_of_length_le ha, List.take_of_length_le hb] at htake
    exact Wire.utf8_inj htake

theorem encode_address_name (host : String) (port : UInt16) :
    encode_address (.DomainPort host port) = [ATYP_DOMAIN] ++ nameBytes host ++ Wire.be 2 port.toNat := rfl

theorem vless_address_name (host : String) (port : UInt16) :
    Reality.vless_address (.DomainPort host port) = Wire.be 2 port.toNat ++ [Reality.VLESS_ATYP_DOMAIN] ++ nameBytes host := by
  rw [List.append_assoc]
  rfl

theorem encode_connect_name (port : UInt16) : WritesName fun host => encode_connect (.DomainPort host port) :=
  .of_layout [TUIC_VER, CMD_CONNECT, ATYP_DOMAIN] (Wire.be 2 port.toNat) fun host => by
    simp [encode_connect, encode_address_name]

theorem encode_packet_name (assoc_id : UInt16) (port : UInt16) (data : Bytes) :
    WritesName fun host => encode_packet assoc_id (.DomainPort host port) data :=
  .of_layout ([TUIC_VER, CMD_PACKET] ++ Wire.be 2 assoc_id.toNat ++ Wire.be 2 0 ++ [1, 0] ++ Wire.be 2 data.length ++
    [ATYP_DOMAIN]) (Wire.be 2 port.toNat ++ data) fun host => by
    simp [encode_packet, encode_address_name]

theorem encode_vless_request_name (uuid : Vector UInt8 16) (command : UInt8) (port : UInt16) :
    WritesName fun host => Reality.encode_vless_request uuid command (.DomainPort host port) :=
  .of_layout ([Reality.VLESS_VERSION] ++ uuid.toList ++ [0, command] ++ Wire.be 2 port.toNat ++
    [Reality.VLESS_ATYP_DOMAIN]) [] fun host => by
    simp [Reality.encode_vless_request, vless_address_name]

/-! ## Destinations -/

/-- Where a server is asked to connect to. -/
inductive Destination where
  | ipv4 (ip : Ipv4Addr) (port : UInt16)
  | ipv6 (ip : BitVec 128) (port : UInt16)
  | name (host : String) (port : UInt16)
deriving DecidableEq, Repr

/-- What a target denotes: the flow label and the scope of an IPv6 address are
the client's own affair. -/
def TargetAddr.destination : TargetAddr → Destination
  | .IpPort (.v4 ip port) => .ipv4 ip port
  | .IpPort (.v6 ip port _ _) => .ipv6 ip port
  | .DomainPort host port => .name host port

/-- A name, if the target is one, is short enough for its length byte. -/
def TargetAddr.Fits : TargetAddr → Prop
  | .IpPort _ => True
  | .DomainPort host _ => (Wire.utf8 host).length ≤ 255

instance (t : TargetAddr) : Decidable t.Fits :=
  match t with
  | .IpPort _ => inferInstanceAs (Decidable True)
  | .DomainPort host _ => inferInstanceAs (Decidable ((Wire.utf8 host).length ≤ 255))

section
open Decoder

def readIpv4 : Decoder Ipv4Addr := UInt32.ofNat <$> uint 4

def readIpv6 : Decoder (BitVec 128) := BitVec.ofNat 128 <$> uint 16

def readName : Decoder String := do
  match Wire.fromUtf8 (← block 1) with
  | some name => pure name
  | none => failure

/-- A TUIC server at an address field. -/
def readAddress : Decoder Destination := do
  let atyp ← byte
  if atyp = ATYP_IPV4 then
    let ip ← readIpv4
    .ipv4 ip <$> u16
  else if atyp = ATYP_IPV6 then
    let ip ← readIpv6
    .ipv6 ip <$> u16
  else if atyp = ATYP_DOMAIN then
    let host ← readName
    .name host <$> u16
  else failure

/-- A TUIC server at the head of a stream. -/
def readConnect : Decoder Destination := do
  let ver ← byte
  guard (ver = TUIC_VER)
  let cmd ← byte
  guard (cmd = CMD_CONNECT)
  readAddress

structure VlessRequest where
  uuid : Bytes
  command : UInt8
  destination : Destination
deriving DecidableEq, Repr

/-- A VLESS server behind the port. -/
def readVlessAddress (port : UInt16) : Decoder Destination := do
  let atyp ← byte
  if atyp = Reality.VLESS_ATYP_IPV4 then (.ipv4 · port) <$> readIpv4
  else if atyp = Reality.VLESS_ATYP_IPV6 then (.ipv6 · port) <$> readIpv6
  else if atyp = Reality.VLESS_ATYP_DOMAIN then (.name · port) <$> readName
  else failure

/-- A VLESS server at the head of a connection; it skips the addons. -/
def readVlessRequest : Decoder VlessRequest := do
  let version ← byte
  guard (version = Reality.VLESS_VERSION)
  let uuid ← bytes 16
  let _ ← block 1
  let command ← byte
  let port ← u16
  (.mk uuid command) <$> readVlessAddress port

/-! ## What the servers read -/

theorem reads_ipv4 (ip : Ipv4Addr) : Reads readIpv4 (Wire.be 4 ip.toNat) ip := by
  have h := (reads_uint (n := 4) ip.toNat_lt).map UInt32.ofNat
  rwa [UInt32.ofNat_toNat] at h

theorem reads_ipv6 (ip : BitVec 128) : Reads readIpv6 (Wire.be 16 ip.toNat) ip := by
  have h := (reads_uint (n := 16) ip.isLt).map (BitVec.ofNat 128)
  rwa [BitVec.ofNat_toNat, BitVec.setWidth_eq] at h

theorem reads_name {name : String} (h : (Wire.utf8 name).length ≤ 255) : Reads readName (nameBytes name) name := by
  rw [nameBytes_short h]
  have hlen : (Wire.utf8 name).length < 256 ^ 1 := by omega
  refine (reads_block hlen).last ?_
  rw [Wire.fromUtf8_utf8]
  exact reads_pure name

theorem reads_address {t : TargetAddr} (h : t.Fits) : Reads readAddress (encode_address t) t.destination := by
  match t, h with
  | .IpPort (.v4 ip port), _ =>
    refine (reads_byte ATYP_IPV4).bind ?_
    rw [if_pos rfl]
    exact (reads_ipv4 ip).bind ((reads_u16 port).map _)
  | .IpPort (.v6 ip port _ _), _ =>
    rw [encode_address, ← List.singleton_append]
    refine (reads_byte ATYP_IPV6).bind ?_
    rw [if_neg (by decide), if_pos rfl]
    exact (reads_ipv6 ip).bind ((reads_u16 port).map _)
  | .DomainPort host port, h =>
    rw [encode_address_name, List.append_assoc]
    refine (reads_byte ATYP_DOMAIN).bind ?_
    rw [if_neg (by decide), if_neg (by decide), if_pos rfl]
    exact (reads_name h).bind ((reads_u16 port).map _)

theorem reads_connect {t : TargetAddr} (h : t.Fits) : Reads readConnect (encode_connect t) t.destination :=
  (reads_byte TUIC_VER).bind (.check rfl ((reads_byte CMD_CONNECT).bind (.check rfl (reads_address h))))

/-- The port stands in front of the address here. -/
theorem reads_vless_address {t : TargetAddr} (h : t.Fits) : ∃ port bs,
    Reality.vless_address t = Wire.be 2 port.toNat ++ bs ∧ Reads (readVlessAddress port) bs t.destination := by
  match t, h with
  | .IpPort (.v4 ip port), _ =>
    refine ⟨port, _, rfl, (reads_byte Reality.VLESS_ATYP_IPV4).bind ?_⟩
    rw [if_pos rfl]
    exact (reads_ipv4 ip).map _
  | .IpPort (.v6 ip port _ _), _ =>
    refine ⟨port, [Reality.VLESS_ATYP_IPV6] ++ Wire.be 16 ip.toNat, by simp [Reality.vless_address], ?_⟩
    refine (reads_byte Reality.VLESS_ATYP_IPV6).bind ?_
    rw [if_neg (by decide), if_pos rfl]
    exact (reads_ipv6 ip).map _
  | .DomainPort host port, h =>
    rw [vless_address_name, List.append_assoc]
    refine ⟨port, _, rfl, (reads_byte Reality.VLESS_ATYP_DOMAIN).bind ?_⟩
    rw [if_neg (by decide), if_neg (by decide), if_pos rfl]
    exact (reads_name h).map _

theorem reads_vless_request (uuid : Vector UInt8 16) (command : UInt8) {t : TargetAddr} (h : t.Fits) :
    Reads readVlessRequest (Reality.encode_vless_request uuid command t) ⟨uuid.toList, command, t.destination⟩ := by
  have huuid : Reads (bytes 16) uuid.toList uuid.toList := by
    have hbytes := reads_bytes uuid.toList
    rwa [Vector.length_toList] at hbytes
  have haddons : Reads (block 1) [0] [] := reads_block (n := 1) (by simp)
  obtain ⟨port, bs, hbs, hread⟩ := reads_vless_address h
  rw [Reality.encode_vless_request, hbs]
  simp only [List.append_assoc]
  refine (reads_byte Reality.VLESS_VERSION).bind (.check rfl ?_)
  exact huuid.bind (haddons.bind ((reads_byte command).bind ((reads_u16 port).bind (hread.map _))))

/-! ## A connection tried on both legs -/

/-- What a leg writes at the head of a connection. -/
structure Request where
  leg : TcpLeg
  bytes : Bytes
deriving DecidableEq, Repr

/-- `TuicUpstream::open_tcp`. -/
def connectRequest (target : TargetAddr) : Request := { leg := .Tuic, bytes := encode_connect target }

/-- `RealityUpstream::open_tcp`, behind the handshake. -/
def vlessRequest (uuid : Vector UInt8 16) (target : TargetAddr) : Request :=
  { leg := .Reality, bytes := Reality.encode_vless_request uuid Reality.VLESS_CMD_TCP target }

/-- How the TUIC leg took an `open_tcp`; a failed one is followed by `is_dead` and `now_secs`. -/
inductive TuicAnswer where
  | ok
  | err (dead : Bool) (now_secs : Nat)
deriving DecidableEq, Repr

/-- The requests of `FailoverUpstream::open_tcp` in their order, and the state it
leaves. The leg is read in `s`. Other tasks may have called since when the TUIC
leg has answered: that state is `s'`. -/
def open_tcp (uuid : Vector UInt8 16) (target : TargetAddr) (s s' : FailoverState) (answer : TuicAnswer) :
    List Request × FailoverState :=
  match s.active_leg with
  | .Tuic =>
    match answer with
    | .ok => ([connectRequest target], s'.record_tuic_success)
    | .err dead now_secs =>
      match s'.record_tuic_failure dead now_secs with
      | (true, s') => ([connectRequest target, vlessRequest uuid target], s')
      | (false, s') => ([connectRequest target], s')
  | .Reality => ([vlessRequest uuid target], s)

/-- The server at the other end of a leg. -/
def readRequest : TcpLeg → Decoder Destination
  | .Tuic => readConnect
  | .Reality => VlessRequest.destination <$> readVlessRequest

theorem reads_connectRequest {t : TargetAddr} (h : t.Fits) :
    Reads (readRequest (connectRequest t).leg) (connectRequest t).bytes t.destination := reads_connect h

theorem reads_vlessRequest (uuid : Vector UInt8 16) {t : TargetAddr} (h : t.Fits) :
    Reads (readRequest (vlessRequest uuid t).leg) (vlessRequest uuid t).bytes t.destination :=
  (reads_vless_request uuid Reality.VLESS_CMD_TCP h).map VlessRequest.destination

theorem mem_open_tcp {uuid : Vector UInt8 16} {t : TargetAddr} {s s' : FailoverState} {answer : TuicAnswer}
    {r : Request} (h : r ∈ (open_tcp uuid t s s' answer).1) : r = connectRequest t ∨ r = vlessRequest uuid t := by
  unfold open_tcp at h
  grind

/-- Neither wire confuses two targets, also with data behind them, and the
servers of both legs read the target `open_tcp` was given. -/
theorem address_encodings_agree :
    (∀ (t₁ t₂ : TargetAddr) (r₁ r₂ : Bytes), t₁.Fits → t₂.Fits →
      encode_address t₁ ++ r₁ = encode_address t₂ ++ r₂ → t₁.destination = t₂.destination ∧ r₁ = r₂) ∧
    (∀ (uuid₁ uuid₂ : Vector UInt8 16) (command₁ command₂ : UInt8) (t₁ t₂ : TargetAddr) (r₁ r₂ : Bytes),
      t₁.Fits → t₂.Fits →
      Reality.encode_vless_request uuid₁ command₁ t₁ ++ r₁ = Reality.encode_vless_request uuid₂ command₂ t₂ ++ r₂ →
        uuid₁ = uuid₂ ∧ command₁ = command₂ ∧ t₁.destination = t₂.destination ∧ r₁ = r₂) ∧
    (∀ (t : TargetAddr) (r : Bytes), address_len (encode_address t ++ r) 0 = some (encode_address t).length) ∧
    (∀ (uuid : Vector UInt8 16) (t : TargetAddr) (s s' : FailoverState) (answer : TuicAnswer), t.Fits →
      ∀ r ∈ (open_tcp uuid t s s' answer).1, Reads (readRequest r.leg) r.bytes t.destination) := by
  refine ⟨?_, ?_, ?_, ?_⟩
  · intro t₁ t₂ r₁ r₂ h₁ h₂ heq
    exact (reads_address h₁).unique (reads_address h₂) heq
  · intro uuid₁ uuid₂ command₁ command₂ t₁ t₂ r₁ r₂ h₁ h₂ heq
    obtain ⟨hreq, hrest⟩ := (reads_vless_request uuid₁ command₁ h₁).unique (reads_vless_request uuid₂ command₂ h₂) heq
    obtain ⟨huuid, hcommand, hdest⟩ := VlessRequest.mk.inj hreq
    exact ⟨Vector.toList_inj.1 huuid, hcommand, hdest, hrest⟩
  · intro t r
    exact address_len_append (isAddress_encode_address t) r
  · intro uuid t s s' answer ht r hr
    rcases mem_open_tcp hr with rfl | rfl
    · exact reads_connectRequest ht
    · exact reads_vlessRequest uuid ht

/-- The third failure in a row: the name is asked for again on the other leg. Two
spellings of an IPv6 address that differ in their scope are one destination. -/
theorem address_encodings_agree_retry :
    let uuid : Vector UInt8 16 := .replicate 16 7
    let t : TargetAddr := .DomainPort "example.com" 443
    let s : FailoverState := { FailoverState.new with tuic_consec_fail := 2 }
    let v6 := fun scope : UInt32 => TargetAddr.IpPort (.v6 1 443 0 scope)
    open_tcp uuid t s s (.err false 7) = ([connectRequest t, vlessRequest uuid t], .down 7) ∧ t.Fits ∧
    (∀ r ∈ [connectRequest t, vlessRequest uuid t], Reads (readRequest r.leg) r.bytes t.destination) ∧
    (v6 0 ≠ v6 3 ∧ (v6 0).destination = (v6 3).destination) := by
  have hfits : TargetAddr.Fits (.DomainPort "example.com" 443) := by decide +kernel
  refine ⟨rfl, hfits, ?_, by decide, ?_⟩
  · exact address_encodings_agree.2.2.2 (.replicate 16 7) (.DomainPort "example.com" 443)
      { FailoverState.new with tuic_consec_fail := 2 } { FailoverState.new with tuic_consec_fail := 2 } (.err false 7) hfits
  · exact (address_encodings_agree.1 (.IpPort (.v6 1 443 0 0)) (.IpPort (.v6 1 443 0 3)) [] [] trivial trivial rfl).1

end

end MiniVpn
