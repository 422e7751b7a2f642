import Mathlib.Data.UInt
/-!
# Addresses, targets and packets

The values the main loop passes around. `Packet` is what `etherparse` reports
about one raw IP packet read from the TUN device: the loop never looks at the
bytes of a header itself.
-/

namespace MiniVpn

abbrev Bytes := List UInt8

abbrev Ipv4Addr := UInt32

/-- `Ipv4Addr::new`. -/
def ipv4 (a b c d : UInt8) : Ipv4Addr :=
  (a.toUInt32 <<< 24) ||| (b.toUInt32 <<< 16) ||| (c.toUInt32 <<< 8) ||| d.toUInt32

/-- `smoltcp::wire::IpEndpoint`; the crate enables `proto-ipv4` only. -/
structure IpEndpoint where
  addr : Ipv4Addr
  port : UInt16
deriving DecidableEq, Repr

/-- `std::net::SocketAddr`. -/
inductive SocketAddr where
  | v4 (ip : Ipv4Addr) (port : UInt16)
  | v6 (ip : BitVec 128) (port : UInt16) (flowinfo scope_id : UInt32)
deriving DecidableEq, Repr

inductive TargetAddr where
  | IpPort (addr : SocketAddr)
  | DomainPort (host : String) (port : UInt16)
deriving DecidableEq, Repr

/-- `shared::errors::ClientError`, where it is not a failure of the REALITY leg. -/
inductive ClientError where
  | InvalidTarget (message : String)
deriving DecidableEq, Repr

/-- `str::parse` at an unsigned type of `bits` bits: digits, which a `+` may stand in front of. -/
def parse_unsigned (bits : Nat) (s : String) : Option { n : Nat // n < 2 ^ bits } :=
  let digits := match s.toList with
    | '+' :: digits => digits
    | digits => digits
  if digits.isEmpty || !digits.all Char.isDigit then none
  else
    let n := digits.foldl (fun n c => 10 * n + (c.toNat - '0'.toNat)) 0
    if h : n < 2 ^ bits then some ⟨n, h⟩ else none

/-! ## UDP -/

/-- Identity of a UDP flow. -/
structure FourTuple where
  src_ip : Ipv4Addr
  src_port : UInt16
  dst_ip : Ipv4Addr
  dst_port : UInt16
deriving DecidableEq, Repr

structure FlowEntry where
  tuple : FourTuple
  last_activity : Nat
deriving DecidableEq, Repr

/-- What `parse_inbound_udp` returns for a packet it accepts. -/
structure UdpInbound where
  src_ip : Ipv4Addr
  src_port : UInt16
  dst_ip : Ipv4Addr
  dst_port : UInt16
  payload : Bytes
deriving DecidableEq, Repr

/-- The fields of `dns::DnsQuery` the fake-IP path reads. -/
structure DnsQuery where
  qname : String
  qtype : UInt16
deriving DecidableEq, Repr

def QTYPE_A : UInt16 := 1

/-! ## Classifying an inbound packet -/

/-- A packet as `etherparse` reports it. -/
inductive Packet where
  | udp (u : UdpInbound)
  | tcp (destination_port : UInt16) (syn ack : Bool)
  | other
deriving DecidableEq, Repr

inductive Inbound where
  | Dns
  | UdpRelay
  | Other
deriving DecidableEq, Repr

def classify_inbound : Packet → Inbound
  | .udp u => if u.dst_port = 53 then .Dns else .UdpRelay
  | _ => .Other

/-- Destination port of a TCP packet, and whether it is a clean SYN. -/
def inspect_inbound_tcp : Packet → Option (UInt16 × Bool)
  | .tcp destination_port syn ack => some (destination_port, syn && !ack)
  | _ => none

end MiniVpn
