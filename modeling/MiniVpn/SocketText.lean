import MiniVpn.Lib.Scan
import MiniVpn.Lib.Wire
import MiniVpn.Net
/-!
# Socket addresses as text

`FromStr` of `std::net::SocketAddr`. The parser of `std` goes over the bytes of the
text; no byte of a character outside ASCII matches anything, so that here it goes
over the characters. What a part of it fails on is left as it was.
-/
open Lib Lib.Scanner

namespace MiniVpn

/-! ## Parsing -/

def read_octet : Scanner UInt8 := UInt8.ofNat <$> number 10 (2 ^ 8) (some 3) false

/-- The octets of an IPv4 address. -/
def read_ipv4_addr : Scanner Bytes := do
  let a ← read_octet
  given '.'
  let b ← read_octet
  given '.'
  let c ← read_octet
  given '.'
  let d ← read_octet
  return [a, b, c, d]

/-- `read_separator`: the separator stands in front of every element but the first. -/
def read_separator {β : Type} (sep : Char) (first : Bool) (p : Scanner β) : Scanner β :=
  if first then p else do
    given sep
    p

/-- `segments`: two octets each. -/
def segments : Bytes → List Nat
  | a :: b :: rest => Wire.ofBe [a, b] :: segments rest
  | _ => []

/-- Groups of an IPv6 address, `limit` at most, and whether they end with an IPv4
address, for which there must be room for two. -/
def read_groups : Nat → Bool → Scanner (List Nat × Bool)
  | 0, _ => pure ([], false)
  | limit + 1, first =>
    (do
      guard (0 < limit)
      let octets ← read_separator ':' first read_ipv4_addr
      return (segments octets, true)) <|>
    (do
      let group ← read_separator ':' first (number 16 (2 ^ 16) (some 4) true)
      let rest ← read_groups limit false
      return (group :: rest.1, rest.2)) <|>
    pure ([], false)

/-- The address of eight groups. -/
def of_segments (groups : List Nat) : BitVec 128 := BitVec.ofNat 128 (Wire.ofBe (groups.flatMap (Wire.be 2)))

def read_ipv6_addr : Scanner (BitVec 128) := do
  let head ← read_groups 8 true
  if head.1.length = 8 then return of_segments head.1
  else
    -- An IPv4 part is not allowed before `::`.
    guard (head.2 = false)
    given ':'
    given ':'
    -- The `::` stands for one group of zeros at least.
    let tail ← read_groups (8 - (head.1.length + 1)) true
    return of_segments (head.1 ++ List.replicate (8 - head.1.length - tail.1.length) 0 ++ tail.1)

def read_port : Scanner UInt16 := do
  given ':'
  UInt16.ofNat <$> number 10 (2 ^ 16) none true

def read_scope_id : Scanner UInt32 := do
  given '%'
  UInt32.ofNat <$> number 10 (2 ^ 32) none true

def read_socket_addr_v4 : Scanner SocketAddr := do
  let octets ← read_ipv4_addr
  let port ← read_port
  return .v4 (UInt32.ofNat (Wire.ofBe octets)) port

/-- What stands between the brackets. -/
def read_ipv6_scoped : Scanner (BitVec 128 × UInt32) := do
  let ip ← read_ipv6_addr
  let scope_id ← read_scope_id <|> pure 0
  return (ip, scope_id)

def read_socket_addr_v6 : Scanner SocketAddr := do
  given '['
  let ip ← read_ipv6_scoped
  given ']'
  let port ← read_port
  return .v6 ip.1 port 0 ip.2

def read_socket_addr : Scanner SocketAddr := read_socket_addr_v4 <|> read_socket_addr_v6

/-- `SocketAddr::from_str(_).ok()`. -/
def SocketAddr.from_str (s : String) : Option SocketAddr := whole read_socket_addr s.toList

/-! ## Where the parts end -/

section
variable {d : Char}

theorem stops_read_ipv4_addr (hdec : isDigit 10 d = false) (hdot : d ≠ '.') : Stops d read_ipv4_addr := by
  have hoctet : Stops d read_octet := (stops_number hdec ..).map _
  have hgiven := stops_given hdot
  exact hoctet.bind fun _ => hgiven.bind fun _ => hoctet.bind fun _ => hgiven.bind fun _ => hoctet.bind fun _ =>
    hgiven.bind fun _ => hoctet.bind fun _ => stops_pure _

theorem stops_read_separator {β : Type} {p : Scanner β} {sep : Char} (hp : Stops d p) (hsep : d ≠ sep) (first : Bool) :
    Stops d (read_separator sep first p) := by
  unfold read_separator
  split
  · exact hp
  · exact (stops_given hsep).bind fun _ => hp

variable (hdec : isDigit 10 d = false) (hhex : isDigit 16 d = false) (hdot : d ≠ '.') (hcolon : d ≠ ':')
include hdec hhex hdot hcolon

theorem stops_read_groups (limit : Nat) (first : Bool) : Stops d (read_groups limit first) := by
  induction limit generalizing first with
  | zero => exact stops_pure _
  | succ limit ih =>
    have hipv4 := stops_read_separator (stops_read_ipv4_addr hdec hdot) hcolon first
    have hgroup := stops_read_separator (stops_number hhex (2 ^ 16) (some 4) true) hcolon first
    exact ((stops_guard _).bind fun _ => hipv4.bind fun _ => stops_pure _).orElse
      ((hgroup.bind fun _ => (ih false).bind fun _ => stops_pure _).orElse (stops_pure _))

theorem stops_read_ipv6_addr : Stops d read_ipv6_addr := by
  have hgroups := stops_read_groups hdec hhex hdot hcolon
  refine (hgroups 8 true).bind fun head => ?_
  split
  · exact stops_pure _
  · exact (stops_guard _).bind fun _ => (stops_given hcolon).bind fun _ => (stops_given hcolon).bind fun _ =>
      (hgroups _ true).bind fun _ => stops_pure _

end

theorem stops_read_ipv6_scoped : Stops ']' read_ipv6_scoped := by
  have hscope : Stops ']' read_scope_id :=
    (stops_given (by decide)).bind fun _ => (stops_number (by decide) ..).map _
  exact (stops_read_ipv6_addr (by decide) (by decide) (by decide) (by decide)).bind fun _ =>
    (hscope.orElse (stops_pure 0)).bind fun _ => stops_pure _

/-! ## What the parser accepts -/

/-- `w` is the address of a socket without its port, and `mk` puts the port to it. -/
inductive IsHost : List Char → (UInt16 → SocketAddr) → Prop
  | v4 {w : List Char} {octets : Bytes} : read_ipv4_addr w = some (octets, []) →
      IsHost w (.v4 (UInt32.ofNat (Wire.ofBe octets)))
  | v6 {w : List Char} {ip : BitVec 128 × UInt32} : read_ipv6_scoped w = some (ip, []) →
      IsHost ('[' :: w ++ [']']) fun port => .v6 ip.1 port 0 ip.2

theorem read_port_eq_some_iff {s : List Char} {port : UInt16} :
    read_port s = some (port, []) ↔ ∃ ds, s = ':' :: ds ∧ IsDecimal ds port.toNat := by
  rw [read_port, bind_eq_some_iff]
  constructor
  · rintro ⟨_, ds, hcolon, hnumber⟩
    obtain ⟨n, hn, rfl⟩ := map_eq_some_iff.1 hnumber
    obtain ⟨hds, hlt⟩ := number_decimal_iff.1 hn
    refine ⟨ds, given_eq_some_iff.1 hcolon, ?_⟩
    rwa [UInt16.toNat_ofNat', Nat.mod_eq_of_lt hlt]
  · rintro ⟨ds, rfl, hds⟩
    exact ⟨(), ds, given_eq_some_iff.2 rfl,
      map_eq_some_iff.2 ⟨_, number_decimal_iff.2 ⟨hds, port.toNat_lt⟩, UInt16.ofNat_toNat⟩⟩

theorem read_socket_addr_v4_eq_some_iff {s : List Char} {addr : SocketAddr} :
    read_socket_addr_v4 s = some (addr, []) ↔ ∃ w ds octets port, s = w ++ ':' :: ds ∧
      read_ipv4_addr w = some (octets, []) ∧ IsDecimal ds port.toNat ∧
      addr = .v4 (UInt32.ofNat (Wire.ofBe octets)) port := by
  have hstops : Stops ':' read_ipv4_addr := stops_read_ipv4_addr (by decide) (by decide)
  simp only [read_socket_addr_v4, bind_eq_some_iff]
  constructor
  · rintro ⟨octets, r, hip, port, r', hport, hpure⟩
    obtain ⟨rfl, rfl⟩ := Prod.mk.inj (Option.some.inj hpure)
    obtain ⟨ds, rfl, hds⟩ := read_port_eq_some_iff.1 hport
    obtain ⟨w, rfl, hw⟩ := hstops.eq_some_cons_iff.1 hip
    exact ⟨w, ds, octets, port, rfl, hw, hds, rfl⟩
  · rintro ⟨w, ds, octets, port, rfl, hw, hds, rfl⟩
    exact ⟨octets, _, hstops.eq_some_cons_iff.2 ⟨w, rfl, hw⟩, port, [], read_port_eq_some_iff.2 ⟨ds, rfl, hds⟩, rfl⟩

theorem read_socket_addr_v6_eq_some_iff {s : List Char} {addr : SocketAddr} :
    read_socket_addr_v6 s = some (addr, []) ↔ ∃ w ds ip port, s = '[' :: w ++ ']' :: ':' :: ds ∧
      read_ipv6_scoped w = some (ip, []) ∧ IsDecimal ds port.toNat ∧ addr = .v6 ip.1 port 0 ip.2 := by
  simp only [read_socket_addr_v6, bind_eq_some_iff, given_eq_some_iff]
  constructor
  · rintro ⟨-, r₁, rfl, ip, r₂, hip, -, r₃, rfl, port, r₄, hport, hpure⟩
    obtain ⟨rfl, rfl⟩ := Prod.mk.inj (Option.some.inj hpure)
    obtain ⟨ds, rfl, hds⟩ := read_port_eq_some_iff.1 hport
    obtain ⟨w, rfl, hw⟩ := stops_read_ipv6_scoped.eq_some_cons_iff.1 hip
    exact ⟨w, ds, ip, port, rfl, hw, hds, rfl⟩
  · rintro ⟨w, ds, ip, port, rfl, hw, hds, rfl⟩
    exact ⟨(), _, rfl, ip, _, stops_read_ipv6_scoped.eq_some_cons_iff.2 ⟨w, rfl, hw⟩, (), _, rfl, port, [],
      read_port_eq_some_iff.2 ⟨ds, rfl, hds⟩, rfl⟩

/-- A bracket is not the beginning of an IPv4 address. -/
theorem read_socket_addr_v4_bracket (s : List Char) : read_socket_addr_v4 ('[' :: s) = none := rfl

/-- The accepted texts: an address, a colon and a port. -/
theorem from_str_eq_some_iff {s : String} {addr : SocketAddr} : SocketAddr.from_str s = some addr ↔
    ∃ w ds mk port, s.toList = w ++ ':' :: ds ∧ IsHost w mk ∧ IsDecimal ds (UInt16.toNat port) ∧ addr = mk port := by
  rw [SocketAddr.from_str, whole_eq_some_iff, read_socket_addr, orElse_eq_some_iff, read_socket_addr_v4_eq_some_iff,
    read_socket_addr_v6_eq_some_iff]
  constructor
  · rintro (⟨w, ds, octets, port, hs, hw, hds, rfl⟩ | ⟨-, w, ds, ip, port, hs, hw, hds, rfl⟩)
    · exact ⟨w, ds, _, port, hs, .v4 hw, hds, rfl⟩
    · exact ⟨'[' :: w ++ [']'], ds, _, port, by simp [hs], .v6 hw, hds, rfl⟩
  · rintro ⟨w, ds, mk, port, hs, hw, hds, rfl⟩
    cases hw with
    | v4 hw => exact .inl ⟨w, ds, _, port, hs, hw, hds, rfl⟩
    | @v6 w ip hw =>
      refine .inr ⟨?_, w, ds, ip, port, by simp [hs], hw, hds, rfl⟩
      rw [hs]
      exact read_socket_addr_v4_bracket _

/-- The address in front of the last colon decides, and the value of the port. -/
theorem from_str_host_port_iff {host ds : List Char} {addr : SocketAddr} {n : Nat} (hds : IsDecimal ds n) :
    SocketAddr.from_str (String.ofList (host ++ ':' :: ds)) = some addr ↔
      n < 2 ^ 16 ∧ ∃ mk, IsHost host mk ∧ addr = mk (UInt16.ofNat n) := by
  rw [from_str_eq_some_iff, String.toList_ofList]
  constructor
  · rintro ⟨w, ds', mk, port, heq, hw, hds', rfl⟩
    obtain ⟨rfl, rfl⟩ := append_cons_inj_of_last (hds.not_mem (by decide)) (hds'.not_mem (by decide)) heq
    obtain rfl : port.toNat = n := hds'.2.2.symm.trans hds.2.2
    exact ⟨port.toNat_lt, mk, hw, by rw [UInt16.ofNat_toNat]⟩
  · rintro ⟨hlt, mk, hw, rfl⟩
    refine ⟨host, ds, mk, UInt16.ofNat n, rfl, hw, ?_, rfl⟩
    rwa [UInt16.toNat_ofNat', Nat.mod_eq_of_lt hlt]

end MiniVpn
