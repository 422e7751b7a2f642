import MiniVpn.Lib.Table
import MiniVpn.Lib.Wire
import MiniVpn.Net
import Mathlib.Data.List.ReduceOption
/-!
# TUIC packets and their fragments

The `Packet` command of `tuic.rs`, as the client writes it and as it reads what
the server sends, and the reassembler that joins the fragments of one packet.
A result in `Option` is `none` where the source would panic: an index or a slice
out of range, or the `expect` of `accept`.
-/
open Lib

namespace MiniVpn

/-! ## The Connect and Packet commands -/

def TUIC_VER : UInt8 := 0x05
def CMD_CONNECT : UInt8 := 0x01
def CMD_PACKET : UInt8 := 0x02
def ATYP_DOMAIN : UInt8 := 0x00
def ATYP_IPV4 : UInt8 := 0x01
def ATYP_IPV6 : UInt8 := 0x02
def ATYP_NONE : UInt8 := 0xff

def encode_address : TargetAddr → Bytes
  | .IpPort (.v4 ip port) => ATYP_IPV4 :: (Wire.be 4 ip.toNat ++ Wire.be 2 port.toNat)
  | .IpPort (.v6 ip port _ _) => ATYP_IPV6 :: (Wire.be 16 ip.toNat ++ Wire.be 2 port.toNat)
  | .DomainPort host port =>
    let bytes := host.toUTF8.toList
    let len := min bytes.length 255
    ATYP_DOMAIN :: UInt8.ofNat len :: (bytes.take len ++ Wire.be 2 port.toNat)

def encode_connect (target : TargetAddr) : Bytes := [TUIC_VER, CMD_CONNECT] ++ encode_address target

def encode_packet (assoc_id : UInt16) (target : TargetAddr) (data : Bytes) : Bytes :=
  [TUIC_VER, CMD_PACKET] ++ Wire.be 2 assoc_id.toNat ++ Wire.be 2 0 ++ [1, 0] ++ Wire.be 2 data.length ++
    encode_address target ++ data

structure PacketMeta where
  assoc_id : UInt16
  pkt_id : UInt16
  frag_total : UInt8
  frag_id : UInt8
  data : Bytes
deriving DecidableEq, Repr

/-- `u16::from_be_bytes([buf[i], buf[i + 1]])`. -/
def u16_at (buf : Bytes) (i : Nat) : Option Nat := return Wire.ofBe [← buf[i]?, ← buf[i + 1]?]

/-- This `Option` is the source's own: the lookups are `get` and cannot panic. -/
def address_len (buf : Bytes) (pos : Nat) : Option Nat := do
  let atyp ← buf[pos]?
  if atyp = ATYP_IPV4 then return 1 + 4 + 2
  else if atyp = ATYP_IPV6 then return 1 + 16 + 2
  else if atyp = ATYP_DOMAIN then
    let l ← buf[pos + 1]?
    return 1 + 1 + l.toNat + 2
  else if atyp = ATYP_NONE then return 1
  else none

/-- `some none` when the bytes are not a packet. The `checked_add` of the source
cannot overflow: both summands are far below the range of `usize`. -/
def decode_packet_meta (buf : Bytes) : Option (Option PacketMeta) :=
  if buf.length < 10 then some none
  else do
    let size ← u16_at buf 8
    match address_len buf 10 with
    | none => return none
    | some addr_len =>
      let data_start := 10 + addr_len
      let data_end := data_start + size
      if buf.length < data_end then return none
      else
        let assoc_id ← u16_at buf 2
        let pkt_id ← u16_at buf 4
        let frag_total ← buf[6]?
        let frag_id ← buf[7]?
        let data ← Wire.slice buf data_start data_end
        return some {
          assoc_id := UInt16.ofNat assoc_id
          pkt_id := UInt16.ofNat pkt_id
          frag_total := frag_total
          frag_id := frag_id
          data := data }

/-! ## What a packet is -/

/-- The address field of a packet, with its port. Fragments after the first
carry none. -/
inductive IsAddress : Bytes → Prop
  | ipv4 {b : Bytes} : b.length = 4 + 2 → IsAddress (ATYP_IPV4 :: b)
  | ipv6 {b : Bytes} : b.length = 16 + 2 → IsAddress (ATYP_IPV6 :: b)
  | domain {l : UInt8} {b : Bytes} : b.length = l.toNat + 2 → IsAddress (ATYP_DOMAIN :: l :: b)
  | absent : IsAddress [ATYP_NONE]

/-- The layout of a packet: two bytes nobody reads, the fields of `m`, an
address, the data, and anything behind it. -/
def IsPacket (buf : Bytes) (m : PacketMeta) : Prop :=
  ∃ ver cmd addr rest, IsAddress addr ∧ m.data.length < 65536 ∧
    buf = [ver, cmd] ++ Wire.be 2 m.assoc_id.toNat ++ Wire.be 2 m.pkt_id.toNat ++ [m.frag_total, m.frag_id] ++
      Wire.be 2 m.data.length ++ addr ++ m.data ++ rest

theorem isAddress_encode_address (target : TargetAddr) : IsAddress (encode_address target) := by
  match target with
  | .IpPort (.v4 ip port) => exact .ipv4 (by simp)
  | .IpPort (.v6 ip port _ _) => exact .ipv6 (by simp)
  | .DomainPort host port =>
    refine .domain ?_
    rw [List.length_append, List.length_take, Wire.length_be, UInt8.toNat_ofNat']
    omega

theorem isPacket_encode_packet (assoc_id : UInt16) (target : TargetAddr) {data : Bytes} (h : data.length < 65536) :
    IsPacket (encode_packet assoc_id target data)
      { assoc_id := assoc_id, pkt_id := 0, frag_total := 1, frag_id := 0, data := data } :=
  ⟨TUIC_VER, CMD_PACKET, encode_address target, [], isAddress_encode_address target, h, by simp [encode_packet]⟩

/-! ## Decoding reads the layout and never fails -/

theorem address_len_append {addr : Bytes} (h : IsAddress addr) (rest : Bytes) :
    address_len (addr ++ rest) 0 = some addr.length := by
  cases h with
  | ipv4 hb => simp [address_len, hb]
  | ipv6 hb => simp [address_len, hb, ATYP_IPV4, ATYP_IPV6]
  | domain hb => simp [address_len, hb, ATYP_DOMAIN, ATYP_IPV4, ATYP_IPV6]; omega
  | absent => simp [address_len, ATYP_NONE, ATYP_DOMAIN, ATYP_IPV4, ATYP_IPV6]

theorem isAddress_take {tail : Bytes} {n : Nat} (h : address_len tail 0 = some n) (hn : n ≤ tail.length) :
    IsAddress (tail.take n) := by
  match tail with
  | [] => simp [address_len] at h
  | atyp :: tail =>
    simp only [address_len, List.getElem?_cons_zero, Option.bind_eq_bind, Option.bind_some, Option.pure_def] at h
    split at h
    · subst_vars
      obtain rfl := Option.some.inj h
      exact .ipv4 (by simp at hn ⊢; omega)
    · split at h
      · subst_vars
        obtain rfl := Option.some.inj h
        exact .ipv6 (by simp at hn ⊢; omega)
      · split at h
        · subst_vars
          match tail with
          | [] => simp at h
          | l :: tail =>
            obtain rfl : 1 + 1 + l.toNat + 2 = n := by simpa using h
            rw [show 1 + 1 + l.toNat + 2 = (l.toNat + 2) + 1 + 1 by omega]
            exact .domain (by simp at hn ⊢; omega)
        · split at h
          · subst_vars
            obtain rfl := Option.some.inj h
            exact .absent
          · cases h

/-- With its ten fixed bytes in place, decoding is a question about the rest. -/
theorem decode_packet_meta_header (ver cmd a₁ a₀ p₁ p₀ frag_total frag_id s₁ s₀ : UInt8) (tail : Bytes) :
    decode_packet_meta (ver :: cmd :: a₁ :: a₀ :: p₁ :: p₀ :: frag_total :: frag_id :: s₁ :: s₀ :: tail) =
      some ((address_len tail 0).bind fun n =>
        if tail.length < n + Wire.ofBe [s₁, s₀] then none
        else some {
          assoc_id := UInt16.ofNat (Wire.ofBe [a₁, a₀])
          pkt_id := UInt16.ofNat (Wire.ofBe [p₁, p₀])
          frag_total := frag_total
          frag_id := frag_id
          data := (tail.drop n).take (Wire.ofBe [s₁, s₀]) }) := by
  have haddr : address_len (ver :: cmd :: a₁ :: a₀ :: p₁ :: p₀ :: frag_total :: frag_id :: s₁ :: s₀ :: tail) 10 =
      address_len tail 0 := rfl
  rw [decode_packet_meta, if_neg (by simp), haddr]
  cases address_len tail 0 with
  | none => rfl
  | some n =>
    simp only [u16_at, List.getElem?_cons_succ, List.getElem?_cons_zero, Option.bind_eq_bind, Option.bind_some,
      Option.pure_def, List.length_cons]
    split
    · rw [if_pos (by omega)]
    · rw [if_neg (by omega), Wire.slice_eq_some (by omega) (by simp; omega)]
      rw [show 10 + n + Wire.ofBe [s₁, s₀] = (n + Wire.ofBe [s₁, s₀]) + 10 by omega, Nat.add_comm 10 n]
      simp only [Option.bind_some, List.take_succ_cons, List.drop_succ_cons, List.drop_take]
      simp

theorem exists_header {buf : Bytes} (h : 10 ≤ buf.length) :
    ∃ ver cmd a₁ a₀ p₁ p₀ frag_total frag_id s₁ s₀ tail,
      buf = ver :: cmd :: a₁ :: a₀ :: p₁ :: p₀ :: frag_total :: frag_id :: s₁ :: s₀ :: tail := by
  match buf, h with
  | _ :: _ :: _ :: _ :: _ :: _ :: _ :: _ :: _ :: _ :: _, _ => exact ⟨_, _, _, _, _, _, _, _, _, _, _, rfl⟩

/-- No byte string makes an index of `decode_packet_meta` go out of range. -/
theorem exists_decode_packet_meta (buf : Bytes) : ∃ r, decode_packet_meta buf = some r := by
  by_cases h : buf.length < 10
  · exact ⟨none, if_pos h⟩
  · obtain ⟨_, _, _, _, _, _, _, _, _, _, _, rfl⟩ := exists_header (Nat.le_of_not_lt h)
    exact ⟨_, decode_packet_meta_header ..⟩

/-- What is accepted is a packet, and every packet is accepted. -/
theorem decode_packet_meta_eq_some_iff {buf : Bytes} {m : PacketMeta} :
    decode_packet_meta buf = some (some m) ↔ IsPacket buf m := by
  constructor
  · intro h
    by_cases hlen : buf.length < 10
    · simp [decode_packet_meta, hlen] at h
    obtain ⟨ver, cmd, a₁, a₀, p₁, p₀, frag_total, frag_id, s₁, s₀, tail, rfl⟩ := exists_header (Nat.le_of_not_lt hlen)
    rw [decode_packet_meta_header, Option.some.injEq, Option.bind_eq_some_iff] at h
    obtain ⟨n, hn, h⟩ := h
    split at h
    · cases h
    · rename_i hlen'
      obtain rfl := Option.some.inj h
      have hdata : ((tail.drop n).take (Wire.ofBe [s₁, s₀])).length = Wire.ofBe [s₁, s₀] := by
        rw [List.length_take, List.length_drop]; omega
      refine ⟨ver, cmd, tail.take n, (tail.drop n).drop (Wire.ofBe [s₁, s₀]), isAddress_take hn (by omega),
        by rw [hdata]; exact Wire.ofBe_pair_lt s₁ s₀, ?_⟩
      simp only [hdata, Wire.be_toNat_ofBe_pair, show Wire.be 2 (Wire.ofBe [s₁, s₀]) = [s₁, s₀] from Wire.be_ofBe [s₁, s₀]]
      simp only [List.append_assoc, List.take_append_drop]
      rfl
  · rintro ⟨ver, cmd, addr, rest, haddr, hlen, rfl⟩
    have hu16 (x : UInt16) : UInt16.ofNat (Wire.ofBe (Wire.be 2 x.toNat)) = x := by
      rw [Wire.ofBe_be_of_lt x.toNat_lt]; simp
    have hsize := Wire.ofBe_be_of_lt (n := 2) hlen
    simp only [Wire.be_two] at hu16 hsize ⊢
    simp only [List.append_assoc, List.cons_append, List.nil_append]
    rw [decode_packet_meta_header, address_len_append haddr, hsize, hu16, hu16]
    simp

/-- The decoder accepts the layout of a packet and nothing else, among it every
packet the client writes, and indexes no byte string out of range. -/
theorem decode_packet_meta_exact :
    (∀ buf, ∃ r, decode_packet_meta buf = some r) ∧
    (∀ buf m, decode_packet_meta buf = some (some m) ↔ IsPacket buf m) ∧
    ∀ (assoc_id : UInt16) (target : TargetAddr) (data : Bytes), data.length ≤ 65535 →
      decode_packet_meta (encode_packet assoc_id target data) =
        some (some { assoc_id := assoc_id, pkt_id := 0, frag_total := 1, frag_id := 0, data := data }) := by
  refine ⟨exists_decode_packet_meta, fun _ _ => decode_packet_meta_eq_some_iff, ?_⟩
  intro assoc_id target data hlen
  exact decode_packet_meta_eq_some_iff.2 (isPacket_encode_packet assoc_id target (Nat.lt_succ_of_le hlen))

theorem decode_packet_meta_exact_hello :
    let target : TargetAddr := .DomainPort "example.com" 53
    decode_packet_meta (encode_packet 9 target [1, 2, 3]) =
      some (some { assoc_id := 9, pkt_id := 0, frag_total := 1, frag_id := 0, data := [1, 2, 3] }) :=
  decode_packet_meta_exact.2.2 9 (.DomainPort "example.com" 53) [1, 2, 3] (by decide)

/-! ## The reassembler -/

def FRAG_REASSEMBLY_CAP : Nat := 256
def FRAG_REASSEMBLY_TTL_SECS : Nat := 10

structure FragPartial where
  frags : List (Option Bytes)
  received : Nat
  first_seen : Nat
deriving DecidableEq, Repr

/-- Stores fragment `i`; a fragment that is there already is overwritten. -/
def FragPartial.store (p : FragPartial) (i : Nat) (data : Bytes) : Option FragPartial := do
  let slot ← p.frags[i]?
  return { p with
    received := if slot.isNone then p.received + 1 else p.received
    frags := p.frags.set i (some data) }

structure FragReassembler where
  partials : Table (UInt16 × UInt16) FragPartial
  cap : Nat

namespace FragReassembler

def with_cap (cap : Nat) : FragReassembler := { partials := .empty, cap := max cap 1 }

def new : FragReassembler := with_cap FRAG_REASSEMBLY_CAP

/-- The order of `min_by_key(|(k, p)| (p.first_seen, **k))`. -/
def older (a b : (UInt16 × UInt16) × FragPartial) : Bool :=
  a.2.first_seen < b.2.first_seen || (a.2.first_seen == b.2.first_seen &&
    (a.1.1 < b.1.1 || (a.1.1 == b.1.1 && a.1.2 < b.1.2)))

def min_by_key : List ((UInt16 × UInt16) × FragPartial) → Option ((UInt16 × UInt16) × FragPartial)
  | [] => none
  | e :: es =>
    match min_by_key es with
    | none => some e
    | some v => if older v e then some v else some e

def evict_if_full (r : FragReassembler) : FragReassembler :=
  if r.partials.len < r.cap then r
  else
    match min_by_key r.partials.iter with
    | some (victim, _) => { r with partials := r.partials.remove victim }
    | none => r

/-- `pkt_id` used again with another number of fragments: the old ones are void. -/
def drop_stale (r : FragReassembler) (key : UInt16 × UInt16) (frag_total : Nat) : FragReassembler :=
  if (r.partials.get key).any fun p => p.frags.length != frag_total then
    { r with partials := r.partials.remove key }
  else r

/-- Evicts the oldest packet before a new one is entered. -/
def make_room (r : FragReassembler) (key : UInt16 × UInt16) : FragReassembler :=
  if r.partials.contains_key key then r else r.evict_if_full

/-- The partial packet that `entry(key).or_insert_with(..)` yields. -/
def entry (r : FragReassembler) (key : UInt16 × UInt16) (frag_total now : Nat) : FragPartial :=
  (r.partials.get key).getD { frags := List.replicate frag_total none, received := 0, first_seen := now }

def accept (r : FragReassembler) (m : PacketMeta) (now : Nat) : Option (Option Bytes × FragReassembler) :=
  if m.frag_total = 0 ∨ m.frag_total ≤ m.frag_id then some (none, r)
  else if m.frag_total = 1 then some (some m.data, r)
  else do
    let key := (m.assoc_id, m.pkt_id)
    let frag_total := m.frag_total.toNat
    let r := (r.drop_stale key frag_total).make_room key
    let p ← (r.entry key frag_total now).store m.frag_id.toNat m.data
    let r := { r with partials := r.partials.insert key p }
    if p.received < p.frags.length then return (none, r)
    else
      let done ← r.partials.get key
      return (some done.frags.reduceOption.flatten, { r with partials := r.partials.remove key })

def sweep (r : FragReassembler) (now ttl : Nat) : FragReassembler :=
  { r with partials := r.partials.retain fun _ p => decide (now - p.first_seen ≤ ttl) }

end FragReassembler

/-! ## Incomplete packets only -/

/-- `received` counts the fragments that are there, and one is missing. -/
structure FragPartial.Incomplete (p : FragPartial) : Prop where
  count : p.received = p.frags.countP Option.isSome
  missing : p.received < p.frags.length

namespace FragPartial

theorem incomplete_fresh {n : Nat} (hn : 0 < n) (now : Nat) :
    Incomplete { frags := List.replicate n none, received := 0, first_seen := now } :=
  ⟨by simp [List.countP_replicate], by simpa using hn⟩

/-- Storing a fragment keeps the count exact; nothing may be missing afterwards. -/
theorem exists_store {p : FragPartial} (h : p.Incomplete) {i : Nat} (hi : i < p.frags.length) (data : Bytes) :
    ∃ q, p.store i data = some q ∧ q.frags = p.frags.set i (some data) ∧ q.received = q.frags.countP Option.isSome := by
  refine ⟨_, by simp only [store, List.getElem?_eq_getElem hi, Option.bind_eq_bind, Option.bind_some]; rfl, rfl, ?_⟩
  have hcount := h.count
  rw [List.countP_set hi]
  cases hslot : p.frags[i] with
  | none => simp [hcount]
  | some d =>
    have : 0 < p.frags.countP Option.isSome := List.countP_pos_iff.2 ⟨_, List.getElem_mem hi, by simp [hslot]⟩
    simp [hcount]
    omega

theorem reduceOption_map_some {α : Type} (l : List α) : (l.map some).reduceOption = l := by
  induction l with
  | nil => rfl
  | cons a l ih => rw [List.map_cons, List.reduceOption_cons_of_some, ih]

theorem eq_map_reduceOption {α : Type} {l : List (Option α)} (h : ∀ x ∈ l, x.isSome = true) :
    l = l.reduceOption.map some := by
  induction l with
  | nil => rfl
  | cons x l ih =>
    obtain ⟨a, rfl⟩ := Option.isSome_iff_exists.1 (h x List.mem_cons_self)
    rw [List.reduceOption_cons_of_some, List.map_cons, ← ih fun y hy => h y (List.mem_cons_of_mem _ hy)]

/-- All fragments are there exactly when the slots are a list of parts. -/
theorem countP_isSome_lt_iff {α : Type} (l : List (Option α)) :
    l.countP Option.isSome < l.length ↔ ∀ parts : List α, l ≠ parts.map some := by
  constructor
  · rintro h parts rfl
    simp [List.countP_map] at h
  · intro h
    refine Nat.lt_of_le_of_ne List.countP_le_length fun heq => ?_
    exact h l.reduceOption (eq_map_reduceOption (List.countP_eq_length.1 heq))

end FragPartial

namespace FragReassembler

/-- The table holds incomplete packets only. -/
def Ok (r : FragReassembler) : Prop := ∀ key p, r.partials.get key = some p → p.Incomplete

/-- `m` brings the last fragment missing of a packet with the given payload. -/
inductive Completes (r : FragReassembler) (m : PacketMeta) : Bytes → Prop
  | single : m.frag_total = 1 → m.frag_id = 0 → Completes r m m.data
  | last {p : FragPartial} {parts : List Bytes} : 1 < m.frag_total → m.frag_id < m.frag_total →
      r.partials.get (m.assoc_id, m.pkt_id) = some p → p.frags.length = m.frag_total.toNat →
      p.frags.set m.frag_id.toNat (some m.data) = parts.map some → Completes r m parts.flatten

theorem new_ok : Ok new := fun key p h => by simp [new, with_cap] at h

theorem Ok.of_sub {r r' : FragReassembler} (h : Ok r)
    (hsub : ∀ key p, r'.partials.get key = some p → r.partials.get key = some p) : Ok r' :=
  fun key p hp => h key p (hsub key p hp)

theorem get_of_get_remove {r : FragReassembler} {key key' : UInt16 × UInt16} {p : FragPartial}
    (h : (r.partials.remove key).get key' = some p) : r.partials.get key' = some p := by
  rw [Table.get_remove] at h
  split at h
  · cases h
  · exact h

theorem Ok.remove {r : FragReassembler} (h : Ok r) (key : UInt16 × UInt16) :
    Ok { r with partials := r.partials.remove key } := h.of_sub fun _ _ hp => get_of_get_remove hp

theorem Ok.sweep {r : FragReassembler} (h : Ok r) (now ttl : Nat) : Ok (r.sweep now ttl) :=
  h.of_sub fun _ _ hp => (Table.get_retain.1 hp).1

theorem Ok.evict_if_full {r : FragReassembler} (h : Ok r) : Ok r.evict_if_full := by
  unfold FragReassembler.evict_if_full
  split
  · exact h
  · split
    · exact h.remove _
    · exact h

theorem Ok.drop_stale {r : FragReassembler} (h : Ok r) (key : UInt16 × UInt16) (n : Nat) : Ok (r.drop_stale key n) := by
  unfold FragReassembler.drop_stale
  split
  · exact h.remove _
  · exact h

theorem Ok.make_room {r : FragReassembler} (h : Ok r) (key : UInt16 × UInt16) : Ok (r.make_room key) := by
  unfold FragReassembler.make_room
  split
  · exact h
  · exact h.evict_if_full

theorem Ok.insert {r : FragReassembler} (h : Ok r) (key : UInt16 × UInt16) {p : FragPartial} (hp : p.Incomplete) :
    Ok { r with partials := r.partials.insert key p } := by
  intro key' p' hp'
  simp only [Table.get_insert] at hp'
  split at hp'
  · obtain rfl := Option.some.inj hp'
    exact hp
  · exact h key' p' hp'

theorem Ok.insert_remove {r : FragReassembler} (h : Ok r) (key : UInt16 × UInt16) (p : FragPartial) :
    Ok { r with partials := (r.partials.insert key p).remove key } := by
  refine h.of_sub fun key' p' hp' => ?_
  rw [Table.get_remove, Table.get_insert] at hp'
  split at hp'
  · cases hp'
  · exact hp'

/-! ## The packet a fragment belongs to -/

theorem get_drop_stale (r : FragReassembler) (key : UInt16 × UInt16) (n : Nat) :
    (r.drop_stale key n).partials.get key = (r.partials.get key).filter fun p => p.frags.length == n := by
  unfold drop_stale
  cases h : r.partials.get key with
  | none => simp [h]
  | some p => by_cases hn : p.frags.length = n <;> simp [h, hn, Option.filter]

theorem get_make_room (r : FragReassembler) (key : UInt16 × UInt16) :
    (r.make_room key).partials.get key = r.partials.get key := by
  unfold make_room
  split
  · rfl
  · rename_i hc
    have hnone : r.partials.get key = none := Table.contains_key_eq_false.1 (by simpa using hc)
    unfold evict_if_full
    split
    · rfl
    · split
      · rw [Table.get_remove, hnone, ite_self]
      · rfl

/-- A packet in progress with the same number of fragments, or a new one. -/
theorem entry_cases (r : FragReassembler) (key : UInt16 × UInt16) (n now : Nat) :
    let p := ((r.drop_stale key n).make_room key).entry key n now
    (r.partials.get key = some p ∧ p.frags.length = n) ∨
    ((∀ q, r.partials.get key = some q → q.frags.length ≠ n) ∧
      p = { frags := List.replicate n none, received := 0, first_seen := now }) := by
  simp only [entry, get_make_room, get_drop_stale]
  cases h : r.partials.get key with
  | none => simp
  | some q => by_cases hn : q.frags.length = n <;> simp [hn, Option.filter]

theorem length_entry (r : FragReassembler) (key : UInt16 × UInt16) (n now : Nat) :
    (((r.drop_stale key n).make_room key).entry key n now).frags.length = n := by
  rcases r.entry_cases key n now with ⟨-, hlen⟩ | ⟨-, hp⟩
  · exact hlen
  · rw [hp]; exact List.length_replicate

/-! ## Accepting a fragment -/

theorem set_replicate_ne_map {n i : Nat} (hn : 1 < n) (d : Bytes) (parts : List Bytes) :
    (List.replicate n none).set i (some d) ≠ parts.map some := by
  intro h
  obtain ⟨j, hj, hne⟩ : ∃ j, j < n ∧ i ≠ j := by
    by_cases hi : i = 0
    · exact ⟨1, hn, by omega⟩
    · exact ⟨0, by omega, hi⟩
  have hget := congrArg (·[j]?) h
  simp [hne, hj] at hget

theorem Ok.entry_incomplete {r : FragReassembler} (h : Ok r) (key : UInt16 × UInt16) {n : Nat} (hn : 0 < n) (now : Nat) :
    (r.entry key n now).Incomplete := by
  unfold entry
  cases hp : r.partials.get key with
  | none => exact FragPartial.incomplete_fresh hn now
  | some p => exact h key p hp

/-- The slots of the packet in progress, once `m` is stored, are all filled
exactly when `m` completes a packet. -/
theorem completes_iff {r : FragReassembler} {m : PacketMeta} (ht : 1 < m.frag_total) (hi : m.frag_id < m.frag_total)
    (now : Nat) (payload : Bytes) :
    let key := (m.assoc_id, m.pkt_id)
    let p := ((r.drop_stale key m.frag_total.toNat).make_room key).entry key m.frag_total.toNat now
    Completes r m payload ↔
      ∃ parts : List Bytes, p.frags.set m.frag_id.toNat (some m.data) = parts.map some ∧ payload = parts.flatten := by
  intro key p
  have ht' : 1 < m.frag_total.toNat := UInt8.lt_iff_toNat_lt.1 ht
  constructor
  · intro hc
    cases hc with
    | single h1 => simp [h1] at ht
    | last _ _ hget hlen hparts =>
      rcases r.entry_cases key m.frag_total.toNat now with ⟨hp, -⟩ | ⟨hnone, -⟩
      · obtain rfl := Option.some.inj (hp.symm.trans hget)
        exact ⟨_, hparts, rfl⟩
      · exact absurd hlen (hnone _ hget)
  · rintro ⟨parts, hparts, rfl⟩
    rcases r.entry_cases key m.frag_total.toNat now with ⟨hp, hlen⟩ | ⟨-, hp⟩
    · exact .last ht hi hp hlen hparts
    · rw [show p = _ from hp] at hparts
      exact absurd hparts (set_replicate_ne_map ht' _ _)

/-- A fragment of several is stored; the last one missing gives the packet. -/
theorem accept_fragment {r : FragReassembler} (h : Ok r) {m : PacketMeta} (ht : 1 < m.frag_total)
    (hi : m.frag_id < m.frag_total) (now : Nat) :
    ∃ out r', r.accept m now = some (out, r') ∧ Ok r' ∧ ∀ payload, out = some payload ↔ Completes r m payload := by
  have ht' : 1 < m.frag_total.toNat := UInt8.lt_iff_toNat_lt.1 ht
  have hi' : m.frag_id.toNat < m.frag_total.toNat := UInt8.lt_iff_toNat_lt.1 hi
  have hr := (h.drop_stale (m.assoc_id, m.pkt_id) m.frag_total.toNat).make_room (m.assoc_id, m.pkt_id)
  have hp := hr.entry_incomplete (m.assoc_id, m.pkt_id) (n := m.frag_total.toNat) (by omega) now
  have hlen := length_entry r (m.assoc_id, m.pkt_id) m.frag_total.toNat now
  obtain ⟨q, hq, hfrags, hcount⟩ := FragPartial.exists_store hp (hlen.symm ▸ hi') m.data
  rw [accept, if_neg (by grind), if_neg (by grind)]
  simp only [hq, Option.bind_eq_bind, Option.bind_some, Option.pure_def, Table.get_insert_self, completes_iff ht hi now,
    ← hfrags]
  split
  · rename_i hlt
    refine ⟨none, _, rfl, hr.insert _ ⟨hcount, hlt⟩, fun payload => ⟨by simp, ?_⟩⟩
    rintro ⟨parts, hparts, -⟩
    rw [hcount, FragPartial.countP_isSome_lt_iff] at hlt
    exact absurd hparts (hlt parts)
  · rename_i hge
    rw [hcount, FragPartial.countP_isSome_lt_iff] at hge
    push Not at hge
    obtain ⟨parts, hparts⟩ := hge
    refine ⟨_, _, rfl, (hr.insert_remove _ q), fun payload => ?_⟩
    rw [hparts, FragPartial.reduceOption_map_some, Option.some.injEq]
    constructor
    · rintro rfl
      exact ⟨parts, rfl, rfl⟩
    · rintro ⟨parts', h', rfl⟩
      rw [List.map_injective_iff.2 (Option.some_injective _) h']

/-- `accept` never panics, keeps the table in order, and returns a payload
exactly when the packet it is given completes one. -/
theorem accept_spec {r : FragReassembler} (h : Ok r) (m : PacketMeta) (now : Nat) :
    ∃ out r', r.accept m now = some (out, r') ∧ Ok r' ∧ ∀ payload, out = some payload ↔ Completes r m payload := by
  by_cases hbad : m.frag_total = 0 ∨ m.frag_total ≤ m.frag_id
  · refine ⟨none, r, by rw [accept, if_pos hbad], h, fun payload => ⟨by simp, fun hc => ?_⟩⟩
    cases hc with
    | single ht hi => simp [ht, hi] at hbad
    | last ht hi => grind
  by_cases hone : m.frag_total = 1
  · refine ⟨some m.data, r, by rw [accept, if_neg hbad, if_pos hone], h, fun payload => ⟨?_, fun hc => ?_⟩⟩
    · rintro ⟨⟩
      exact .single hone (by rw [hone] at hbad; grind)
    · cases hc with
      | single => rfl
      | last ht => simp [hone] at ht
  · exact accept_fragment h (by grind) (by grind) now

end FragReassembler

end MiniVpn
