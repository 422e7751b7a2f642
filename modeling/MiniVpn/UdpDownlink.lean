import MiniVpn.Effects
import MiniVpn.Packets
/-!
# The UDP downlink branch

`Sys` knows of a downlink packet only that it touches an association. Here the
branch is modelled from the bytes on: decode, reassemble, look the association
up, build the IP packet for the app and inject it. The builder belongs to
`etherparse`; the branch unwraps its result, so `downlink_completes_iff` says
which packets of a server stop the loop.
-/
open Lib

namespace MiniVpn

/-- `PacketBuilder::ipv4(src, dst, 64).udp(sport, dport).write` of `etherparse`
into a `Vec`. The IPv4 length field has 16 bits. -/
structure UdpWriter where
  write : Ipv4Addr × UInt16 → Ipv4Addr × UInt16 → Bytes → Option Bytes
  fails_iff : ∀ src dst payload, write src dst payload = none ↔ 65535 < 20 + 8 + payload.length

namespace FlowEntry

def target_src (e : FlowEntry) : Ipv4Addr × UInt16 := (e.tuple.dst_ip, e.tuple.dst_port)

def app_endpoint (e : FlowEntry) : Ipv4Addr × UInt16 := (e.tuple.src_ip, e.tuple.src_port)

end FlowEntry

/-- `none` is the `expect` on the result of the builder. -/
def build_udp_ip_packet (w : UdpWriter) (src dst : Ipv4Addr × UInt16) (payload : Bytes) : Option Bytes :=
  w.write src dst payload

def MAX_TUIC_PACKET_BYTES : Nat := 66 * 1024

/-- The loop with its reassembler. -/
structure MainLoop where
  sys : Sys
  reassembler : FragReassembler

namespace MainLoop

def new (pool_size : Nat) : MainLoop := { sys := .new pool_size, reassembler := .new }

/-- The branch, with the packet it injects. The clock is read twice: for the
reassembler and for `touch`. -/
def on_downlink (w : UdpWriter) (s : MainLoop) (dg : Bytes) (now touched : Nat) : Option (Option Bytes × MainLoop) := do
  match ← decode_packet_meta dg with
  | none => return (none, s)
  | some m =>
    let (payload, reassembler) ← s.reassembler.accept m now
    let s := { s with reassembler := reassembler }
    match payload with
    | none => return (none, s)
    | some payload =>
      match s.sys.assoc_table.resolve m.assoc_id with
      | none => return (none, s)
      | some e =>
        let pkt ← build_udp_ip_packet w e.target_src e.app_endpoint payload
        return (some pkt, { s with sys := { s.sys with assoc_table := s.sys.assoc_table.touch m.assoc_id touched } })

inductive Event where
  | sys (e : Sys.Event)
  | downlink (dg : Bytes) (now touched : Nat)

/-- A downlink packet is received where the loop selects, and the `udp_sweep`
branch also drops old fragments; every other event is one of `Sys`. -/
def step (w : UdpWriter) (s : MainLoop) : Event → Option MainLoop
  | .sys (.downlink ..) => none
  | .sys (.udp_sweep now) => do
    let sys ← s.sys.step (.udp_sweep now)
    return { sys := sys, reassembler := s.reassembler.sweep now FRAG_REASSEMBLY_TTL_SECS }
  | .sys e => do
    let sys ← s.sys.step e
    return { s with sys := sys }
  | .downlink dg now touched =>
    match s.sys.todo with
    | [] => (s.on_downlink w dg now touched).map (·.2)
    | _ :: _ => none

def Reachable (w : UdpWriter) (pool_size : Nat) : MainLoop → Prop := Reach (new pool_size) (step w) fun _ _ => True

/-! ## One branch -/

variable {w : UdpWriter}

/-- The payload that `dg` completes for a live association. -/
def Delivers (s : MainLoop) (dg : Bytes) (payload : Bytes) : Prop :=
  ∃ m, IsPacket dg m ∧ s.reassembler.Completes m payload ∧ ∃ e, s.sys.assoc_table.id_to_entry.get m.assoc_id = some e

/-- Everything before the builder succeeds and keeps the reassembler in order. A
packet that completes nothing, or nothing for a live association, ends there. -/
theorem on_downlink_cases {s : MainLoop} (h : s.reassembler.Ok) (w : UdpWriter) (dg : Bytes) (now touched : Nat) :
    ((∀ payload, ¬ s.Delivers dg payload) ∧
      ∃ r : FragReassembler, r.Ok ∧ s.on_downlink w dg now touched = some (none, { s with reassembler := r })) ∨
    (∃ (id : UInt16) (payload : Bytes) (e : FlowEntry) (r : FragReassembler),
      (∀ payload', s.Delivers dg payload' ↔ payload = payload') ∧ r.Ok ∧
      s.on_downlink w dg now touched = (build_udp_ip_packet w e.target_src e.app_endpoint payload).map fun pkt =>
        (some pkt, { sys := { s.sys with assoc_table := s.sys.assoc_table.touch id touched }, reassembler := r })) := by
  obtain ⟨r, hr⟩ := exists_decode_packet_meta dg
  unfold on_downlink
  rw [hr]
  cases r with
  | none =>
    refine .inl ⟨?_, s.reassembler, h, rfl⟩
    rintro payload ⟨m, hm, -⟩
    rw [decode_packet_meta_eq_some_iff.2 hm] at hr
    simp at hr
  | some m =>
    obtain ⟨out, r', haccept, hr', hout⟩ := FragReassembler.accept_spec h m now
    have hdelivers (payload : Bytes) : s.Delivers dg payload ↔
        out = some payload ∧ ∃ e, s.sys.assoc_table.id_to_entry.get m.assoc_id = some e := by
      rw [hout]
      constructor
      · rintro ⟨m', hm', hc⟩
        rw [decode_packet_meta_eq_some_iff.2 hm'] at hr
        obtain rfl : m' = m := by simpa using hr
        exact hc
      · exact fun hc => ⟨m, decode_packet_meta_eq_some_iff.1 hr, hc⟩
    simp only [haccept, Option.bind_eq_bind, Option.bind_some, Option.pure_def]
    cases out with
    | none => exact .inl ⟨fun payload hd => by simp [hdelivers] at hd, r', hr', rfl⟩
    | some payload =>
      cases hres : s.sys.assoc_table.id_to_entry.get m.assoc_id with
      | none =>
        simp only [AssocTable.resolve, hres]
        exact .inl ⟨fun payload' hd => by simp [hdelivers, hres] at hd, r', hr', rfl⟩
      | some e =>
        simp only [AssocTable.resolve, hres]
        refine .inr ⟨m.assoc_id, payload, e, r', fun payload' => by simp [hdelivers, hres], hr', ?_⟩
        cases build_udp_ip_packet w e.target_src e.app_endpoint payload <;> rfl

/-! ## Whole runs -/

/-- A step moves `Sys` by one of its events, or not at all. -/
theorem step_sys {s s' : MainLoop} {e : Event} (h : s.step w e = some s') (hr : s.reassembler.Ok) :
    (s'.sys = s.sys ∨ ∃ e', s.sys.step e' = some s'.sys) ∧ s'.reassembler.Ok := by
  unfold step at h
  split at h
  · cases h
  · rename_i now
    obtain ⟨sys, hsys, hs'⟩ := Option.bind_eq_some_iff.1 h
    obtain rfl := Option.some.inj hs'
    exact ⟨.inr ⟨_, hsys⟩, hr.sweep _ _⟩
  · rename_i e _ _
    obtain ⟨sys, hsys, hs'⟩ := Option.bind_eq_some_iff.1 h
    obtain rfl := Option.some.inj hs'
    exact ⟨.inr ⟨_, hsys⟩, hr⟩
  · rename_i dg now touched
    split at h
    · rename_i htodo
      obtain ⟨out, hout, rfl⟩ := Option.map_eq_some_iff.1 h
      rcases on_downlink_cases hr w dg now touched with ⟨-, r, hok, heq⟩ | ⟨id, payload, e, r, -, hok, heq⟩
      · obtain rfl := Option.some.inj (heq.symm.trans hout)
        exact ⟨.inl rfl, hok⟩
      · obtain ⟨pkt, -, rfl⟩ := Option.map_eq_some_iff.1 (heq.symm.trans hout)
        refine ⟨.inr ⟨.downlink id touched, ?_⟩, hok⟩
        simp [Sys.step, htodo, Sys.on_select]
    · cases h

/-- The loop of `Sys` is what this one shows when the bytes are left out. -/
theorem Reachable.sys {pool_size : Nat} {s : MainLoop} (h : Reachable w pool_size s) :
    Sys.Reachable pool_size s.sys ∧ s.reassembler.Ok := by
  have h0 : Sys.Reachable pool_size (new pool_size).sys := Reach.init
  refine Reach.inv (fun s => Sys.Reachable pool_size s.sys ∧ s.reassembler.Ok) ⟨h0, FragReassembler.new_ok⟩ ?_ h
  rintro s e s' - ⟨hs, hr⟩ - he
  obtain ⟨hsys, hr'⟩ := step_sys he hr
  refine ⟨?_, hr'⟩
  rcases hsys with hsys | ⟨e', hsys⟩
  · rw [hsys]; exact hs
  · exact Reach.step hs trivial hsys

/-- The downlink branch completes on every byte string except one that completes
a packet of more than 65507 bytes for a live association. -/
theorem downlink_completes_iff {pool_size : Nat} {s : MainLoop} (h : Reachable w pool_size s) (dg : Bytes)
    (now touched : Nat) :
    (∃ r, s.on_downlink w dg now touched = some r) ↔ ∀ payload, s.Delivers dg payload → payload.length ≤ 65507 := by
  rcases on_downlink_cases h.sys.2 w dg now touched with ⟨hnone, r, -, heq⟩ | ⟨id, payload, e, r, hpay, -, heq⟩
  · exact ⟨fun _ payload hd => absurd hd (hnone payload), fun _ => ⟨_, heq⟩⟩
  · have hfails := w.fails_iff e.target_src e.app_endpoint payload
    simp only [heq, hpay, forall_eq', build_udp_ip_packet]
    cases hw : w.write e.target_src e.app_endpoint payload with
    | none =>
      have := hfails.1 hw
      simp
      omega
    | some pkt =>
      have : ¬ 65535 < 20 + 8 + payload.length := fun hlt => by simp [hfails.2 hlt] at hw
      simp
      omega

/-! ## A server's packet -/

/-- The 16-bit words of a byte string, padded with a zero byte. -/
def words : Bytes → List Nat
  | [] => []
  | [a] => [Wire.ofBe [a, 0]]
  | a :: b :: rest => Wire.ofBe [a, b] :: words rest

/-- The Internet checksum: the complement of the sum with end-around carry. -/
def checksum (bs : Bytes) : Nat :=
  let sum := (words bs).sum
  65535 - if sum = 0 then 0 else (sum - 1) % 65535 + 1

/-- The packet `etherparse` writes: an IPv4 header without options, time to live 64
and the don't-fragment bit, a UDP header, the payload. -/
def ipv4_udp (src dst : Ipv4Addr × UInt16) (payload : Bytes) : Bytes :=
  let header (check : Nat) := [0x45, 0] ++ Wire.be 2 (20 + 8 + payload.length) ++ [0, 0, 0x40, 0, 64, 17] ++
    Wire.be 2 check ++ Wire.be 4 src.1.toNat ++ Wire.be 4 dst.1.toNat
  let udp (check : Nat) := Wire.be 2 src.2.toNat ++ Wire.be 2 dst.2.toNat ++ Wire.be 2 (8 + payload.length) ++
    Wire.be 2 check ++ payload
  let pseudo := Wire.be 4 src.1.toNat ++ Wire.be 4 dst.1.toNat ++ [0, 17] ++ Wire.be 2 (8 + payload.length)
  let check := checksum (pseudo ++ udp 0)
  -- A UDP checksum of zero would mean that there is none.
  header (checksum (header 0)) ++ udp (if check = 0 then 65535 else check)

def etherparse : UdpWriter where
  write src dst payload := if 65535 < 20 + 8 + payload.length then none else some (ipv4_udp src dst payload)
  fails_iff src dst payload := by simp

/-- The app at 10.0.0.5 sends a datagram to port 4000 of 93.184.216.34, which
becomes association 1. -/
def udp_uplink : Event :=
  .sys (.rx (.udp ⟨ipv4 10 0 0 5, 5000, ipv4 93 184 216 34, 4000, [1]⟩) none none [] [] 0)

/-- The server's answer, with its source address. -/
def answer (data : Bytes) : Bytes := encode_packet 1 (.IpPort (.v4 (ipv4 93 184 216 34) 4000)) data

theorem length_answer (data : Bytes) : (answer data).length = 17 + data.length := by
  simp [answer, encode_packet, encode_address]
  omega

theorem exists_live_association : ∃ s, Reachable etherparse 2 s ∧ s.sys.todo = [] ∧
    ∃ e, s.sys.assoc_table.id_to_entry.get 1 = some e := by
  have hrun : (runEvents (step etherparse) (new 2) [udp_uplink]).any (fun s =>
      decide (s.sys.todo = []) && (s.sys.assoc_table.id_to_entry.get 1).isSome) = true := by decide +kernel
  obtain ⟨s, hs, hp⟩ := exists_reach_of_any hrun
  simp only [Bool.and_eq_true, decide_eq_true_eq, Option.isSome_iff_exists] at hp
  exact ⟨s, hs, hp⟩

theorem delivers_answer {s : MainLoop} {e : FlowEntry} (he : s.sys.assoc_table.id_to_entry.get 1 = some e) {data : Bytes}
    (hlen : data.length < 65536) : s.Delivers (answer data) data :=
  ⟨_, isPacket_encode_packet 1 _ hlen, .single rfl rfl, e, he⟩

/-- The answer that fills an IPv4 packet is delivered. -/
theorem downlink_completes_largest : ∃ s, Reachable etherparse 2 s ∧
    s.Delivers (answer (List.replicate 65507 0)) (List.replicate 65507 0) ∧
    ((∃ r, s.on_downlink etherparse (answer (List.replicate 65507 0)) 0 0 = some r) ↔
      ∀ payload, s.Delivers (answer (List.replicate 65507 0)) payload → payload.length ≤ 65507) := by
  obtain ⟨s, hs, -, e, he⟩ := exists_live_association
  exact ⟨s, hs, delivers_answer he (by rw [List.length_replicate]; omega), downlink_completes_iff hs _ 0 0⟩

/-- One byte more stops the loop, in a packet the reader of streams lets through. -/
theorem oversized_answer_panics : ∃ s dg, Reachable etherparse 2 s ∧ s.sys.todo = [] ∧
    dg.length ≤ MAX_TUIC_PACKET_BYTES ∧ s.Delivers dg (List.replicate 65508 0) ∧
    s.on_downlink etherparse dg 0 0 = none := by
  obtain ⟨s, hs, htodo, e, he⟩ := exists_live_association
  have hd : s.Delivers (answer (List.replicate 65508 0)) (List.replicate 65508 0) :=
    delivers_answer he (by rw [List.length_replicate]; omega)
  refine ⟨s, _, hs, htodo, ?_, hd, ?_⟩
  · rw [length_answer, List.length_replicate]; decide
  · rcases on_downlink_cases hs.sys.2 etherparse (answer (List.replicate 65508 0)) 0 0 with
      ⟨hnone, -⟩ | ⟨_, p, _, _, hp, -, heq⟩
    · exact absurd hd (hnone _)
    · obtain rfl := (hp _).1 hd
      rw [heq, build_udp_ip_packet, (etherparse.fails_iff _ _ _).2 (by rw [List.length_replicate]; omega)]
      rfl

end MainLoop

end MiniVpn
