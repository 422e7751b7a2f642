import MiniVpn.Dns
import MiniVpn.DnsPolicy
import MiniVpn.PoolTheorems
import MiniVpn.UdpDownlink
/-!
# Forged DNS answers

`forge_dns_reply` of `client_tun.rs` answers a plain DNS query from the fake-IP
pool. The address it hands out is the one a later connection is looked up by, so
the answer and `resolve_target` have to agree.
-/
open Lib

namespace MiniVpn

/-- The log lines are left out; `none` is the `expect` on the result of the
builder, or an index of `parse_query` out of range. -/
def forge_dns_reply (w : UdpWriter) (udp : UdpInbound) (fake_pool : FakeIpPool) (now_secs : Nat) :
    Option (Option Bytes × FakeIpPool) := do
  match ← Dns.parse_query udp.payload with
  | none => return (none, fake_pool)
  | some q =>
    let (resp, fake_pool) :=
      if q.qtype = QTYPE_A then
        let (ip, fake_pool) := fake_pool.alloc q.qname now_secs
        (Dns.build_response q (.A ip 5), fake_pool)
      else (Dns.build_response q .NoData, fake_pool)
    let reply ← build_udp_ip_packet w (udp.dst_ip, 53) (udp.src_ip, udp.src_port) resp
    return (some reply, fake_pool)

/-- `parse_inbound_udp`, which is `PacketHeaders::from_ip_slice` of `etherparse`:
it reads back what the builder of the same crate writes. -/
structure UdpReader (w : UdpWriter) where
  parse_inbound_udp : Bytes → Option UdpInbound
  parse_write : ∀ src dst payload pkt, w.write src dst payload = some pkt → parse_inbound_udp pkt =
    some { src_ip := src.1, src_port := src.2, dst_ip := dst.1, dst_port := dst.2, payload := payload }

namespace FakeIpPool

/-- With an address to spare, no registered domain's address changes. -/
theorem alloc_keeps {p : FakeIpPool} (hi : Inv p) {d d' : String} {ip : Ipv4Addr} (now : Nat)
    (hroom : p.ip_to_mapping.len < ringSize) (h : p.domain_to_ip.get d' = some ip) :
    (p.alloc d now).2.domain_to_ip.get d' = some ip := by
  rcases alloc_cases hi d now with ⟨_, m, -, -, he⟩ | ⟨hnew, i, p', -, -, he, -, -, hdom, -⟩ | ⟨-, hfull, -⟩
  · rw [he]
    exact h
  · rw [he, hdom, Table.get_insert, if_neg, h]
    rintro rfl
    simp [hnew] at h
  · exact absurd hfull.size (by omega)

/-- The address of a new answer is a fake one, and leads back to the name. -/
theorem alloc_mapping {p : FakeIpPool} (hi : Inv p) (d : String) (now : Nat) :
    ∃ m, (p.alloc d now).2.ip_to_mapping.get (p.alloc d now).1 = some m ∧ m.domain = d :=
  Option.map_eq_some_iff.1 (alloc_resolve hi d now)

end FakeIpPool

open FakeIpPool

/-- The ports on which a connection to `name` is cut off. -/
def Cut (name : String) (port : UInt16) : Prop := port = 53 ∨ port = 853 ∨ (port = 443 ∧ is_doh_domain name = true)

instance (name : String) (port : UInt16) : Decidable (Cut name port) := by unfold Cut; infer_instance

theorem resolve_target_mapping {p : FakeIpPool} (hi : Inv p) {ip : Ipv4Addr} {m : Mapping}
    (hm : p.ip_to_mapping.get ip = some m) (port : UInt16) : resolve_target { addr := ip, port := port } p =
      if Cut m.domain port then .Block else .Direct (.DomainPort m.domain port) (some ip) := by
  have hres : p.resolve ip = some m.domain := by simp [resolve, hm]
  by_cases hport : is_dns_relay_port port = true
  · rw [resolve_target, if_pos hport, if_pos]
    simp only [is_dns_relay_port, is_encrypted_dns_port, Bool.or_eq_true, beq_iff_eq] at hport
    exact hport.imp_right .inl
  · simp only [resolve_target, if_neg hport, is_fake_of_mapping hi hm, if_true, hres]
    simp only [is_dns_relay_port, is_encrypted_dns_port, Bool.or_eq_true, beq_iff_eq, not_or] at hport
    simp [Cut, hport]

/-! ## The reply -/

/-- The datagram that the resolver `udp` was sent to would answer with. -/
def UdpInbound.answer (udp : UdpInbound) (payload : Bytes) : UdpInbound :=
  { src_ip := udp.dst_ip, src_port := 53, dst_ip := udp.src_ip, dst_port := udp.src_port, payload := payload }

/-- In the packet `reply` the client of `udp` reads `answer`, given for `name`. -/
def Carries {w : UdpWriter} (r : UdpReader w) (udp : UdpInbound) (reply : Bytes) (name : String) (answer : Dns.Answer) :
    Prop :=
  ∃ resp labels, r.parse_inbound_udp reply = some (udp.answer resp) ∧ name = ".".intercalate labels ∧
    Dns.answers resp = some (answer.records labels)

/-- What `forge_dns_reply` answers `q` with. -/
def forged (q : Dns.Query) (p : FakeIpPool) (now : Nat) : Dns.Answer :=
  if q.qtype = QTYPE_A then .A (p.alloc q.qname now).1 5 else .NoData

theorem length_build_response_le (q : Dns.Query) (answer : Dns.Answer) :
    (Dns.build_response q answer).length ≤ 12 + q.question.length + 16 := by
  rw [Dns.build_response_eq]
  cases answer <;> simp [Dns.Answer.field, Dns.Answer.records, Dns.recordField] <;> omega

/-- A query that is not too long is always answered; the pool changes as the
loop's model of this step says. -/
theorem forge_dns_reply_query {w : UdpWriter} (r : UdpReader w) {udp : UdpInbound} {q : Dns.Query}
    (hq : Dns.parse_query udp.payload = some (some q)) (hlen : udp.payload.length ≤ 9000) (p : FakeIpPool) (now : Nat) :
    ∃ reply, forge_dns_reply w udp p now = some (some reply, Sys.handle_dns_hijack p (some q.toDnsQuery) now) ∧
      Carries r udp reply q.qname (forged q p now) := by
  obtain ⟨_, hr, hiff⟩ := Dns.parse_query_spec udp.payload
  obtain ⟨labels, flags, qclass, counts, tail, hquestion, -, hcounts, hdata⟩ :=
    (hiff q).1 (Option.some.inj (hr.symm.trans hq))
  have hfits : 20 + 8 + (Dns.build_response q (forged q p now)).length ≤ 65535 := by
    have hresp := length_build_response_le q (forged q p now)
    have hpayload := congrArg List.length hdata
    simp only [List.length_append, Wire.length_be] at hpayload
    omega
  obtain ⟨reply, hwrite⟩ := Option.ne_none_iff_exists'.1 fun hnone =>
    absurd ((w.fails_iff (udp.dst_ip, 53) (udp.src_ip, udp.src_port) _).1 hnone) (Nat.not_lt.2 hfits)
  refine ⟨reply, ?_, _, labels, r.parse_write _ _ _ _ hwrite, hquestion.qname, Dns.answers_build_response hquestion _⟩
  by_cases ha : q.qtype = QTYPE_A
  · rw [forged, if_pos ha] at hwrite
    simp [forge_dns_reply, hq, ha, build_udp_ip_packet, hwrite, Sys.handle_dns_hijack]
  · rw [forged, if_neg ha] at hwrite
    simp [forge_dns_reply, hq, ha, build_udp_ip_packet, hwrite, Sys.handle_dns_hijack]

theorem forge_dns_reply_none {w : UdpWriter} {udp : UdpInbound} (h : Dns.parse_query udp.payload = some none)
    (p : FakeIpPool) (now : Nat) : forge_dns_reply w udp p now = some (none, p) := by
  simp [forge_dns_reply, h]

/-! ## The answer and the connection -/

/-- What an A query for `name` leaves behind: a fake address for it, which later
connections are looked up by and later queries are answered with. -/
structure Answered {w : UdpWriter} (r : UdpReader w) (name : String) (ip : Ipv4Addr) (p p' : FakeIpPool) : Prop where
  fake : p'.is_fake ip = true
  direct : ∀ port, ¬ Cut name port →
    resolve_target { addr := ip, port := port } p' = .Direct (.DomainPort name port) (some ip)
  blocked : ∀ port, Cut name port → resolve_target { addr := ip, port := port } p' = .Block
  again : ∀ udp q now, udp.payload.length ≤ 9000 → Dns.parse_query udp.payload = some (some q) → q.qtype = QTYPE_A →
    q.qname = name → ∃ reply p'', forge_dns_reply w udp p' now = some (some reply, p'') ∧ Carries r udp reply name (.A ip 5)
  others : p.ip_to_mapping.len < 131070 → ∀ d ip', p.domain_to_ip.get d = some ip' → p'.domain_to_ip.get d = some ip'

theorem alloc_answered {w : UdpWriter} (r : UdpReader w) {p : FakeIpPool} (hi : Inv p) (name : String) (now : Nat) :
    Answered r name (p.alloc name now).1 p (p.alloc name now).2 := by
  have hi' := alloc_inv hi name now
  obtain ⟨m, hm, hname⟩ := alloc_mapping hi name now
  have htarget := resolve_target_mapping hi' hm
  rw [hname] at htarget
  exact {
    fake := is_fake_of_mapping hi' hm
    direct := fun port hport => by rw [htarget, if_neg hport]
    blocked := fun port hport => by rw [htarget, if_pos hport]
    again := fun udp q now' hlen hq ha heq => by
      obtain ⟨reply, hforge, hcarries⟩ := forge_dns_reply_query r hq hlen (p.alloc name now).2 now'
      refine ⟨reply, _, hforge, ?_⟩
      have hsame := (alloc_registered hi' now' ((hi'.inverse _ _).2 ⟨m, hm, hname⟩)).1
      rwa [forged, if_pos ha, heq, hsame] at hcarries
    others := fun hroom d ip' hd => alloc_keeps hi now hroom hd }

/-- A parsed A query is answered with a fake address that connections to it agree
with; any other query leaves the pool as it is, and what is no query gets no
reply. -/
theorem forged_answer_agrees {w : UdpWriter} (r : UdpReader w) {p : FakeIpPool} (h : p.Reachable) (udp : UdpInbound)
    (hlen : udp.payload.length ≤ 9000) (now : Nat) :
    (∃ result, Dns.parse_query udp.payload = some result) ∧
    (∀ q, Dns.parse_query udp.payload = some (some q) → q.qtype = QTYPE_A → ∃ reply ip p',
      forge_dns_reply w udp p now = some (some reply, p') ∧ Carries r udp reply q.qname (.A ip 5) ∧
      Answered r q.qname ip p p') ∧
    (∀ q, Dns.parse_query udp.payload = some (some q) → q.qtype ≠ QTYPE_A → ∃ reply,
      forge_dns_reply w udp p now = some (some reply, p) ∧ Carries r udp reply q.qname .NoData) ∧
    (Dns.parse_query udp.payload = some none → forge_dns_reply w udp p now = some (none, p)) := by
  refine ⟨(Dns.parse_query_spec udp.payload).imp fun _ hr => hr.1, ?_, ?_, fun hnone => forge_dns_reply_none hnone p now⟩
  · intro q hq ha
    obtain ⟨reply, hforge, hcarries⟩ := forge_dns_reply_query r hq hlen p now
    simp only [Sys.handle_dns_hijack, if_pos ha] at hforge
    rw [forged, if_pos ha] at hcarries
    exact ⟨reply, _, _, hforge, hcarries, alloc_answered r (reachable_inv h) q.qname now⟩
  · intro q hq ha
    obtain ⟨reply, hforge, hcarries⟩ := forge_dns_reply_query r hq hlen p now
    simp only [Sys.handle_dns_hijack, if_neg ha] at hforge
    rw [forged, if_neg ha] at hcarries
    exact ⟨reply, hforge, hcarries⟩

/-! ## One query -/

/-- Reads an IPv4 header without options and a UDP header. -/
def parse_ipv4_udp (pkt : Bytes) : Option UdpInbound := do
  let version_ihl ← pkt[0]?
  let protocol ← pkt[9]?
  if version_ihl ≠ 0x45 ∨ protocol ≠ 17 then none
  else
    let src_ip ← Wire.slice pkt 12 16
    let dst_ip ← Wire.slice pkt 16 20
    let src_port ← u16_at pkt 20
    let dst_port ← u16_at pkt 22
    return {
      src_ip := UInt32.ofNat (Wire.ofBe src_ip)
      src_port := UInt16.ofNat src_port
      dst_ip := UInt32.ofNat (Wire.ofBe dst_ip)
      dst_port := UInt16.ofNat dst_port
      payload := pkt.drop 28 }

/-- The fields of a written packet; lengths and checksums do not matter here. -/
theorem drop_ipv4_udp (src dst : Ipv4Addr × UInt16) (payload : Bytes) : ∃ len check,
    (MainLoop.ipv4_udp src dst payload).drop 12 = Wire.be 4 src.1.toNat ++ (Wire.be 4 dst.1.toNat ++
      (Wire.be 2 src.2.toNat ++ (Wire.be 2 dst.2.toNat ++ (Wire.be 2 len ++ (Wire.be 2 check ++ payload))))) := by
  obtain ⟨total, check, len, udp_check, heq⟩ : ∃ total check len udp_check, MainLoop.ipv4_udp src dst payload =
      ([0x45, 0] ++ (Wire.be 2 total ++ ([0, 0, 0x40, 0, 64, 17] ++ Wire.be 2 check))) ++ (Wire.be 4 src.1.toNat ++
        (Wire.be 4 dst.1.toNat ++ (Wire.be 2 src.2.toNat ++ (Wire.be 2 dst.2.toNat ++ (Wire.be 2 len ++
          (Wire.be 2 udp_check ++ payload)))))) := by
    simp only [MainLoop.ipv4_udp, List.append_assoc]
    exact ⟨_, _, _, _, rfl⟩
  refine ⟨len, udp_check, ?_⟩
  rw [heq, List.drop_left']
  simp

theorem parse_ipv4_udp_write (src dst : Ipv4Addr × UInt16) (payload : Bytes) :
    parse_ipv4_udp (MainLoop.ipv4_udp src dst payload) =
      some { src_ip := src.1, src_port := src.2, dst_ip := dst.1, dst_port := dst.2, payload := payload } := by
  obtain ⟨len, check, h12⟩ := drop_ipv4_udp src dst payload
  have h0 : (MainLoop.ipv4_udp src dst payload)[0]? = some 0x45 := rfl
  have h9 : (MainLoop.ipv4_udp src dst payload)[9]? = some 17 := rfl
  have h16 := Dns.drop_append_of_drop h12 (Wire.length_be ..)
  have h20 := Dns.drop_append_of_drop h16 (Wire.length_be ..)
  have h22 := Dns.drop_append_of_drop h20 (Wire.length_be ..)
  have h24 := Dns.drop_append_of_drop h22 (Wire.length_be ..)
  have h26 := Dns.drop_append_of_drop h24 (Wire.length_be ..)
  have h28 := Dns.drop_append_of_drop h26 (Wire.length_be ..)
  have hlen := Dns.le_length_of_drop h12 (Wire.length_be ..)
  have hsrc := Wire.slice_of_drop h12 (by omega)
  have hdst := Wire.slice_of_drop h16 hlen
  rw [Wire.length_be] at hsrc hdst
  simp only [parse_ipv4_udp, h0, h9, hsrc, hdst, Dns.u16_at_eq_some_iff.2 ⟨src.2.toNat_lt, _, h20⟩,
    Dns.u16_at_eq_some_iff.2 ⟨dst.2.toNat_lt, _, h22⟩, Option.bind_eq_bind, Option.bind_some,
    Wire.ofBe_be_of_lt (n := 4) src.1.toNat_lt, Wire.ofBe_be_of_lt (n := 4) dst.1.toNat_lt, h28, UInt16.ofNat_toNat,
    UInt32.ofNat_toNat]
  rfl

def etherparse_reader : UdpReader MainLoop.etherparse where
  parse_inbound_udp := parse_ipv4_udp
  parse_write src dst payload pkt h := by
    simp only [MainLoop.etherparse, Option.ite_none_left_eq_some] at h
    obtain rfl := Option.some.inj h.2
    exact parse_ipv4_udp_write src dst payload

/-- An app asks 8.8.8.8 for `test.com`. -/
def sample_query : UdpInbound where
  src_ip := ipv4 10 0 0 2
  src_port := 50000
  dst_ip := ipv4 8 8 8 8
  dst_port := 53
  payload := Wire.be 12 0x123401000001000000000000 ++ Wire.be 10 0x047465737403636f6d00 ++ Wire.be 4 0x00010001

def sample_parsed : Dns.Query where
  id := 0x1234
  qname := "test.com"
  qtype := QTYPE_A
  rd := true
  question := sample_query.payload.drop 12

theorem forged_answer_agrees_first : Dns.parse_query sample_query.payload = some (some sample_parsed) ∧
    ∃ reply ip p', forge_dns_reply MainLoop.etherparse sample_query .new 0 = some (some reply, p') ∧
      Carries etherparse_reader sample_query reply "test.com" (.A ip 5) ∧
      Answered etherparse_reader "test.com" ip .new p' := by
  have hparse : Dns.parse_query sample_query.payload = some (some sample_parsed) := by decide +kernel
  exact ⟨hparse, (forged_answer_agrees etherparse_reader .init sample_query (by decide) 0).2.1 _ hparse rfl⟩

end MiniVpn
