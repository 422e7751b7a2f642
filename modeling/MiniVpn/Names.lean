import MiniVpn.Addresses
import MiniVpn.Dns
import MiniVpn.Upcalls
/-!
# From the name that was asked for to the name on the wire

A name comes in with a DNS query, waits in the fake-IP pool, and goes out in the
target of a flow. On the way it is not changed; the encoders cut it off behind
255 bytes. A parsed name can be longer: each of its labels is limited, but not
their number.
-/
open Lib

namespace MiniVpn

namespace FakeIpPool

/-- Every name in the pool has the property. -/
def Names (p : FakeIpPool) (known : String → Prop) : Prop :=
  ∀ ip m, p.ip_to_mapping.get ip = some m → known m.domain

variable {p : FakeIpPool} {known : String → Prop}

theorem Names.alloc (h : p.Names known) (hi : Inv p) {d : String} (hd : known d) (now : Nat) :
    (p.alloc d now).2.Names known := by
  intro ip m hm
  rcases alloc_cases hi d now with ⟨ip', m', hm', hd', he⟩ | ⟨-, i, p', -, -, he, -, hmap, -⟩ |
    ⟨-, -, m', p', -, he, -, hmap, -⟩ <;> rw [he] at hm
  · simp only [Table.get_insert] at hm
    split at hm
    · obtain rfl := Option.some.inj hm
      exact h ip' m' hm'
    · exact h ip m hm
  · rw [hmap, Table.get_insert] at hm
    split at hm
    · obtain rfl := Option.some.inj hm
      exact hd
    · exact h ip m hm
  · rw [hmap, Table.get_insert] at hm
    split at hm
    · obtain rfl := Option.some.inj hm
      exact hd
    · rw [Table.get_remove] at hm
      split at hm
      · cases hm
      · exact h ip m hm

theorem names_iff_resolve : p.Names known ↔ ∀ ip name, p.resolve ip = some name → known name := by
  simp [Names, resolve]

theorem Names.acquire (h : p.Names known) (ip : Ipv4Addr) (now : Nat) : (p.acquire ip now).Names known := by
  rw [names_iff_resolve] at h ⊢
  simpa only [resolve_acquire] using h

theorem Names.release (h : p.Names known) (ip : Ipv4Addr) (now : Nat) : (p.release ip now).Names known := by
  rw [names_iff_resolve] at h ⊢
  simpa only [resolve_release] using h

theorem Names.sweep (h : p.Names known) (now ttl : Nat) : (p.sweep now ttl).2.Names known :=
  fun ip m hm => h ip m ((get_sweep p now ttl ip m).1 hm).1

theorem Names.release_all (h : p.Names known) (ips : List Ipv4Addr) (now : Nat) :
    (Sys.release_all p ips now).Names known := by
  induction ips generalizing p with
  | nil => exact h
  | cons ip ips ih => exact ih (h.release ip now)

end FakeIpPool

namespace Sys

/-- The query of a DNS packet is what `parse_query` makes of its payload. -/
def Event.Parsed : Event → Prop
  | .rx (.udp udp) query _ _ _ _ =>
    udp.dst_port = 53 → query = (Dns.parse_query udp.payload).join.map (·.toDnsQuery)
  | _ => True

instance (e : Event) : Decidable e.Parsed := by
  unfold Event.Parsed
  split <;> infer_instance

/-- A packet of the run asked for the address of `name`. -/
def AskedFor (tr : List (Taken Sys Event)) (name : String) : Prop :=
  ∃ t ∈ tr, ∃ udp query accepted timers order now q, t.ev = .rx (.udp udp) query accepted timers order now ∧
    udp.dst_port = 53 ∧ Dns.parse_query udp.payload = some (some q) ∧ q.qtype = QTYPE_A ∧ q.qname = name

theorem AskedFor.append {tr : List (Taken Sys Event)} {name : String} (h : AskedFor tr name)
    (tr' : List (Taken Sys Event)) : AskedFor (tr ++ tr') name := by
  obtain ⟨t, ht, h⟩ := h
  exact ⟨t, List.mem_append_left _ ht, h⟩

/-- One step: only a query brings a new name. -/
theorem PoolChange.names {s : Sys} {e : Event} {p : FakeIpPool} {known : String → Prop} (h : PoolChange s e p)
    (hi : s.fake_pool.Inv) (hn : s.fake_pool.Names known)
    (hq : ∀ udp query accepted timers order now, e = .rx (.udp udp) (some query) accepted timers order now →
      udp.dst_port = 53 → query.qtype = QTYPE_A → known query.qname) : p.Names known := by
  cases h with
  | same h => exact h ▸ hn
  | alloc udp query accepted timers order now he hport hqt h =>
    exact h ▸ hn.alloc hi (hq udp query accepted timers order now he hport hqt) now
  | sweep now _ h => exact h ▸ hn.sweep now FAKE_IP_TTL
  | refs fake_ip ips now _ h =>
    refine h ▸ FakeIpPool.Names.release_all ?_ ips now
    cases fake_ip with
    | none => exact hn
    | some ip => exact hn.acquire ip now

/-- Every name in the pool was asked for. -/
theorem names_asked {pool_size : Nat} {tr : List (Taken Sys Event)} {s : Sys} (hrun : Run (new pool_size) step tr s)
    (hparsed : ∀ t ∈ tr, t.ev.Parsed) : s.fake_pool.Names (AskedFor tr) := by
  induction hrun with
  | nil => intro ip m hm; simp [new, FakeIpPool.new] at hm
  | @snoc tr s s' e hrun hstep ih =>
    have hbefore := ih fun t ht => hparsed t (List.mem_append_left _ ht)
    have hinv : s.fake_pool.Inv := FakeIpPool.reachable_inv (Reachable.pool (hrun.reach fun _ _ => trivial))
    have hlast : (⟨s, e, s'⟩ : Taken Sys Event) ∈ tr ++ [⟨s, e, s'⟩] := List.mem_append_right _ (List.mem_singleton_self _)
    refine (step_pool hstep).names hinv (fun ip m hm => (hbefore ip m hm).append _) ?_
    intro udp query accepted timers order now he hport hqt
    obtain rfl : e = _ := he
    have hq := hparsed _ hlast hport
    obtain ⟨q, hjoin, rfl⟩ := Option.map_eq_some_iff.1 hq.symm
    exact ⟨_, hlast, udp, _, accepted, timers, order, now, q, rfl, hport, Option.join_eq_some_iff.1 hjoin, hqt, rfl⟩

/-- What becomes of the names of a run. -/
structure NamesCarried (tr : List (Taken Sys Event)) (s : Sys) : Prop where
  /-- The host of a target is a name that was asked for, unchanged. -/
  asked : ∀ endpoint host port fake_ip, resolve_target endpoint s.fake_pool = .Direct (.DomainPort host port) fake_ip →
    AskedFor tr host
  connect : ∀ port, WritesName fun host => encode_connect (.DomainPort host port)
  packet : ∀ assoc_id port data, WritesName fun host => encode_packet assoc_id (.DomainPort host port) data
  vless : ∀ uuid command port, WritesName fun host => Reality.encode_vless_request uuid command (.DomainPort host port)

/-- The host of a domain target is what the pool has under the address. -/
theorem resolve_of_domain {endpoint : IpEndpoint} {p : FakeIpPool} {host : String} {port : UInt16}
    {fake_ip : Option Ipv4Addr} (h : resolve_target endpoint p = .Direct (.DomainPort host port) fake_ip) :
    p.resolve endpoint.addr = some host ∧ port = endpoint.port ∧ fake_ip = some endpoint.addr := by
  rcases resolve_target_direct h with ⟨domain, hres, htarget, hfake⟩ | ⟨-, htarget, -⟩
  · obtain ⟨rfl, rfl⟩ := TargetAddr.DomainPort.inj htarget
    exact ⟨hres, rfl, hfake⟩
  · cases htarget

/-- Names reach the target of a flow unchanged, and the wire up to their first
255 bytes. -/
theorem names_carried {pool_size : Nat} {tr : List (Taken Sys Event)} {s : Sys} (hrun : Run (new pool_size) step tr s)
    (hparsed : ∀ t ∈ tr, t.ev.Parsed) : NamesCarried tr s := by
  refine ⟨fun endpoint host port fake_ip hres => ?_, encode_connect_name, encode_packet_name, encode_vless_request_name⟩
  obtain ⟨hname, -⟩ := resolve_of_domain hres
  obtain ⟨m, hm, rfl⟩ := Option.map_eq_some_iff.1 hname
  exact names_asked hrun hparsed _ m hm

/-- A query for the address of `a.b`. -/
def shortQuery : UdpInbound where
  src_ip := ipv4 10 0 0 5
  src_port := 5000
  dst_ip := ipv4 10 0 0 1
  dst_port := 53
  payload := [0, 1, 1, 0, 0, 1, 0, 0, 0, 0, 0, 0, 1, 97, 1, 98, 0, 0, 1, 0, 1]

theorem names_carried_short : ∃ tr s, (Run (new 2) step tr s ∧ ∀ t ∈ tr, t.ev.Parsed) ∧
    resolve_target ⟨ipv4 198 18 0 2, 80⟩ s.fake_pool = .Direct (.DomainPort "a.b" 80) (some (ipv4 198 18 0 2)) ∧
    NamesCarried tr s := by
  have hrun : (runEvents (checked (fun _ e => decide e.Parsed) step) (new 2)
      [.rx (.udp shortQuery) (some ⟨"a.b", QTYPE_A⟩) none [] [] 0]).any
      (fun s => decide (resolve_target ⟨ipv4 198 18 0 2, 80⟩ s.fake_pool =
        .Direct (.DomainPort "a.b" 80) (some (ipv4 198 18 0 2)))) = true := by
    decide +kernel
  obtain ⟨tr, s, htr, hok, hp⟩ := exists_checked_run_of_any hrun
  have hparsed : ∀ t ∈ tr, t.ev.Parsed := fun t ht => of_decide_eq_true (hok t ht)
  exact ⟨tr, s, ⟨htr, hparsed⟩, of_decide_eq_true hp, names_carried htr hparsed⟩

/-! ## Names that are too long -/

/-- Four labels of 63 bytes and a label of one. -/
def longName (last : Char) : String := ".".intercalate (List.replicate 4 ("".pushn 'a' 63) ++ [String.singleton last])

/-- A query for the address of `longName last`. -/
def longQuery (last : Char) : UdpInbound where
  src_ip := ipv4 10 0 0 5
  src_port := 5000
  dst_ip := ipv4 10 0 0 1
  dst_port := 53
  payload := [0, 1, 1, 0, 0, 1, 0, 0, 0, 0, 0, 0] ++
    Dns.nameField (List.replicate 4 ("".pushn 'a' 63) ++ [String.singleton last]) ++ [0, 1, 0, 1]

/-- A query for the address of a name is parsed as such. -/
theorem parse_name_query {labels : List String} (h : ∀ label ∈ labels, Dns.IsLabel label) :
    ∃ q, Dns.parse_query ([0, 1, 1, 0, 0, 1, 0, 0, 0, 0, 0, 0] ++ Dns.nameField labels ++ [0, 1, 0, 1]) = some (some q) ∧
      q.toDnsQuery = ⟨".".intercalate labels, QTYPE_A⟩ := by
  let q : Dns.Query := {
    id := 1
    qname := ".".intercalate labels
    qtype := QTYPE_A
    rd := true
    question := Dns.nameField labels ++ Wire.be 2 QTYPE_A.toNat ++ Wire.be 2 (1 : UInt16).toNat }
  have hquery : Dns.IsQuery ([0, 1, 1, 0, 0, 1, 0, 0, 0, 0, 0, 0] ++ Dns.nameField labels ++ [0, 1, 0, 1]) q :=
    ⟨labels, 0x0100, 1, [0, 0, 0, 0, 0, 0], [], ⟨h, rfl, rfl⟩, rfl, rfl, by simp [q]; rfl⟩
  exact ⟨q, ((Dns.parse_query_exact _).2 q).2 hquery, rfl⟩

theorem parsed_longQuery {last : Char} (h : Dns.IsLabel (String.singleton last)) :
    Event.Parsed (.rx (.udp (longQuery last)) (some ⟨longName last, QTYPE_A⟩) none [] [] 0) := by
  intro _
  have hvalid : ∀ label ∈ List.replicate 4 ("".pushn 'a' 63) ++ [String.singleton last], Dns.IsLabel label := by
    intro label hl
    rcases List.mem_append.1 hl with hl | hl
    · obtain rfl := List.eq_of_mem_replicate hl
      have hlen : (Wire.utf8 ("".pushn 'a' 63)).length = 63 := by decide +kernel
      exact ⟨by omega, by omega⟩
    · obtain rfl := List.mem_singleton.1 hl
      exact h
  obtain ⟨q, hq, hname⟩ := parse_name_query hvalid
  rw [longQuery, hq, Option.join_some, Option.map_some, hname, longName]

/-- Two queries are answered whose names differ behind their first 255 bytes. A
client that connects to either name has the same bytes sent for it. -/
theorem names_confused : ∃ tr s, Run (new 2) step tr s ∧ (∀ t ∈ tr, t.ev.Parsed) ∧ longName 'a' ≠ longName 'b' ∧
    ((longQuery 'a').payload.length ≤ 576 ∧ (longQuery 'b').payload.length ≤ 576 ∧
      resolve_target ⟨ipv4 198 18 0 2, 80⟩ s.fake_pool = .Direct (.DomainPort (longName 'a') 80) (some (ipv4 198 18 0 2)) ∧
      resolve_target ⟨ipv4 198 18 0 3, 80⟩ s.fake_pool = .Direct (.DomainPort (longName 'b') 80) (some (ipv4 198 18 0 3))) ∧
    encode_connect (.DomainPort (longName 'a') 80) = encode_connect (.DomainPort (longName 'b') 80) ∧
    encode_packet 1 (.DomainPort (longName 'a') 80) [] = encode_packet 1 (.DomainPort (longName 'b') 80) [] ∧
    Reality.encode_vless_request (.replicate 16 0) Reality.VLESS_CMD_TCP (.DomainPort (longName 'a') 80) =
      Reality.encode_vless_request (.replicate 16 0) Reality.VLESS_CMD_TCP (.DomainPort (longName 'b') 80) := by
  have hrun : (runEvents step (new 2)
      [.rx (.udp (longQuery 'a')) (some ⟨longName 'a', QTYPE_A⟩) none [] [] 0,
       .rx (.udp (longQuery 'b')) (some ⟨longName 'b', QTYPE_A⟩) none [] [] 0]).any
      (fun s => decide ((longQuery 'a').payload.length ≤ 576 ∧ (longQuery 'b').payload.length ≤ 576 ∧
        resolve_target ⟨ipv4 198 18 0 2, 80⟩ s.fake_pool = .Direct (.DomainPort (longName 'a') 80) (some (ipv4 198 18 0 2)) ∧
        resolve_target ⟨ipv4 198 18 0 3, 80⟩ s.fake_pool =
          .Direct (.DomainPort (longName 'b') 80) (some (ipv4 198 18 0 3)))) = true := by
    decide +kernel
  obtain ⟨s, hs, hp⟩ := (Option.any_eq_true _ _).1 hrun
  simp only [runEvents, Option.bind_eq_some_iff, Option.some.injEq] at hs
  obtain ⟨s₁, hstep₁, s₂, hstep₂, rfl⟩ := hs
  have hcut : (Wire.utf8 (longName 'a')).take 255 = (Wire.utf8 (longName 'b')).take 255 := by
    -- The two names differ in their last character, behind 256 bytes.
    let front := (List.replicate 4 (List.replicate 63 'a' ++ ['.'])).flatten
    have ha : longName 'a' = String.ofList (front ++ ['a']) := by decide +kernel
    have hb : longName 'b' = String.ofList (front ++ ['b']) := by decide +kernel
    have hlen : 255 ≤ (front.flatMap String.utf8EncodeChar).length := by decide +kernel
    rw [ha, hb, Wire.utf8_ofList, Wire.utf8_ofList, List.flatMap_append, List.flatMap_append,
      List.take_append_of_le_length hlen, List.take_append_of_le_length hlen]
  refine ⟨_, s₂, .snoc (.snoc .nil hstep₁) hstep₂, ?_, by decide +kernel, of_decide_eq_true hp, ?_, ?_, ?_⟩
  · rw [List.nil_append, List.forall_mem_append, List.forall_mem_singleton, List.forall_mem_singleton]
    exact ⟨parsed_longQuery ⟨by decide +kernel, by decide +kernel⟩, parsed_longQuery ⟨by decide +kernel, by decide +kernel⟩⟩
  · exact ((encode_connect_name 80).confused _ _).2 hcut
  · exact ((encode_packet_name 1 80 []).confused _ _).2 hcut
  · exact ((encode_vless_request_name _ _ 80).confused _ _).2 hcut

end Sys

end MiniVpn
