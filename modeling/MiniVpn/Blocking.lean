import MiniVpn.DnsPolicy
import MiniVpn.Upcalls
/-!
# DNS never leaves through the upstream

`dns_stays_local`: in any state of the loop, whatever its slots are in, an event
of a flow that counts as DNS makes no call, and a call that is made is for a flow
that does not. Plain DNS over UDP only changes the pool.
-/
open Lib

namespace MiniVpn

inductive Upcall.IsFor (target : TargetAddr) : Upcall → Prop
  | open_tcp : IsFor target (.open_tcp target)
  | send_udp (assoc_id : UInt16) (payload : Bytes) : IsFor target (.send_udp (encode_packet assoc_id target payload))

namespace Sys

/-- Where the flow goes that event `e` is about. -/
def flow (s : Sys) : Event → Option IpEndpoint
  | .rx (.udp udp) _ _ _ _ _ => some udp.destination
  | .listener _ _ => s.todo.head?.bind fun handle => (s.sockets.get handle).local_endpoint
  | _ => none

variable {s s' : Sys}

theorem mem_udp_calls {t : AssocTable} {p : FakeIpPool} {udp : UdpInbound} {call : Upcall}
    (h : call ∈ udp_calls t p udp) :
    ∃ target fake_ip, resolve_target udp.destination p = .Direct target fake_ip ∧ call.IsFor target := by
  unfold udp_calls at h
  split at h
  · rename_i target fake_ip assoc_id t' hres hid
    obtain rfl := List.mem_singleton.1 h
    exact ⟨target, fake_ip, hres, .send_udp assoc_id udp.payload⟩
  · cases h

theorem mem_first_payload_calls {handle : SocketHandle} {call : Upcall} (h : call ∈ s.first_payload_calls handle) :
    ∃ endpoint target fake_ip, (s.sockets.get handle).local_endpoint = some endpoint ∧
      resolve_target endpoint s.fake_pool = .Direct target fake_ip ∧ call.IsFor target := by
  unfold first_payload_calls at h
  rcases extract_cases (s.sockets.get handle) with ⟨-, hx⟩ | ⟨-, payload, rest, -, -, hx⟩ <;> simp only [hx] at h
  · cases h
  · split at h
    · cases h
    · rename_i endpoint hep
      split at h
      · rename_i target fake_ip hres
        refine ⟨endpoint, target, fake_ip, hep, hres, ?_⟩
        unfold local_payload_calls at h
        split at h
        · cases h
        · split at h
          · cases h
          · exact List.mem_singleton.1 h ▸ .open_tcp
      · cases h
      · cases h

theorem mem_listener_calls {handle : SocketHandle} {call : Upcall} (h : call ∈ s.listener_calls handle) :
    ∃ endpoint target fake_ip, (s.sockets.get handle).local_endpoint = some endpoint ∧
      resolve_target endpoint s.fake_pool = .Direct target fake_ip ∧ call.IsFor target := by
  unfold listener_calls at h
  split at h
  · cases h
  · rename_i ctx hget
    obtain ⟨socket, ctx₁, hfl⟩ : ∃ a b, flush_downlink (s.sockets.get handle) ctx = (a, b) := ⟨_, _, rfl⟩
    simp only [hfl] at h
    split at h
    · cases h
    · obtain ⟨endpoint, target, fake_ip, hep, hres, hfor⟩ := mem_first_payload_calls h
      rw [put, SocketSet.get_set_self, (flush_downlink_flushed hfl).conn] at hep
      exact ⟨endpoint, target, fake_ip, hep, hres, hfor⟩

/-- A call is for the target of the flow the event is about. -/
theorem mem_upcalls {e : Event} {call : Upcall} (h : call ∈ s.upcalls e) :
    ∃ endpoint target fake_ip, s.flow e = some endpoint ∧
      resolve_target endpoint s.fake_pool = .Direct target fake_ip ∧ call.IsFor target := by
  unfold upcalls at h
  split at h
  · rename_i upstream now handle todo htodo
    obtain ⟨endpoint, target, fake_ip, hep, hres, hfor⟩ := mem_listener_calls h
    exact ⟨endpoint, target, fake_ip, by simpa [flow, htodo] using hep, hres, hfor⟩
  · rename_i udp query accepted timers order now htodo
    split at h
    · obtain ⟨target, fake_ip, hres, hfor⟩ := mem_udp_calls h
      exact ⟨udp.destination, target, fake_ip, rfl, hres, hfor⟩
    · cases h
  · cases h

/-- Where the targets of handshakes and relays come from. -/
theorem step_targets {e : Event} (he : s.step e = some s') :
    (∀ done ∈ s'.handshakes, done ∈ s.handshakes ∨ .open_tcp done.target ∈ s.upcalls e) ∧
    ∀ target ∈ s'.relays.map (·.target), target ∈ s.relays.map (·.target) ∨
      (∃ done ∈ s.handshakes, done.target = target) ∨ .open_tcp target ∈ s.upcalls e := by
  rcases step_asked he with hs | ⟨h, todo, upstream, now, ctx, -, -, -, ha⟩
  · refine ⟨fun done hd => .inl (hs.handshakes done hd), fun target ht => ?_⟩
    rcases hs.relays with hrs | ⟨done, hd, rx, gen, -, hrs⟩
    · exact .inl (hrs ▸ ht)
    · rw [hrs, List.map_append, List.mem_append, List.map_singleton, List.mem_singleton] at ht
      exact ht.imp id fun ht => .inl ⟨done, hd, ht.symm⟩
  · cases ha with
    | nothing _ hhs hrs | released _ hhs hrs => exact ⟨fun _ hd => .inl (hhs ▸ hd), fun _ ht => .inl (hrs ▸ ht)⟩
    | opened endpoint target fake_ip ho _ hhs hrs =>
      obtain ⟨payload, gen, hrs⟩ := hrs
      refine ⟨fun _ hd => .inl (hhs ▸ hd), fun target' ht => ?_⟩
      rw [hrs, List.map_append, List.mem_append, List.map_singleton, List.mem_singleton] at ht
      exact ht.imp id fun ht => .inr (by rw [ho.call, ht]; exact List.mem_singleton_self _)
    | spawned endpoint done fake_ip ho _ _ hhs hrs =>
      refine ⟨fun done' hd => ?_, fun _ ht => .inl (hrs ▸ ht)⟩
      rw [hhs, List.mem_append, List.mem_singleton] at hd
      exact hd.imp id fun hd => by rw [ho.call, hd]; exact List.mem_singleton_self _

/-- The upstream sees no DNS. -/
structure DnsLocal (s : Sys) : Prop where
  /-- An event of a DNS flow makes no call. -/
  silent : ∀ e endpoint, s.flow e = some endpoint → IsDns s.fake_pool endpoint → s.upcalls e = []
  /-- A call is for the target of a flow that is not DNS. -/
  calls : ∀ e call, call ∈ s.upcalls e → ∃ endpoint target fake_ip, s.flow e = some endpoint ∧
    ¬ IsDns s.fake_pool endpoint ∧ resolve_target endpoint s.fake_pool = .Direct target fake_ip ∧ call.IsFor target
  /-- No handshake and no relay starts without a call. -/
  started : ∀ e s', s.step e = some s' →
    (∀ done ∈ s'.handshakes, done ∈ s.handshakes ∨ .open_tcp done.target ∈ s.upcalls e) ∧
    ∀ target ∈ s'.relays.map (·.target), target ∈ s.relays.map (·.target) ∨
      (∃ done ∈ s.handshakes, done.target = target) ∨ .open_tcp target ∈ s.upcalls e
  /-- A flow to port 443 with another name or address is not blocked. -/
  unblocked : ∀ endpoint, endpoint.port = 443 → endpoint.addr ∉ DOH_IPS →
    (∀ name, s.fake_pool.resolve endpoint.addr = some name → ¬ IsDohName name) →
    resolve_target endpoint s.fake_pool ≠ .Block
  /-- A packet to UDP port 53 changes the pool and nothing else of the state. -/
  plain : ∀ udp query accepted timers order now s', udp.dst_port = 53 →
    s.step (.rx (.udp udp) query accepted timers order now) = some s' → ∃ p, s' = { s with fake_pool := p }

theorem step_plain_dns {udp : UdpInbound} {query : Option DnsQuery}
    {accepted : Option (SocketHandle × List TcpSocket.Segment)} {timers : List (SocketHandle × TcpSocket.Timer)}
    {order : List SocketHandle} {now : Nat} (hport : udp.dst_port = 53)
    (he : s.step (.rx (.udp udp) query accepted timers order now) = some s') : ∃ p, s' = { s with fake_pool := p } := by
  have hclass : classify_inbound (.udp udp) = .Dns := if_pos hport
  unfold step at he
  split at he
  · contradiction
  · contradiction
  · contradiction
  · simp only [on_select, hclass, Option.some.injEq] at he
    exact ⟨_, he.symm⟩
  · contradiction

/-- With any pool the operations can reach and any slots, no DNS goes upstream and
nothing else is held back for being DNS. -/
theorem dns_stays_local {s : Sys} (hp : s.fake_pool.Reachable) : DnsLocal s := by
  have hi := FakeIpPool.reachable_inv hp
  have hcalls : ∀ e call, call ∈ s.upcalls e → ∃ endpoint target fake_ip, s.flow e = some endpoint ∧
      ¬ IsDns s.fake_pool endpoint ∧ resolve_target endpoint s.fake_pool = .Direct target fake_ip ∧
      call.IsFor target := by
    intro e call hcall
    obtain ⟨endpoint, target, fake_ip, hflow, hres, hfor⟩ := mem_upcalls hcall
    refine ⟨endpoint, target, fake_ip, hflow, fun hdns => ?_, hres, hfor⟩
    rw [(resolve_target_eq_block_iff hi endpoint).2 hdns] at hres
    cases hres
  refine ⟨fun e endpoint hflow hdns => ?_, hcalls, fun e s' => step_targets, fun endpoint hport hip hname hblock => ?_,
    fun udp query accepted timers order now s' => step_plain_dns⟩
  · refine List.eq_nil_iff_forall_not_mem.2 fun call hcall => ?_
    obtain ⟨endpoint', -, -, hflow', hno, -⟩ := hcalls e call hcall
    obtain rfl : endpoint = endpoint' := Option.some.inj (hflow.symm.trans hflow')
    exact hno hdns
  · cases (resolve_target_eq_block_iff hi endpoint).1 hblock with
    | plain h => simp [hport] at h
    | encrypted h => simp [hport] at h
    | ip _ h => exact hip h
    | name name _ hres hdoh => exact hname name hres hdoh

/-- A listed name was resolved, with capitals and a dot at its end, and a client
has connected to port 443 of its address and sent data. -/
theorem dns_stays_local_doh : ∃ s, s.fake_pool.Reachable ∧
    (s.flow (.listener ⟨true, true⟩ 0) = some ⟨ipv4 198 18 0 2, 443⟩ ∧ (s.sockets.get 0).can_recv = true ∧
      s.fake_pool.resolve (ipv4 198 18 0 2) = some "a.DNS.Google.") ∧ DnsLocal s := by
  have hrun : (runEvents step (new 2)
      [.rx (.udp ⟨ipv4 10 0 0 5, 5000, ipv4 10 0 0 1, 53, []⟩) (some ⟨"a.DNS.Google.", QTYPE_A⟩) none [] [] 0,
       .rx (.tcp 443 true false) none (some (0, [.syn ⟨⟨ipv4 198 18 0 2, 443⟩, ⟨ipv4 10 0 0 5, 40000⟩⟩])) [] [0, 1] 0,
       .listener ⟨true, true⟩ 0, .listener ⟨true, true⟩ 0,
       .rx (.tcp 443 false true) none (some (0, [.ack 0])) [] [0, 1] 0, .listener ⟨true, true⟩ 0, .listener ⟨true, true⟩ 0,
       .rx (.tcp 443 false true) none (some (0, [.data [1]])) [] [0, 1] 0]).any
      (fun s => decide (s.flow (.listener ⟨true, true⟩ 0) = some ⟨ipv4 198 18 0 2, 443⟩ ∧
        (s.sockets.get 0).can_recv = true ∧ s.fake_pool.resolve (ipv4 198 18 0 2) = some "a.DNS.Google.")) = true := by
    decide +kernel
  obtain ⟨s, hs, hp⟩ := exists_reach_of_any hrun
  have hpool := Reachable.pool hs
  exact ⟨s, hpool, of_decide_eq_true hp, dns_stays_local hpool⟩

end Sys

end MiniVpn
