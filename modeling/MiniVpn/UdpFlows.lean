import MiniVpn.Forging
import MiniVpn.LiveFlows
/-!
# UDP flows through the whole loop

The loop translates addresses: a datagram of an app leaves with the id of its
flow, and a packet from the server is given to the app whose flow has its id.
`Flow` says what a flow is in terms of the run alone: an uplink datagram started
it and it has kept its id since. `downlink_answers` is what the downlink branch
does with every byte string, in every reachable state.
-/
open Lib

namespace MiniVpn

namespace MainLoop

abbrev Trace := List (Taken MainLoop Event)

section
variable {w : UdpWriter} {pool_size : Nat} {tr : Trace} {s s' : MainLoop} {e : Event} {tuple : FourTuple} {id : UInt16}

/-! ## Where a flow comes from -/

/-- A step of the loop is one of `Sys` with the same event, or the downlink
branch, which starts no flow. -/
theorem step_event (h : s.step w e = some s') (hr : s.reassembler.Ok) :
    (∃ e', e = .sys e' ∧ s.sys.step e' = some s'.sys) ∨
      s'.sys.assoc_table.tuple_to_id = s.sys.assoc_table.tuple_to_id := by
  unfold step at h
  split at h
  · cases h
  · rename_i now
    obtain ⟨sys, hsys, hs'⟩ := Option.bind_eq_some_iff.1 h
    obtain rfl := Option.some.inj hs'
    exact .inl ⟨_, rfl, hsys⟩
  · rename_i e _ _
    obtain ⟨sys, hsys, hs'⟩ := Option.bind_eq_some_iff.1 h
    obtain rfl := Option.some.inj hs'
    exact .inl ⟨e, rfl, hsys⟩
  · rename_i dg now touched
    split at h
    · obtain ⟨out, hout, rfl⟩ := Option.map_eq_some_iff.1 h
      rcases on_downlink_cases hr w dg now touched with ⟨-, r, -, heq⟩ | ⟨id, payload, entry, r, -, -, heq⟩
      · obtain rfl := Option.some.inj (heq.symm.trans hout)
        exact .inr rfl
      · obtain ⟨pkt, -, rfl⟩ := Option.map_eq_some_iff.1 (heq.symm.trans hout)
        exact .inr (Sys.touch_flow _ _ _).1
    · cases h

/-- The step takes a datagram of `tuple` and sends it on with `id`. -/
def Sends (t : Taken MainLoop Event) (tuple : FourTuple) (id : UInt16) : Prop :=
  ∃ udp query accepted timers order now target, t.ev = .sys (.rx (.udp udp) query accepted timers order now) ∧
    udp.tuple = tuple ∧ t.pre.sys.upcalls (.rx (.udp udp) query accepted timers order now) =
      [.send_udp (encode_packet id target udp.payload)]

/-- A datagram of `tuple` was sent on with `id`, and the flow has had this id
since. -/
def Flow (tr : Trace) (tuple : FourTuple) (id : UInt16) : Prop :=
  ∃ tr₁ t tr₂, tr = tr₁ ++ t :: tr₂ ∧ Sends t tuple id ∧
    ∀ t' ∈ t :: tr₂, t'.post.sys.assoc_table.tuple_to_id.get tuple = some id

theorem Flow.snoc (h : Flow tr tuple id) {t : Taken MainLoop Event}
    (hbound : t.post.sys.assoc_table.tuple_to_id.get tuple = some id) : Flow (tr ++ [t]) tuple id := by
  obtain ⟨tr₁, t₀, tr₂, rfl, hsends, hkept⟩ := h
  refine ⟨tr₁, t₀, tr₂ ++ [t], by rw [List.append_assoc, List.cons_append], hsends, fun t' ht' => ?_⟩
  rw [← List.cons_append] at ht'
  rcases List.mem_append.1 ht' with ht' | ht'
  · exact hkept t' ht'
  · obtain rfl := List.mem_singleton.1 ht'
    exact hbound

theorem Sends.flow {t : Taken MainLoop Event} (h : Sends t tuple id)
    (hbound : t.post.sys.assoc_table.tuple_to_id.get tuple = some id) : Flow (tr ++ [t]) tuple id := by
  refine ⟨tr, t, [], rfl, h, fun t' ht' => ?_⟩
  obtain rfl := List.mem_singleton.1 ht'
  exact hbound

/-- An association that is there after a step was there before it, or the step
sends the datagram that starts it. -/
theorem sends_of_started (hr : Sys.Reachable pool_size s.sys) {e' : Sys.Event} (he : s.sys.step e' = some s'.sys)
    (hbound : s'.sys.assoc_table.tuple_to_id.get tuple = some id) :
    s.sys.assoc_table.tuple_to_id.get tuple = some id ∨ Sends ⟨s, .sys e', s'⟩ tuple id := by
  obtain ⟨hw, hcap⟩ := hr.flows
  cases ((Sys.step_flows he).flow hw hcap).2.2 tuple id hbound with
  | kept hid => exact .inl hid
  | started udp query accepted timers order now target hev hport htuple _ hin hres =>
    subst hev htuple
    obtain ⟨t₁, hin⟩ := hin
    refine .inr ⟨udp, query, accepted, timers, order, now, target, rfl, rfl, ?_⟩
    simp only [Sys.upcalls, Sys.step_rx_todo he, classify_inbound, if_neg hport, Sys.udp_calls, hres, hin]

/-- The table holds the flows of the run, each with its id. -/
theorem bound_iff_flow (h : Run (new pool_size) (step w) tr s) :
    s.sys.assoc_table.tuple_to_id.get tuple = some id ↔ Flow tr tuple id := by
  constructor
  · intro hbound
    induction h with
    | nil => simp [new, Sys.new, AssocTable.new, AssocTable.with_cap] at hbound
    | @snoc tr s s' e hrun hn ih =>
      have hreach : Reachable w pool_size s := hrun.reach fun _ _ => trivial
      obtain ⟨hsys, hr⟩ := hreach.sys
      rcases step_event hn hr with ⟨e', rfl, he⟩ | hsame
      · rcases sends_of_started hsys he hbound with hold | hsends
        · exact (ih hold).snoc hbound
        · exact hsends.flow hbound
      · exact (ih (hsame ▸ hbound)).snoc hbound
  · rintro ⟨tr₁, t, tr₂, rfl, -, hkept⟩
    obtain ⟨-, -, hrun⟩ := h.split
    exact hrun.at_end (P := fun s => s.sys.assoc_table.tuple_to_id.get tuple = some id)
      (hkept t List.mem_cons_self) fun t' ht' => hkept t' (List.mem_cons_of_mem _ ht')

/-! ## What the downlink branch injects -/

/-- The branch injects a packet if and only if `dg` completes a payload for a live
association and the builder takes it; it then touches the association. -/
theorem on_downlink_injects_iff (hr : s.reassembler.Ok) (dg : Bytes) (now touched : Nat) (pkt : Bytes) :
    (∃ s', s.on_downlink w dg now touched = some (some pkt, s')) ↔
      ∃ m payload entry, IsPacket dg m ∧ s.reassembler.Completes m payload ∧
        s.sys.assoc_table.id_to_entry.get m.assoc_id = some entry ∧
        w.write entry.target_src entry.app_endpoint payload = some pkt := by
  obtain ⟨out, hout⟩ := exists_decode_packet_meta dg
  have hmeta : ∀ m, IsPacket dg m ↔ out = some m := by
    intro m
    rw [← decode_packet_meta_eq_some_iff, hout, Option.some.injEq]
  simp only [hmeta]
  unfold on_downlink
  rw [hout]
  cases out with
  | none => simp
  | some m =>
    obtain ⟨done, r, haccept, -, hdone⟩ := FragReassembler.accept_spec hr m now
    have hcomplete : ∀ payload, s.reassembler.Completes m payload ↔ done = some payload := fun payload => (hdone payload).symm
    simp only [haccept, Option.bind_eq_bind, Option.bind_some, Option.pure_def, Option.some.injEq]
    cases done with
    | none =>
      refine ⟨fun h => by simp at h, ?_⟩
      rintro ⟨m', payload, entry, rfl, hpayload, -⟩
      rw [hcomplete] at hpayload
      cases hpayload
    | some payload =>
      simp only [AssocTable.resolve]
      cases hget : s.sys.assoc_table.id_to_entry.get m.assoc_id with
      | none =>
        refine ⟨fun h => by simp at h, ?_⟩
        rintro ⟨m', payload', entry, rfl, -, hentry, -⟩
        rw [hget] at hentry
        cases hentry
      | some entry =>
        simp only [build_udp_ip_packet, Option.bind_eq_some_iff, Option.some.injEq, Prod.mk.injEq]
        constructor
        · rintro ⟨s', pkt', hwrite, rfl, -⟩
          exact ⟨m, payload, entry, rfl, (hcomplete payload).2 rfl, hget, hwrite⟩
        · rintro ⟨m', payload', entry', rfl, hpayload, hentry, hwrite⟩
          obtain rfl := Option.some.inj ((hcomplete payload').1 hpayload)
          obtain rfl := Option.some.inj (hget.symm.trans hentry)
          exact ⟨_, pkt, hwrite, rfl, rfl⟩

/-- The packet that `payload` becomes for the app: from where its datagrams go to
where they come from. -/
def reply (tuple : FourTuple) (payload : Bytes) : UdpInbound where
  src_ip := tuple.dst_ip
  src_port := tuple.dst_port
  dst_ip := tuple.src_ip
  dst_port := tuple.src_port
  payload := payload

/-- In every state of every run: an id belongs to one flow; what the downlink branch
injects into the TUN device is a payload that the server completed for the id of a
flow, for the app of that flow; and every such payload that fits a packet is
injected. -/
theorem downlink_answers (r : UdpReader w) (h : Run (new pool_size) (step w) tr s) :
    (∀ id tuple tuple', Flow tr tuple id → Flow tr tuple' id → tuple = tuple') ∧
    (∀ dg now touched pkt s', s.on_downlink w dg now touched = some (some pkt, s') → ∃ m payload tuple,
      IsPacket dg m ∧ s.reassembler.Completes m payload ∧ Flow tr tuple m.assoc_id ∧
        r.parse_inbound_udp pkt = some (reply tuple payload)) ∧
    ∀ dg now touched m payload tuple, IsPacket dg m → s.reassembler.Completes m payload → Flow tr tuple m.assoc_id →
      payload.length ≤ 65507 → ∃ pkt s', s.on_downlink w dg now touched = some (some pkt, s') ∧
        r.parse_inbound_udp pkt = some (reply tuple payload) := by
  have hreach : Reachable w pool_size s := h.reach fun _ _ => trivial
  obtain ⟨hsys, hok⟩ := hreach.sys
  obtain ⟨hwf, -⟩ := hsys.flows
  have hentry : ∀ tuple id, Flow tr tuple id ↔ ∃ entry, s.sys.assoc_table.id_to_entry.get id = some entry ∧
      entry.tuple = tuple := by
    intro tuple id
    rw [← bound_iff_flow h, hwf.inverse]
  refine ⟨?_, ?_, ?_⟩
  · intro id tuple tuple' hflow hflow'
    obtain ⟨entry, hget, rfl⟩ := (hentry _ _).1 hflow
    obtain ⟨entry', hget', rfl⟩ := (hentry _ _).1 hflow'
    rw [Option.some.inj (hget.symm.trans hget')]
  · intro dg now touched pkt s' hout
    obtain ⟨m, payload, entry, hm, hpayload, hget, hwrite⟩ := (on_downlink_injects_iff hok dg now touched pkt).1 ⟨s', hout⟩
    exact ⟨m, payload, entry.tuple, hm, hpayload, (hentry _ _).2 ⟨entry, hget, rfl⟩, r.parse_write _ _ _ _ hwrite⟩
  · intro dg now touched m payload tuple hm hpayload hflow hlen
    obtain ⟨entry, hget, rfl⟩ := (hentry _ _).1 hflow
    cases hwrite : w.write entry.target_src entry.app_endpoint payload with
    | none =>
      have hlong := (w.fails_iff _ _ _).1 hwrite
      omega
    | some pkt =>
      obtain ⟨s', hout⟩ := (on_downlink_injects_iff hok dg now touched pkt).2 ⟨m, payload, entry, hm, hpayload, hget, hwrite⟩
      exact ⟨pkt, s', hout, r.parse_write _ _ _ _ hwrite⟩

end

/-- The answer to the datagram of `udp_uplink` reaches the app that sent it. -/
theorem downlink_answers_first : ∃ tr s pkt s', Run (new 2) (step etherparse) tr s ∧
    s.on_downlink etherparse (answer [7, 8]) 0 0 = some (some pkt, s') ∧
    etherparse_reader.parse_inbound_udp pkt = some ⟨ipv4 93 184 216 34, 4000, ipv4 10 0 0 5, 5000, [7, 8]⟩ := by
  obtain ⟨tr, s, hrun, hp⟩ := @exists_trace_of_any _ _ (new 2) (step etherparse)
    (fun x => x.2.sys.assoc_table.tuple_to_id.get ⟨ipv4 10 0 0 5, 5000, ipv4 93 184 216 34, 4000⟩ == some 1)
    [udp_uplink] (by decide +kernel)
  have hflow := (bound_iff_flow hrun).1 (beq_iff_eq.1 hp)
  obtain ⟨-, -, hinjects⟩ := downlink_answers etherparse_reader hrun
  obtain ⟨pkt, s', hout, hread⟩ := hinjects (answer [7, 8]) 0 0 _ [7, 8] _
    (isPacket_encode_packet 1 _ (by decide)) (.single rfl rfl) hflow (by decide)
  exact ⟨tr, s, pkt, s', hrun, hout, hread⟩

end MainLoop

end MiniVpn
