import MiniVpn.Wiring
/-!
# How a relay's end becomes known

`run_relay` tells the main loop that the remote closed the stream by sending the
empty message. It has other ways out of its loop, and those send nothing. So a
slot learns that its relay is gone exactly when the remote closed.
-/
open Lib

namespace MiniVpn

namespace Sys

/-! ## Relays and uplinks -/

/-- Where each relay is. -/
def pcs (s : Sys) : List RelayPc := s.relays.map (·.pc)

theorem pcs_send (s : Sys) (tx : RelayId) (payload : Bytes) : (s.send tx payload).pcs = s.pcs :=
  relays_send _ (fun _ _ => rfl) s tx payload

/-- The message by which relay `id` reports to slot `h`. -/
def eofFrom (id : RelayId) (h : SocketHandle) : Message := { sender := id, handle := h, payload := [] }

/-- An effect is a step of one relay, or moves no relay: then it may spawn one, it
sends no message, and a slot that keeps its uplink does not lose the report of its
relay. -/
inductive RelayView (s : Sys) (l : Label) (s' : Sys) : Prop
  | other (hpcs : s'.pcs = s.pcs ∨ s'.pcs = s.pcs ++ [.select]) (hmsg : ∀ msg ∈ s'.global_rx, msg ∈ s.global_rx)
      (huplink : ∀ h ctx id, s'.socket_ctxs.get h = some ctx → ctx.uplink_tx = some id → s'.pcs[id]? = some .select ∨
        ∃ c, s.socket_ctxs.get h = some c ∧ c.uplink_tx = some id ∧
          (eofFrom id h ∈ s.global_rx → eofFrom id h ∈ s'.global_rx))
  | relay (id : RelayId) (r r' : RelayTask) (e : RelayEvent) (room : Bool) (payload : Option Bytes)
      (hr : s.relays[id]? = some r) (hstep : r.step (s.tx_alive id) room e = some (r', payload))
      (hsilent : l ≠ .silent → r.exitsSilently e = true → s.tx_alive id = false)
      (hpcs : s'.pcs = s.pcs.set id r'.pc) (hctxs : s'.socket_ctxs = s.socket_ctxs)
      (hmsg : s'.global_rx = s.global_rx ++ (payload.map fun p => { sender := id, handle := r'.handle, payload := p }).toList)

/-- A slot is written that keeps its uplink. -/
theorem RelayView.keep {s s' : Sys} {l : Label} {h : SocketHandle} {ctx ctx' : SocketCtx}
    (hget : s.socket_ctxs.get h = some ctx) (hctxs : s'.socket_ctxs = s.socket_ctxs.insert h ctx')
    (hup : ctx'.uplink_tx = ctx.uplink_tx) (hpcs : s'.pcs = s.pcs) (hmsg : ∀ msg ∈ s'.global_rx, msg ∈ s.global_rx)
    (heof : ∀ id x, eofFrom id x ∈ s.global_rx → eofFrom id x ∈ s'.global_rx) : RelayView s l s' := by
  refine .other (.inl hpcs) hmsg fun x c id hx hid => .inr ?_
  rw [hctxs, Table.get_insert] at hx
  split at hx
  · subst_vars
    obtain rfl := Option.some.inj hx
    exact ⟨ctx, hget, hup ▸ hid, heof id x⟩
  · exact ⟨c, hx, hid, heof id x⟩

/-- A rearmed slot has no uplink; messages to other slots are still there. -/
theorem RelayView.rearm {s s' : Sys} {l : Label} {h : SocketHandle} {ctx : SocketCtx}
    (hctxs : s'.socket_ctxs = s.socket_ctxs.insert h ctx.rearmed) (hpcs : s'.pcs = s.pcs)
    (hmsg : ∀ msg ∈ s'.global_rx, msg ∈ s.global_rx)
    (heof : ∀ id x, x ≠ h → eofFrom id x ∈ s.global_rx → eofFrom id x ∈ s'.global_rx) : RelayView s l s' := by
  refine .other (.inl hpcs) hmsg fun x c id hx hid => .inr ?_
  rw [hctxs, Table.get_insert] at hx
  split at hx
  · obtain rfl := Option.some.inj hx
    cases hid
  · rename_i hne
    exact ⟨c, hx, hid, heof id x hne⟩

/-- A slot gets the relay that was just spawned for it. -/
theorem RelayView.spawn {s s' : Sys} {l : Label} {h : SocketHandle} {ctx' : SocketCtx}
    (hctxs : s'.socket_ctxs = s.socket_ctxs.insert h ctx') (hup : ctx'.uplink_tx = some s.relays.length)
    (hpcs : s'.pcs = s.pcs ++ [.select]) (hmsg : s'.global_rx = s.global_rx) : RelayView s l s' := by
  refine .other (.inr hpcs) (fun _ => hmsg ▸ id) fun x c id hx hid => ?_
  rw [hctxs, Table.get_insert] at hx
  split at hx
  · obtain rfl := Option.some.inj hx
    obtain rfl : s.relays.length = id := Option.some.inj (hup.symm.trans hid)
    exact .inl (by rw [hpcs]; simp [pcs])
  · exact .inr ⟨c, hx, hid, fun hm => hmsg ▸ hm⟩

theorem Effect.relayView {s s' : Sys} {l : Label} (he : Effect s l s') (hg : Good s) : RelayView s l s' := by
  -- What is left of the channel when its head was received.
  have tail {msg : Message} {rest : List Message} (hq : s.global_rx = msg :: rest) : ∀ m ∈ rest, m ∈ s.global_rx :=
    fun m hm => hq ▸ List.mem_cons_of_mem _ hm
  have left {msg m : Message} {rest : List Message} (hq : s.global_rx = msg :: rest) (hne : m ≠ msg)
      (hm : m ∈ s.global_rx) : m ∈ rest := (List.mem_cons.1 (hq ▸ hm)).resolve_left hne
  have same {s' : Sys} (hctxs : s'.socket_ctxs = s.socket_ctxs) (hpcs : s'.pcs = s.pcs)
      (hmsg : s'.global_rx = s.global_rx) : RelayView s l s' :=
    .other (.inl hpcs) (fun _ => hmsg ▸ id) fun h c id hx hid => .inr ⟨c, hctxs ▸ hx, hid, fun hm => hmsg ▸ hm⟩
  cases he with
  | pool | flows | mark | unmark | schedule | segment | dispatch | dropHandshake => exact same rfl rfl rfl
  | grow port n l hgrow =>
    refine .other (.inl rfl) (fun _ => id) fun x c id hx hid => .inr ?_
    simp only [hgrow.ctx] at hx
    split at hx
    · obtain rfl := Option.some.inj hx
      cases hid
    · exact ⟨c, hx, hid, fun hm => hm⟩
  | turn h ctx socket' ctx' hget ht => exact .keep hget rfl ht.frame.2.1 rfl (fun _ => id) fun _ _ => id
  | deliver msg rest ctx tx socket' ctx' l hq hne hget _ hfl =>
    refine .keep hget rfl (flush_downlink_frame hfl).2.1 rfl (tail hq) fun id x hm => left hq ?_ hm
    rintro rfl
    exact hne rfl
  | discard msg rest hq hslot =>
    refine .other (.inl rfl) (tail hq) fun x c id hx hid => .inr ⟨c, hx, hid, fun hm => left hq ?_ hm⟩
    -- The report is not discarded: its slot exists.
    rintro rfl
    exact hslot c hx rfl
  | rearm h ctx now hget => exact .rearm rfl rfl (fun _ => id) fun _ _ _ => id
  | eof msg rest ctx now hq _ hget =>
    refine .rearm rfl rfl (tail hq) fun id x hne hm => left hq ?_ hm
    rintro rfl
    exact hne rfl
  | refuse i done ctx now _ hm => exact .rearm rfl rfl (fun _ => id) fun _ _ _ => id
  | relayed h ctx tx payload rest hget =>
    exact .keep hget rfl rfl (pcs_send _ tx payload) (fun _ => id) fun _ _ => id
  | spawned h ctx payload rest endpoint target fake_ip now hget _ hstate hr =>
    refine .keep hget rfl ?_ rfl (fun _ => id) fun _ _ => id
    rw [spawned_eq ((hg.slots h ctx hget).buffer hstate) hr.length_le]
    cases fake_ip <;> rfl
  | opened h ctx payload rest endpoint target fake_ip now l hget =>
    refine .spawn rfl ?_ List.map_append rfl
    cases fake_ip <;> rfl
  | install i done ctx _ hm => exact .spawn rfl rfl List.map_append rfl
  | relay id r r' e room payload l hr hstep hsilent =>
    refine .relay id r r' e room payload hr hstep hsilent ?_ rfl rfl
    exact List.map_set

/-! ## Reports -/

/-- No relay waits to send an empty payload as data, an empty message comes from a
relay that has reported, and the report of a slot's relay is in the channel. -/
structure Reports (s : Sys) : Prop where
  data : ∀ (id : RelayId) (d : Bytes), s.pcs[id]? = some (.send_back d) → d ≠ []
  eof : ∀ msg ∈ s.global_rx, msg.payload = [] → ∃ pc, s.pcs[msg.sender]? = some pc ∧ pc.reported = true
  told : ∀ h ctx id pc, s.socket_ctxs.get h = some ctx → ctx.uplink_tx = some id → s.pcs[id]? = some pc →
    pc.reported = true → eofFrom id h ∈ s.global_rx

/-- Without a relay step, a relay is where it was, or is new and at `select!`. -/
theorem pcs_old {s s' : Sys} (hpcs : s'.pcs = s.pcs ∨ s'.pcs = s.pcs ++ [.select]) {id : RelayId} {pc : RelayPc}
    (hpc : s'.pcs[id]? = some pc) : s.pcs[id]? = some pc ∨ pc = .select := by
  rcases hpcs with he | he <;> rw [he] at hpc
  · exact .inl hpc
  · rw [List.getElem?_append] at hpc
    split at hpc
    · exact .inl hpc
    · rw [List.getElem?_singleton] at hpc
      split at hpc
      · exact .inr (Option.some.inj hpc).symm
      · cases hpc

theorem pcs_kept {s s' : Sys} (hpcs : s'.pcs = s.pcs ∨ s'.pcs = s.pcs ++ [.select]) {id : RelayId} {pc : RelayPc}
    (hpc : s.pcs[id]? = some pc) : s'.pcs[id]? = some pc := by
  rcases hpcs with he | he <;> rw [he]
  · exact hpc
  · rwa [List.getElem?_append_left (List.getElem?_eq_some_iff.1 hpc).1]

theorem pcs_of_relay {s : Sys} {id : RelayId} {r : RelayTask} (hr : s.relays[id]? = some r) : s.pcs[id]? = some r.pc := by
  simp [pcs, hr]

/-- After a step of relay `id`, that relay is where the step left it and the
others are where they were. -/
theorem pcs_stepped {s s' : Sys} {id x : RelayId} {r r' : RelayTask} (hr : s.relays[id]? = some r)
    (hpcs : s'.pcs = s.pcs.set id r'.pc) : s'.pcs[x]? = if x = id then some r'.pc else s.pcs[x]? := by
  rw [hpcs, List.getElem?_set]
  have hlt := (List.getElem?_eq_some_iff.1 (pcs_of_relay hr)).1
  by_cases hx : x = id
  · simp [hx, hlt]
  · simp [hx, Ne.symm hx]

theorem reports_effect {s s' : Sys} {l : Label} (he : Effect s l s') (hg : Good s) (hr : Reports s) : Reports s' := by
  cases he.relayView hg with
  | other hpcs hmsg huplink =>
    refine ⟨fun id d hpc => ?_, fun msg hm hnil => ?_, fun h ctx id pc hget hid hpc hrep => ?_⟩
    · rcases pcs_old hpcs hpc with hold | hnew
      · exact hr.data id d hold
      · cases hnew
    · obtain ⟨pc, hpc, hrep⟩ := hr.eof msg (hmsg msg hm) hnil
      exact ⟨pc, pcs_kept hpcs hpc, hrep⟩
    · rcases huplink h ctx id hget hid with hsel | ⟨c, hc, hcid, hkeep⟩
      · obtain rfl : RelayPc.select = pc := Option.some.inj (hsel.symm.trans hpc)
        cases hrep
      · rcases pcs_old hpcs hpc with hold | rfl
        · exact hkeep (hr.told h c id pc hc hcid hold hrep)
        · cases hrep
  | relay id r r' e room payload hrel hstep _ hpcs hctxs hmsg =>
    obtain ⟨hdata, hrep, -⟩ := RelayTask.step_cases hstep fun d hd => hr.data id d (hd ▸ pcs_of_relay hrel)
    refine ⟨fun x d hpc => ?_, fun msg hm hnil => ?_, fun h ctx x pc hget hid hpc hreported => ?_⟩
    · rw [pcs_stepped hrel hpcs] at hpc
      split at hpc
      · exact hdata d (Option.some.inj hpc)
      · exact hr.data x d hpc
    · -- An empty message that was there stays right; a new one is the report.
      rw [hmsg] at hm
      rcases List.mem_append.1 hm with hm | hm
      · obtain ⟨pc, hpc, hpcrep⟩ := hr.eof msg hm hnil
        rw [pcs_stepped hrel hpcs]
        split
        · rename_i hsame
          rw [hsame, pcs_of_relay hrel] at hpc
          exact ⟨_, rfl, hrep.2 (.inl (Option.some.inj hpc ▸ hpcrep))⟩
        · exact ⟨pc, hpc, hpcrep⟩
      · cases payload with
        | none => simp at hm
        | some p =>
          obtain rfl : msg = _ := by simpa using hm
          obtain rfl : p = [] := hnil
          exact ⟨r'.pc, by rw [pcs_stepped hrel hpcs, if_pos rfl], hrep.2 (.inr rfl)⟩
    · rw [hctxs] at hget
      rw [hmsg]
      rw [pcs_stepped hrel hpcs] at hpc
      split at hpc
      · rename_i hx
        subst hx
        obtain rfl := Option.some.inj hpc
        rcases hrep.1 hreported with hbefore | rfl
        · exact List.mem_append_left _ (hr.told h ctx x r.pc hget hid (pcs_of_relay hrel) hbefore)
        · -- The relay reports now, to the slot whose uplink it is.
          have hown := hg.linked.uplink h ctx x hget hid
          simp only [owners, List.getElem?_map, hrel, Option.map_some, Option.some.injEq, Prod.mk.injEq] at hown
          have hh : r'.handle = h := (RelayTask.step_frame hstep).1.trans hown.1
          exact List.mem_append_right _ (by simp [eofFrom, hh])
      · exact List.mem_append_left _ (hr.told h ctx x pc hget hid hpc hreported)

theorem Reachable.reports {pool_size : Nat} {s : Sys} (h : Reachable pool_size s) : Reports s := by
  refine h.inv_good Reports ⟨?_, ?_, ?_⟩ fun _ _ _ he hg hr => reports_effect he hg hr
  · intro id d hpc
    simp [new, pcs] at hpc
  · intro msg hm
    simp [new] at hm
  · intro h ctx id pc hget
    simp [new] at hget

/-! ## Dead relays -/

theorem tx_alive_iff {s : Sys} {id : RelayId} :
    s.tx_alive id = true ↔ ∃ h ctx, s.socket_ctxs.get h = some ctx ∧ ctx.uplink_tx = some id := by
  simp only [tx_alive, List.any_eq_true, beq_iff_eq, Prod.exists, Table.mem_iter]

/-- The relay of a slot's uplink has not returned, unless it has reported. -/
def Announced (s : Sys) : Prop :=
  ∀ h ctx id reason, s.socket_ctxs.get h = some ctx → ctx.uplink_tx = some id → s.pcs[id]? = some (.returned reason) →
    reason = .remote_eof

theorem announced_effect {s s' : Sys} {l : Label} (hl : l ≠ .silent) (he : Effect s l s') (hg : Good s) (hr : Reports s)
    (ha : Announced s) : Announced s' := by
  intro h ctx x reason hget hid hpc
  cases he.relayView hg with
  | other hpcs _ huplink =>
    rcases huplink h ctx x hget hid with hsel | ⟨c, hc, hcid, -⟩
    · rw [hsel] at hpc
      cases hpc
    · rcases pcs_old hpcs hpc with hold | hnew
      · exact ha h c x reason hc hcid hold
      · cases hnew
  | relay id r r' e room payload hrel hstep hsilent hpcs hctxs =>
    rw [hctxs] at hget
    rw [pcs_stepped hrel hpcs] at hpc
    split at hpc
    · rename_i hx
      subst hx
      obtain ⟨-, -, hret⟩ := RelayTask.step_cases hstep fun d hd => hr.data x d (hd ▸ pcs_of_relay hrel)
      obtain ⟨hshut, rfl⟩ := hret reason (Option.some.inj hpc)
      -- The slot has the sender, so a quiet step returns for `remote_eof` only.
      have halive := tx_alive_iff.2 ⟨h, ctx, hget, hid⟩
      by_contra hne
      have hexit : r.exitsSilently .shut = true := by simp [RelayTask.exitsSilently, hshut, hne]
      rw [hsilent hl hexit] at halive
      cases halive
    · exact ha h ctx x reason hget hid hpc

/-- In state `s`, a relay of the current generation of a slot that is relaying has
returned only if its report is in the channel. -/
def DeadRelayReported (s : Sys) : Prop :=
  ∀ h ctx id r reason, s.socket_ctxs.get h = some ctx → ctx.state = .Relaying → s.relays[id]? = some r →
    r.handle = h → r.gen = ctx.hist.rearms → r.pc = .returned reason → eofFrom id h ∈ s.global_rx

/-- A relay of the current generation is the slot's uplink. -/
theorem Good.uplink_of_current {s : Sys} (hg : Good s) {h : SocketHandle} {ctx : SocketCtx} {id : RelayId} {r : RelayTask}
    (hget : s.socket_ctxs.get h = some ctx) (hr : s.relays[id]? = some r) (hh : r.handle = h)
    (hgen : r.gen = ctx.hist.rearms) : ctx.uplink_tx = some id := by
  obtain ⟨c, hc, -, hcur⟩ := hg.linked.owner id h ctx.hist.rearms (by simp [owners, hr, hh, hgen])
  obtain rfl : ctx = c := by simpa [hget] using hc
  exact hcur rfl

theorem reported_of_announced {s : Sys} (hg : Good s) (hr : Reports s) (ha : Announced s) : DeadRelayReported s := by
  intro h ctx id r reason hget _ hrel hh hgen hpc
  have hid := hg.uplink_of_current hget hrel hh hgen
  have hpcs : s.pcs[id]? = some (.returned reason) := hpc ▸ pcs_of_relay hrel
  obtain rfl := ha h ctx id reason hget hid hpcs
  exact hr.told h ctx id _ hget hid hpcs rfl

/-- After a silent exit the relay of some slot has returned and its report is not
in the channel. -/
theorem not_reported_of_silent {pool_size : Nat} {s s' : Sys} {e : Event} (hreach : Reachable pool_size s)
    (he : s.step e = some s') (hx : ExitsSilently s e) : ¬ DeadRelayReported s' := by
  obtain ⟨id, re, r, rfl, hrel, hexit, halive⟩ := hx
  -- The relay is in `shutdown` for another reason than `remote_eof`, and returns now.
  obtain ⟨reason, hne, hpc, rfl⟩ : ∃ reason, reason ≠ .remote_eof ∧ r.pc = .shutdown reason ∧ re = .shut := by
    unfold RelayTask.exitsSilently at hexit
    split at hexit
    · exact ⟨_, by simpa using hexit, ‹_›, rfl⟩
    · cases hexit
  have hs' : s' = { s with relays := s.relays.set id { r with pc := .returned reason } } := by
    simp only [step, on_relay, hrel, RelayTask.step, hpc, Option.bind_eq_bind, Option.bind_some, Option.pure_def,
      Option.some.injEq] at he
    exact he.symm
  obtain ⟨h, ctx, hget, hid⟩ := tx_alive_iff.1 halive
  have hown := hreach.good.linked.uplink h ctx id hget hid
  simp only [owners, List.getElem?_map, hrel, Option.map_some, Option.some.injEq, Prod.mk.injEq] at hown
  have hrel' : s'.relays[id]? = some { r with pc := .returned reason } := by
    rw [hs']
    exact List.getElem?_set_self (List.getElem?_eq_some_iff.1 hrel).1
  have hrelaying : ctx.state = .Relaying := (hreach.slotsOk h ctx hget).relaying hid
  have hreach' : Reachable pool_size s' := .step hreach trivial he
  intro hdead
  have hget' : s'.socket_ctxs.get h = some ctx := by
    rw [hs']
    exact hget
  have hm := hdead h ctx id _ reason hget' hrelaying hrel' hown.1 hown.2 rfl
  -- An empty message comes from a relay that has reported.
  obtain ⟨pc, hpc', hrep⟩ := hreach'.reports.eof _ hm rfl
  obtain rfl : RelayPc.returned reason = pc := Option.some.inj ((pcs_of_relay hrel').symm.trans hpc')
  cases reason <;> simp_all [RelayPc.reported]

/-- In every run: the end of a slot's relay is reported in every state, exactly
when no relay ever returns for another reason than the end of the remote stream
while its slot still has the sender. -/
theorem dead_relay_reported_iff {pool_size : Nat} {tr : List (Taken Sys Event)} {s : Sys}
    (hrun : Run (new pool_size) step tr s) :
    (∀ t ∈ tr, DeadRelayReported t.post) ↔ ∀ t ∈ tr, ¬ ExitsSilently t.pre t.ev := by
  constructor
  · intro hdead t ht hx
    obtain ⟨hreach, hstep⟩ := hrun.taken (fun _ _ => True) (fun _ _ => trivial) t ht
    exact not_reported_of_silent hreach hstep hx (hdead t ht)
  · intro hok t ht
    obtain ⟨hby, hstep⟩ := hrun.taken (fun s e => ¬ ExitsSilently s e) hok t ht
    have hpost : ReachableBy pool_size (fun s e => ¬ ExitsSilently s e) t.post := .step hby (hok t ht) hstep
    have hreach : Reachable pool_size t.post := hpost.mono fun _ _ _ => trivial
    have hann := hpost.inv_good (· ≠ .silent) (by decide)
      (fun s e l hse hsp => by
        cases hsp with
        | reopen | overflow => decide
        | silent hx => exact absurd hx hse)
      (fun s => Reports s ∧ Announced s) ⟨Reachable.reports .init, fun h ctx id reason hget => by simp [new] at hget⟩
      fun s l s' hl he hg hi => ⟨reports_effect he hg hi.1, announced_effect hl he hg hi.1 hi.2⟩
    exact reported_of_announced hreach.good hann.1 hann.2

/-- The remote closes the stream of a client, and the relay reports it and returns:
nothing exits silently, and the report is in the channel. -/
theorem dead_relay_reported_eof : ∃ tr s, Run (new 2) step tr s ∧
    (∃ r, s.relays[0]? = some r ∧ r.pc = .returned .remote_eof) ∧
    ((∀ t ∈ tr, DeadRelayReported t.post) ↔ ∀ t ∈ tr, ¬ ExitsSilently t.pre t.ev) := by
  have hrun : (runEvents step (new 2) (connect ⟨true, true⟩ (ipv4 93 184 216 34) ++
      packet ⟨true, true⟩ [.data [1]] ++ [Event.relay 0 .read_eof, Event.relay 0 .sent, Event.relay 0 .shut])).any
      (fun s => (s.relays[0]?).any fun r => r.pc == .returned .remote_eof) = true := by
    decide +kernel
  obtain ⟨tr, s, hs, hp⟩ := exists_run_of_any hrun
  obtain ⟨r, hr, hpc⟩ := (Option.any_eq_true _ _).1 hp
  exact ⟨tr, s, hs, ⟨r, hr, by simpa using hpc⟩, dead_relay_reported_iff hs⟩

/-- The relay of a client is idle for too long and returns: the slot is relaying,
its relay is gone, and no message is in the channel. -/
theorem idle_relay_not_reported : ∃ s, Reachable 2 s ∧ ¬ DeadRelayReported s ∧ s.global_rx = [] := by
  have hrun : (runEvents step (new 2) (connect ⟨true, true⟩ (ipv4 93 184 216 34) ++
      packet ⟨true, true⟩ [.data [1]] ++ [Event.relay 0 .recv, Event.relay 0 (.wrote 1), Event.relay 0 .idle, Event.relay 0 .shut])).any
      (fun s => ((s.socket_ctxs.get 0).any fun ctx => (s.relays[0]?).any fun r => decide (ctx.state = .Relaying ∧
        r.handle = 0 ∧ r.gen = ctx.hist.rearms ∧ r.pc = .returned .idle_timeout)) && s.global_rx.isEmpty) = true := by
    decide +kernel
  obtain ⟨s, hs, hp⟩ := exists_reach_of_any hrun
  obtain ⟨hslot, hrx⟩ := Bool.and_eq_true_iff.1 hp
  obtain ⟨ctx, hget, hr⟩ := (Option.any_eq_true _ _).1 hslot
  obtain ⟨r, hrel, hfacts⟩ := (Option.any_eq_true _ _).1 hr
  obtain ⟨hstate, hh, hgen, hpc⟩ := of_decide_eq_true hfacts
  have hnil := List.isEmpty_iff.1 hrx
  refine ⟨s, hs, fun hdead => ?_, hnil⟩
  have hm := hdead 0 ctx 0 r .idle_timeout hget hstate hrel hh hgen hpc
  rw [hnil] at hm
  cases hm

end Sys

end MiniVpn
