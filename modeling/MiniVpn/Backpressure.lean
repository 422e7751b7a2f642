import MiniVpn.Changes
import MiniVpn.Handshakes
import MiniVpn.Scheduling
import MiniVpn.Upcalls
/-!
# The uplink under backpressure

Between the local socket and the remote stream a payload crosses a bounded
channel. The loop takes it from the socket only with a permit for the channel,
and the relay takes the next message only when the last one is written. So what
the relay has written, with what is still on its way, is what was put in.
-/
open Lib

namespace MiniVpn

/-- What `write_all` has still to write. -/
def RelayPc.writing : RelayPc → Bytes
  | .write rest => rest
  | _ => []

/-- The task has not left its loop. -/
def RelayPc.inLoop : RelayPc → Bool
  | .shutdown _ | .returned _ => false
  | _ => true

/-- Where `write_all` is with these bytes still to write. -/
def RelayPc.afterWrite (rest : Bytes) : RelayPc := if rest.isEmpty then .select else .write rest

theorem RelayPc.writing_afterWrite (rest : Bytes) : (afterWrite rest).writing = rest := by
  unfold afterWrite
  split
  · rename_i hnil
    exact (List.isEmpty_iff.1 hnil).symm
  · rfl

namespace RelayTask

/-- What the task has written, the rest of the message it is writing, and the
messages still in its channel. -/
def carried (r : RelayTask) : Bytes := r.written ++ r.pc.writing ++ r.rx.flatten

theorem carried_new (handle : SocketHandle) (target : TargetAddr) (rx : List Bytes) (gen : Nat) :
    (new handle target rx gen).carried = rx.flatten := rfl

theorem carried_push (r : RelayTask) (payload : Bytes) :
    { r with rx := r.rx ++ [payload] }.carried = r.carried ++ payload := by
  simp [carried]

/-- A step that stays in the loop moves bytes from the channel to the stream and
loses none. -/
theorem step_carried {r r' : RelayTask} {tx_alive room : Bool} {e : RelayEvent} {message : Option Bytes}
    (h : r.step tx_alive room e = some (r', message)) (hloop : r'.pc.inLoop = true) :
    r.pc.inLoop = true ∧ r'.carried = r.carried := by
  have branch {r₁ : RelayTask} {m : Option Bytes} (h : some (r₁, m) = some (r', message)) : r₁ = r' :=
    (Prod.mk.inj (Option.some.inj h)).1
  unfold step at h
  split at h <;> rename_i hpc
  · -- The next message.
    split at h
    · rename_i payload rx hrx
      obtain rfl := branch h
      simp [carried, hpc, hrx, RelayPc.writing, RelayPc.inLoop]
    · cases h
  · split at h
    · obtain rfl := branch h
      cases hloop
    · cases h
  · -- Part of the message is written.
    rename_i rest n
    split at h
    · obtain rfl := branch h
      refine ⟨by rw [hpc]; rfl, ?_⟩
      have hwriting : r.pc.writing = rest := by rw [hpc]; rfl
      change (r.written ++ rest.take n) ++ (RelayPc.afterWrite (rest.drop n)).writing ++ r.rx.flatten = r.carried
      rw [RelayPc.writing_afterWrite, carried, hwriting, List.append_assoc r.written, List.take_append_drop]
    · cases h
  · obtain rfl := branch h
    cases hloop
  · split at h
    · cases h
    · obtain rfl := branch h
      simp [carried, hpc, RelayPc.writing, RelayPc.inLoop]
  · obtain rfl := branch h
    simp [carried, hpc, RelayPc.writing, RelayPc.inLoop]
  · obtain rfl := branch h
    cases hloop
  · split at h
    · obtain rfl := branch h
      simp [carried, hpc, RelayPc.writing, RelayPc.inLoop]
    · cases h
  · split at h
    · obtain rfl := branch h
      cases hloop
    · cases h
  · obtain rfl := branch h
    cases hloop
  · obtain rfl := branch h
    cases hloop
  · cases h

end RelayTask

/-- A turn puts nothing on the uplink, and reads only for a slot without one. -/
theorem Turn.uplink {socket socket' : TcpSocket} {ctx ctx' : SocketCtx} (ht : Turn socket ctx socket' ctx') :
    ctx'.hist.fed = ctx.hist.fed ∧ (ctx.uplink_tx ≠ none → ctx'.hist.extracted = ctx.hist.extracted) := by
  cases ht with
  | flush =>
    obtain ⟨n, tx, diag, he⟩ := flush_downlink_cases socket ctx
    rw [he]
    exact ⟨rfl, fun _ => rfl⟩
  | tunFlush ok => exact ⟨rfl, fun _ => rfl⟩
  | orphan payload rest hup => exact ⟨rfl, fun hne => absurd hup hne⟩
  | buffer payload rest endpoint hup =>
    rw [SocketCtx.buffer_uplink_hist]
    exact ⟨rfl, fun hne => absurd hup hne⟩
  | openFailed payload rest endpoint hup => exact ⟨rfl, fun hne => absurd hup hne⟩

theorem flatten_firstMessages (buffer : Bytes) : (firstMessages buffer).flatten = buffer := by
  unfold firstMessages
  split
  · rename_i hnil
    exact (List.isEmpty_iff.1 hnil).symm
  · simp

namespace Sys

/-- The relay of an uplink is where it was, and carries what it carried. -/
def RelayKept (s s' : Sys) (id : RelayId) : Prop :=
  ∀ r', s'.relays[id]? = some r' → r'.pc.inLoop = true →
    ∃ r, s.relays[id]? = some r ∧ r.pc.inLoop = true ∧ r'.carried = r.carried

/-- What an effect does to the uplink of a slot whose context is `ctx'` after it. -/
inductive Piping (s s' : Sys) (x : SocketHandle) (ctx' : SocketCtx) : Prop
  /-- The slot starts a new generation. -/
  | reset : ctx'.uplink_tx = none → ctx'.hist.fed = [] → Piping s s' x ctx'
  /-- The slot gets an uplink, with a new relay. -/
  | first (ctx : SocketCtx) (r : RelayTask) : s.socket_ctxs.get x = some ctx → ctx.uplink_tx = none →
      ctx'.uplink_tx = some s.relays.length → s'.relays = s.relays ++ [r] → ctx'.hist.fed = ctx.hist.fed ++ r.carried →
      Piping s s' x ctx'
  /-- A payload goes from the socket to the channel. -/
  | push (ctx : SocketCtx) (id : RelayId) (payload : Bytes) (endpoint : Option IpEndpoint) :
      s.socket_ctxs.get x = some ctx → ctx.uplink_tx = some id → ctx'.uplink_tx = some id →
      ctx'.hist.extracted = ctx.hist.extracted ++ [(payload, endpoint)] → ctx'.hist.fed = ctx.hist.fed ++ payload →
      s'.relays = (s.send id payload).relays → Piping s s' x ctx'
  | kept (ctx : SocketCtx) : s.socket_ctxs.get x = some ctx → ctx'.uplink_tx = ctx.uplink_tx →
      ctx'.hist.fed = ctx.hist.fed → (ctx.uplink_tx ≠ none → ctx'.hist.extracted = ctx.hist.extracted) →
      (∀ id, ctx.uplink_tx = some id → RelayKept s s' id) → Piping s s' x ctx'

variable {s s' : Sys} {x h : SocketHandle} {ctx ctx' : SocketCtx}

theorem RelayKept.of_eq {id : RelayId} (h : s'.relays[id]? = s.relays[id]?) : RelayKept s s' id :=
  fun r' hr' hloop => ⟨r', h ▸ hr', hloop, rfl⟩

theorem Piping.same (hx : s.socket_ctxs.get x = some ctx') (hrs : s'.relays = s.relays) : Piping s s' x ctx' :=
  .kept ctx' hx rfl rfl (fun _ => rfl) fun _ _ => .of_eq (by rw [hrs])

/-- An effect that writes one context. -/
theorem Piping.write {ctx₀ : SocketCtx} (hctxs : s'.socket_ctxs = s.socket_ctxs.insert h ctx₀)
    (hx : s'.socket_ctxs.get x = some ctx') (hwritten : Piping s s' h ctx₀)
    (hother : ∀ ctx id, x ≠ h → s.socket_ctxs.get x = some ctx → ctx.uplink_tx = some id → RelayKept s s' id) :
    Piping s s' x ctx' := by
  rw [hctxs, Table.get_insert] at hx
  split at hx
  · subst_vars
    obtain rfl := Option.some.inj hx
    exact hwritten
  · rename_i hne
    exact .kept ctx' hx rfl rfl (fun _ => rfl) fun id hid => hother ctx' id hne hx hid

theorem Piping.rearm (hctxs : s'.socket_ctxs = s.socket_ctxs.insert h ctx.rearmed) (hrs : s'.relays = s.relays)
    (hx : s'.socket_ctxs.get x = some ctx') : Piping s s' x ctx' :=
  .write hctxs hx (.reset rfl rfl) fun _ _ _ _ _ => .of_eq (by rw [hrs])

/-- An uplink leads to a relay. -/
theorem Linked.lt (hl : Linked s) {id : RelayId} (hx : s.socket_ctxs.get x = some ctx) (hup : ctx.uplink_tx = some id) :
    id < s.relays.length := by
  have := (List.getElem?_eq_some_iff.1 (hl.uplink x ctx id hx hup)).1
  rwa [owners, List.length_map] at this

/-- Slots do not share an uplink. -/
theorem Linked.unique (hl : Linked s) {id : RelayId} (hx : s.socket_ctxs.get x = some ctx) (hup : ctx.uplink_tx = some id)
    {y : SocketHandle} {c : SocketCtx} (hy : s.socket_ctxs.get y = some c) (hup' : c.uplink_tx = some id) : x = y :=
  (Prod.mk.inj (Option.some.inj ((hl.uplink x ctx id hx hup).symm.trans (hl.uplink y c id hy hup')))).1

theorem Effect.piping {l : Label} (he : Effect s l s') (hg : Good s) (hx : s'.socket_ctxs.get x = some ctx') :
    Piping s s' x ctx' := by
  -- A new relay leaves the others where they are.
  have appended {r : RelayTask} {s' : Sys} (hrs : s'.relays = s.relays ++ [r]) {y : SocketHandle} {c : SocketCtx}
      {id : RelayId} (hy : s.socket_ctxs.get y = some c) (hid : c.uplink_tx = some id) : RelayKept s s' id :=
    .of_eq (by rw [hrs, List.getElem?_append_left (hg.linked.lt hy hid)])
  cases he with
  | pool | flows | mark | unmark | schedule | segment | dispatch | discard | dropHandshake => exact .same hx rfl
  | grow port n l hgrow =>
    simp only [hgrow.ctx] at hx
    split at hx
    · obtain rfl := Option.some.inj hx
      exact .reset rfl rfl
    · exact .same hx rfl
  | turn h ctx socket' ctx' hget ht =>
    refine .write rfl hx ?_ fun _ _ _ _ _ => .of_eq rfl
    obtain ⟨hfed, hext⟩ := ht.uplink
    exact .kept ctx hget ht.frame.2.1 hfed hext fun _ _ => .of_eq rfl
  | deliver msg rest ctx tx socket' ctx' l _ _ hget _ hfl =>
    refine .write rfl hx ?_ fun _ _ _ _ _ => .of_eq rfl
    obtain ⟨n, buf, diag, he⟩ := flush_downlink_cases (s.sockets.get msg.handle) (ctx.received msg.payload)
    obtain ⟨-, rfl⟩ := Prod.mk.inj (hfl.symm.trans he)
    exact .kept ctx hget rfl rfl (fun _ => rfl) fun _ _ => .of_eq rfl
  | rearm h ctx now hget => exact .rearm rfl rfl hx
  | eof msg rest ctx now _ _ hget => exact .rearm rfl rfl hx
  | refuse i done ctx now _ hm => exact .rearm rfl rfl hx
  | relayed h ctx tx payload rest hget htx =>
    refine .write rfl hx (.push ctx tx payload _ hget htx htx rfl rfl rfl) fun c id hne hc hid => .of_eq ?_
    have hne' : tx ≠ id := by
      rintro rfl
      exact hne (hg.linked.unique hc hid hget htx)
    simp [send, put, hne']
  | opened h ctx payload rest endpoint target fake_ip now l hget hup =>
    refine .write rfl hx (.first ctx _ hget hup ?_ rfl ?_) fun c id _ hc hid => appended rfl hc hid
    · cases fake_ip <;> rfl
    · cases fake_ip <;> simp [RelayTask.carried_new, SocketCtx.opened, SocketCtx.hold_fake_ip, SocketCtx.noteFed, SocketCtx.noteExtracted]
  | spawned h ctx payload rest endpoint target fake_ip now hget hup hstate hr =>
    refine .write rfl hx ?_ fun _ _ _ _ _ => .of_eq rfl
    rw [spawned_eq ((hg.slots h ctx hget).buffer hstate) hr.length_le]
    refine .kept ctx hget ?_ ?_ (fun hne => absurd hup hne) fun _ _ => .of_eq rfl <;> cases fake_ip <;> rfl
  | install i done ctx _ hm =>
    have hup := (hg.slots _ ctx hm.get).uplink_eq_none (by simp [hm.pending])
    refine .write rfl hx (.first ctx _ hm.get hup rfl rfl ?_) fun c id _ hc hid => appended rfl hc hid
    rw [RelayTask.carried_new, flatten_firstMessages]
    rfl
  | relay id r r' e room payload l hr hstep =>
    refine .kept ctx' hx rfl rfl (fun _ => rfl) fun id' _ r'' hr'' hloop => ?_
    simp only [List.getElem?_set] at hr''
    split at hr''
    · subst_vars
      split at hr''
      · obtain rfl := Option.some.inj hr''
        obtain ⟨hin, hcar⟩ := RelayTask.step_carried hstep hloop
        exact ⟨r, hr, hin, hcar⟩
      · cases hr''
    · exact ⟨r'', hr'', hloop, rfl⟩

/-- A slot without uplink has fed nothing, and a relay in its loop carries what its
slot has fed. -/
structure Piped (s : Sys) : Prop where
  unfed : ∀ h ctx, s.socket_ctxs.get h = some ctx → ctx.uplink_tx = none → ctx.hist.fed = []
  carried : ∀ h ctx id r, s.socket_ctxs.get h = some ctx → ctx.uplink_tx = some id → s.relays[id]? = some r →
    r.pc.inLoop = true → r.carried = ctx.hist.fed

theorem piped_effect {l : Label} (he : Effect s l s') (hg : Good s) (hp : Piped s) : Piped s' := by
  refine ⟨fun x ctx' hx hup => ?_, fun x ctx' id r' hx hup hr' hloop => ?_⟩
  · cases he.piping hg hx with
    | reset _ hfed => exact hfed
    | first ctx r _ _ hup' => simp [hup] at hup'
    | push ctx id payload endpoint _ _ hup' => simp [hup] at hup'
    | kept ctx hget hup' hfed => exact hfed.trans (hp.unfed x ctx hget (hup' ▸ hup))
  · cases he.piping hg hx with
    | reset hup' => simp [hup] at hup'
    | first ctx r hget hnone hup' hrs hfed =>
      obtain rfl : s.relays.length = id := by simpa [hup] using hup'.symm
      obtain rfl : r = r' := by simpa [hrs] using hr'
      rw [hfed, hp.unfed x ctx hget hnone, List.nil_append]
    | push ctx id' payload endpoint hget hup₀ hup' _ hfed hrs =>
      obtain rfl : id' = id := by simpa [hup] using hup'.symm
      simp only [hrs, send, List.getElem?_modify, if_true] at hr'
      obtain ⟨r, hr, rfl⟩ := Option.map_eq_some_iff.1 hr'
      rw [RelayTask.carried_push, hp.carried x ctx id' r hget hup₀ hr hloop, hfed]
    | kept ctx hget hup' hfed _ hkept =>
      obtain ⟨r, hr, hin, hcar⟩ := hkept id (hup' ▸ hup) r' hr' hloop
      rw [hcar, hfed, hp.carried x ctx id r hget (hup' ▸ hup) hr hin]

theorem Reachable.piped {pool_size : Nat} (hr : Reachable pool_size s) : Piped s :=
  hr.inv_good Piped ⟨fun h ctx hget => by simp [new] at hget, fun h ctx id r hget => by simp [new] at hget⟩
    fun _ _ _ he hg hp => piped_effect he hg hp

theorem Effect.relays_length_le {l : Label} (he : Effect s l s') : s.relays.length ≤ s'.relays.length := by
  cases he with
  | relayed | opened | relay => simp [send, put]
  | install => simp [Sys.install]
  | _ => exact le_rfl

/-- Slot `x` had the uplink `id` in `s` already, with context `ctx'` later. What it has
read since then it has fed. -/
def FedSince (s : Sys) (x : SocketHandle) (id : RelayId) (ctx' : SocketCtx) : Prop :=
  ∃ ctx, s.socket_ctxs.get x = some ctx ∧ ctx.uplink_tx = some id ∧ ∃ reads,
    ctx'.hist.extracted = ctx.hist.extracted ++ reads ∧ ctx'.hist.fed = ctx.hist.fed ++ readBytes reads

theorem FedSince.refl {id : RelayId} (hx : s.socket_ctxs.get x = some ctx) (hup : ctx.uplink_tx = some id) :
    FedSince s x id ctx := ⟨ctx, hx, hup, [], by simp, by simp [readBytes]⟩

theorem FedSince.trans {id : RelayId} {s₀ : Sys} (h : FedSince s x id ctx')
    (hprev : ∀ ctx, s.socket_ctxs.get x = some ctx → ctx.uplink_tx = some id → FedSince s₀ x id ctx) :
    FedSince s₀ x id ctx' := by
  obtain ⟨ctx, hx, hup, reads, hext, hfed⟩ := h
  obtain ⟨ctx₀, hx₀, hup₀, reads₀, hext₀, hfed₀⟩ := hprev ctx hx hup
  refine ⟨ctx₀, hx₀, hup₀, reads₀ ++ reads, ?_, ?_⟩
  · rw [hext, hext₀, List.append_assoc]
  · rw [hfed, hfed₀, readBytes_append, List.append_assoc]

theorem Effect.fedSince {l : Label} {id : RelayId} (he : Effect s l s') (hg : Good s)
    (hx : s'.socket_ctxs.get x = some ctx') (hup : ctx'.uplink_tx = some id) (hid : id < s.relays.length) :
    FedSince s x id ctx' := by
  cases he.piping hg hx with
  | reset hup' => simp [hup] at hup'
  | first ctx r _ _ hup' =>
    -- A new relay is behind all there were.
    obtain rfl : s.relays.length = id := by simpa [hup] using hup'.symm
    exact absurd hid (lt_irrefl _)
  | push ctx id' payload endpoint hget hup₀ hup' hext hfed =>
    obtain rfl : id' = id := by simpa [hup] using hup'.symm
    exact ⟨ctx, hget, hup₀, [(payload, endpoint)], hext, by rw [hfed, readBytes_singleton]⟩
  | kept ctx hget hup' hfed hext =>
    rw [hup] at hup'
    refine ⟨ctx, hget, hup'.symm, [], ?_, by simp [hfed, readBytes]⟩
    rw [hext (by simp [← hup']), List.append_nil]

/-- The same from a good state `s₀` on, through what leads to `s`. -/
structure Onward (s₀ : Sys) (x : SocketHandle) (id : RelayId) (s : Sys) : Prop where
  good : Good s
  lt : id < s.relays.length
  fed : ∀ ctx, s.socket_ctxs.get x = some ctx → ctx.uplink_tx = some id → FedSince s₀ x id ctx

theorem Onward.init {s₀ : Sys} {id : RelayId} (hg : Good s₀) (hid : id < s₀.relays.length) : Onward s₀ x id s₀ :=
  ⟨hg, hid, fun _ => .refl⟩

theorem Onward.effect {s₀ : Sys} {id : RelayId} {l : Label} (h : Onward s₀ x id s) (he : Effect s l s') :
    Onward s₀ x id s' :=
  ⟨good_effect he h.good, h.lt.trans_le he.relays_length_le, fun _ hx hup => (he.fedSince h.good hx hup h.lt).trans h.fed⟩

theorem Onward.step {s₀ : Sys} {id : RelayId} {e : Event} (h : Onward s₀ x id s) (he : s.step e = some s') :
    Onward s₀ x id s' := by
  obtain ⟨ls, hp, -⟩ := step_effects he
  exact hp.inv (fun _ => True) (Onward s₀ x id) (fun _ _ _ _ he h => h.effect he) (fun _ _ => trivial) h

theorem Onward.run {s₀ : Sys} {id : RelayId} {tr : List (Taken Sys Event)} (h : Onward s₀ x id s₀)
    (hrun : Run s₀ Sys.step tr s) : Onward s₀ x id s := by
  induction hrun with
  | nil => exact h
  | snoc _ he ih => exact ih.step he

/-! ## The step that installs the uplink -/

/-- In this step slot `h` gets the uplink `id`. -/
structure Installs (s : Sys) (e : Event) (s' : Sys) (h : SocketHandle) (id : RelayId) : Prop where
  step : s.step e = some s'
  before : ∀ ctx, s.socket_ctxs.get h = some ctx → ctx.uplink_tx ≠ some id
  after : ∃ ctx, s'.socket_ctxs.get h = some ctx ∧ ctx.uplink_tx = some id

theorem step_relays {e : Event} (he : s.step e = some s') : s'.relays.length = s.relays.length ∨
    ∃ h target rx gen, rx.length ≤ 1 ∧ s'.relays = s.relays ++ [.new h target rx gen] := by
  have same (hrs : s'.relays.map (·.target) = s.relays.map (·.target)) : s'.relays.length = s.relays.length := by
    simpa using congrArg List.length hrs
  rcases step_asked he with hs | ⟨h, todo, upstream, now, ctx, -, -, -, ha⟩
  · refine hs.relays.imp same ?_
    rintro ⟨done, -, rx, gen, hrx, hrs⟩
    exact ⟨_, _, rx, gen, hrx, hrs⟩
  · cases ha with
    | nothing _ _ hrs | released _ _ hrs | spawned _ _ _ _ _ _ _ hrs => exact .inl (same hrs)
    | opened endpoint target fake_ip _ _ _ hrs =>
      obtain ⟨payload, gen, hrs⟩ := hrs
      exact .inr ⟨h, target, [payload], gen, by simp, hrs⟩

/-- The relay of a new uplink has not started, and at most one message is in its
channel. -/
theorem Installs.first {pool_size : Nat} {e : Event} {id : RelayId} (hr : Reachable pool_size s)
    (hi : Installs s e s' h id) : ∃ target rx gen, rx.length ≤ 1 ∧ s'.relays[id]? = some (.new h target rx gen) := by
  obtain ⟨ctx', hx', hup'⟩ := hi.after
  have hlinked := (Reachable.good (.step hr trivial hi.step)).linked
  have hlt := hlinked.lt hx' hup'
  have hnew : ¬ id < s.relays.length := by
    intro hold
    obtain ⟨ctx, hx, hup, -⟩ := ((Onward.init hr.good hold).step hi.step).fed ctx' hx' hup'
    exact hi.before ctx hx hup
  rcases step_relays hi.step with hlen | ⟨h', target, rx, gen, hrx, hrs⟩
  · exact absurd (hlen ▸ hlt) hnew
  · rw [hrs, List.length_append, List.length_singleton] at hlt
    obtain rfl : id = s.relays.length := Nat.le_antisymm (Nat.lt_succ_iff.1 hlt) (Nat.not_lt.1 hnew)
    have hget : s'.relays[s.relays.length]? = some (.new h' target rx gen) := by simp [hrs]
    have hown := hlinked.uplink h ctx' _ hx' hup'
    rw [owners, List.getElem?_map, hget] at hown
    obtain rfl : h' = h := (Prod.mk.inj (Option.some.inj hown)).1
    exact ⟨target, rx, gen, hrx, hget⟩

/-! ## Visits -/

/-- A visit to slot `h`, which has the uplink `id`. -/
inductive UplinkVisit (s : Sys) (h : SocketHandle) (ctx : SocketCtx) (id : RelayId) (s' : Sys) : Prop
  /-- Nothing is read: the channel is full, or the socket has nothing. -/
  | idle (ctx' : SocketCtx) : s.try_reserve id = .Full ∨ (s.sockets.get h).can_recv = false →
      s'.relays = s.relays → (s'.sockets.get h).rx_buffer = (s.sockets.get h).rx_buffer →
      s'.socket_ctxs.get h = some ctx' → ctx'.hist.extracted = ctx.hist.extracted → UplinkVisit s h ctx id s'
  /-- With a permit, what is read goes to the channel. -/
  | push (ctx' : SocketCtx) (payload : Bytes) (endpoint : Option IpEndpoint) : s.try_reserve id = .Permit →
      s'.relays = (s.send id payload).relays →
      payload ++ (s'.sockets.get h).rx_buffer.data = (s.sockets.get h).rx_buffer.data →
      s'.socket_ctxs.get h = some ctx' → ctx'.hist.extracted = ctx.hist.extracted ++ [(payload, endpoint)] →
      UplinkVisit s h ctx id s'
  /-- The relay is gone: the slot is rearmed. -/
  | closed : s.try_reserve id = .Closed → s'.relays = s.relays → RearmedIn s s' h → UplinkVisit s h ctx id s'

/-- The slots to process and the dirty set do not matter. -/
theorem UplinkVisit.congr {id : RelayId} (todo : List SocketHandle) (dirty : Finset SocketHandle)
    (hv : UplinkVisit { s with todo := todo } h ctx id s') : UplinkVisit s h ctx id { s' with dirty := dirty } := by
  cases hv with
  | idle ctx' hwhy hrs hrx hx hext => exact .idle ctx' hwhy hrs hrx hx hext
  | push ctx' payload endpoint hperm hrs hrx hx hext => exact .push ctx' payload endpoint hperm hrs hrx hx hext
  | closed hclosed hrs hre => exact .closed hclosed hrs hre

/-- Flushing the backlog does not touch what was received. -/
theorem flush_downlink_reads {socket socket' : TcpSocket} (hfl : flush_downlink socket ctx = (socket', ctx')) :
    socket'.rx_buffer = socket.rx_buffer ∧ socket'.can_recv = socket.can_recv ∧
      ctx'.hist.extracted = ctx.hist.extracted ∧ ctx'.rearmed = ctx.rearmed := by
  obtain ⟨n, buf, diag, hcases⟩ := flush_downlink_cases socket ctx
  obtain ⟨rfl, rfl⟩ := Prod.mk.inj (hfl.symm.trans hcases)
  exact ⟨rfl, rfl, rfl, rfl⟩

theorem established_uplink_visit {socket : TcpSocket} {ctx₁ : SocketCtx} {id : RelayId} {now : Nat}
    (hget : s.socket_ctxs.get h = some ctx) (hfl : flush_downlink (s.sockets.get h) ctx = (socket, ctx₁))
    (he : (s.put h socket ctx₁).established_uplink h ctx₁ id now = some s') : UplinkVisit s h ctx id s' := by
  obtain ⟨hrx, hrecv, hext, hrearmed⟩ := flush_downlink_reads hfl
  have hself : (s.put h socket ctx₁).sockets.get h = socket := SocketSet.get_set_self _ _ _
  unfold established_uplink at he
  split at he
  · rename_i hperm
    rcases extract_cases socket with ⟨hno, hx⟩ | ⟨-, payload, rest, -, hsplit, hx⟩ <;>
      simp only [hself, hx, Option.bind_eq_bind, Option.bind_some, Option.pure_def, Option.some.injEq, put_put] at he
    · subst he
      refine .idle ctx₁ (.inr (hrecv ▸ hno)) rfl ?_ (Table.get_insert_self _ _ _) hext
      rw [hself, hrx]
    · subst he
      refine .push (ctx₁.relayed payload socket.local_endpoint) payload socket.local_endpoint hperm rfl ?_
        (Table.get_insert_self _ _ _) ?_
      · rw [← hrx, ← hsplit]
        simp [send, put, TcpSocket.afterRead]
      · simp [SocketCtx.relayed, SocketCtx.noteFed, SocketCtx.noteExtracted, hext]
  · rename_i hfull
    obtain rfl := Option.some.inj he
    refine .idle ctx₁ (.inl hfull) rfl ?_ (Table.get_insert_self _ _ _) hext
    rw [hself, hrx]
  · rename_i hclosed
    obtain ⟨-, rfl⟩ := rearm_some he
    refine .closed hclosed rfl ⟨ctx, hget, slot_eq_some.2 ⟨?_, ?_⟩⟩
    · rw [← hrearmed]
      exact Table.get_insert_self _ _ _
    · rw [← (flush_downlink_frame hfl).1]
      exact SocketSet.get_set_self _ _ _

theorem process_dirty_slot_visit {id : RelayId} {upstream : Upstream} {now : Nat} (hget : s.socket_ctxs.get h = some ctx)
    (hup : ctx.uplink_tx = some id) (he : s.process_dirty_slot h upstream now = some s') : UplinkVisit s h ctx id s' := by
  simp only [process_dirty_slot, Option.bind_eq_bind, Option.bind_eq_some_iff] at he
  obtain ⟨s₁, h1, he⟩ := he
  obtain ⟨socket, ctx₁, hfl⟩ : ∃ a b, flush_downlink (s.sockets.get h) ctx = (a, b) := ⟨_, _, rfl⟩
  have hup₁ : ctx₁.uplink_tx = some id := (flush_downlink_frame hfl).2.1.trans hup
  simp only [process_listener_activity, hget, hfl, hup₁] at h1
  have hv := established_uplink_visit hget hfl h1
  split at he
  · exact Option.some.inj he ▸ hv
  · exact Option.some.inj he ▸ hv.congr s.todo _

theorem step_listener {upstream : Upstream} {now : Nat} (he : s.step (.listener upstream now) = some s') :
    ∃ y todo, s.todo = y :: todo ∧ { s with todo := todo }.process_dirty_slot y upstream now = some s' := by
  cases htodo : s.todo with
  | nil => simp [step, htodo] at he
  | cons y todo => exact ⟨y, todo, rfl, by simpa [step, htodo] using he⟩

/-- A visit writes the context of its slot only. -/
theorem process_dirty_slot_other {upstream : Upstream} {now : Nat} (he : s.process_dirty_slot h upstream now = some s')
    (hne : x ≠ h) : s'.socket_ctxs.get x = s.socket_ctxs.get x := by
  cases hget : s.socket_ctxs.get h with
  | none =>
    simp only [process_dirty_slot, process_listener_activity, hget, Option.bind_eq_bind, Option.bind_some] at he
    split at he <;> exact Option.some.inj he ▸ rfl
  | some ctx =>
    obtain ⟨ctx₁, -, ctx', hs', -⟩ := process_dirty_slot_writes hget he
    rw [hs', Table.get_insert_ne _ _ hne]

/-- A slot with an uplink reads only when it is visited. -/
theorem step_extracted {e : Event} {id : RelayId} (hok : SlotsOk s) (he : s.step e = some s')
    (hget : s.socket_ctxs.get h = some ctx) (hup : ctx.uplink_tx = some id) (hget' : s'.socket_ctxs.get h = some ctx')
    (hup' : ctx'.uplink_tx ≠ none) :
    ctx'.hist.extracted = ctx.hist.extracted ∨ ∃ upstream now todo, e = .listener upstream now ∧ s.todo = h :: todo := by
  have unwritten (hsame : s'.socket_ctxs.get h = s.socket_ctxs.get h) : ctx'.hist.extracted = ctx.hist.extracted := by
    rw [hget', hget] at hsame
    rw [Option.some.inj hsame]
  cases step_ctx hok he hget' with
  | created port _ hctx => simp [hctx, SocketCtx.new] at hup'
  | kept c hc hsame =>
    obtain rfl : ctx = c := by simpa [hget] using hc
    exact .inl hsame.extracted
  | rearmed c c₁ _ _ hctx => exact absurd (hctx ▸ rfl) hup'
  | installed i now done c tx hev hi hm hdone hctx =>
    -- The slot of the handshake waits, so it has no uplink.
    subst hdone
    obtain rfl : ctx = c := by simpa [hget] using hm.get
    simpa [hm.pending] using (hok _ ctx hget).relaying hup
  | visited upstream now c ctx₁ hev hc hsame hv =>
    subst hev
    obtain ⟨y, todo, htodo, hvisit⟩ := step_listener he
    by_cases hy : h = y
    · exact .inr ⟨upstream, now, todo, rfl, hy ▸ htodo⟩
    · have hother := process_dirty_slot_other hvisit hy
      exact .inl (unwritten hother)

/-- What the uplink `id` of slot `h` does in a run `tr` from `s₀` to `s`. -/
structure UplinkOrdered (s₀ : Sys) (tr : List (Taken Sys Event)) (s : Sys) (h : SocketHandle) (id : RelayId) : Prop where
  /-- The relay starts with at most one message in its channel. -/
  first : ∃ target rx gen, rx.length ≤ 1 ∧ s₀.relays[id]? = some (.new h target rx gen)
  /-- What the relay has written, the rest of the message it is writing and the messages
  in its channel are the first message and what was read since. -/
  order : ∀ ctx₀ r₀ ctx r, s₀.socket_ctxs.get h = some ctx₀ → s₀.relays[id]? = some r₀ →
    s.socket_ctxs.get h = some ctx → ctx.uplink_tx = some id → s.relays[id]? = some r → r.pc.inLoop = true →
    r.written ++ r.pc.writing ++ r.rx.flatten =
      r₀.rx.flatten ++ readBytes (ctx.hist.extracted.drop ctx₀.hist.extracted.length)
  /-- Only a visit reads. -/
  reads : ∀ t ∈ tr, ∀ ctx ctx', t.pre.socket_ctxs.get h = some ctx → ctx.uplink_tx = some id →
    t.post.socket_ctxs.get h = some ctx' → ctx'.uplink_tx = some id → ctx'.hist.extracted = ctx.hist.extracted ∨
      ∃ upstream now todo, t.ev = .listener upstream now ∧ t.pre.todo = h :: todo
  /-- A visit reads only what it puts on the channel. -/
  visits : ∀ t ∈ tr, ∀ upstream now todo ctx, t.ev = .listener upstream now → t.pre.todo = h :: todo →
    t.pre.socket_ctxs.get h = some ctx → ctx.uplink_tx = some id → UplinkVisit t.pre h ctx id t.post
  /-- A relaying slot with something to read is dirty. -/
  dirty : ∀ s' ∈ s₀ :: tr.map (·.post), ∀ ctx, s'.socket_ctxs.get h = some ctx → ctx.state = .Relaying →
    (s'.sockets.get h).can_recv = true → h ∈ s'.dirty

/-- From the step that installs an uplink on, bytes go through it in order and none
is lost, for as long as the slot keeps it and its relay is in its loop. -/
theorem uplink_ordered {pool_size : Nat} {s₁ s₀ s : Sys} {e : Event} {tr : List (Taken Sys Event)} {h : SocketHandle}
    {id : RelayId} (hr : Reachable pool_size s₁) (hi : Installs s₁ e s₀ h id) (hrun : Run s₀ step tr s) :
    UplinkOrdered s₀ tr s h id := by
  have hr₀ : Reachable pool_size s₀ := .step hr trivial hi.step
  have hend : Reachable pool_size s := hr₀.trans (hrun.reach fun _ _ => trivial)
  have hsteps (t : Taken Sys Event) (ht : t ∈ tr) : Reachable pool_size t.pre ∧ t.pre.step t.ev = some t.post := by
    obtain ⟨hpre, hstep⟩ := hrun.taken (fun _ _ => True) (fun _ _ => trivial) t ht
    exact ⟨hr₀.trans hpre, hstep⟩
  have hdirty {s' : Sys} (hr' : Reachable pool_size s') {ctx : SocketCtx} (hx : s'.socket_ctxs.get h = some ctx)
      (hrecv : (s'.sockets.get h).can_recv = true) : h ∈ s'.dirty :=
    hr'.ready h ctx hx (.inl ((TcpSocket.can_recv_iff _).1 hrecv))
  refine ⟨hi.first hr, ?_, ?_, ?_, ?_⟩
  · intro ctx₀ r₀ ctx r hx₀ hrel₀ hx hup hrel hloop
    obtain ⟨target, rx, gen, -, hnew⟩ := hi.first hr
    obtain rfl : RelayTask.new h target rx gen = r₀ := Option.some.inj (hnew.symm.trans hrel₀)
    have hlt : id < s₀.relays.length := (List.getElem?_eq_some_iff.1 hrel₀).1
    obtain ⟨c, hc, hupc, reads, hext, hfed⟩ := ((Onward.init hr₀.good hlt).run hrun).fed ctx hx hup
    obtain rfl : ctx₀ = c := by simpa [hx₀] using hc
    have hstart := hr₀.piped.carried h ctx₀ id _ hx₀ hupc hrel₀ rfl
    calc r.written ++ r.pc.writing ++ r.rx.flatten
        = ctx.hist.fed := hend.piped.carried h ctx id r hx hup hrel hloop
      _ = ctx₀.hist.fed ++ readBytes reads := hfed
      _ = rx.flatten ++ readBytes reads := by rw [← hstart, RelayTask.carried_new]
      _ = _ := by rw [hext, List.drop_left]; rfl
  · intro t ht ctx ctx' hx hup hx' hup'
    obtain ⟨hpre, hstep⟩ := hsteps t ht
    exact step_extracted hpre.slotsOk hstep hx hup hx' (by simp [hup'])
  · intro t ht upstream now todo ctx hev htodo hx hup
    obtain ⟨-, hstep⟩ := hsteps t ht
    rw [hev] at hstep
    obtain ⟨y, todo', htodo', hvisit⟩ := step_listener hstep
    obtain ⟨rfl, rfl⟩ := List.cons.inj (htodo.symm.trans htodo')
    exact (process_dirty_slot_visit (by exact hx) hup hvisit).congr todo t.post.dirty
  · intro s' hs' ctx hx _ hrecv
    rcases List.mem_cons.1 hs' with rfl | hin
    · exact hdirty hr₀ hx hrecv
    · obtain ⟨t, ht, rfl⟩ := List.mem_map.1 hin
      obtain ⟨hpre, hstep⟩ := hsteps t ht
      exact hdirty (.step hpre trivial hstep) hx hrecv

/-- The first byte of a client is opened for; the relay writes it, and one of the two
bytes that follow. -/
theorem uplink_ordered_writing : ∃ s₁ s₀ tr s, Reachable 2 s₁ ∧ Installs s₁ (.listener ⟨true, true⟩ 0) s₀ 0 0 ∧
    Run s₀ step tr s ∧ (s.relays[0]?.map fun r => (r.written, r.pc)) = some ([1, 2], .write [3]) ∧
    UplinkOrdered s₀ tr s 0 0 := by
  have hrun : (runEvents step (new 2) (connect ⟨true, true⟩ (ipv4 93 184 216 34) ++
      [Event.rx (.tcp 80 false true) none (some (0, [.data [1]])) [] [0, 1] 0])).any (fun s₁ =>
        (s₁.step (.listener ⟨true, true⟩ 0)).any fun s₀ =>
          (s₁.socket_ctxs.get 0).any (fun ctx => ctx.uplink_tx == none) &&
          (s₀.socket_ctxs.get 0).any (fun ctx => ctx.uplink_tx == some 0) &&
          (runEvents step s₀ ([Event.listener ⟨true, true⟩ 0, Event.relay 0 .recv, Event.relay 0 (.wrote 1)] ++
            packet ⟨true, true⟩ [.data [2, 3]] ++ [Event.relay 0 .recv, Event.relay 0 (.wrote 1)])).any fun s =>
              decide ((s.relays[0]?.map fun r => (r.written, r.pc)) = some ([1, 2], .write [3]))) = true := by
    decide +kernel
  obtain ⟨s₁, hs₁, hp⟩ := exists_reach_of_any hrun
  obtain ⟨s₀, hstep, hp⟩ := (Option.any_eq_true _ _).1 hp
  simp only [Bool.and_eq_true] at hp
  obtain ⟨⟨hbefore, hafter⟩, hrest⟩ := hp
  obtain ⟨ctx, hx, hnone⟩ := (Option.any_eq_true _ _).1 hbefore
  obtain ⟨ctx₀, hx₀, hup⟩ := (Option.any_eq_true _ _).1 hafter
  obtain ⟨tr, s, htr, hs⟩ := exists_run_of_any hrest
  have hi : Installs s₁ (.listener ⟨true, true⟩ 0) s₀ 0 0 := by
    refine ⟨hstep, fun c hc => ?_, ctx₀, hx₀, by simpa using hup⟩
    obtain rfl : ctx = c := by simpa [hx] using hc
    simp [beq_iff_eq.1 hnone]
  exact ⟨s₁, s₀, tr, s, hs₁, hi, htr, of_decide_eq_true hs, uplink_ordered hs₁ hi htr⟩

end Sys

end MiniVpn
