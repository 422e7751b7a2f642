import MiniVpn.Changes
import MiniVpn.Reaping
/-!
# Reaping half-closed slots

The reaper rearms a slot as soon as the client has sent its FIN, whatever the
client sent before it: bytes may still be unread because the relay channel was
full, or sit in the buffer of a handshake in flight. And what was read may have been
dropped before. `half_close_lossless_iff` says for each slot that is reaped when
nothing is lost, by what happened in its own generation.
-/
open Lib

namespace MiniVpn

/-- What the slot has been handed in this generation and has not lost: what it fed to
the uplink, and what it still buffers. -/
def SocketCtx.held (ctx : SocketCtx) : Bytes := ctx.hist.fed ++ ctx.uplink_buffer

theorem SocketCtx.SameUplink.held {ctx ctx' : SocketCtx} (h : ctx.SameUplink ctx') : ctx'.held = ctx.held := by
  rw [SocketCtx.held, SocketCtx.held, h.fed, h.uplink_buffer]

namespace Sys

/-- Why a payload read from a slot without uplink is dropped. -/
inductive Dropped (e : Event) (ctx : SocketCtx) (payload : Bytes) : Option IpEndpoint → Prop
  /-- The connection is gone. -/
  | orphan : Dropped e ctx payload none
  /-- The buffer of the handshake in flight is full. -/
  | full (endpoint : IpEndpoint) : ctx.state = .HandshakePending →
      MAX_UPLINK_BUFFER < ctx.uplink_buffer.length + payload.length → Dropped e ctx payload (some endpoint)
  /-- The inline open fails. -/
  | refused (endpoint : IpEndpoint) (upstream : Upstream) (now : Nat) : ctx.state ≠ .HandshakePending →
      e = .listener upstream now → upstream.open_is_cheap = true → upstream.open_tcp = false →
      Dropped e ctx payload (some endpoint)

/-- The step reads a payload of generation `gen` of slot `h` and drops it. -/
def Drops (t : Taken Sys Event) (h : SocketHandle) (gen : Nat) : Prop :=
  ∃ ctx ctx' payload endpoint, t.pre.socket_ctxs.get h = some ctx ∧ t.post.socket_ctxs.get h = some ctx' ∧
    ctx.hist.rearms = gen ∧ ctx.uplink_tx = none ∧ ctx'.hist.extracted = ctx.hist.extracted ++ [(payload, endpoint)] ∧
    Dropped t.ev ctx payload endpoint

/-! ## Steps -/

/-- What a step does with what a slot is handed. -/
inductive Handed (t : Taken Sys Event) (x : SocketHandle) (ctx' : SocketCtx) : Prop
  /-- A generation begins. -/
  | begins : ctx'.state = .Listening → ctx'.held = [] → ctx'.hist.extracted = [] →
      (∀ ctx, t.pre.socket_ctxs.get x = some ctx → ctx.hist.rearms < ctx'.hist.rearms) → Handed t x ctx'
  /-- What is read, if anything, is kept. -/
  | keeps (ctx : SocketCtx) (bytes : Bytes) : t.pre.socket_ctxs.get x = some ctx → ctx'.hist.rearms = ctx.hist.rearms →
      readBytes ctx'.hist.extracted = readBytes ctx.hist.extracted ++ bytes → ctx'.held = ctx.held ++ bytes →
      (ctx'.state = .OpeningRemote → ctx.state = .OpeningRemote) → ¬ Drops t x ctx.hist.rearms → Handed t x ctx'
  /-- What is read is dropped. -/
  | drops (ctx : SocketCtx) (bytes : Bytes) : t.pre.socket_ctxs.get x = some ctx → ctx'.hist.rearms = ctx.hist.rearms →
      bytes ≠ [] → readBytes ctx'.hist.extracted = readBytes ctx.hist.extracted ++ bytes → ctx'.held = ctx.held →
      Drops t x ctx.hist.rearms → Handed t x ctx'

section
variable {t : Taken Sys Event} {x : SocketHandle} {ctx ctx' : SocketCtx}

/-- A step that drops a payload of `x` has read one. -/
theorem Drops.spec {gen : Nat} (h : Drops t x gen) (hget : t.pre.socket_ctxs.get x = some ctx)
    (hget' : t.post.socket_ctxs.get x = some ctx') : ctx.uplink_tx = none ∧
      ∃ payload endpoint, ctx'.hist.extracted = ctx.hist.extracted ++ [(payload, endpoint)] ∧
        Dropped t.ev ctx payload endpoint := by
  obtain ⟨c, c', payload, endpoint, hc, hc', -, hup, hread, hdrop⟩ := h
  obtain rfl : ctx = c := by simpa [hget] using hc
  obtain rfl : ctx' = c' := by simpa [hget'] using hc'
  exact ⟨hup, payload, endpoint, hread, hdrop⟩

/-- Nothing is read. -/
theorem Handed.unread (hget : t.pre.socket_ctxs.get x = some ctx) (hget' : t.post.socket_ctxs.get x = some ctx')
    (hgen : ctx'.hist.rearms = ctx.hist.rearms) (hread : ctx'.hist.extracted = ctx.hist.extracted)
    (hheld : ctx'.held = ctx.held) (hstate : ctx'.state = .OpeningRemote → ctx.state = .OpeningRemote) :
    Handed t x ctx' := by
  refine .keeps ctx [] hget hgen (by rw [hread, List.append_nil]) (by rw [hheld, List.append_nil]) hstate fun hd => ?_
  obtain ⟨-, payload, endpoint, hmore, -⟩ := hd.spec hget hget'
  simp [hread] at hmore

/-- A payload is read and kept, for a reason that excludes each way of dropping it. -/
theorem Handed.read {payload : Bytes} {endpoint : Option IpEndpoint} (hget : t.pre.socket_ctxs.get x = some ctx)
    (hget' : t.post.socket_ctxs.get x = some ctx') (hgen : ctx'.hist.rearms = ctx.hist.rearms)
    (hread : ctx'.hist.extracted = ctx.hist.extracted ++ [(payload, endpoint)]) (hheld : ctx'.held = ctx.held ++ payload)
    (hstate : ctx'.state ≠ .OpeningRemote) (hkept : ctx.uplink_tx = none → ¬ Dropped t.ev ctx payload endpoint) :
    Handed t x ctx' := by
  refine .keeps ctx payload hget hgen (by simp [hread]) hheld (absurd · hstate) fun hd => ?_
  obtain ⟨hup, p, ep, hmore, hdrop⟩ := hd.spec hget hget'
  obtain ⟨rfl, rfl⟩ : payload = p ∧ endpoint = ep := by simpa [hread] using hmore
  exact hkept hup hdrop

theorem Handed.lost {payload : Bytes} {endpoint : Option IpEndpoint} (hget : t.pre.socket_ctxs.get x = some ctx)
    (hget' : t.post.socket_ctxs.get x = some ctx') (hgen : ctx'.hist.rearms = ctx.hist.rearms) (hne : payload ≠ [])
    (hread : ctx'.hist.extracted = ctx.hist.extracted ++ [(payload, endpoint)]) (hheld : ctx'.held = ctx.held)
    (hup : ctx.uplink_tx = none) (hdrop : Dropped t.ev ctx payload endpoint) : Handed t x ctx' :=
  .drops ctx payload hget hgen hne (by simp [hread]) hheld
    ⟨ctx, ctx', payload, endpoint, hget, hget', rfl, hup, hread, hdrop⟩

/-- The reasons to drop a payload are in what flushing the downlink keeps. -/
theorem Dropped.of_sameUplink {e : Event} {payload : Bytes} {endpoint : Option IpEndpoint} {ctx₁ : SocketCtx}
    (hsame : ctx.SameUplink ctx₁) (h : Dropped e ctx₁ payload endpoint) : Dropped e ctx payload endpoint := by
  cases h with
  | orphan => exact .orphan
  | full endpoint hs hfull => exact .full endpoint (hsame.state ▸ hs) (hsame.uplink_buffer ▸ hfull)
  | refused endpoint upstream now hs hev hcheap hfail =>
    exact .refused endpoint upstream now (hsame.state ▸ hs) hev hcheap hfail

/-- A first payload is kept, or dropped for one of the reasons. -/
theorem Handed.first {socket : TcpSocket} {ctx₁ : SocketCtx} {upstream : Upstream} {now : Nat} {conn : Option IpEndpoint}
    (hi : SlotInv socket ctx) (hev : t.ev = .listener upstream now) (hget : t.pre.socket_ctxs.get x = some ctx)
    (hget' : t.post.socket_ctxs.get x = some ctx') (hsame : ctx.SameUplink ctx₁) (hup : ctx₁.uplink_tx = none)
    (hf : FirstPayload upstream conn ctx₁ ctx') : Handed t x ctx' := by
  have hup₀ : ctx.uplink_tx = none := hsame.uplink_tx ▸ hup
  have hread := hsame.extracted
  have hheld := hsame.held
  have hgen := hsame.rearms
  have hempty (hs : ctx₁.state ≠ .HandshakePending) : ctx₁.uplink_buffer = [] := by
    rw [hsame.uplink_buffer]
    exact hi.buffer (hsame.state ▸ hs)
  cases hf with
  | orphan payload hne =>
    exact .lost hget hget' hgen hne (by rw [← hread]; rfl) hheld hup₀ .orphan
  | buffer payload endpoint hne _ hs =>
    rcases buffer_uplink_cases (ctx₁.noteExtracted payload (some endpoint)) payload with ⟨hfit, he⟩ | ⟨hover, he⟩ <;>
      rw [he] at hget' ⊢
    · refine .read hget hget' hgen (by rw [← hread]; rfl) ?_ (by simp [SocketCtx.noteExtracted, hs]) fun _ hd => ?_
      · rw [← hheld]
        simp [SocketCtx.held, SocketCtx.noteExtracted]
      · cases hd.of_sameUplink hsame.symm with
        | full _ _ hfull => exact absurd hfit (Nat.not_le.2 hfull)
        | refused _ _ _ hns => exact hns hs
    · refine .lost hget hget' hgen hne (by rw [← hread]; rfl) hheld hup₀ (.of_sameUplink hsame ?_)
      exact .full endpoint hs hover
  | openFailed payload endpoint hne _ hcheap hfail hs =>
    refine .lost hget hget' hgen hne (by rw [← hread]; rfl) hheld hup₀ (.of_sameUplink hsame ?_)
    exact .refused endpoint upstream now hs hev hcheap hfail
  | opened payload endpoint tx fake_ip _ _ hopen hs =>
    have hbuf := hempty hs
    refine .read hget hget' (by rw [← hgen]; cases fake_ip <;> rfl) (by rw [← hread]; cases fake_ip <;> rfl) ?_
      (by cases fake_ip <;> simp [SocketCtx.opened, SocketCtx.hold_fake_ip, SocketCtx.noteFed]) fun _ hd => ?_
    · rw [← hheld]
      cases fake_ip <;>
        simp [SocketCtx.held, SocketCtx.opened, SocketCtx.hold_fake_ip, SocketCtx.noteFed, SocketCtx.noteExtracted, hbuf]
    · rw [hev] at hd
      cases hd.of_sameUplink hsame.symm with
      | full _ hp => exact hs hp
      | refused _ _ _ _ hev' _ hfail =>
        cases hev'
        simp [hopen] at hfail
  | spawned payload endpoint fake_ip _ hcheap hs hlen =>
    have hbuf := hempty hs
    rw [spawned_eq hbuf hlen] at hget' ⊢
    refine .read hget hget' hgen (by rw [← hread]) ?_ (by simp) fun _ hd => ?_
    · rw [← hheld]
      simp [SocketCtx.held, hbuf]
    · rw [hev] at hd
      cases hd.of_sameUplink hsame.symm with
      | full _ hp => exact hs hp
      | refused _ _ _ _ hev' hcheap' =>
        cases hev'
        simp [hcheap] at hcheap'

/-- Every step begins a generation of a slot, keeps what it reads from it, or drops
it. -/
theorem step_handed {pool_size : Nat} (hr : Reachable pool_size t.pre) (he : t.pre.step t.ev = some t.post)
    (hx : t.post.socket_ctxs.get x = some ctx') : Handed t x ctx' := by
  cases step_ctx hr.slotsOk he hx with
  | created port hlen hctx =>
    refine hctx ▸ .begins rfl rfl rfl fun ctx hget => ?_
    simp [hr.wired.tight x hlen] at hget
  | kept ctx hget hsame =>
    exact .unread hget hx hsame.rearms hsame.extracted hsame.held fun hs => hsame.state ▸ hs
  | rearmed ctx ctx₁ hget hle hctx =>
    refine hctx ▸ .begins rfl rfl rfl fun c hc => ?_
    obtain rfl : ctx = c := by simpa [hget] using hc
    exact Nat.lt_succ_of_le hle
  | installed i now done ctx tx hev hi hm hdone hctx =>
    subst hdone hctx
    exact .unread hm.get hx rfl rfl (by simp [SocketCtx.held, SocketCtx.installed, SocketCtx.noteFed]) fun hs => by cases hs
  | visited upstream now ctx ctx₁ hev hget hsame hv =>
    have hinv := hr.slotsOk x ctx hget
    cases hv with
    | same => exact .unread hget hx hsame.rearms hsame.extracted hsame.held fun hs => hsame.state ▸ hs
    | rearmed ctx₂ hgen =>
      refine .begins rfl rfl rfl fun c hc => ?_
      obtain rfl : ctx = c := by simpa [hget] using hc
      rw [← hsame.rearms, ← hgen]
      exact Nat.lt_succ_self _
    | relayed tx payload htx =>
      rw [hsame.uplink_tx] at htx
      refine .read hget hx hsame.rearms (by rw [← hsame.extracted]; rfl) ?_
        (by simp [SocketCtx.relayed, SocketCtx.noteFed, SocketCtx.noteExtracted]) fun hup => ?_
      · have hbuf : ctx₁.uplink_buffer = [] := by
          rw [hsame.uplink_buffer]
          exact hinv.buffer (by simp [hinv.relaying htx])
        rw [← hsame.held]
        simp [SocketCtx.held, SocketCtx.relayed, SocketCtx.noteFed, SocketCtx.noteExtracted, hbuf]
      · simp [htx] at hup
    | first _ hup hf => exact .first hinv hev hget hx hsame hup hf

end

/-! ## Runs -/

/-- What a slot holds is what was read from it, unless a payload of its generation was
dropped. -/
structure Ledger (tr : List (Taken Sys Event)) (x : SocketHandle) (ctx : SocketCtx) : Prop where
  /-- No later generation has been. -/
  gens : ∀ u ∈ tr, ∀ gen, Drops u x gen → gen ≤ ctx.hist.rearms
  le : ctx.held.length ≤ (readBytes ctx.hist.extracted).length
  lossy : (∃ u ∈ tr, Drops u x ctx.hist.rearms) → ctx.held.length < (readBytes ctx.hist.extracted).length
  lossless : (∀ u ∈ tr, ¬ Drops u x ctx.hist.rearms) →
    ctx.held = readBytes ctx.hist.extracted ∧ ctx.state ≠ .OpeningRemote

section
variable {tr : List (Taken Sys Event)} {t : Taken Sys Event} {x : SocketHandle} {ctx ctx' : SocketCtx}

theorem Drops.gen {gen : Nat} (h : Drops t x gen) (hget : t.pre.socket_ctxs.get x = some ctx) : ctx.hist.rearms = gen := by
  obtain ⟨c, -, -, -, hc, -, hgen, -⟩ := h
  obtain rfl : ctx = c := by simpa [hget] using hc
  exact hgen

/-- One more step. -/
theorem Ledger.step (hold : ∀ ctx, t.pre.socket_ctxs.get x = some ctx → Ledger tr x ctx)
    (hthere : ∀ u ∈ tr, ∀ gen, Drops u x gen → ∃ ctx, t.pre.socket_ctxs.get x = some ctx) (hh : Handed t x ctx') :
    Ledger (tr ++ [t]) x ctx' := by
  -- The steps of the longer run.
  have hmem {P : Taken Sys Event → Prop} : (∀ u ∈ tr ++ [t], P u) ↔ (∀ u ∈ tr, P u) ∧ P t := by
    simp [or_imp, forall_and]
  cases hh with
  | begins hstate hheld hread hnew =>
    have hfresh : ∀ u ∈ tr ++ [t], ∀ gen, Drops u x gen → gen < ctx'.hist.rearms := by
      refine hmem.2 ⟨fun u hu gen hd => ?_, fun gen hd => ?_⟩
      · obtain ⟨ctx, hget⟩ := hthere u hu gen hd
        exact ((hold ctx hget).gens u hu gen hd).trans_lt (hnew ctx hget)
      · obtain ⟨ctx, -, -, -, hget, -⟩ := id hd
        exact hd.gen hget ▸ hnew ctx hget
    refine ⟨fun u hu gen hd => (hfresh u hu gen hd).le, by simp [hheld], ?_, fun _ => ⟨?_, by simp [hstate]⟩⟩
    · rintro ⟨u, hu, hd⟩
      exact absurd (hfresh u hu _ hd) (Nat.lt_irrefl _)
    · simp [hheld, hread, readBytes]
  | keeps ctx bytes hget hgen hread hheld hstate hno =>
    obtain ⟨hgens, hle, hlossy, hlossless⟩ := hold ctx hget
    refine ⟨hgen ▸ hmem.2 ⟨hgens, fun gen hd => (hd.gen hget).ge⟩, by simp [hread, hheld, hle], ?_, ?_⟩
    · rintro ⟨u, hu, hd⟩
      rw [hgen] at hd
      rcases List.mem_append.1 hu with hu | hu
      · simpa [hread, hheld] using hlossy ⟨u, hu, hd⟩
      · exact absurd (List.mem_singleton.1 hu ▸ hd) hno
    · intro hnone
      rw [hgen] at hnone
      obtain ⟨heq, hs⟩ := hlossless (hmem.1 hnone).1
      exact ⟨by rw [hheld, hread, heq], fun hs' => hs (hstate hs')⟩
  | drops ctx bytes hget hgen hne hread hheld hd =>
    obtain ⟨hgens, hle, -, -⟩ := hold ctx hget
    have hlt : ctx'.held.length < (readBytes ctx'.hist.extracted).length := by
      have hpos := List.length_pos_iff.2 hne
      rw [hheld, hread, List.length_append]
      omega
    refine ⟨hgen ▸ hmem.2 ⟨hgens, fun gen hd => (hd.gen hget).ge⟩, hlt.le, fun _ => hlt, fun hnone => ?_⟩
    exact absurd (hgen ▸ hd) ((hmem.1 hnone).2)

/-- Every slot keeps its ledger, and a slot that something was dropped from is still
there. -/
theorem ledgers {pool_size : Nat} {s : Sys} (hrun : Run (new pool_size) step tr s) :
    (∀ u ∈ tr, ∀ x gen, Drops u x gen → s.sockets.len > x) ∧
      ∀ x ctx, s.socket_ctxs.get x = some ctx → Ledger tr x ctx := by
  induction hrun with
  | nil => exact ⟨by simp, fun x ctx hget => by simp [new] at hget⟩
  | @snoc tr s s' e hr he ih =>
    obtain ⟨hthere, hledger⟩ := ih
    have hreach : Reachable pool_size s := hr.reach fun _ _ => trivial
    have hlen := step_sockets_len_le he
    refine ⟨fun u hu x gen hd => ?_, fun x ctx' hx => ?_⟩
    · rcases List.mem_append.1 hu with hu | hu
      · exact (hthere u hu x gen hd).trans_le hlen
      · obtain rfl := List.mem_singleton.1 hu
        obtain ⟨ctx, -, -, -, hget, -⟩ := hd
        exact (hreach.wired.lt hget).trans_le hlen
    · refine Ledger.step (hledger x) (fun u hu gen hd => ?_) (step_handed (t := ⟨s, e, s'⟩) hreach he hx)
      obtain ⟨ctx, hget, -⟩ := hreach.wired.known x (hthere u hu x gen hd)
      exact ⟨ctx, hget⟩

end

/-! ## Sweeps -/

/-- A slot that a sweep rearms was dead. -/
theorem is_dead_of_sweep {pool_size : Nat} {s s' : Sys} {h : SocketHandle} {now : Nat} {ctx : SocketCtx}
    (hr : Reachable pool_size s) (hsweep : s.step (.udp_sweep now) = some s') (hget : s.socket_ctxs.get h = some ctx)
    (hrearmed : RearmedIn s s' h) : is_dead (s.sockets.get h) ctx = true := by
  obtain ⟨c, hc, hslot⟩ := hrearmed
  obtain rfl : ctx = c := by simpa [hget] using hc
  by_contra hdead
  have hreap : s.on_udp_sweep now = some s' := by
    unfold step at hsweep
    split at hsweep <;> simp_all [on_select]
  obtain ⟨s₁, h1, -, hslots⟩ := reap_slots_spec now s.registry.all_handles
    (s := { s with
      assoc_table := (s.assoc_table.sweep now UDP_FLOW_IDLE_SECS).2
      fake_pool := release_all s.fake_pool (s.assoc_table.sweep now UDP_FLOW_IDLE_SECS).1 now }) hr.slotsOk
  obtain rfl : s₁ = s' := Option.some.inj (h1.symm.trans hreap)
  have hkept : s₁.slot h = some (s.sockets.get h, ctx) := by
    have hold : s.slot h = some (s.sockets.get h, ctx) := slot_eq_some.2 ⟨hget, rfl⟩
    have hsame : (s.slot h).map reaped = some (s.sockets.get h, ctx) := by simp [hold, reaped, hdead]
    refine (hslots h).trans ?_
    split
    · exact hsame
    · exact hold
  -- The generation of a rearmed slot is a new one.
  have hgen := congrArg (fun x => x.2.hist.rearms) (Option.some.inj (hkept.symm.trans hslot))
  exact absurd hgen (Nat.ne_of_lt (Nat.lt_succ_self _))

/-- All that the client sent was read and put on the uplink. -/
def HandedOn (socket : TcpSocket) (ctx : SocketCtx) : Prop :=
  socket.rx_buffer.data = [] ∧ ctx.uplink_buffer = [] ∧ ctx.hist.fed = readBytes ctx.hist.extracted

/-- In every run, when a sweep rearms a half-closed slot: all that its client sent has
been handed on exactly when the slot relays, its socket has nothing unread, and no
payload of this generation of the slot was dropped before. -/
theorem half_close_lossless_iff {pool_size : Nat} {tr : List (Taken Sys Event)} {s s' : Sys} {h : SocketHandle} {now : Nat}
    {ctx : SocketCtx} (hrun : Run (new pool_size) step tr s) (hsweep : s.step (.udp_sweep now) = some s')
    (hget : s.socket_ctxs.get h = some ctx) (hrearmed : RearmedIn s s' h) (hclose : (s.sockets.get h).state = .CloseWait) :
    HandedOn (s.sockets.get h) ctx ↔ ctx.state = .Relaying ∧ (s.sockets.get h).rx_buffer.data = [] ∧
      ∀ u ∈ tr, ¬ Drops u h ctx.hist.rearms := by
  have hreach : Reachable pool_size s := hrun.reach fun _ _ => trivial
  have hinv := hreach.slotsOk h ctx hget
  have hledger := (ledgers hrun).2 h ctx hget
  have hlisten : ctx.state ≠ .Listening :=
    (is_dead_of_finished (by simp [TcpSocket.finished, hclose]) ctx).1 (is_dead_of_sweep hreach hsweep hget hrearmed)
  constructor
  · rintro ⟨hrx, hbuf, hfed⟩
    have hall : ctx.held = readBytes ctx.hist.extracted := by rw [SocketCtx.held, hbuf, List.append_nil, hfed]
    have hnone : ∀ u ∈ tr, ¬ Drops u h ctx.hist.rearms := by
      intro u hu hd
      exact absurd (congrArg List.length hall) (hledger.lossy ⟨u, hu, hd⟩).ne
    have hopening := (hledger.lossless hnone).2
    have hpending : ctx.state ≠ .HandshakePending := by
      intro hs
      obtain ⟨k, -, -, hb⟩ := hinv.buffered hs
      exact hb.nonempty hbuf
    refine ⟨?_, hrx, hnone⟩
    have hphase := hinv.phase
    cases hstate : ctx.state <;> simp_all
  · rintro ⟨hrel, hrx, hnone⟩
    have hbuf := hinv.buffer (by simp [hrel])
    have hall := (hledger.lossless hnone).1
    rw [SocketCtx.held, hbuf, List.append_nil] at hall
    exact ⟨hrx, hbuf, hall⟩

/-- A client sends a byte, which is relayed, and closes. -/
theorem half_close_lossless_relayed : ∃ tr s s' ctx, Run (new 2) step tr s ∧ s.step (.udp_sweep 1) = some s' ∧
    s.socket_ctxs.get 0 = some ctx ∧ RearmedIn s s' 0 ∧ (s.sockets.get 0).state = .CloseWait ∧
    readBytes ctx.hist.extracted = [1] ∧ HandedOn (s.sockets.get 0) ctx ∧
    ∀ u ∈ tr, ¬ Drops u 0 ctx.hist.rearms := by
  have hrun : (runEvents step (new 2) (connect ⟨true, true⟩ (ipv4 93 184 216 34) ++ packet ⟨true, true⟩ [.data [1]] ++
      packet ⟨true, true⟩ [.fin])).any (fun s => (s.step (.udp_sweep 1)).any fun s' => (s.socket_ctxs.get 0).any fun ctx =>
        decide ((s.sockets.get 0).state = .CloseWait ∧ readBytes ctx.hist.extracted = [1] ∧
          (s.sockets.get 0).rx_buffer.data = [] ∧ ctx.uplink_buffer = [] ∧ ctx.hist.fed = [1] ∧
          s'.slot 0 = some (.listening ctx.local_port, ctx.rearmed))) = true := by
    decide +kernel
  obtain ⟨tr, s, hs, hp⟩ := exists_run_of_any hrun
  obtain ⟨s', hs', hp⟩ := (Option.any_eq_true _ _).1 hp
  obtain ⟨ctx, hget, hp⟩ := (Option.any_eq_true _ _).1 hp
  obtain ⟨hclose, hread, hrx, hbuf, hfed, hslot⟩ := of_decide_eq_true hp
  have hon : HandedOn (s.sockets.get 0) ctx := ⟨hrx, hbuf, hfed.trans hread.symm⟩
  refine ⟨tr, s, s', ctx, hs, hs', hget, ⟨ctx, hget, hslot⟩, hclose, hread, hon, ?_⟩
  exact ((half_close_lossless_iff hs hs' hget ⟨ctx, hget, hslot⟩ hclose).1 hon).2.2

/-- A client sends a byte and closes while its handshake is in flight. The tick comes
before the result: the slot is rearmed and the buffered byte is gone. -/
theorem half_close_drops_buffer : ∃ s s' ctx, Reachable 2 s ∧ s.step (.udp_sweep 1) = some s' ∧
    s.socket_ctxs.get 0 = some ctx ∧ RearmedIn s s' 0 ∧ (s.sockets.get 0).state = .CloseWait ∧
    ctx.uplink_buffer = [1] ∧ ¬ HandedOn (s.sockets.get 0) ctx := by
  have hrun : (runEvents step (new 2) (connect ⟨false, true⟩ (ipv4 93 184 216 34) ++ packet ⟨false, true⟩ [.data [1]] ++
      packet ⟨false, true⟩ [.fin])).any (fun s => (s.step (.udp_sweep 1)).any fun s' => (s.socket_ctxs.get 0).any fun ctx =>
        decide ((s.sockets.get 0).state = .CloseWait ∧ ctx.uplink_buffer = [1] ∧
          s'.slot 0 = some (.listening ctx.local_port, ctx.rearmed))) = true := by
    decide +kernel
  obtain ⟨s, hs, hp⟩ := exists_reach_of_any hrun
  obtain ⟨s', hs', hp⟩ := (Option.any_eq_true _ _).1 hp
  obtain ⟨ctx, hget, hp⟩ := (Option.any_eq_true _ _).1 hp
  obtain ⟨hclose, hbuf, hslot⟩ := of_decide_eq_true hp
  refine ⟨s, s', ctx, hs, hs', hget, ⟨ctx, hget, hslot⟩, hclose, hbuf, fun hon => ?_⟩
  have hnil := hon.2.1
  rw [hbuf] at hnil
  cases hnil

end Sys

end MiniVpn
