import MiniVpn.Lib.EpochGuard
import MiniVpn.Wiring
/-!
# Spawned handshakes

Each slot is an `EpochGuard` with `conn_epoch` as its counter: spawning a
handshake is a request, a rearm is a reset. `Effect.guard` says that every effect
is a step of the guard of every slot, so a result is installed only in the
generation that asked for it.
-/
open Lib

namespace MiniVpn

/-- The number of values of `conn_epoch`. -/
def EPOCHS : Nat := 2 ^ 64

theorem epoch_eq_iff (a b : Nat) : UInt64.ofNat a = UInt64.ofNat b ↔ a % EPOCHS = b % EPOCHS := by
  rw [← UInt64.toNat_inj]
  simp [EPOCHS]

def Handshake.ticket (d : Handshake) : Ticket := ⟨d.bump, d.gen⟩

namespace Sys

/-! ## The guard of a slot -/

/-- Tickets of the handshakes of slot `x`. -/
def ticketsOut (x : SocketHandle) (hs : List Handshake) : Multiset Ticket :=
  ((hs : Multiset Handshake).filter (·.handle = x)).map (·.ticket)

/-- Tickets of the installed handshakes of slot `x`. -/
def ticketsTaken (x : SocketHandle) (es : List (Handshake × Nat)) : Multiset (Ticket × Nat) :=
  ((es : Multiset (Handshake × Nat)).filter (·.1.handle = x)).map fun e => (e.1.ticket, e.2)

def guard (s : Sys) (x : SocketHandle) (ctx : SocketCtx) : EpochGuard where
  epoch := ctx.hist.bumps
  gen := ctx.hist.rearms
  pending := ctx.state = .HandshakePending
  out := ticketsOut x s.handshakes
  taken := ticketsTaken x s.installed

theorem ticketsOut_of_perm {hs hs' : List Handshake} {d : Handshake} (h : hs.Perm (d :: hs')) (x : SocketHandle) :
    ticketsOut x hs = if d.handle = x then d.ticket ::ₘ ticketsOut x hs' else ticketsOut x hs' := by
  have hm : (hs : Multiset Handshake) = d ::ₘ (hs' : Multiset Handshake) := Multiset.coe_eq_coe.2 h
  rw [ticketsOut, hm]
  split
  · rw [Multiset.filter_cons_of_pos _ ‹_›, Multiset.map_cons, ticketsOut]
  · rw [Multiset.filter_cons_of_neg _ ‹_›, ticketsOut]

theorem ticketsOut_append (x : SocketHandle) (hs : List Handshake) (d : Handshake) :
    ticketsOut x (hs ++ [d]) = if d.handle = x then d.ticket ::ₘ ticketsOut x hs else ticketsOut x hs :=
  ticketsOut_of_perm (List.perm_append_singleton d hs) x

theorem ticketsOut_eraseIdx {hs : List Handshake} {i : Nat} {d : Handshake} (hi : hs[i]? = some d) (x : SocketHandle) :
    ticketsOut x hs =
      if d.handle = x then d.ticket ::ₘ ticketsOut x (hs.eraseIdx i) else ticketsOut x (hs.eraseIdx i) := by
  obtain ⟨hlt, rfl⟩ := List.getElem?_eq_some_iff.1 hi
  exact ticketsOut_of_perm (List.getElem_cons_eraseIdx_perm hlt).symm x

theorem ticketsTaken_append (x : SocketHandle) (es : List (Handshake × Nat)) (e : Handshake × Nat) :
    ticketsTaken x (es ++ [e]) =
      if e.1.handle = x then (e.1.ticket, e.2) ::ₘ ticketsTaken x es else ticketsTaken x es := by
  have hm : ((es ++ [e] : List _) : Multiset (Handshake × Nat)) = e ::ₘ (es : Multiset (Handshake × Nat)) :=
    Multiset.coe_eq_coe.2 (List.perm_append_singleton e es)
  rw [ticketsTaken, hm]
  split
  · rw [Multiset.filter_cons_of_pos _ ‹_›, Multiset.map_cons, ticketsTaken]
  · rw [Multiset.filter_cons_of_neg _ ‹_›, ticketsTaken]

theorem ticket_mem_out {hs : List Handshake} {d : Handshake} (hd : d ∈ hs) : d.ticket ∈ ticketsOut d.handle hs :=
  Multiset.mem_map_of_mem _ (Multiset.mem_filter.2 ⟨hd, rfl⟩)

theorem ticket_mem_taken {es : List (Handshake × Nat)} {e : Handshake × Nat} (he : e ∈ es) :
    (e.1.ticket, e.2) ∈ ticketsTaken e.1.handle es :=
  Multiset.mem_map_of_mem (fun e : Handshake × Nat => (e.1.ticket, e.2)) (Multiset.mem_filter.2 ⟨he, rfl⟩)

/-- A step to a guard with the fields of `s'.guard x ctx'`. -/
theorem guard_step {s s' : Sys} {x : SocketHandle} {ctx ctx' : SocketCtx} {g : EpochGuard}
    (hstep : EpochGuard.Step EPOCHS (s.guard x ctx) g) (hb : ctx'.hist.bumps = g.epoch) (hr : ctx'.hist.rearms = g.gen)
    (hp : ctx'.state = .HandshakePending ↔ g.pending) (hout : ticketsOut x s'.handshakes = g.out)
    (hin : ticketsTaken x s'.installed = g.taken) : EpochGuard.Step EPOCHS (s.guard x ctx) (s'.guard x ctx') := by
  have hg : s'.guard x ctx' = g := by simp only [guard, hb, hr, hp, hout, hin]
  exact hg ▸ hstep

/-! ## Every effect is a step of the guards -/

/-- Handshakes are for slots that exist and carry the epoch they were spawned in. -/
structure Tracked (s : Sys) : Prop where
  out : ∀ d ∈ s.handshakes, (∃ ctx, s.socket_ctxs.get d.handle = some ctx) ∧ d.epoch = UInt64.ofNat d.bump
  taken : ∀ e ∈ s.installed, ∃ ctx, s.socket_ctxs.get e.1.handle = some ctx

/-- A slot waits for a result exactly when its guard does. -/
theorem awaits_iff {s : Sys} (hg : Good s) (ht : Tracked s) {d : Handshake} (hd : d ∈ s.handshakes) {ctx : SocketCtx}
    (hget : s.socket_ctxs.get d.handle = some ctx) :
    (s.guard d.handle ctx).Awaits EPOCHS d.ticket ↔ Matches s d ctx := by
  have hepoch : ctx.conn_epoch = d.epoch ↔ d.bump % EPOCHS = ctx.hist.bumps % EPOCHS := by
    rw [(hg.slots _ ctx hget).epoch, (ht.out d hd).2, epoch_eq_iff, eq_comm]
  constructor
  · rintro ⟨he, hp⟩
    exact ⟨hget, hepoch.2 he, hp⟩
  · rintro ⟨-, he, hp⟩
    exact ⟨hepoch.1 he, hp⟩

/-- Writing slot `h`, when the other slots' handshakes stay. -/
theorem guard_write {s s' : Sys} {h x : SocketHandle} {c c' ctx : SocketCtx} (hget : s.socket_ctxs.get h = some c)
    (hctxs : s'.socket_ctxs = s.socket_ctxs.insert h c') (hstep : EpochGuard.Step EPOCHS (s.guard h c) (s'.guard h c'))
    (hout : x ≠ h → ticketsOut x s'.handshakes = ticketsOut x s.handshakes)
    (hin : x ≠ h → ticketsTaken x s'.installed = ticketsTaken x s.installed) (hx : s.socket_ctxs.get x = some ctx) :
    ∃ ctx', s'.socket_ctxs.get x = some ctx' ∧ EpochGuard.Step EPOCHS (s.guard x ctx) (s'.guard x ctx') := by
  rw [hctxs, Table.get_insert]
  split
  · subst_vars
    obtain rfl : c = ctx := by simpa [hget] using hx
    exact ⟨c', rfl, hstep⟩
  · rename_i hne
    exact ⟨ctx, hx, guard_step .keep rfl rfl .rfl (hout hne) (hin hne)⟩

/-- A write that the guard does not see. -/
theorem guard_keep {s s' : Sys} {h x : SocketHandle} {c c' ctx : SocketCtx} (hget : s.socket_ctxs.get h = some c)
    (hctxs : s'.socket_ctxs = s.socket_ctxs.insert h c') (hb : c'.hist.bumps = c.hist.bumps)
    (hr : c'.hist.rearms = c.hist.rearms) (hp : c'.state = .HandshakePending ↔ c.state = .HandshakePending)
    (hhs : s'.handshakes = s.handshakes) (hin : s'.installed = s.installed) (hx : s.socket_ctxs.get x = some ctx) :
    ∃ ctx', s'.socket_ctxs.get x = some ctx' ∧ EpochGuard.Step EPOCHS (s.guard x ctx) (s'.guard x ctx') :=
  guard_write hget hctxs (guard_step .keep hb hr hp (by rw [hhs]; rfl) (by rw [hin]; rfl)) (fun _ => by rw [hhs])
    (fun _ => by rw [hin]) hx

theorem guard_rearm {s s' : Sys} {h x : SocketHandle} {c ctx : SocketCtx} (hget : s.socket_ctxs.get h = some c)
    (hctxs : s'.socket_ctxs = s.socket_ctxs.insert h c.rearmed) (hhs : s'.handshakes = s.handshakes)
    (hin : s'.installed = s.installed) (hx : s.socket_ctxs.get x = some ctx) :
    ∃ ctx', s'.socket_ctxs.get x = some ctx' ∧ EpochGuard.Step EPOCHS (s.guard x ctx) (s'.guard x ctx') :=
  guard_write hget hctxs (guard_step .reset rfl rfl (by simp [SocketCtx.rearmed, SocketCtx.new]) (by rw [hhs]; rfl) (by rw [hin]; rfl))
    (fun _ => by rw [hhs]) (fun _ => by rw [hin]) hx

/-- Only a failed open changes the state in a turn, and not from
`HandshakePending`. -/
theorem turn_pending {socket socket' : TcpSocket} {ctx ctx' : SocketCtx} (ht : Turn socket ctx socket' ctx') :
    ctx'.state = .HandshakePending ↔ ctx.state = .HandshakePending := by
  cases ht with
  | flush =>
    obtain ⟨n, tx, diag, he⟩ := flush_downlink_cases socket ctx
    rw [he]
  | tunFlush | orphan => exact .rfl
  | buffer payload rest endpoint =>
    obtain ⟨buffer, he⟩ := buffer_uplink_frame (ctx.noteExtracted payload (some endpoint)) payload
    rw [he]
    exact .rfl
  | openFailed payload rest endpoint _ _ _ hs => simp [SocketCtx.openFailed, hs]

theorem Effect.guard {s s' : Sys} {l : Label} (he : Effect s l s') (hg : Good s) (ht : Tracked s) {x : SocketHandle}
    {ctx : SocketCtx} (hx : s.socket_ctxs.get x = some ctx) :
    ∃ ctx', s'.socket_ctxs.get x = some ctx' ∧ EpochGuard.Step EPOCHS (s.guard x ctx) (s'.guard x ctx') := by
  cases he with
  | pool | flows | mark | unmark | schedule | segment | dispatch | discard | relay => exact ⟨ctx, hx, .keep⟩
  | grow port n l hgrow =>
    have hlt := hg.wired.lt hx
    exact ⟨ctx, by simp only [hgrow.ctx]; rw [if_neg (by omega)]; exact hx, .keep⟩
  | turn h c socket' c' hget hturn =>
    obtain ⟨-, -, -, -, hr, hb⟩ := hturn.frame
    exact guard_keep hget rfl hb hr (turn_pending hturn) rfl rfl hx
  | deliver msg rest c tx socket' c' l _ _ hget htx hfl =>
    obtain ⟨-, -, -, -, -, hr, hb, -⟩ := flush_downlink_frame hfl
    have hrel := (hg.slots _ c hget).relaying htx
    exact guard_keep hget rfl hb hr (by simp [hrel]) rfl rfl hx
  | relayed h c tx payload rest hget htx =>
    have hrel := (hg.slots _ c hget).relaying htx
    exact guard_keep hget rfl rfl rfl (by simp [SocketCtx.relayed, SocketCtx.noteExtracted, SocketCtx.noteFed, hrel])
      rfl rfl hx
  | opened h c payload rest endpoint target fake_ip now l hget _ hs =>
    refine guard_keep hget rfl ?_ ?_ ?_ rfl rfl hx <;> cases fake_ip <;>
      simp [SocketCtx.opened, SocketCtx.hold_fake_ip, SocketCtx.noteFed, SocketCtx.noteExtracted, hs]
  | rearm h c now hget => exact guard_rearm hget rfl rfl rfl hx
  | eof msg rest c now _ _ hget => exact guard_rearm hget rfl rfl rfl hx
  | spawned h c payload rest endpoint target fake_ip now hget hup hs hr =>
    refine guard_write hget rfl ?_ (fun hne => ?_) (fun _ => rfl) hx
    · rw [spawned_eq ((hg.slots h c hget).buffer hs) hr.length_le]
      exact guard_step (.request hs) rfl rfl (by simp) ((ticketsOut_append h _ _).trans (if_pos rfl)) rfl
    · exact (ticketsOut_append x _ _).trans (if_neg hne.symm)
  | dropHandshake i d hi hno =>
    have hout := ticketsOut_eraseIdx hi x
    split at hout
    · rename_i hd
      subst hd
      refine ⟨ctx, hx, .stale d.ticket _ hout fun ha => hno ctx ?_⟩
      exact (awaits_iff hg ht (List.mem_of_getElem? hi) hx).1 ha
    · exact ⟨ctx, hx, guard_step .keep rfl rfl .rfl hout.symm rfl⟩
  | install i d c hi hm =>
    refine guard_write hm.get rfl ?_ (fun hne => ?_) (fun hne => ?_) hx
    · have hout := (ticketsOut_eraseIdx hi d.handle).trans (if_pos rfl)
      have ha := (awaits_iff hg ht (List.mem_of_getElem? hi) hm.get).2 hm
      exact guard_step (.take d.ticket _ hout ha) rfl rfl (by simp [SocketCtx.installed]) rfl
        ((ticketsTaken_append d.handle _ _).trans (if_pos rfl))
    · exact ((ticketsOut_eraseIdx hi x).trans (if_neg hne.symm)).symm
    · exact (ticketsTaken_append x _ _).trans (if_neg hne.symm)
  | refuse i d c now hi hm =>
    refine guard_write hm.get rfl ?_ (fun hne => ?_) (fun _ => rfl) hx
    · have hout := (ticketsOut_eraseIdx hi d.handle).trans (if_pos rfl)
      have ha := (awaits_iff hg ht (List.mem_of_getElem? hi) hm.get).2 hm
      exact guard_step (.fail d.ticket _ hout ha) rfl rfl (by simp [SocketCtx.rearmed, SocketCtx.new]) rfl rfl
    · exact ((ticketsOut_eraseIdx hi x).trans (if_neg hne.symm)).symm

/-! ## Invariants of the guards -/

/-- Handshakes after an effect are for slots there were before it. -/
theorem Effect.tracked {s s' : Sys} {l : Label} (he : Effect s l s') (hg : Good s) (ht : Tracked s) :
    (∀ d ∈ s'.handshakes, (∃ ctx, s.socket_ctxs.get d.handle = some ctx) ∧ d.epoch = UInt64.ofNat d.bump) ∧
      ∀ e ∈ s'.installed, ∃ ctx, s.socket_ctxs.get e.1.handle = some ctx := by
  cases he with
  | pool | flows | mark | unmark | schedule | segment | dispatch | discard | relay | grow | turn | deliver | relayed
  | opened | rearm | eof => exact ⟨ht.out, ht.taken⟩
  | spawned h c payload rest endpoint target fake_ip now hget =>
    refine ⟨fun d hd => ?_, ht.taken⟩
    rcases List.mem_append.1 hd with hd | hd
    · exact ht.out d hd
    · obtain rfl := List.mem_singleton.1 hd
      exact ⟨⟨c, hget⟩, epoch_succ (hg.slots h c hget).epoch⟩
  | dropHandshake i d hi => exact ⟨fun d hd => ht.out d (List.mem_of_mem_eraseIdx hd), ht.taken⟩
  | refuse i d c now hi hm => exact ⟨fun d hd => ht.out d (List.mem_of_mem_eraseIdx hd), ht.taken⟩
  | install i d c hi hm =>
    refine ⟨fun d hd => ht.out d (List.mem_of_mem_eraseIdx hd), fun e he => ?_⟩
    rcases List.mem_append.1 he with he | he
    · exact ht.taken e he
    · obtain rfl := List.mem_singleton.1 he
      exact ⟨c, hm.get⟩

theorem tracked_effect {s s' : Sys} {l : Label} (he : Effect s l s') (hg : Good s) (ht : Tracked s) : Tracked s' := by
  obtain ⟨hout, htaken⟩ := he.tracked hg ht
  have kept {x : SocketHandle} (hx : ∃ ctx, s.socket_ctxs.get x = some ctx) :
      ∃ ctx', s'.socket_ctxs.get x = some ctx' := by
    obtain ⟨ctx, hx⟩ := hx
    obtain ⟨ctx', hx', -⟩ := he.guard hg ht hx
    exact ⟨ctx', hx'⟩
  exact ⟨fun d hd => ⟨kept (hout d hd).1, (hout d hd).2⟩, fun e he => kept (htaken e he)⟩

/-- No slot has counted through all values of `conn_epoch`. -/
def FewBumps (s : Sys) : Prop := ∀ x ctx, s.socket_ctxs.get x = some ctx → ctx.hist.bumps < EPOCHS

def Guarded (s : Sys) : Prop := ∀ x ctx, s.socket_ctxs.get x = some ctx → (s.guard x ctx).Inv

/-- What the steps of a guard keep, an effect keeps for the guards of all slots. -/
theorem guards_effect {s s' : Sys} {l : Label} {P : EpochGuard → Prop} (he : Effect s l s') (hg : Good s) (ht : Tracked s)
    (hnew : ∀ g : EpochGuard, ¬ g.pending → g.out = 0 → g.taken = 0 → P g)
    (hold : ∀ x ctx g, s.socket_ctxs.get x = some ctx → EpochGuard.Step EPOCHS (s.guard x ctx) g → P g)
    {x : SocketHandle} {ctx' : SocketCtx} (hx' : s'.socket_ctxs.get x = some ctx') : P (s'.guard x ctx') := by
  cases hx : s.socket_ctxs.get x with
  | some ctx =>
    obtain ⟨c, hc, hstep⟩ := he.guard hg ht hx
    obtain rfl : ctx' = c := by simpa [hx'] using hc
    exact hold x ctx _ hx hstep
  | none =>
    -- The slot is new, so no handshake is for it.
    obtain ⟨hout, htaken⟩ := he.tracked hg ht
    have hne {y : SocketHandle} (hy : ∃ ctx, s.socket_ctxs.get y = some ctx) : y ≠ x := by
      rintro rfl
      obtain ⟨ctx, hy⟩ := hy
      simp [hx] at hy
    refine hnew _ ?_ ?_ ?_
    · rcases he.slot hx' with ⟨port, -, -, rfl, -⟩ | ⟨ctx, hctx, -⟩
      · simp [guard, SocketCtx.new]
      · simp [hx] at hctx
    · simp only [guard, ticketsOut, Multiset.map_eq_zero, Multiset.filter_eq_nil, Multiset.mem_coe]
      exact fun d hd => hne (hout d hd).1
    · simp only [guard, ticketsTaken, Multiset.map_eq_zero, Multiset.filter_eq_nil, Multiset.mem_coe]
      exact fun e he => hne (htaken e he)

theorem guarded_effect {s s' : Sys} {l : Label} (he : Effect s l s') (hg : Good s) (ht : Tracked s) (hb : FewBumps s)
    (hw : Guarded s) : Guarded s' := fun _ _ =>
  guards_effect he hg ht (fun _ => EpochGuard.inv_of_unused) fun x ctx _ hx hstep => (hw x ctx hx).step (hb x ctx hx) hstep

theorem fewBumps_before {s s' : Sys} {l : Label} (he : Effect s l s') (hg : Good s) (ht : Tracked s)
    (hb : FewBumps s') : FewBumps s := by
  intro x ctx hx
  obtain ⟨ctx', hx', hstep⟩ := he.guard hg ht hx
  exact hstep.epoch_le.trans_lt (hb x ctx' hx')

theorem Reachable.tracked {pool_size : Nat} {s : Sys} (h : Reachable pool_size s) : Tracked s :=
  h.inv_good Tracked ⟨by simp [new], by simp [new]⟩ fun _ _ _ he hg ht => tracked_effect he hg ht

theorem Reachable.guarded {pool_size : Nat} {s : Sys} (h : Reachable pool_size s) (hb : FewBumps s) : Guarded s := by
  refine (h.inv_good (fun s => Tracked s ∧ (FewBumps s → Guarded s)) ?_ ?_).2 hb
  · exact ⟨⟨by simp [new], by simp [new]⟩, fun _ x ctx hx => by simp [new] at hx⟩
  · rintro s l s' he hg ⟨ht, hw⟩
    refine ⟨tracked_effect he hg ht, fun hb' => ?_⟩
    have hb := fewBumps_before he hg ht hb'
    exact guarded_effect he hg ht hb (hw hb)

/-- Also when the epochs have wrapped around, a slot that waits has a handshake on
its way, and none is from later. -/
theorem Reachable.sent {pool_size : Nat} {s : Sys} (h : Reachable pool_size s) {x : SocketHandle} {ctx : SocketCtx}
    (hx : s.socket_ctxs.get x = some ctx) : (s.guard x ctx).Sent := by
  refine (h.inv_good (fun s => Tracked s ∧ ∀ x ctx, s.socket_ctxs.get x = some ctx → (s.guard x ctx).Sent) ?_ ?_).2 x ctx hx
  · exact ⟨⟨by simp [new], by simp [new]⟩, fun x ctx hx => by simp [new] at hx⟩
  · rintro s l s' he hg ⟨ht, hs⟩
    exact ⟨tracked_effect he hg ht, fun _ _ => guards_effect he hg ht (fun _ hp hout _ => EpochGuard.sent_of_unused hp hout)
      fun x ctx _ hx hstep => (hs x ctx hx).step hstep⟩

theorem exists_of_mem_out {x : SocketHandle} {hs : List Handshake} {tk : Ticket} (h : tk ∈ ticketsOut x hs) :
    ∃ d ∈ hs, d.handle = x ∧ d.ticket = tk := by
  obtain ⟨d, hd, rfl⟩ := Multiset.mem_map.1 h
  obtain ⟨hd, hx⟩ := Multiset.mem_filter.1 hd
  exact ⟨d, hd, hx, rfl⟩

/-! ## The guard in the source's terms -/

theorem countP_and_eq_count {α β γ : Type} [DecidableEq β] [DecidableEq γ] (f : α → β) (g : α → γ) (l : List α)
    (b : β) (c : γ) :
    l.countP (fun a => f a = b ∧ g a = c) = (((l : Multiset α).filter (f · = b)).map g).count c := by
  rw [Multiset.count_map, Multiset.filter_filter, ← Multiset.coe_countP, Multiset.countP_eq_card_filter]
  congr 1
  refine Multiset.filter_congr fun a _ => ?_
  rw [and_comm, eq_comm]

theorem countP_out (h : SocketHandle) (bump : Nat) (hs : List Handshake) :
    hs.countP (fun d => d.handle = h ∧ d.bump = bump) = ((ticketsOut h hs).map (·.epoch)).count bump := by
  rw [countP_and_eq_count, ticketsOut, Multiset.map_map]
  rfl

theorem countP_taken (h : SocketHandle) (bump : Nat) (es : List (Handshake × Nat)) :
    es.countP (fun e => e.1.handle = h ∧ e.1.bump = bump) = ((ticketsTaken h es).map (·.1.epoch)).count bump := by
  rw [countP_and_eq_count (fun e : Handshake × Nat => e.1.handle), ticketsTaken, Multiset.map_map]
  rfl

/-- Among the handshakes of a slot, those with its `conn_epoch` were spawned at its
last increment. -/
theorem epoch_eq_conn_epoch_iff {s : Sys} (hg : Good s) (ht : Tracked s) (hb : FewBumps s) (hw : Guarded s)
    {d : Handshake} (hd : d ∈ s.handshakes) {ctx : SocketCtx} (hget : s.socket_ctxs.get d.handle = some ctx) :
    d.epoch = ctx.conn_epoch ↔ d.bump = ctx.hist.bumps := by
  have hle : d.bump ≤ ctx.hist.bumps := (hw _ ctx hget).le (ticket_mem_out hd)
  have hlt := hb _ ctx hget
  rw [(ht.out d hd).2, (hg.slots _ ctx hget).epoch, epoch_eq_iff, Nat.mod_eq_of_lt hlt,
    Nat.mod_eq_of_lt (hle.trans_lt hlt)]

theorem step_handshake_done {s s' : Sys} {i : Nat} {ok : Bool} {now : Nat}
    (he : s.step (.handshake_done i ok now) = some s') : ∃ done, s.handshakes[i]? = some done ∧
      { s with handshakes := s.handshakes.eraseIdx i }.handle_handshake_done done ok now = some s' := by
  unfold step at he
  split at he
  · contradiction
  · contradiction
  · contradiction
  · simpa only [on_select, Option.bind_eq_bind, Option.bind_eq_some_iff] using he
  · contradiction

/-- What the epoch is for. -/
structure EpochGuarded (s : Sys) : Prop where
  /-- A result was installed only in the generation that spawned its handshake. -/
  fresh : ∀ e ∈ s.installed, e.1.gen = e.2
  /-- No handshake of a slot was installed twice. -/
  once : ∀ h bump, s.installed.countP (fun e => e.1.handle = h ∧ e.1.bump = bump) ≤ 1
  /-- A result for another generation, or one that is not waited for, changes
  nothing. -/
  stale : ∀ i ok now s' done ctx, s.step (.handshake_done i ok now) = some s' → s.handshakes[i]? = some done →
    s.socket_ctxs.get done.handle = some ctx → done.gen ≠ ctx.hist.rearms ∨ ctx.state ≠ .HandshakePending →
    s' = { s with handshakes := s.handshakes.eraseIdx i }
  /-- A slot waits exactly when one handshake on its way carries its epoch. -/
  pending : ∀ h ctx, s.socket_ctxs.get h = some ctx → (ctx.state = .HandshakePending ↔
    s.handshakes.countP (fun d => d.handle = h ∧ d.epoch = ctx.conn_epoch) = 1)

/-- The epoch guard does its work in every state the loop can be in, as long as no
slot counted through all 2^64 epochs. -/
theorem epoch_guard {pool_size : Nat} {s : Sys} (hr : Reachable pool_size s) (hb : FewBumps s) : EpochGuarded s := by
  have hg := hr.good
  have ht := hr.tracked
  have hw := hr.guarded hb
  refine ⟨fun e he => ?_, fun h bump => ?_, fun i ok now s' done ctx hstep hi hget hst => ?_, fun h ctx hget => ?_⟩
  · obtain ⟨ctx, hget⟩ := ht.taken e he
    exact (hw _ ctx hget).current _ (ticket_mem_taken he)
  · cases hget : s.socket_ctxs.get h with
    | some ctx => exact countP_taken h bump _ ▸ (hw h ctx hget).taken_once bump
    | none =>
      -- A handle without slot has no handshakes.
      refine (List.countP_eq_zero.2 fun e he => ?_).le.trans (Nat.zero_le 1)
      obtain ⟨ctx, hctx⟩ := ht.taken e he
      simp only [decide_eq_true_eq, not_and]
      rintro rfl
      simp [hget] at hctx
  · obtain ⟨d, hd, hdone⟩ := step_handshake_done hstep
    obtain rfl : done = d := by simpa [hi] using hd
    rcases handshake_done_cases hdone with ⟨-, hs'⟩ | ⟨c, hm, -⟩
    · exact hs'
    · -- A result that matches is neither old nor unasked for.
      obtain rfl : ctx = c := by simpa [hget] using hm.get
      have hin := List.mem_of_getElem? hi
      have hbump := (epoch_eq_conn_epoch_iff hg ht hb hw hin hget).1 hm.epoch.symm
      have hgen := (hw _ ctx hget).fresh _ (ticket_mem_out hin) hbump
      exact hst.elim (absurd hgen) (absurd hm.pending)
  · have hcount : s.handshakes.countP (fun d => d.handle = h ∧ d.epoch = ctx.conn_epoch) =
        s.handshakes.countP (fun d => d.handle = h ∧ d.bump = ctx.hist.bumps) := by
      refine List.countP_congr fun d hd => ?_
      simp only [decide_eq_true_eq]
      refine and_congr_right fun hh => ?_
      subst hh
      exact epoch_eq_conn_epoch_iff hg ht hb hw hd hget
    rw [hcount, countP_out]
    exact (hw h ctx hget).pending_iff_count

/-- A handshake is spawned, its client resets the connection, and a second client
connects and has a handshake spawned. The first result is dropped and the second
one installed. -/
theorem epoch_guard_two_clients : ∃ s, Reachable 2 s ∧ FewBumps s ∧ s.installed.length = 1 ∧ EpochGuarded s := by
  have hrun : (runEvents step (new 2) (connect ⟨false, true⟩ (ipv4 93 184 216 34) ++
      packet ⟨false, true⟩ [.data [1]] ++ packet ⟨false, true⟩ [.rst] ++ [Event.udp_sweep 60] ++
      connect ⟨false, true⟩ (ipv4 93 184 216 35) ++ packet ⟨false, true⟩ [.data [2]] ++
      [Event.handshake_done 0 true 60, Event.handshake_done 0 true 60])).any
      (fun s => s.socket_ctxs.iter.all (fun e => decide (e.2.hist.bumps < EPOCHS)) &&
        decide (s.installed.length = 1)) = true := by
    decide +kernel
  obtain ⟨s, hs, hp⟩ := exists_reach_of_any hrun
  obtain ⟨hb, hlen⟩ := Bool.and_eq_true_iff.1 hp
  have hfew : FewBumps s := fun x ctx hx =>
    of_decide_eq_true (List.all_eq_true.1 hb (x, ctx) (Table.mem_iter.2 hx))
  exact ⟨s, hs, hfew, of_decide_eq_true hlen, epoch_guard hs hfew⟩

end Sys

end MiniVpn
