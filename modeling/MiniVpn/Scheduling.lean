import MiniVpn.Wiring
/-!
# The dirty set

`process_dirty_relay` visits the slots of the dirty set instead of all slots. A
slot with something to read or to flush is always in the set (`Ready`), so a
visit to any other slot does nothing, with one exception: a slot whose relay has
gone is rearmed by the next visit, and a relay that goes marks nothing dirty.
-/
open Lib

namespace MiniVpn

/-- There is something to read from the local socket, or to write to it. -/
def Busy (socket : TcpSocket) (ctx : SocketCtx) : Prop := socket.rx_buffer.data ≠ [] ∨ ctx.downlink_pending ≠ []

theorem Busy.read {socket : TcpSocket} {ctx : SocketCtx} {payload : Bytes} {rest : SocketBuffer}
    (hr : Read socket payload rest) (h : Busy (socket.afterRead rest) ctx) : Busy socket ctx := by
  refine h.imp (fun hrest => ?_) id
  rw [← hr.split]
  exact List.append_ne_nil_of_right_ne_nil _ hrest

theorem Busy.flush {socket socket' : TcpSocket} {ctx ctx' : SocketCtx}
    (hf : flush_downlink socket ctx = (socket', ctx')) (h : Busy socket' ctx') : Busy socket ctx := by
  obtain ⟨n, tx, diag, he⟩ := flush_downlink_cases socket ctx
  rw [hf, Prod.mk.injEq] at he
  obtain ⟨rfl, rfl⟩ := he
  exact h.imp id fun hp h0 => hp (by simp [h0])

theorem Busy.turn {socket socket' : TcpSocket} {ctx ctx' : SocketCtx} (ht : Turn socket ctx socket' ctx')
    (h : Busy socket' ctx') : Busy socket ctx := by
  cases ht with
  | flush => exact h.flush rfl
  | tunFlush ok => exact h
  | orphan payload rest _ hr => exact h.read hr
  | openFailed payload rest endpoint _ hr => exact h.read hr
  | buffer payload rest endpoint _ hr =>
    have hpend : ((ctx.noteExtracted payload (some endpoint)).buffer_uplink payload).2.downlink_pending =
        ctx.downlink_pending := by
      obtain ⟨buffer, he⟩ := buffer_uplink_frame (ctx.noteExtracted payload (some endpoint)) payload
      rw [he]
      rfl
    rw [Busy, hpend] at h
    exact Busy.read hr h

namespace Sys

/-- Busy slots are dirty. -/
def Ready (s : Sys) : Prop := ∀ h ctx, s.socket_ctxs.get h = some ctx → Busy (s.sockets.get h) ctx → h ∈ s.dirty

/-- A slot is written; if it is busy now it was busy before or is dirty now. -/
theorem Ready.write {s s' : Sys} (hr : Ready s) {h : SocketHandle} {ctx ctx' : SocketCtx} {socket' : TcpSocket}
    (hget : s.socket_ctxs.get h = some ctx) (hctxs : s'.socket_ctxs = s.socket_ctxs.insert h ctx')
    (hsock : s'.sockets = s.sockets.set h socket') (hdirty : ∀ x ∈ s.dirty, x ∈ s'.dirty)
    (hbusy : Busy socket' ctx' → Busy (s.sockets.get h) ctx ∨ h ∈ s'.dirty) : Ready s' := by
  intro x c hx hb
  rw [hctxs, Table.get_insert] at hx
  rw [hsock, SocketSet.get_set] at hb
  split at hx
  · subst_vars
    obtain rfl := Option.some.inj hx
    rw [if_pos rfl] at hb
    exact (hbusy hb).elim (fun hb => hdirty x (hr x ctx hget hb)) id
  · rename_i hne
    rw [if_neg hne] at hb
    exact hdirty x (hr x c hx hb)

/-- A rearmed slot is not busy. -/
theorem Ready.rearm {s s' : Sys} (hr : Ready s) {h : SocketHandle} {ctx : SocketCtx}
    (hget : s.socket_ctxs.get h = some ctx) (hctxs : s'.socket_ctxs = s.socket_ctxs.insert h ctx.rearmed)
    (hsock : s'.sockets = s.sockets.set h (.listening ctx.local_port)) (hdirty : s'.dirty = s.dirty) : Ready s' :=
  hr.write hget hctxs hsock (fun _ hx => hdirty ▸ hx) fun hb => (hb.elim (absurd rfl) (absurd rfl))

theorem ready_effect {s s' : Sys} {l : Label} (he : Effect s l s') (hg : Good s) (hr : Ready s) : Ready s' := by
  cases he with
  | pool | flows | schedule | discard | dropHandshake | relay => exact hr
  | grow port n l hgrow =>
    intro x c hx hb
    simp only [hgrow.ctx, hgrow.sock] at hx hb
    split at hx
    · rename_i hnew
      rw [if_pos hnew] at hb
      obtain rfl := Option.some.inj hx
      exact (hb.elim (absurd rfl) (absurd rfl))
    · rename_i hold
      rw [if_neg hold] at hb
      exact hr x c hx hb
  | mark hs => exact fun x c hx hb => Finset.mem_union_left _ (hr x c hx hb)
  | unmark h hrecv hpend =>
    intro x c hx hb
    refine Finset.mem_erase.2 ⟨?_, hr x c hx hb⟩
    rintro rfl
    rcases hb with hb | hb
    · exact absurd ((TcpSocket.can_recv_iff _).2 hb) (by simp [hrecv])
    · exact hb (hpend c hx)
  | segment port h seg hlt ha hport =>
    -- The slot belongs to the port of the segment, and all of those are dirty.
    intro x c hx hb
    simp only [SocketSet.get_set] at hb
    split at hb
    · subst_vars
      obtain ⟨c', hc', hin⟩ := hg.wired.known x hlt
      have hon := (hg.slots x c' hc').onPort.accepts ha
      exact hport x (hon ▸ hin)
    · exact hr x c hx hb
  | dispatch h t =>
    intro x c hx hb
    simp only [SocketSet.get_set] at hb
    split at hb
    · subst_vars
      refine hr x c hx (hb.imp (fun hrx => ?_) id)
      rw [← TcpSocket.can_recv_iff] at hrx ⊢
      exact TcpSocket.dispatch_can_recv hrx
    · exact hr x c hx hb
  | turn h ctx socket' ctx' hget ht => exact hr.write hget rfl rfl (fun _ => id) fun hb => .inl (hb.turn ht)
  | deliver msg rest ctx tx socket' ctx' l _ _ hget _ hfl =>
    refine hr.write hget rfl rfl (fun x hx => ?_) fun hb => ?_
    · simp only
      split
      · exact hx
      · exact Finset.mem_insert_of_mem hx
    · rcases hb with hrx | hpend
      · rw [(flush_downlink_frame hfl).2.2.2.2.2.2.2] at hrx
        exact .inl (.inl hrx)
      · -- What is left of the backlog marks the slot.
        have hne : ctx'.downlink_pending ≠ [] := hpend
        right
        simp [hne]
  | rearm h ctx now hget => exact hr.rearm hget rfl rfl rfl
  | eof msg rest ctx now _ _ hget => exact hr.rearm hget rfl rfl rfl
  | refuse i done ctx now _ hm => exact hr.rearm hm.get rfl rfl rfl
  | relayed h ctx tx payload rest hget _ _ hread =>
    exact hr.write hget rfl rfl (fun _ => id) fun hb => .inl (Busy.read hread hb)
  | opened h ctx payload rest endpoint target fake_ip now l hget _ _ hread =>
    refine hr.write hget rfl rfl (fun _ => id) fun hb => .inl (Busy.read hread ?_)
    cases fake_ip <;> exact hb
  | spawned h ctx payload rest endpoint target fake_ip now hget _ hstate hread =>
    refine hr.write hget rfl rfl (fun _ => id) fun hb => .inl (Busy.read hread ?_)
    rw [spawned_eq ((hg.slots h ctx hget).buffer hstate) hread.length_le] at hb
    cases fake_ip <;> exact hb
  | install i done ctx _ hm => exact hr.write hm.get rfl rfl (fun _ => id) .inl

theorem Reachable.ready {pool_size : Nat} {s : Sys} (h : Reachable pool_size s) : Ready s :=
  h.inv_good Ready (fun h ctx hget => by simp [new] at hget) fun _ _ _ he hg hr => ready_effect he hg hr

/-! ## What a visit reads and writes -/

/-- What a visit leaves behind. -/
structure Visit where
  socket : TcpSocket
  ctx : SocketCtx
  fake_pool : FakeIpPool
  relays : List RelayTask
  handshakes : List Handshake

/-- The state after a visit to `h`. -/
def visited (s : Sys) (h : SocketHandle) (v : Visit) : Sys :=
  { s.put h v.socket v.ctx with fake_pool := v.fake_pool, relays := v.relays, handshakes := v.handshakes }

/-- The two states agree on all a visit reads outside its slot. -/
structure SameRest (s t : Sys) : Prop where
  fake_pool : t.fake_pool = s.fake_pool
  relays : t.relays = s.relays
  handshakes : t.handshakes = s.handshakes

/-- Every relay is still there, and still has its receiver if it had it. -/
def ChannelsKept (rs rs' : List RelayTask) : Prop :=
  ∀ (id : RelayId) (r : RelayTask), rs[id]? = some r → ∃ r' : RelayTask, rs'[id]? = some r' ∧ r'.rx_dropped = r.rx_dropped

theorem ChannelsKept.refl (rs : List RelayTask) : ChannelsKept rs rs := fun _ r h => ⟨r, h, rfl⟩

theorem ChannelsKept.append (rs : List RelayTask) (r : RelayTask) : ChannelsKept rs (rs ++ [r]) := by
  intro id x hx
  exact ⟨x, by rw [List.getElem?_append_left (List.getElem?_eq_some_iff.1 hx).1]; exact hx, rfl⟩

theorem ChannelsKept.send (s : Sys) (tx : RelayId) (payload : Bytes) : ChannelsKept s.relays (s.send tx payload).relays := by
  intro id x hx
  simp only [Sys.send, List.getElem?_modify, hx]
  split <;> exact ⟨_, rfl, rfl⟩

/-- `f` visits slot `h`: what it writes depends on the rest of the state only
through what `SameRest` compares, and it closes no channel. -/
def IsVisit (s : Sys) (h : SocketHandle) (f : Sys → Option Sys) : Prop :=
  ∃ o : Option Visit, (∀ v, o = some v → ChannelsKept s.relays v.relays) ∧
    ∀ t, SameRest s t → f t = o.map (t.visited h)

theorem isVisit_none (s : Sys) (h : SocketHandle) {f : Sys → Option Sys} (hf : ∀ t, SameRest s t → f t = none) :
    IsVisit s h f := ⟨none, (fun _ h => by cases h), hf⟩

theorem isVisit_some (s : Sys) (h : SocketHandle) {f : Sys → Option Sys} (v : Visit)
    (hk : ChannelsKept s.relays v.relays) (hf : ∀ t, SameRest s t → f t = some (t.visited h v)) : IsVisit s h f :=
  ⟨some v, (fun _ h => Option.some.inj h ▸ hk), hf⟩

/-- A visit that only writes its slot. -/
theorem isVisit_put (s : Sys) (h : SocketHandle) {f : Sys → Option Sys} (socket : TcpSocket) (ctx : SocketCtx)
    (hf : ∀ t, SameRest s t → f t = some (t.put h socket ctx)) : IsVisit s h f :=
  isVisit_some s h ⟨socket, ctx, s.fake_pool, s.relays, s.handshakes⟩ (.refl _) fun t ht => by
    rw [hf t ht, visited, ← ht.fake_pool, ← ht.relays, ← ht.handshakes]
    rfl

/-- A visit that rearms its slot. -/
theorem isVisit_rearm (s : Sys) (h : SocketHandle) {f : Sys → Option Sys} (socket : TcpSocket) (ctx : SocketCtx)
    (now : Nat) (hf : ∀ t, SameRest s t → f t = (t.put h socket ctx).rearm_socket_with_reason h ctx now) :
    IsVisit s h f := by
  by_cases hport : ctx.local_port = 0
  · exact isVisit_none s h fun t ht => by rw [hf t ht, rearm_eq, if_pos hport]
  · refine isVisit_some s h ⟨.listening ctx.local_port, ctx.rearmed, s.fake_pool.releaseOpt ctx.fake_ip now, s.relays,
      s.handshakes⟩ (.refl _) fun t ht => ?_
    rw [hf t ht, rearm_eq, if_neg hport, rearmed_put t h socket ctx ctx now rfl rfl, rearmed, visited, ← ht.fake_pool,
      ← ht.relays, ← ht.handshakes]
    rfl

theorem established_uplink_isVisit (s : Sys) (h : SocketHandle) (socket : TcpSocket) (ctx : SocketCtx) (tx : RelayId)
    (now : Nat) : IsVisit s h fun t => (t.put h socket ctx).established_uplink h ctx tx now := by
  have hreserve {t : Sys} (ht : SameRest s t) : (t.put h socket ctx).try_reserve tx = s.try_reserve tx := by
    simp only [try_reserve, put, ht.relays]
  have hsock (t : Sys) : (t.put h socket ctx).sockets.get h = socket := SocketSet.get_set_self _ _ _
  cases hres : s.try_reserve tx with
  | Permit =>
    rcases extract_cases socket with ⟨-, hx⟩ | ⟨-, payload, rest, -, -, hx⟩
    · refine isVisit_put s h socket ctx fun t ht => ?_
      simp [established_uplink, hreserve ht, hres, hsock, hx]
    · refine isVisit_some s h ⟨socket.afterRead rest, ctx.relayed payload socket.local_endpoint, s.fake_pool,
        (s.send tx payload).relays, s.handshakes⟩ (.send s tx payload) fun t ht => ?_
      simp only [established_uplink, hreserve ht, hres, hsock, hx, put_put, Option.bind_eq_bind, Option.bind_some,
        Option.pure_def, visited, send, ← ht.fake_pool, ← ht.relays, ← ht.handshakes]
      rfl
  | Full =>
    refine isVisit_put s h socket ctx fun t ht => ?_
    simp [established_uplink, hreserve ht, hres]
  | Closed =>
    refine isVisit_rearm s h socket ctx now fun t ht => ?_
    simp [established_uplink, hreserve ht, hres]

theorem handle_local_payload_isVisit (s : Sys) (h : SocketHandle) (socket : TcpSocket) (ctx : SocketCtx)
    (payload : Bytes) (target : TargetAddr) (fake_ip : Option Ipv4Addr) (upstream : Upstream) (now : Nat) :
    IsVisit s h fun t => (t.put h socket ctx).handle_local_payload h payload (some target) fake_ip upstream now := by
  have hctx (t : Sys) : (t.put h socket ctx).socket_ctxs.get h = some ctx := Table.get_insert_self _ _ _
  have hsock (t : Sys) : (t.put h socket ctx).sockets.get h = socket := SocketSet.get_set_self _ _ _
  by_cases hpend : ctx.state = .HandshakePending
  · refine isVisit_put s h socket (ctx.buffer_uplink payload).2 fun t ht => ?_
    simp only [handle_local_payload, hctx, hsock, hpend, if_true, put_put]
  · cases hcheap : upstream.open_is_cheap with
    | true =>
      cases hopen : upstream.open_tcp with
      | false =>
        refine isVisit_put s h socket { ctx with state := .OpeningRemote } fun t ht => ?_
        simp [handle_local_payload, hctx, hsock, hpend, hcheap, hopen, put_put]
      | true =>
        refine isVisit_some s h ⟨socket, ({ ctx with
            uplink_tx := some s.relays.length, state := .Relaying }.hold_fake_ip fake_ip).noteFed payload,
          s.fake_pool.acquireOpt fake_ip now, s.relays ++ [.new h target [payload] ctx.hist.rearms], s.handshakes⟩
          (.append _ _) fun t ht => ?_
        simp only [handle_local_payload, hctx, hsock, hpend, hcheap, hopen, try_send_nil, if_true, if_false,
          spawn_remote_relay, visited, ← ht.fake_pool, ← ht.relays, ← ht.handshakes]
        simp only [put, SocketSet.set_set, Table.insert_insert]
        cases fake_ip <;> rfl
    | false =>
      let ctx' := ({ ctx with
        state := .HandshakePending
        conn_epoch := ctx.conn_epoch + 1
        hist := { ctx.hist with
          bumps := ctx.hist.bumps + 1
          spawned := some (ctx.hist.extracted.length - 1) } }.hold_fake_ip fake_ip).buffer_uplink payload
      refine isVisit_some s h ⟨socket, ctx'.2, s.fake_pool.acquireOpt fake_ip now, s.relays,
        s.handshakes ++ [⟨h, ctx.conn_epoch + 1, target, ctx'.2.hist.bumps, ctx'.2.hist.rearms⟩]⟩
        (.refl _) fun t ht => ?_
      simp only [handle_local_payload, hctx, hsock, hpend, hcheap, Bool.false_eq_true, if_false, visited,
        ← ht.fake_pool, ← ht.relays, ← ht.handshakes]
      simp only [put, SocketSet.set_set, Table.insert_insert]
      cases fake_ip <;> rfl

theorem IsVisit.congr {s : Sys} {h : SocketHandle} {f g : Sys → Option Sys} (hf : IsVisit s h f)
    (hfg : ∀ t, SameRest s t → g t = f t) : IsVisit s h g := by
  obtain ⟨o, hk, ho⟩ := hf
  exact ⟨o, hk, fun t ht => (hfg t ht).trans (ho t ht)⟩

theorem first_payload_isVisit (s : Sys) (h : SocketHandle) (socket : TcpSocket) (ctx : SocketCtx) (upstream : Upstream)
    (now : Nat) : IsVisit s h fun t => (t.put h socket ctx).first_payload h ctx upstream now := by
  have hsock (t : Sys) : (t.put h socket ctx).sockets.get h = socket := SocketSet.get_set_self _ _ _
  rcases extract_cases socket with ⟨-, hx⟩ | ⟨-, payload, rest, -, -, hx⟩
  · refine isVisit_put s h socket ctx fun t ht => ?_
    simp [first_payload, hsock, hx]
  · cases hep : socket.local_endpoint with
    | none =>
      refine isVisit_put s h (socket.afterRead rest) (ctx.noteExtracted payload none) fun t ht => ?_
      simp [first_payload, hsock, hx, hep, put_put]
    | some endpoint =>
      have hpool {t : Sys} (ht : SameRest s t) (a : TcpSocket) (c : SocketCtx) :
          resolve_target endpoint (t.put h a c).fake_pool = resolve_target endpoint s.fake_pool := by
        simp only [put, ht.fake_pool]
      cases hres : resolve_target endpoint s.fake_pool with
      | Direct target fake_ip =>
        refine (handle_local_payload_isVisit s h (socket.afterRead rest) (ctx.noteExtracted payload (some endpoint)) payload
          target fake_ip upstream now).congr fun t ht => ?_
        simp [first_payload, hsock, hx, hep, put_put, hpool ht, hres]
      | Refuse | Block =>
        refine isVisit_rearm s h (socket.afterRead rest) (ctx.noteExtracted payload (some endpoint)) now fun t ht => ?_
        simp [first_payload, hsock, hx, hep, put_put, hpool ht, hres]

/-- `process_listener_activity` reads its slot and what `SameRest` compares. -/
theorem process_listener_activity_isVisit {s : Sys} {h : SocketHandle} {ctx : SocketCtx}
    (hget : s.socket_ctxs.get h = some ctx) (upstream : Upstream) (now : Nat) :
    ∃ o : Option Visit, (∀ v, o = some v → ChannelsKept s.relays v.relays) ∧
      ∀ t, SameRest s t → t.slot h = s.slot h → t.process_listener_activity h upstream now = o.map (t.visited h) := by
  obtain ⟨socket₁, ctx₁, hfl⟩ : ∃ a b, flush_downlink (s.sockets.get h) ctx = (a, b) := ⟨_, _, rfl⟩
  have hslots {t : Sys} (hslot : t.slot h = s.slot h) : t.socket_ctxs.get h = some ctx ∧ t.sockets.get h = s.sockets.get h :=
    slot_eq_some.1 (hslot.trans (slot_eq_some.2 ⟨hget, rfl⟩))
  -- The two branches, after the flush.
  cases hup : ctx₁.uplink_tx with
  | some tx =>
    obtain ⟨o, hk, ho⟩ := established_uplink_isVisit s h socket₁ ctx₁ tx now
    refine ⟨o, hk, fun t ht hslot => ?_⟩
    simp only [process_listener_activity, hslots hslot, hfl, hup]
    exact ho t ht
  | none =>
    obtain ⟨o, hk, ho⟩ := first_payload_isVisit s h socket₁ ctx₁ upstream now
    refine ⟨o, hk, fun t ht hslot => ?_⟩
    simp only [process_listener_activity, hslots hslot, hfl, hup]
    exact ho t ht

/-! ## Quiet slots -/

/-- The channel of relay `tx` is open, full or not. -/
theorem try_reserve_ne_closed {s : Sys} {tx : RelayId} :
    s.try_reserve tx ≠ .Closed ↔ ∃ r, s.relays[tx]? = some r ∧ r.rx_dropped = false := by
  unfold try_reserve
  cases s.relays[tx]? with
  | none => simp
  | some r =>
    cases hd : r.rx_dropped with
    | true => simp [hd]
    | false =>
      simp only [Bool.false_eq_true, if_false, Option.some.injEq, exists_eq_left', hd, iff_true]
      split <;> simp

/-- The slot has nothing to read, nothing to flush, and no closed uplink. -/
structure Quiet (s : Sys) (h : SocketHandle) (socket : TcpSocket) (ctx : SocketCtx) : Prop where
  slot : s.slot h = some (socket, ctx)
  idle : ¬ Busy socket ctx
  open_ : ∀ tx, ctx.uplink_tx = some tx → s.try_reserve tx ≠ .Closed

/-- A visit to a quiet slot writes it back as it is. -/
theorem Quiet.visit {s : Sys} {h : SocketHandle} {socket : TcpSocket} {ctx : SocketCtx} (hq : Quiet s h socket ctx)
    (upstream : Upstream) (now : Nat) : s.process_listener_activity h upstream now = some (s.put h socket ctx) := by
  obtain ⟨hget, hsock⟩ := slot_eq_some.1 hq.slot
  obtain ⟨hrx, hpend⟩ := not_or.1 hq.idle
  have hnorecv := TcpSocket.can_recv_eq_false (Decidable.not_not.1 hrx)
  have hsock' : (s.put h socket ctx).sockets.get h = socket := SocketSet.get_set_self _ _ _
  simp only [process_listener_activity, hget, hsock, flush_downlink_nil (Decidable.not_not.1 hpend)]
  cases hup : ctx.uplink_tx with
  | none => simp [first_payload, hsock', extract_of_not_can_recv hnorecv]
  | some tx =>
    have hopen : (s.put h socket ctx).try_reserve tx ≠ .Closed := hq.open_ tx hup
    cases hres : (s.put h socket ctx).try_reserve tx with
    | Permit => simp [established_uplink, hres, hsock', extract_of_not_can_recv hnorecv]
    | Full => simp [established_uplink, hres]
    | Closed => exact absurd hres hopen

/-- A quiet slot stays quiet while other slots are visited. -/
theorem Quiet.frame {s s' : Sys} {h : SocketHandle} {socket : TcpSocket} {ctx : SocketCtx} (hq : Quiet s h socket ctx)
    (hslot : s'.slot h = s.slot h) (hk : ChannelsKept s.relays s'.relays) : Quiet s' h socket ctx where
  slot := hslot.trans hq.slot
  idle := hq.idle
  open_ tx htx := by
    obtain ⟨r, hr, hd⟩ := try_reserve_ne_closed.1 (hq.open_ tx htx)
    obtain ⟨r', hr', hd'⟩ := hk tx r hr
    exact try_reserve_ne_closed.2 ⟨r', hr', hd'.trans hd⟩

/-! ## The full sweep -/

/-- Visits to the slots of a list, as the loop over `all_handles()` made them. -/
def process_all (s : Sys) (hs : List SocketHandle) (upstream : SocketHandle → Upstream) (now : Nat) : Option Sys :=
  hs.foldlM (fun s h => s.process_listener_activity h (upstream h) now) s

/-- Same slots and same rest, though the table may list its entries in another
order. -/
structure Alike (s t : Sys) : Prop extends SameRest s t where
  slots : ∀ x, t.slot x = s.slot x

theorem Alike.refl (s : Sys) : Alike s s := ⟨⟨rfl, rfl, rfl⟩, fun _ => rfl⟩

theorem slot_visited (s : Sys) (h x : SocketHandle) (v : Visit) :
    (s.visited h v).slot x = if x = h then some (v.socket, v.ctx) else s.slot x := slot_put s h x v.socket v.ctx

theorem Alike.visited {s t : Sys} (ha : Alike s t) (h : SocketHandle) (v : Visit) :
    Alike (s.visited h v) (t.visited h v) :=
  ⟨⟨rfl, rfl, rfl⟩, fun x => by rw [slot_visited, slot_visited, ha.slots]⟩

/-- Leaving quiet slots out of a sweep changes nothing. -/
theorem process_all_alike (dirty : Finset SocketHandle) (upstream : SocketHandle → Upstream) (now : Nat)
    (hs : List SocketHandle) {s t : Sys} (ha : Alike s t) (hreg : ∀ h ∈ hs, ∃ ctx, s.socket_ctxs.get h = some ctx)
    (hq : ∀ h ∈ hs, h ∉ dirty → ∃ socket ctx, Quiet s h socket ctx) :
    Option.Rel Alike (s.process_all hs upstream now) (t.process_all (hs.filter (· ∈ dirty)) upstream now) := by
  induction hs generalizing s t with
  | nil => exact .some ha
  | cons h hs ih =>
    have hreg' : ∀ x ∈ hs, ∃ c, s.slot x = some c := fun x hx => by
      obtain ⟨ctx, hctx⟩ := hreg x (List.mem_cons_of_mem _ hx)
      exact ⟨_, slot_eq_some.2 ⟨hctx, rfl⟩⟩
    by_cases hd : h ∈ dirty
    · -- Both sweeps visit `h` and do the same there.
      obtain ⟨ctx, hget⟩ := hreg h List.mem_cons_self
      obtain ⟨o, hk, ho⟩ := process_listener_activity_isVisit hget (upstream h) now
      have hs' := ho s ⟨rfl, rfl, rfl⟩ rfl
      have ht' := ho t ha.toSameRest (ha.slots h)
      simp only [process_all, List.filter_cons, hd, decide_true, if_true, List.foldlM_cons, hs', ht',
        Option.bind_eq_bind] at ih ⊢
      cases o with
      | none => exact .none
      | some v =>
        refine ih (ha.visited h v) (fun x hx => ?_) fun x hx hxd => ?_
        · by_cases hxh : x = h
          · exact ⟨v.ctx, by rw [hxh]; exact Table.get_insert_self _ _ _⟩
          · obtain ⟨c, hc⟩ := hreg' x hx
            exact ⟨c.2, (slot_eq_some.1 (((slot_visited s h x v).trans (if_neg hxh)).trans hc)).1⟩
        · have hxh : x ≠ h := fun hxh => hxd (hxh ▸ hd)
          obtain ⟨socket, c, hqx⟩ := hq x (List.mem_cons_of_mem _ hx) hxd
          exact ⟨socket, c, hqx.frame ((slot_visited s h x v).trans (if_neg hxh)) (hk v rfl)⟩
    · -- Only the full sweep visits `h`, and nothing happens.
      obtain ⟨socket, ctx, hqh⟩ := hq h List.mem_cons_self hd
      have hsame : ∀ x, (s.put h socket ctx).slot x = s.slot x := fun x => by
        rw [slot_put]
        split
        · subst_vars
          exact hqh.slot.symm
        · rfl
      simp only [process_all, List.filter_cons, hd, decide_false, Bool.false_eq_true, if_false, List.foldlM_cons,
        hqh.visit (upstream h) now, Option.bind_eq_bind, Option.bind_some] at ih ⊢
      refine ih ⟨⟨ha.fake_pool, ha.relays, ha.handshakes⟩, fun x => (ha.slots x).trans (hsame x).symm⟩
        (fun x hx => ?_) fun x hx hxd => ?_
      · obtain ⟨c, hc⟩ := hreg' x hx
        exact ⟨c.2, (slot_eq_some.1 ((hsame x).trans hc)).1⟩
      · obtain ⟨socket', c, hqx⟩ := hq x (List.mem_cons_of_mem _ hx) hxd
        exact ⟨socket', c, hqx.frame (hsame x) (.refl _)⟩

/-- A visit to `h` would change neither its socket, nor its context, nor the pool. -/
def IdleVisit (s : Sys) (h : SocketHandle) : Prop :=
  ∀ upstream now, ∃ s', s.process_listener_activity h upstream now = some s' ∧ s'.slot h = s.slot h ∧
    s'.fake_pool = s.fake_pool

/-- Visiting the dirty slots leaves the same slots and the same pool as visiting
all of them. -/
def DirtySuffices (s : Sys) : Prop :=
  ∀ upstream now, Option.Rel Alike (s.process_all s.registry.all_handles upstream now)
    (s.process_all (s.registry.all_handles.filter (· ∈ s.dirty)) upstream now)

/-- A visit to a slot that is not busy and whose uplink is closed rearms it. -/
theorem visit_closed {s : Sys} {h : SocketHandle} {ctx : SocketCtx} {tx : RelayId} (hi : SlotInv (s.sockets.get h) ctx)
    (hget : s.socket_ctxs.get h = some ctx) (hidle : ¬ Busy (s.sockets.get h) ctx) (htx : ctx.uplink_tx = some tx)
    (hclosed : s.try_reserve tx = .Closed) (upstream : Upstream) (now : Nat) :
    s.process_listener_activity h upstream now = some (s.rearmed h ctx now) := by
  have hpend := Decidable.not_not.1 (not_or.1 hidle).2
  have hclosed' : (s.put h (s.sockets.get h) ctx).try_reserve tx = .Closed := hclosed
  simp only [process_listener_activity, hget, flush_downlink_nil hpend, htx, established_uplink, hclosed']
  rw [rearm_eq, if_neg hi.port, rearmed_put s h _ ctx ctx now rfl rfl]

/-- In every state of every run, a visit to a slot outside the dirty set does
nothing and the dirty set is all a sweep has to visit, exactly when no slot
outside the set has an uplink whose receiver is gone. -/
theorem dirty_set_exact_iff {pool_size : Nat} {s : Sys} (hr : Reachable pool_size s) :
    ((∀ h ∈ s.registry.all_handles, h ∉ s.dirty → IdleVisit s h) ∧ DirtySuffices s) ↔
      ∀ h ∈ s.registry.all_handles, h ∉ s.dirty → ∀ ctx tx, s.socket_ctxs.get h = some ctx →
        ctx.uplink_tx = some tx → s.try_reserve tx ≠ .Closed := by
  have hidle {h : SocketHandle} {ctx : SocketCtx} (hd : h ∉ s.dirty) (hget : s.socket_ctxs.get h = some ctx) :
      ¬ Busy (s.sockets.get h) ctx := fun hb => hd (hr.ready h ctx hget hb)
  constructor
  · rintro ⟨hvisit, -⟩ h hin hd ctx tx hget htx hclosed
    obtain ⟨s', hs', hslot, -⟩ := hvisit h hin hd ⟨true, true⟩ 0
    rw [visit_closed (hr.slotsOk h ctx hget) hget (hidle hd hget) htx hclosed] at hs'
    obtain rfl := Option.some.inj hs'
    -- The rearmed slot has no uplink any more.
    have hnew : (s.rearmed h ctx 0).socket_ctxs.get h = some ctx.rearmed := Table.get_insert_self _ _ _
    have hold := slot_eq_some.1 (hslot.trans (slot_eq_some.2 ⟨hget, rfl⟩))
    rw [hnew, Option.some.injEq] at hold
    have hnone : ctx.rearmed.uplink_tx = none := rfl
    rw [hold.1, htx] at hnone
    cases hnone
  · intro hopen
    have hquiet : ∀ h ∈ s.registry.all_handles, h ∉ s.dirty → ∃ socket ctx, Quiet s h socket ctx := by
      intro h hin hd
      obtain ⟨ctx, hget⟩ := hr.wired.registered.1 hin
      exact ⟨s.sockets.get h, ctx, slot_eq_some.2 ⟨hget, rfl⟩, hidle hd hget,
        fun tx htx => hopen h hin hd ctx tx hget htx⟩
    refine ⟨fun h hin hd upstream now => ?_, fun upstream now => ?_⟩
    · obtain ⟨socket, ctx, hq⟩ := hquiet h hin hd
      exact ⟨_, hq.visit upstream now, by rw [slot_put, if_pos rfl, hq.slot], rfl⟩
    · exact process_all_alike s.dirty upstream now _ (.refl s) (fun h hin => hr.wired.registered.1 hin) hquiet

/-- A client whose payload is being relayed: its slot is not dirty, its channel is
open, and the dirty set is exact. -/
theorem dirty_set_exact_relaying : ∃ s, Reachable 2 s ∧ (0 ∈ s.registry.all_handles ∧ 0 ∉ s.dirty) ∧
    (((∀ h ∈ s.registry.all_handles, h ∉ s.dirty → IdleVisit s h) ∧ DirtySuffices s) ↔
      ∀ h ∈ s.registry.all_handles, h ∉ s.dirty → ∀ ctx tx, s.socket_ctxs.get h = some ctx →
        ctx.uplink_tx = some tx → s.try_reserve tx ≠ .Closed) := by
  have hrun : (runEvents step (new 2) (connect ⟨true, true⟩ (ipv4 93 184 216 34) ++
      packet ⟨true, true⟩ [.data [1]])).any (fun s => decide (0 ∈ s.registry.all_handles ∧ 0 ∉ s.dirty)) = true := by
    decide +kernel
  obtain ⟨s, hs, hp⟩ := exists_reach_of_any hrun
  exact ⟨s, hs, of_decide_eq_true hp, dirty_set_exact_iff hs⟩

/-- The relay of a client is idle for too long and returns. The slot is not dirty,
but a visit would rearm it. -/
theorem relay_gone_not_dirty : ∃ s s', Reachable 2 s ∧ s.todo = [] ∧ 0 ∈ s.registry.all_handles ∧ 0 ∉ s.dirty ∧
    s.process_listener_activity 0 ⟨true, true⟩ 0 = some s' ∧ s'.slot 0 ≠ s.slot 0 := by
  have hrun : (runEvents step (new 2) (connect ⟨true, true⟩ (ipv4 93 184 216 34) ++
      packet ⟨true, true⟩ [.data [1]] ++ [Event.relay 0 .recv, Event.relay 0 (.wrote 1), Event.relay 0 .idle, Event.relay 0 .shut])).any
      (fun s => decide (s.todo = [] ∧ 0 ∈ s.registry.all_handles ∧ 0 ∉ s.dirty) &&
        (s.process_listener_activity 0 ⟨true, true⟩ 0).any fun s' => decide (s'.slot 0 ≠ s.slot 0)) = true := by
    decide +kernel
  obtain ⟨s, hs, hp⟩ := exists_reach_of_any hrun
  obtain ⟨hstate, hvisit⟩ := Bool.and_eq_true_iff.1 hp
  obtain ⟨htodo, hin, hd⟩ := of_decide_eq_true hstate
  obtain ⟨s', hs', hne⟩ := (Option.any_eq_true _ _).1 hvisit
  exact ⟨s, s', hs, htodo, hin, hd, hs', of_decide_eq_true hne⟩

end Sys

end MiniVpn
