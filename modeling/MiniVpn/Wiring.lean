import MiniVpn.Invariants
/-!
# How slots, registry, relays and messages fit together

`Wired`: sockets, contexts and the registry know the same handles, and the dirty
set holds no other. `Linked`: an uplink leads to the relay of the slot's current
generation, and messages come from relays of the slot they are addressed to.
-/
open Lib

namespace MiniVpn

/-! ## Contexts keep their port -/

theorem flush_downlink_frame {socket socket' : TcpSocket} {ctx ctx' : SocketCtx}
    (h : flush_downlink socket ctx = (socket', ctx')) :
    ctx'.local_port = ctx.local_port ∧ ctx'.uplink_tx = ctx.uplink_tx ∧ ctx'.fake_ip = ctx.fake_ip ∧
      ctx'.state = ctx.state ∧ ctx'.conn_epoch = ctx.conn_epoch ∧ ctx'.hist.rearms = ctx.hist.rearms ∧
      ctx'.hist.bumps = ctx.hist.bumps ∧ socket'.rx_buffer = socket.rx_buffer := by
  obtain ⟨n, tx, diag, he⟩ := flush_downlink_cases socket ctx
  rw [h, Prod.mk.injEq] at he
  obtain ⟨rfl, rfl⟩ := he
  exact ⟨rfl, rfl, rfl, rfl, rfl, rfl, rfl, rfl⟩

/-- A turn leaves port, uplink, fake-IP, epoch and generation alone. -/
theorem Turn.frame {socket socket' : TcpSocket} {ctx ctx' : SocketCtx} (h : Turn socket ctx socket' ctx') :
    ctx'.local_port = ctx.local_port ∧ ctx'.uplink_tx = ctx.uplink_tx ∧ ctx'.fake_ip = ctx.fake_ip ∧
      ctx'.conn_epoch = ctx.conn_epoch ∧ ctx'.hist.rearms = ctx.hist.rearms ∧ ctx'.hist.bumps = ctx.hist.bumps := by
  cases h with
  | flush =>
    obtain ⟨h1, h2, h3, -, h5, h6, h7, -⟩ := @flush_downlink_frame socket _ ctx _ rfl
    exact ⟨h1, h2, h3, h5, h6, h7⟩
  | tunFlush ok => exact ⟨rfl, rfl, rfl, rfl, rfl, rfl⟩
  | orphan => exact ⟨rfl, rfl, rfl, rfl, rfl, rfl⟩
  | openFailed => exact ⟨rfl, rfl, rfl, rfl, rfl, rfl⟩
  | buffer payload rest endpoint =>
    obtain ⟨buffer, he⟩ := buffer_uplink_frame (ctx.noteExtracted payload (some endpoint)) payload
    rw [he]
    exact ⟨rfl, rfl, rfl, rfl, rfl, rfl⟩

theorem SocketCtx.opened_local_port (ctx : SocketCtx) (payload : Bytes) (endpoint : IpEndpoint) (tx : RelayId)
    (fake_ip : Option Ipv4Addr) : (ctx.opened payload endpoint tx fake_ip).local_port = ctx.local_port := by
  cases fake_ip <;> rfl

theorem SocketCtx.spawned_local_port (ctx : SocketCtx) (payload : Bytes) (endpoint : IpEndpoint)
    (fake_ip : Option Ipv4Addr) : (ctx.spawned payload endpoint fake_ip).local_port = ctx.local_port := by
  simp only [SocketCtx.spawned, SocketCtx.buffer_uplink]
  cases fake_ip <;> (split <;> rfl)

namespace Sys

/-- A slot: its socket and its context. -/
def slot (s : Sys) (h : SocketHandle) : Option (TcpSocket × SocketCtx) :=
  (s.socket_ctxs.get h).map fun ctx => (s.sockets.get h, ctx)

theorem slot_eq_some {s : Sys} {h : SocketHandle} {socket : TcpSocket} {ctx : SocketCtx} :
    s.slot h = some (socket, ctx) ↔ s.socket_ctxs.get h = some ctx ∧ s.sockets.get h = socket := by
  simp only [slot, Option.map_eq_some_iff, Prod.mk.injEq]
  constructor
  · rintro ⟨c, hc, hs, rfl⟩
    exact ⟨hc, hs⟩
  · rintro ⟨hc, hs⟩
    exact ⟨ctx, hc, hs, rfl⟩

theorem slot_put (s : Sys) (h x : SocketHandle) (socket : TcpSocket) (ctx : SocketCtx) :
    (s.put h socket ctx).slot x = if x = h then some (socket, ctx) else s.slot x := by
  simp only [slot, put, Table.get_insert, SocketSet.get_set]
  split <;> rfl

/-- `h` was rearmed between the two states. -/
def RearmedIn (s s' : Sys) (h : SocketHandle) : Prop :=
  ∃ ctx, s.socket_ctxs.get h = some ctx ∧ s'.slot h = some (.listening ctx.local_port, ctx.rearmed)

structure Wired (s : Sys) : Prop where
  tight : s.toListeners.Tight
  known : ∀ h, s.sockets.len > h → ∃ ctx, s.socket_ctxs.get h = some ctx ∧ h ∈ s.registry.handles_for_port ctx.local_port
  handles : ∀ port, ∀ h ∈ s.registry.handles_for_port port, s.sockets.len > h
  dirty : ∀ h ∈ s.dirty, s.sockets.len > h
  todo : ∀ h ∈ s.todo, s.sockets.len > h

theorem Wired.lt {s : Sys} (h : Wired s) {x : SocketHandle} {ctx : SocketCtx} (hx : s.socket_ctxs.get x = some ctx) :
    s.sockets.len > x := by
  by_contra hge
  have := h.tight x (by omega)
  simp [hx] at this

/-- A handle is registered exactly when it has a context. -/
theorem Wired.registered {s : Sys} (h : Wired s) {x : SocketHandle} :
    x ∈ s.registry.all_handles ↔ ∃ ctx, s.socket_ctxs.get x = some ctx := by
  rw [ListenerRegistry.mem_all_handles]
  constructor
  · rintro ⟨port, hx⟩
    obtain ⟨ctx, hctx, -⟩ := h.known x (h.handles port x hx)
    exact ⟨ctx, hctx⟩
  · rintro ⟨ctx, hctx⟩
    obtain ⟨ctx', -, hin⟩ := h.known x (h.lt hctx)
    exact ⟨_, hin⟩

/-- Writing an existing slot back, under its port. -/
theorem Wired.write {s s' : Sys} (h : Wired s) {x : SocketHandle} {ctx ctx' : SocketCtx}
    (hget : s.socket_ctxs.get x = some ctx) (hctxs : s'.socket_ctxs = s.socket_ctxs.insert x ctx')
    (hport : ctx'.local_port = ctx.local_port) (hlen : s'.sockets.len = s.sockets.len)
    (hreg : s'.registry = s.registry) (hdirty : ∀ y ∈ s'.dirty, y ∈ s.dirty ∨ y = x) (htodo : s'.todo = s.todo) :
    Wired s' where
  tight y hy := by
    rw [hlen] at hy
    rw [hctxs, Table.get_insert, if_neg]
    · exact h.tight y hy
    · rintro rfl
      have := h.lt hget
      omega
  known y hy := by
    rw [hlen] at hy
    rw [hctxs, hreg, Table.get_insert]
    split
    · obtain ⟨c, hc, hin⟩ := h.known y hy
      subst_vars
      obtain rfl : ctx = c := by simpa [hget] using hc
      exact ⟨ctx', rfl, hport ▸ hin⟩
    · exact h.known y hy
  handles port y hy := by
    rw [hreg] at hy
    rw [hlen]
    exact h.handles port y hy
  dirty y hy := by
    rw [hlen]
    rcases hdirty y hy with hy | rfl
    · exact h.dirty y hy
    · exact h.lt hget
  todo y hy := by
    rw [htodo] at hy
    rw [hlen]
    exact h.todo y hy

theorem Wired.grow {s : Sys} (h : Wired s) {port : UInt16} {n : Nat} {l : Listeners}
    (hg : Listeners.Grown port n s.toListeners l) : Wired { s with toListeners := l } where
  tight := hg.toAdded.tight h.tight
  known y hy := by
    simp only [hg.ctx, hg.handles]
    split
    · rename_i hnew
      exact ⟨_, rfl, by simp [SocketCtx.new, List.mem_range'_1]; omega⟩
    · rename_i hold
      have hlt : s.sockets.len > y := by
        have := hg.len
        simp only at hy
        omega
      obtain ⟨ctx, hctx, hin⟩ := h.known y hlt
      refine ⟨ctx, hctx, ?_⟩
      split
      · rename_i he
        rw [he] at hin
        exact List.mem_append_left _ hin
      · exact hin
  handles p y hy := by
    simp only [hg.handles] at hy
    simp only [hg.len]
    split at hy
    · rcases List.mem_append.1 hy with hy | hy
      · have := h.handles port y hy
        omega
      · have := List.mem_range'_1.1 hy
        omega
    · have := h.handles p y hy
      omega
  dirty y hy := by
    have := h.dirty y hy
    simp only [hg.len]
    omega
  todo y hy := by
    have := h.todo y hy
    simp only [hg.len]
    omega

/-- A change that leaves sockets' number, contexts and registry alone. -/
theorem Wired.frame {s s' : Sys} (h : Wired s) (hlen : s'.sockets.len = s.sockets.len)
    (hctxs : s'.socket_ctxs = s.socket_ctxs) (hreg : s'.registry = s.registry)
    (hdirty : ∀ y ∈ s'.dirty, s.sockets.len > y) (htodo : ∀ y ∈ s'.todo, s.sockets.len > y) : Wired s' where
  tight y hy := by rw [hctxs]; exact h.tight y (hlen ▸ hy)
  known y hy := by rw [hctxs, hreg]; exact h.known y (hlen ▸ hy)
  handles port y hy := by rw [hlen]; exact h.handles port y (hreg ▸ hy)
  dirty y hy := by rw [hlen]; exact hdirty y hy
  todo y hy := by rw [hlen]; exact htodo y hy

theorem wired_effect {s s' : Sys} {l : Label} (he : Effect s l s') (h : Wired s) : Wired s' := by
  cases he with
  | pool | flows | discard | dropHandshake | relay | segment | dispatch => exact h.frame rfl rfl rfl h.dirty h.todo
  | grow port n l hg => exact h.grow hg
  | mark hs hmem =>
    refine h.frame rfl rfl rfl (fun y hy => ?_) h.todo
    rcases Finset.mem_union.1 hy with hy | hy
    · exact h.dirty y hy
    · rcases hmem y hy with ⟨port, hp⟩ | ⟨ctx, hctx⟩
      · exact h.handles port y hp
      · exact h.lt hctx
  | unmark x => exact h.frame rfl rfl rfl (fun y hy => h.dirty y (Finset.mem_of_mem_erase hy)) h.todo
  | schedule todo hsub =>
    exact h.frame rfl rfl rfl h.dirty fun y hy => (hsub y hy).elim (h.todo y) (h.dirty y)
  | turn x ctx socket' ctx' hget ht => exact h.write hget rfl ht.frame.1 rfl rfl (fun _ => .inl) rfl
  | deliver msg rest ctx tx socket' ctx' l _ _ hget _ hfl =>
    refine h.write hget rfl (flush_downlink_frame hfl).1 rfl rfl (fun y hy => ?_) rfl
    simp only at hy
    split at hy
    · exact .inl hy
    · exact (Finset.mem_insert.1 hy).symm
  | rearm x ctx now hget => exact h.write hget rfl rfl rfl rfl (fun _ => .inl) rfl
  | eof msg rest ctx now _ _ hget => exact h.write hget rfl rfl rfl rfl (fun _ => .inl) rfl
  | relayed x ctx tx payload rest hget => exact h.write hget rfl rfl rfl rfl (fun _ => .inl) rfl
  | opened x ctx payload rest endpoint target fake_ip now l hget =>
    exact h.write hget rfl (ctx.opened_local_port _ _ _ _) rfl rfl (fun _ => .inl) rfl
  | spawned x ctx payload rest endpoint target fake_ip now hget =>
    exact h.write hget rfl (ctx.spawned_local_port _ _ _) rfl rfl (fun _ => .inl) rfl
  | install i done ctx _ hm => exact h.write hm.get rfl rfl rfl rfl (fun _ => .inl) rfl
  | refuse i done ctx now _ hm => exact h.write hm.get rfl rfl rfl rfl (fun _ => .inl) rfl

theorem new_wired (pool_size : Nat) : Wired (new pool_size) where
  tight _ _ := Table.get_empty _
  known h hlt := absurd hlt (Nat.not_lt_zero _)
  handles port h hin := by simp [new, ListenerRegistry.new, ListenerRegistry.handles_for_port] at hin
  dirty h hin := by simp [new] at hin
  todo h hin := by simp [new] at hin

theorem Reachable.wired {pool_size : Nat} {s : Sys} (h : Reachable pool_size s) : Wired s :=
  h.inv Wired (new_wired pool_size) fun _ _ _ he hs => wired_effect he hs

theorem Effect.sockets_len_le {s s' : Sys} {l : Label} (he : Effect s l s') : s.sockets.len ≤ s'.sockets.len := by
  cases he with
  | grow port n l hg =>
    simp only [hg.len]
    omega
  | _ => exact Nat.le_refl _

theorem step_sockets_len_le {s s' : Sys} {e : Event} (he : s.step e = some s') : s.sockets.len ≤ s'.sockets.len := by
  obtain ⟨ls, hp, -⟩ := step_effects he
  exact hp.inv (fun _ => True) (s.sockets.len ≤ ·.sockets.len) (fun _ _ _ _ he hle => hle.trans he.sockets_len_le)
    (fun _ _ => trivial) (Nat.le_refl _)

/-! ## Relays and messages -/

/-- Per relay, the slot and the generation it was spawned for. -/
def owners (s : Sys) : List (SocketHandle × Nat) := s.relays.map fun r => (r.handle, r.gen)

structure Linked (s : Sys) : Prop where
  uplink : ∀ h ctx id, s.socket_ctxs.get h = some ctx → ctx.uplink_tx = some id →
    s.owners[id]? = some (h, ctx.hist.rearms)
  owner : ∀ id h gen, s.owners[id]? = some (h, gen) → ∃ ctx, s.socket_ctxs.get h = some ctx ∧
    gen ≤ ctx.hist.rearms ∧ (gen = ctx.hist.rearms → ctx.uplink_tx = some id)
  message : ∀ msg ∈ s.global_rx, ∃ gen, s.owners[msg.sender]? = some (msg.handle, gen)

theorem owners_send (s : Sys) (tx : RelayId) (payload : Bytes) : (s.send tx payload).owners = s.owners :=
  relays_send _ (fun _ _ => rfl) s tx payload

theorem owners_set {s : Sys} {id : RelayId} {r r' : RelayTask} (hr : s.relays[id]? = some r)
    (hh : r'.handle = r.handle) (hg : r'.gen = r.gen) :
    (s.relays.set id r').map (fun r => (r.handle, r.gen)) = s.owners :=
  relays_set (fun r => (r.handle, r.gen)) hr (Prod.ext hh hg)

/-- A slot is written that keeps its uplink and its generation. -/
theorem Linked.keep {s s' : Sys} (hl : Linked s) {h : SocketHandle} {ctx ctx' : SocketCtx}
    (hget : s.socket_ctxs.get h = some ctx) (hctxs : s'.socket_ctxs = s.socket_ctxs.insert h ctx')
    (hup : ctx'.uplink_tx = ctx.uplink_tx) (hgen : ctx'.hist.rearms = ctx.hist.rearms) (howners : s'.owners = s.owners)
    (hmsg : ∀ msg ∈ s'.global_rx, msg ∈ s.global_rx) : Linked s' where
  uplink x c id hx hid := by
    rw [howners]
    rw [hctxs, Table.get_insert] at hx
    split at hx
    · subst_vars
      obtain rfl := Option.some.inj hx
      rw [hgen]
      exact hl.uplink x ctx id hget (hup ▸ hid)
    · exact hl.uplink x c id hx hid
  owner id x gen ho := by
    rw [howners] at ho
    obtain ⟨c, hc, hle, hcur⟩ := hl.owner id x gen ho
    rw [hctxs, Table.get_insert]
    split
    · subst_vars
      obtain rfl : ctx = c := by simpa [hget] using hc
      exact ⟨ctx', rfl, hgen ▸ hle, fun he => hup ▸ hcur (hgen ▸ he)⟩
    · exact ⟨c, hc, hle, hcur⟩
  message msg hm := by
    rw [howners]
    exact hl.message msg (hmsg msg hm)

/-- A rearmed slot starts a generation that no relay belongs to yet. -/
theorem Linked.rearm {s s' : Sys} (hl : Linked s) {h : SocketHandle} {ctx : SocketCtx}
    (hget : s.socket_ctxs.get h = some ctx) (hctxs : s'.socket_ctxs = s.socket_ctxs.insert h ctx.rearmed)
    (howners : s'.owners = s.owners) (hmsg : ∀ msg ∈ s'.global_rx, msg ∈ s.global_rx) : Linked s' where
  uplink x c id hx hid := by
    rw [howners]
    rw [hctxs, Table.get_insert] at hx
    split at hx
    · obtain rfl := Option.some.inj hx
      cases hid
    · exact hl.uplink x c id hx hid
  owner id x gen ho := by
    rw [howners] at ho
    obtain ⟨c, hc, hle, hcur⟩ := hl.owner id x gen ho
    rw [hctxs, Table.get_insert]
    split
    · subst_vars
      obtain rfl : ctx = c := by simpa [hget] using hc
      have hsucc : ctx.rearmed.hist.rearms = ctx.hist.rearms + 1 := rfl
      exact ⟨ctx.rearmed, rfl, by omega, fun he => by omega⟩
    · exact ⟨c, hc, hle, hcur⟩
  message msg hm := by
    rw [howners]
    exact hl.message msg (hmsg msg hm)

/-- A slot without uplink gets the relay that was just spawned for it. -/
theorem Linked.spawn {s s' : Sys} (hl : Linked s) {h : SocketHandle} {ctx ctx' : SocketCtx}
    (hget : s.socket_ctxs.get h = some ctx) (hctxs : s'.socket_ctxs = s.socket_ctxs.insert h ctx')
    (hnone : ctx.uplink_tx = none) (hup : ctx'.uplink_tx = some s.owners.length)
    (hgen : ctx'.hist.rearms = ctx.hist.rearms) (howners : s'.owners = s.owners ++ [(h, ctx.hist.rearms)])
    (hmsg : s'.global_rx = s.global_rx) : Linked s' where
  uplink x c id hx hid := by
    rw [howners]
    rw [hctxs, Table.get_insert] at hx
    split at hx
    · subst_vars
      obtain rfl := Option.some.inj hx
      obtain rfl : s.owners.length = id := Option.some.inj (hup.symm.trans hid)
      simp [hgen]
    · have hold := hl.uplink x c id hx hid
      rwa [List.getElem?_append_left (List.getElem?_eq_some_iff.1 hold).1]
  owner id x gen ho := by
    rw [howners] at ho
    rw [hctxs, Table.get_insert]
    rcases Nat.lt_trichotomy id s.owners.length with hlt | rfl | hgt
    · rw [List.getElem?_append_left hlt] at ho
      obtain ⟨c, hc, hle, hcur⟩ := hl.owner id x gen ho
      split
      · -- A relay of this generation would be the slot's uplink, and it had none.
        subst_vars
        obtain rfl : ctx = c := by simpa [hget] using hc
        refine ⟨ctx', rfl, hgen ▸ hle, fun he => ?_⟩
        rw [hcur (hgen ▸ he)] at hnone
        cases hnone
      · exact ⟨c, hc, hle, hcur⟩
    · simp only [List.getElem?_concat_length, Option.some.injEq, Prod.mk.injEq] at ho
      obtain ⟨rfl, rfl⟩ := ho
      rw [if_pos rfl]
      exact ⟨ctx', rfl, by omega, fun _ => hup⟩
    · rw [List.getElem?_eq_none (by simp; omega)] at ho
      cases ho
  message msg hm := by
    rw [howners]
    obtain ⟨gen, hold⟩ := hl.message msg (hmsg ▸ hm)
    exact ⟨gen, by rwa [List.getElem?_append_left (List.getElem?_eq_some_iff.1 hold).1]⟩

/-- A change that leaves the contexts and the owners of the relays alone. -/
theorem Linked.frame {s s' : Sys} (hl : Linked s) (hctxs : s'.socket_ctxs = s.socket_ctxs) (howners : s'.owners = s.owners)
    (hmsg : ∀ msg ∈ s'.global_rx, ∃ gen, s.owners[msg.sender]? = some (msg.handle, gen)) : Linked s' where
  uplink := by rw [hctxs, howners]; exact hl.uplink
  owner := by rw [hctxs, howners]; exact hl.owner
  message := by rw [howners]; exact hmsg

theorem Linked.grow {s : Sys} (hl : Linked s) (hw : Wired s) {port : UInt16} {n : Nat} {l : Listeners}
    (hg : Listeners.Grown port n s.toListeners l) : Linked { s with toListeners := l } where
  uplink x c id hx hid := by
    simp only [hg.ctx] at hx
    split at hx
    · obtain rfl := Option.some.inj hx
      cases hid
    · exact hl.uplink x c id hx hid
  owner id x gen ho := by
    obtain ⟨c, hc, hrest⟩ := hl.owner id x gen ho
    have hlt := hw.lt hc
    exact ⟨c, by simp only [hg.ctx]; rw [if_neg (by omega)]; exact hc, hrest⟩
  message := hl.message

theorem linked_effect {s s' : Sys} {l : Label} (he : Effect s l s') (hw : Wired s) (hs : SlotsOk s) (hl : Linked s) :
    Linked s' := by
  have tail {msg : Message} {rest : List Message} (hq : s.global_rx = msg :: rest) : ∀ m ∈ rest, m ∈ s.global_rx :=
    fun m hm => hq ▸ List.mem_cons_of_mem _ hm
  have appended (r : RelayTask) : (s.relays ++ [r]).map (fun r => (r.handle, r.gen)) = s.owners ++ [(r.handle, r.gen)] :=
    List.map_append
  cases he with
  | pool | flows | mark | unmark | schedule | segment | dispatch | dropHandshake => exact hl.frame rfl rfl hl.message
  | grow port n l hg => exact hl.grow hw hg
  | discard msg rest hq => exact hl.frame rfl rfl fun m hm => hl.message m (tail hq m hm)
  | turn h ctx socket' ctx' hget ht => exact hl.keep hget rfl ht.frame.2.1 ht.frame.2.2.2.2.1 rfl fun _ => id
  | deliver msg rest ctx tx socket' ctx' l hq _ hget _ hfl =>
    obtain ⟨-, hup, -, -, -, hgen, -, -⟩ := flush_downlink_frame hfl
    exact hl.keep hget rfl hup hgen rfl (tail hq)
  | relayed h ctx tx payload rest hget => exact hl.keep hget rfl rfl rfl (owners_send _ tx payload) fun _ => id
  | rearm h ctx now hget => exact hl.rearm hget rfl rfl fun _ => id
  | eof msg rest ctx now hq _ hget => exact hl.rearm hget rfl rfl (tail hq)
  | refuse i done ctx now _ hm => exact hl.rearm hm.get rfl rfl fun _ => id
  | opened h ctx payload rest endpoint target fake_ip now l hget hup =>
    refine hl.spawn hget rfl hup ?_ ?_ (appended _) rfl
    · cases fake_ip <;> simp [SocketCtx.opened, SocketCtx.hold_fake_ip, SocketCtx.noteFed, owners]
    · cases fake_ip <;> rfl
  | spawned h ctx payload rest endpoint target fake_ip now hget hup hstate hr =>
    rw [spawned_eq ((hs h ctx hget).buffer hstate) hr.length_le]
    refine hl.keep hget rfl ?_ rfl rfl fun _ => id
    cases fake_ip <;> rfl
  | install i done ctx _ hm =>
    have hnone := (hs _ ctx hm.get).uplink_eq_none (by simp [hm.pending])
    exact hl.spawn hm.get rfl hnone (by simp [SocketCtx.installed, owners]) rfl (appended _) rfl
  | relay id r r' e room payload l hr hstep =>
    obtain ⟨hh, hg, -⟩ := RelayTask.step_frame hstep
    refine hl.frame rfl (owners_set hr hh hg) fun msg hm => ?_
    rcases List.mem_append.1 hm with hm | hm
    · exact hl.message msg hm
    · cases payload with
      | none => simp at hm
      | some p =>
        obtain rfl : msg = _ := by simpa using hm
        exact ⟨r.gen, by simp [owners, hr, hh]⟩

theorem new_linked (pool_size : Nat) : Linked (new pool_size) where
  uplink h ctx id hget := by simp [new] at hget
  owner id h gen ho := by simp [new, owners] at ho
  message msg hm := by simp [new] at hm

/-- What holds in every state between two effects. -/
structure Good (s : Sys) : Prop where
  wired : Wired s
  slots : SlotsOk s
  linked : Linked s

theorem good_effect {s s' : Sys} {l : Label} (he : Effect s l s') (hg : Good s) : Good s' :=
  ⟨wired_effect he hg.wired, slotsOk_effect he hg.slots, linked_effect he hg.wired hg.slots hg.linked⟩

theorem new_good (pool_size : Nat) : Good (new pool_size) :=
  ⟨new_wired pool_size, Reachable.slotsOk .init, new_linked pool_size⟩

theorem Reachable.good {pool_size : Nat} {s : Sys} (h : Reachable pool_size s) : Good s :=
  h.inv Good (new_good pool_size) fun _ _ _ he hg => good_effect he hg

/-- What every effect with an allowed label keeps in a good state holds in every
state of a run whose steps have no other labels. -/
theorem ReachableBy.inv_good {pool_size : Nat} {ok : Sys → Event → Prop} {s : Sys} (h : ReachableBy pool_size ok s)
    (allowed : Label → Prop) (hquiet : allowed .quiet) (hok : ∀ s e l, ok s e → Special s e l → allowed l)
    (I : Sys → Prop) (h0 : I (new pool_size)) (heff : ∀ s l s', allowed l → Effect s l s' → Good s → I s → I s') : I s :=
  (h.inv allowed hquiet hok (fun s => Good s ∧ I s) ⟨new_good pool_size, h0⟩ fun s l s' hl he hs =>
    ⟨good_effect he hs.1, heff s l s' hl he hs.1 hs.2⟩).2

/-- What every effect keeps in a good state holds in every state the loop can be
in. -/
theorem Reachable.inv_good {pool_size : Nat} {s : Sys} (h : Reachable pool_size s) (I : Sys → Prop)
    (h0 : I (new pool_size)) (heff : ∀ s l s', Effect s l s' → Good s → I s → I s') : I s :=
  ReachableBy.inv_good h (fun _ => True) trivial (fun _ _ _ _ _ => trivial) I h0 fun s l s' _ => heff s l s'

/-- What every move with an allowed label keeps holds for every slot, in every
state of a run whose steps have no other labels. -/
theorem ReachableBy.slot_inv {pool_size : Nat} {ok : Sys → Event → Prop} {s : Sys} (h : ReachableBy pool_size ok s)
    (allowed : Label → Prop) (hquiet : allowed .quiet) (hok : ∀ s e l, ok s e → Special s e l → allowed l)
    (K : TcpSocket → SocketCtx → Prop) (hnew : ∀ port, K (.listening port) (.new port))
    (hmove : ∀ socket ctx l socket' ctx', allowed l → SlotInv socket ctx → K socket ctx →
      Move socket ctx l socket' ctx' → K socket' ctx') {x : SocketHandle} {ctx : SocketCtx}
    (hget : s.socket_ctxs.get x = some ctx) : K (s.sockets.get x) ctx := by
  refine h.inv_good allowed hquiet hok (fun s => ∀ x ctx, s.socket_ctxs.get x = some ctx → K (s.sockets.get x) ctx)
    (fun x ctx hget => by simp [new] at hget) (fun s l s' hl he hg hs x ctx' hget' => ?_) x ctx hget
  rcases he.slot hget' with ⟨port, -, -, rfl, hsock⟩ | ⟨ctx, hctx, hm⟩
  · rw [hsock]
    exact hnew port
  · exact hmove _ _ l _ _ hl (hg.slots x ctx hctx) (hs x ctx hctx) hm

end Sys

end MiniVpn
