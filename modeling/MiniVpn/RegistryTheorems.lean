import MiniVpn.Lib.Runs
import MiniVpn.ListenerSetup
/-!
# The listener registry over a run of calls

`Wf` says where every slot is: the handles given out, the contexts and the lists
of the ports are the same slots, each once. The hand-kept counter and the sums
are read off from it. Between the calls the sockets may do anything.
-/
open Lib

namespace MiniVpn

/-- As `new`, with another bound on the number of listeners. -/
def ListenerRegistry.with_max_total (pool_size max_total : Nat) : ListenerRegistry :=
  { ports := .empty, pool_size := pool_size, max_total := max_total, total := 0 }

namespace Listeners

/-! ## The representation invariant -/

structure Wf (l : Listeners) : Prop where
  total : l.registry.total = l.sockets.len
  ctxs : ∀ h, (∃ ctx, l.socket_ctxs.get h = some ctx) ↔ l.sockets.len > h
  placed : ∀ h ctx, l.socket_ctxs.get h = some ctx → h ∈ l.registry.handles_for_port ctx.local_port
  owned : ∀ port, ∀ h ∈ l.registry.handles_for_port port, ∃ ctx, l.socket_ctxs.get h = some ctx ∧ ctx.local_port = port
  nodup : ∀ port, (l.registry.handles_for_port port).Nodup
  ports : l.registry.ports.len ≤ MAX_INTERCEPTED_PORTS

theorem Wf.lt {l : Listeners} (hw : Wf l) {port : UInt16} {h : SocketHandle} (hh : h ∈ l.registry.handles_for_port port) :
    l.sockets.len > h := by
  obtain ⟨ctx, hctx, -⟩ := hw.owned port h hh
  exact (hw.ctxs h).1 ⟨ctx, hctx⟩

/-- The lists of two ports have no handle in common, since its context names
one port. -/
theorem Wf.nodup_all_handles {l : Listeners} (hw : Wf l) : l.registry.all_handles.Nodup := by
  have hget : ∀ x ∈ l.registry.ports.iter, l.registry.handles_for_port x.1 = x.2 := by
    rintro ⟨port, handles⟩ hx
    simp [ListenerRegistry.handles_for_port, Table.mem_iter.1 hx]
  refine List.nodup_flatten.2 ⟨fun handles hmem => ?_, ?_⟩
  · obtain ⟨x, hx, rfl⟩ := List.mem_map.1 hmem
    rw [← hget x hx]
    exact hw.nodup x.1
  · rw [List.pairwise_map]
    have hkeys := List.pairwise_map.1 l.registry.ports.nodup_keys
    refine hkeys.imp_of_mem fun {x y} hx hy hne h hhx hhy => hne ?_
    rw [← hget x hx] at hhx
    rw [← hget y hy] at hhy
    obtain ⟨ctx, hctx, hport⟩ := hw.owned _ h hhx
    obtain ⟨ctx', hctx', hport'⟩ := hw.owned _ h hhy
    obtain rfl := Option.some.inj (hctx.symm.trans hctx')
    exact hport.symm.trans hport'

theorem Wf.all_handles_perm {l : Listeners} (hw : Wf l) : l.registry.all_handles.Perm (List.range l.sockets.len) := by
  refine (List.perm_ext_iff_of_nodup hw.nodup_all_handles List.nodup_range).2 fun h => ?_
  rw [ListenerRegistry.mem_all_handles, List.mem_range]
  constructor
  · rintro ⟨port, hh⟩
    exact hw.lt hh
  · intro hlt
    obtain ⟨ctx, hctx⟩ := (hw.ctxs h).2 hlt
    exact ⟨_, hw.placed h ctx hctx⟩

theorem Wf.total_eq_sum {l : Listeners} (hw : Wf l) :
    l.registry.total = (l.registry.ports.iter.map fun x => x.2.length).sum := by
  rw [hw.total, ← List.length_range (n := l.sockets.len), ← hw.all_handles_perm.length_eq, ListenerRegistry.all_handles,
    List.length_flatten, List.map_map]
  rfl

theorem Wf.total_eq_len {l : Listeners} (hw : Wf l) : l.registry.total = l.socket_ctxs.len := by
  have hkeys : ∀ h, (∃ ctx, l.socket_ctxs.get h = some ctx) ↔ h ∈ List.range l.sockets.len := by
    intro h
    rw [List.mem_range]
    exact hw.ctxs h
  rw [hw.total, Table.len_eq_length List.nodup_range hkeys, List.length_range]

/-! ## Growing keeps it -/

/-- `n` slots were added for `port` and counted; the bounds stay. -/
structure Counted (port : UInt16) (n : Nat) (l l' : Listeners) : Prop extends Grown port n l l' where
  total : l'.registry.total = l.registry.total + n
  max_total : l'.registry.max_total = l.registry.max_total

theorem Counted.refl (port : UInt16) (l : Listeners) : Counted port 0 l l where
  toGrown := .refl port l
  total := rfl
  max_total := rfl

theorem Counted.trans {port : UInt16} {n m : Nat} {l l' l'' : Listeners} (h : Counted port n l l')
    (h' : Counted port m l' l'') : Counted port (n + m) l l'' where
  toGrown := h.toGrown.trans h'.toGrown
  total := by rw [h'.total, h.total, Nat.add_assoc]
  max_total := h'.max_total.trans h.max_total

theorem Wf.counted {l l' : Listeners} {port : UInt16} {n : Nat} (hw : Wf l) (h : Counted port n l l')
    (hports : l'.registry.ports.len ≤ MAX_INTERCEPTED_PORTS) : Wf l' where
  total := by rw [h.total, h.len, hw.total]
  ctxs x := by
    rw [h.ctx, h.len]
    split
    · exact ⟨fun _ => by omega, fun _ => ⟨_, rfl⟩⟩
    · rw [hw.ctxs]
      omega
  placed x ctx hctx := by
    rw [h.ctx] at hctx
    rw [h.handles]
    split at hctx
    · rename_i hx
      obtain rfl := Option.some.inj hctx
      rw [if_pos (show (SocketCtx.new port).local_port = port from rfl)]
      exact List.mem_append_right _ (List.mem_range'_1.2 ⟨hx.1, hx.2⟩)
    · have := hw.placed x ctx hctx
      split
      · rename_i hp
        rw [hp] at this
        exact List.mem_append_left _ this
      · exact this
  owned port' x hx := by
    have hold : ∀ p, x ∈ l.registry.handles_for_port p → ∃ ctx, l'.socket_ctxs.get x = some ctx ∧ ctx.local_port = p := by
      intro p hp
      rw [h.ctx, if_neg (by have := hw.lt hp; omega)]
      exact hw.owned p x hp
    rw [h.handles] at hx
    split at hx
    · rename_i hp
      subst hp
      rcases List.mem_append.1 hx with hx | hx
      · exact hold _ hx
      · rw [h.ctx, if_pos (List.mem_range'_1.1 hx)]
        exact ⟨_, rfl, rfl⟩
    · exact hold _ hx
  nodup port' := by
    rw [h.handles]
    split
    · refine List.nodup_append.2 ⟨hw.nodup port, List.nodup_range', fun x hx y hy hxy => ?_⟩
      have h1 := hw.lt hx
      have h2 := (List.mem_range'_1.1 hy).1
      rw [hxy] at h1
      omega
    · exact hw.nodup port'
  ports := hports

theorem ensure_port_counted {l l' : Listeners} {port : UInt16} (hfree : l.registry.ports.contains_key port = false)
    (hroom : l.registry.ports.len < MAX_INTERCEPTED_PORTS) {r : Except RegistryError Unit}
    (he : l.ensure_port port = some (r, l')) :
    r = .ok () ∧ Counted port l.registry.pool_size l l' ∧ l'.registry.ports.len = l.registry.ports.len + 1 := by
  rw [ensure_port, if_neg (by simp [hfree]), if_neg (by omega)] at he
  simp only [Option.bind_eq_bind, Option.bind_eq_some_iff, Prod.exists, Option.pure_def, Option.some.injEq,
    Prod.mk.injEq] at he
  obtain ⟨hs, l₁, h1, hr, rfl⟩ := he
  obtain ⟨rfl, hreg, ha⟩ := add_listeners_added _ h1
  have hnone := Table.contains_key_eq_false.1 hfree
  refine ⟨hr.symm, ⟨⟨ha.registry _, fun p => ?_⟩, by rw [hreg], by rw [hreg]⟩, ?_⟩
  · simp only [ListenerRegistry.handles_for_port, hreg, Table.get_insert, hnone]
    split <;> simp
  · simp only [hreg]
    exact Table.len_insert_of_get_none hnone _

/-- The loop of `ensure_spare_listeners` adds all the slots, or stops at the
bound. -/
theorem add_spare_counted {port : UInt16} (n : Nat) {l l' : Listeners} {r : Except RegistryError Unit}
    (hreg : ∃ handles, l.registry.ports.get port = some handles) (he : add_spare port n l = some (r, l')) :
    ∃ m, Counted port m l l' ∧ l'.registry.ports.len = l.registry.ports.len ∧
      ((r = .ok () ∧ m = n) ∨ (r = .error .Capped ∧ l'.registry.max_total ≤ l'.registry.total)) := by
  induction n generalizing l with
  | zero =>
    obtain ⟨rfl, rfl⟩ := Prod.mk.inj (Option.some.inj he)
    exact ⟨0, .refl port l, rfl, .inl ⟨rfl, rfl⟩⟩
  | succ n ih =>
    unfold add_spare at he
    split at he
    · rename_i hcap
      obtain ⟨rfl, rfl⟩ := Prod.mk.inj (Option.some.inj he)
      exact ⟨0, .refl port l, rfl, .inr ⟨rfl, hcap⟩⟩
    · simp only [Option.bind_eq_bind, Option.bind_eq_some_iff, Prod.exists] at he
      obtain ⟨h, l₁, h1, hs, h2, h3⟩ := he
      obtain ⟨rfl, hr, ha⟩ := add_listener_added h1
      rw [hr] at h2
      obtain ⟨m, hm, hlen, hcase⟩ := ih ⟨_, Table.get_insert_self ..⟩ h3
      have hone : Counted port 1 l { l₁ with registry := { l₁.registry with
          ports := l₁.registry.ports.insert port (hs ++ [l.sockets.len])
          total := l₁.registry.total + 1 } } := by
        refine ⟨⟨ha.registry _, fun p => ?_⟩, by rw [hr], by rw [hr]⟩
        simp only [ListenerRegistry.handles_for_port, hr, Table.get_insert, h2]
        split <;> simp
      refine ⟨1 + m, hone.trans hm, ?_, ?_⟩
      · rw [hlen]
        simp only [hr]
        exact Table.len_insert_of_get h2 _
      · rcases hcase with ⟨hok, rfl⟩ | hcap
        · exact .inl ⟨hok, Nat.add_comm 1 m⟩
        · exact .inr hcap

/-! ## Runs of calls -/

inductive Op where
  | ensure_port (port : UInt16)
  | ensure_spare_listeners (port : UInt16) (min_spare : Nat)
  | sockets (get : SocketHandle → TcpSocket)

/-- `none` is a panic. Between the calls the sockets change in any way. -/
def next (l : Listeners) : Op → Option Listeners
  | .ensure_port port => (l.ensure_port port).map (·.2)
  | .ensure_spare_listeners port min_spare => (l.ensure_spare_listeners port min_spare).map (·.2)
  | .sockets get => some { l with sockets := { l.sockets with get := get } }

def Op.allowed : Op → Bool
  | .ensure_port port => port != 0
  | .ensure_spare_listeners port _ => port != 0
  | .sockets _ => true

/-- Before the first call. -/
def init (pool_size max_total : Nat) : Listeners :=
  { registry := .with_max_total pool_size max_total, sockets := .new, socket_ctxs := .empty }

theorem init_wf (pool_size max_total : Nat) : Wf (init pool_size max_total) where
  total := rfl
  ctxs h := by simp [init, SocketSet.new]
  placed h ctx hctx := by simp [init] at hctx
  owned port h hh := by simp [init, ListenerRegistry.with_max_total, ListenerRegistry.handles_for_port] at hh
  nodup port := by simp [init, ListenerRegistry.with_max_total, ListenerRegistry.handles_for_port]
  ports := Nat.zero_le _

theorem ensure_port_known {l : Listeners} {port : UInt16} (h : l.registry.ports.contains_key port = true) :
    l.ensure_port port = some (.ok (), l) := by
  rw [ensure_port, if_pos h]

theorem ensure_port_capped {l : Listeners} {port : UInt16} (h : l.registry.ports.contains_key port = false)
    (hfull : MAX_INTERCEPTED_PORTS ≤ l.registry.ports.len) : l.ensure_port port = some (.error .Capped, l) := by
  rw [ensure_port, if_neg (by simp [h]), if_pos hfull]

/-- What `ensure_port` does, whatever it returns. -/
theorem ensure_port_spec {l l' : Listeners} (hw : Wf l) {port : UInt16} {r : Except RegistryError Unit}
    (he : l.ensure_port port = some (r, l')) :
    Wf l' ∧ (∃ n, Counted port n l l') ∧ (r = .error .Capped → l' = l) := by
  cases hk : l.registry.ports.contains_key port with
  | true =>
    rw [ensure_port_known hk] at he
    obtain ⟨-, rfl⟩ := Prod.mk.inj (Option.some.inj he)
    exact ⟨hw, ⟨0, .refl port l⟩, fun _ => rfl⟩
  | false =>
    by_cases hfull : MAX_INTERCEPTED_PORTS ≤ l.registry.ports.len
    · rw [ensure_port_capped hk hfull] at he
      obtain ⟨-, rfl⟩ := Prod.mk.inj (Option.some.inj he)
      exact ⟨hw, ⟨0, .refl port l⟩, fun _ => rfl⟩
    · obtain ⟨rfl, hc, hlen⟩ := ensure_port_counted hk (Nat.lt_of_not_le hfull) he
      exact ⟨hw.counted hc (by omega), ⟨_, hc⟩, fun h => by cases h⟩

/-- New slots listen, and the others are as they were. -/
theorem Counted.countP_listen {l l' : Listeners} {port : UInt16} {n : Nat} (hw : Wf l) (h : Counted port n l l') :
    (l'.registry.handles_for_port port).countP (fun x => (l'.sockets.get x).state == .Listen) =
      (l.registry.handles_for_port port).countP (fun x => (l.sockets.get x).state == .Listen) + n := by
  rw [h.handles, if_pos rfl, List.countP_append]
  congr 1
  · refine List.countP_congr fun x hx => ?_
    rw [h.sock, if_neg (by have := hw.lt hx; omega)]
  · rw [List.countP_eq_length.2, List.length_range']
    intro x hx
    rw [h.sock, if_pos (List.mem_range'_1.1 hx)]
    rfl

theorem ensure_spare_spec {l l' : Listeners} (hw : Wf l) {port : UInt16} {min_spare : Nat}
    {r : Except RegistryError Unit} (he : l.ensure_spare_listeners port min_spare = some (r, l')) :
    Wf l' ∧ (∃ n, Counted port n l l') ∧
      (r = .ok () → l.registry.ports.contains_key port = true →
        min_spare ≤ (l'.registry.handles_for_port port).countP fun x => (l'.sockets.get x).state == .Listen) ∧
      (r = .error .Capped → l'.registry.max_total ≤ l'.registry.total) := by
  unfold ensure_spare_listeners at he
  split at he
  · rename_i hnone
    obtain ⟨rfl, rfl⟩ := Prod.mk.inj (Option.some.inj he)
    exact ⟨hw, ⟨0, .refl port l⟩, by simp [Table.contains_key, hnone], by simp⟩
  · rename_i handles hget
    have hhandles : l.registry.handles_for_port port = handles := by simp [ListenerRegistry.handles_for_port, hget]
    dsimp only at he
    split at he
    · rename_i hspare
      obtain ⟨rfl, rfl⟩ := Prod.mk.inj (Option.some.inj he)
      exact ⟨hw, ⟨0, .refl port l⟩, fun _ _ => by rw [hhandles]; exact hspare, by simp⟩
    · rename_i hspare
      obtain ⟨m, hm, hlen, hcase⟩ := add_spare_counted _ ⟨handles, hget⟩ he
      refine ⟨hw.counted hm (hlen ▸ hw.ports), ⟨m, hm⟩, fun hok _ => ?_, fun hcap => ?_⟩
      · rcases hcase with ⟨-, rfl⟩ | ⟨hbad, -⟩
        · rw [hm.countP_listen hw, hhandles]
          omega
        · rw [hok] at hbad
          cases hbad
      · rcases hcase with ⟨hbad, -⟩ | ⟨-, hmax⟩
        · rw [hcap] at hbad
          cases hbad
        · exact hmax

/-- Existing slots keep their socket, their context and their place. -/
structure Unaltered (l l' : Listeners) : Prop where
  socket : ∀ h, l.sockets.len > h → l'.sockets.get h = l.sockets.get h
  ctx : ∀ h, l.sockets.len > h → l'.socket_ctxs.get h = l.socket_ctxs.get h
  handles : ∀ port, l.registry.handles_for_port port <+: l'.registry.handles_for_port port

theorem Counted.unaltered {l l' : Listeners} {port : UInt16} {n : Nat} (h : Counted port n l l') : Unaltered l l' where
  socket x hx := by rw [h.sock, if_neg (by omega)]
  ctx x hx := by rw [h.ctx, if_neg (by omega)]
  handles p := by
    rw [h.handles]
    split
    · rename_i hp
      rw [hp]
      exact List.prefix_append _ _
    · exact List.prefix_rfl

theorem next_wf {l l' : Listeners} {op : Op} (hw : Wf l) (h : l.next op = some l') : Wf l' := by
  cases op with
  | ensure_port port =>
    obtain ⟨⟨r, l₁⟩, he, rfl⟩ := Option.map_eq_some_iff.1 h
    exact (ensure_port_spec hw he).1
  | ensure_spare_listeners port min_spare =>
    obtain ⟨⟨r, l₁⟩, he, rfl⟩ := Option.map_eq_some_iff.1 h
    exact (ensure_spare_spec hw he).1
  | sockets get =>
    obtain rfl := Option.some.inj h
    exact ⟨hw.total, hw.ctxs, hw.placed, hw.owned, hw.nodup, hw.ports⟩

/-- The registry after any calls on ports other than 0. -/
theorem registry_contract {pool_size max_total : Nat} {l : Listeners}
    (h : Reach (init pool_size max_total) next (fun _ op => op.allowed = true) l) :
    (l.registry.total = (l.registry.ports.iter.map fun x => x.2.length).sum ∧
      l.registry.total = l.socket_ctxs.len ∧ l.registry.all_handles.Nodup ∧
      (∀ port, ∀ x ∈ l.registry.handles_for_port port, ∃ ctx, l.socket_ctxs.get x = some ctx ∧ ctx.local_port = port) ∧
      l.registry.ports.len ≤ MAX_INTERCEPTED_PORTS) ∧
    (∀ port, port ≠ 0 → ∃ r l', l.ensure_port port = some (r, l') ∧
      (l.registry.ports.contains_key port = true → r = .ok () ∧ l' = l) ∧ (r = .error .Capped → l' = l) ∧
      Unaltered l l') ∧
    (∀ port min_spare, port ≠ 0 → ∃ r l', l.ensure_spare_listeners port min_spare = some (r, l') ∧
      (r = .ok () → l.registry.ports.contains_key port = true →
        min_spare ≤ (l'.registry.handles_for_port port).countP fun x => (l'.sockets.get x).state == .Listen) ∧
      (r = .error .Capped → l'.registry.max_total ≤ l'.registry.total) ∧ Unaltered l l') := by
  have hw : Wf l := h.inv Wf (init_wf pool_size max_total) fun _ _ _ _ hi _ hn => next_wf hi hn
  refine ⟨⟨hw.total_eq_sum, hw.total_eq_len, hw.nodup_all_handles, hw.owned, hw.ports⟩, fun port hport => ?_,
    fun port min_spare hport => ?_⟩
  · obtain ⟨⟨r, l'⟩, he⟩ := l.exists_ensure_port hport
    obtain ⟨-, ⟨n, hn⟩, hcap⟩ := ensure_port_spec hw he
    refine ⟨r, l', he, fun hk => ?_, hcap, hn.unaltered⟩
    rw [ensure_port_known hk] at he
    obtain ⟨rfl, rfl⟩ := Prod.mk.inj (Option.some.inj he)
    exact ⟨rfl, rfl⟩
  · obtain ⟨⟨r, l'⟩, he⟩ := l.exists_ensure_spare hport min_spare
    obtain ⟨-, ⟨n, hn⟩, hok, hcap⟩ := ensure_spare_spec hw he
    exact ⟨r, l', he, hok, hcap, hn.unaltered⟩

/-- Two listeners for port 443, both taken, and room for one more. -/
theorem registry_contract_capped : ∃ l,
    Reach (init 2 3) next (fun _ op => op.allowed = true) l ∧ l.registry.total = 3 ∧
    l.registry.total = (l.registry.ports.iter.map fun x => x.2.length).sum ∧ l.registry.total = l.socket_ctxs.len := by
  have hrun : (runEvents (checked (fun _ op => op.allowed) next) (init 2 3)
      [.ensure_port 443, .sockets fun _ => .new, .ensure_spare_listeners 443 2]).any
      (fun l => l.registry.total == 3) = true := by decide +kernel
  obtain ⟨tr, l, h, hok, hp⟩ := exists_checked_run_of_any hrun
  have hc := registry_contract (h.reach hok)
  exact ⟨l, h.reach hok, by simpa using hp, hc.1.1, hc.1.2.1⟩

end Listeners
end MiniVpn
