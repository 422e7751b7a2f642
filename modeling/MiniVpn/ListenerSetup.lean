import MiniVpn.Reaping
import MiniVpn.Scheduling
/-!
# Listener setup

Listeners are built for the destination port of an intercepted SYN, whatever that
port is, and again at every rearm of a slot. `listen` refuses port 0, and
`build_listener_socket` unwraps. No slot for port 0 ever comes to exist, so every
rearm succeeds; `listener_setup_iff` says which packets stop the loop.
-/
open Lib

namespace MiniVpn

namespace Listeners

/-! ## When a listener can be built -/

theorem build_listener_socket_eq (port : UInt16) :
    build_listener_socket port = if port = 0 then none else some (.listening port) := by
  simp only [build_listener_socket, TcpSocket.listen, TcpSocket.is_open, TcpSocket.reset, TcpSocket.listening]
  rfl

theorem add_listener_zero (l : Listeners) : l.add_listener 0 = none := by
  simp [add_listener, build_listener_socket_eq]

theorem exists_add_listener (l : Listeners) {port : UInt16} (hport : port ≠ 0) : ∃ r, l.add_listener port = some r := by
  simp [add_listener, build_listener_socket_eq, hport]

theorem exists_add_listeners {port : UInt16} (hport : port ≠ 0) (n : Nat) (l : Listeners) (hs : List SocketHandle) :
    ∃ r, add_listeners port n l hs = some r := by
  induction n generalizing l hs with
  | zero => exact ⟨_, rfl⟩
  | succ n ih =>
    obtain ⟨r, hr⟩ := l.exists_add_listener hport
    obtain ⟨r', hr'⟩ := ih r.2 (hs ++ [r.1])
    exact ⟨r', by simp only [add_listeners, hr, Option.bind_eq_bind, Option.bind_some, hr']⟩

theorem exists_ensure_port (l : Listeners) {port : UInt16} (hport : port ≠ 0) : ∃ r, l.ensure_port port = some r := by
  unfold ensure_port
  split
  · exact ⟨_, rfl⟩
  · split
    · exact ⟨_, rfl⟩
    · obtain ⟨r, hr⟩ := exists_add_listeners hport l.registry.pool_size l []
      rw [hr]
      exact ⟨_, rfl⟩

theorem exists_add_spare {port : UInt16} (hport : port ≠ 0) (n : Nat) (l : Listeners)
    (hreg : l.registry.ports.get port ≠ none) : ∃ r, add_spare port n l = some r := by
  induction n generalizing l with
  | zero => exact ⟨_, rfl⟩
  | succ n ih =>
    unfold add_spare
    split
    · exact ⟨_, rfl⟩
    · obtain ⟨⟨h, l₁⟩, hl₁⟩ := l.exists_add_listener hport
      obtain ⟨-, hr, -⟩ := add_listener_added hl₁
      obtain ⟨handles, hhs⟩ := Option.ne_none_iff_exists'.1 hreg
      simp only [hl₁, hr, hhs, Option.bind_eq_bind, Option.bind_some]
      exact ih _ (by simp)

theorem exists_ensure_spare (l : Listeners) {port : UInt16} (hport : port ≠ 0) (min_spare : Nat) :
    ∃ r, l.ensure_spare_listeners port min_spare = some r := by
  unfold ensure_spare_listeners
  split
  · exact ⟨_, rfl⟩
  · rename_i handles hhs
    simp only
    split
    · exact ⟨_, rfl⟩
    · exact exists_add_spare hport _ l (by simp [hhs])

end Listeners

namespace Sys

theorem exists_inspect_syn (l : Listeners) {port : UInt16} (hport : port ≠ 0) (clean : Bool) :
    ∃ l', inspect_syn l port clean = some l' := by
  unfold inspect_syn
  split
  · obtain ⟨⟨_, l₁⟩, h1⟩ := l.exists_ensure_port hport
    obtain ⟨⟨_, l₂⟩, h2⟩ := l₁.exists_ensure_spare hport MIN_SPARE_LISTENERS
    simp [h1, h2]
  · exact ⟨l, rfl⟩

/-- With port 0 not registered, a SYN to it gets through exactly when the registry
is full. -/
theorem inspect_syn_zero {l : Listeners} (hget : l.registry.ports.get 0 = none) (hpool : 0 < l.registry.pool_size) :
    (∃ l', inspect_syn l 0 true = some l') ↔ MAX_INTERCEPTED_PORTS ≤ l.registry.ports.len := by
  have hnew : l.registry.ports.contains_key 0 = false := Table.contains_key_eq_false.2 hget
  simp only [inspect_syn, if_true, Listeners.ensure_port, hnew, Bool.false_eq_true, if_false]
  split
  · rename_i hfull
    simp [Listeners.ensure_spare_listeners, hget, hfull]
  · rename_i hroom
    obtain ⟨n, hn⟩ := Nat.exists_eq_succ_of_ne_zero (Nat.pos_iff_ne_zero.1 hpool)
    simp [hn, Listeners.add_listeners, Listeners.add_listener_zero, hroom]

/-! ## Port 0 is never registered -/

theorem ensure_port_zero_free {l l' : Listeners} {port : UInt16} {r : Except RegistryError Unit}
    (hget : l.registry.ports.get 0 = none) (hpool : 0 < l.registry.pool_size)
    (he : l.ensure_port port = some (r, l')) :
    l'.registry.ports.get 0 = none ∧ l'.registry.pool_size = l.registry.pool_size := by
  unfold Listeners.ensure_port at he
  split at he
  · simp only [Option.some.injEq, Prod.mk.injEq] at he
    exact he.2 ▸ ⟨hget, rfl⟩
  · split at he
    · simp only [Option.some.injEq, Prod.mk.injEq] at he
      exact he.2 ▸ ⟨hget, rfl⟩
    · simp only [Option.bind_eq_bind, Option.bind_eq_some_iff, Prod.exists, Option.pure_def, Option.some.injEq,
        Prod.mk.injEq] at he
      obtain ⟨hs, l₁, h1, -, rfl⟩ := he
      obtain ⟨-, hr, ha⟩ := Listeners.add_listeners_added _ h1
      have hport := ha.port_ne hpool
      simp only [hr]
      exact ⟨(Table.get_insert_ne _ _ (Ne.symm hport)).trans hget, trivial⟩

theorem add_spare_zero_free {port : UInt16} (n : Nat) {l l' : Listeners} {r : Except RegistryError Unit}
    (hget : l.registry.ports.get 0 = none) (he : Listeners.add_spare port n l = some (r, l')) :
    l'.registry.ports.get 0 = none ∧ l'.registry.pool_size = l.registry.pool_size := by
  induction n generalizing l with
  | zero =>
    simp only [Listeners.add_spare, Option.some.injEq, Prod.mk.injEq] at he
    exact he.2 ▸ ⟨hget, rfl⟩
  | succ n ih =>
    unfold Listeners.add_spare at he
    split at he
    · simp only [Option.some.injEq, Prod.mk.injEq] at he
      exact he.2 ▸ ⟨hget, rfl⟩
    · simp only [Option.bind_eq_bind, Option.bind_eq_some_iff, Prod.exists] at he
      obtain ⟨h, l₁, h1, hs, h2, h3⟩ := he
      obtain ⟨-, hr, ha⟩ := Listeners.add_listener_added h1
      have hport := ha.port_ne (by decide)
      obtain ⟨hnone, hsize⟩ := ih (by
        simp only [hr]
        exact (Table.get_insert_ne _ _ (Ne.symm hport)).trans hget) h3
      exact ⟨hnone, by simpa only [hr] using hsize⟩

theorem inspect_syn_zero_free {l l' : Listeners} {port : UInt16} {clean : Bool}
    (hget : l.registry.ports.get 0 = none) (hpool : 0 < l.registry.pool_size)
    (he : inspect_syn l port clean = some l') :
    l'.registry.ports.get 0 = none ∧ l'.registry.pool_size = l.registry.pool_size := by
  unfold inspect_syn at he
  split at he
  · simp only [Option.bind_eq_bind, Option.bind_eq_some_iff, Prod.exists, Option.pure_def, Option.some.injEq] at he
    obtain ⟨_, l₁, h1, _, l₂, h2, rfl⟩ := he
    obtain ⟨hnone, hsize⟩ := ensure_port_zero_free hget hpool h1
    simp only [Listeners.ensure_spare_listeners] at h2
    split at h2
    · simp only [Option.some.injEq, Prod.mk.injEq] at h2
      exact h2.2 ▸ ⟨hnone, hsize⟩
    · split at h2
      · simp only [Option.some.injEq, Prod.mk.injEq] at h2
        exact h2.2 ▸ ⟨hnone, hsize⟩
      · obtain ⟨hnone₂, hsize₂⟩ := add_spare_zero_free _ hnone h2
        exact ⟨hnone₂, hsize₂.trans hsize⟩
  · exact Option.some.inj he ▸ ⟨hget, rfl⟩

theorem process_dirty_slot_registry {s s' : Sys} {h : SocketHandle} {upstream : Upstream} {now : Nat}
    (he : s.process_dirty_slot h upstream now = some s') : s'.registry = s.registry := by
  simp only [process_dirty_slot, Option.bind_eq_bind, Option.bind_eq_some_iff] at he
  obtain ⟨s₁, h1, he⟩ := he
  have hreg : s₁.registry = s.registry := by
    cases hget : s.socket_ctxs.get h with
    | none =>
      simp only [process_listener_activity, hget, Option.some.injEq] at h1
      exact h1 ▸ rfl
    | some ctx =>
      obtain ⟨o, -, ho⟩ := process_listener_activity_isVisit hget upstream now
      rw [ho s ⟨rfl, rfl, rfl⟩ rfl] at h1
      obtain ⟨v, -, rfl⟩ := Option.map_eq_some_iff.1 h1
      rfl
  split at he <;> exact Option.some.inj he ▸ hreg

theorem on_remote_registry {s s' : Sys} {h : SocketHandle} {payload : Bytes}
    {timers : List (SocketHandle × TcpSocket.Timer)} {ok : Bool} {now : Nat}
    (he : s.on_remote h payload timers ok now = some s') : s'.registry = s.registry := by
  simp only [on_remote, handle_remote_payload, Option.bind_eq_bind, Option.bind_eq_some_iff] at he
  obtain ⟨s₁, h1, he⟩ := he
  have hreg : s₁.registry = s.registry := by
    split at h1
    · exact Option.some.inj h1 ▸ rfl
    · split at h1
      · obtain ⟨-, rfl⟩ := rearm_some h1
        rfl
      · split at h1 <;> exact Option.some.inj h1 ▸ rfl
  split at he <;> exact Option.some.inj he ▸ hreg

theorem rx_tcp_registry {s s' : Sys} {port : UInt16} {clean : Bool}
    {accepted : Option (SocketHandle × List TcpSocket.Segment)} (he : s.rx_tcp port clean accepted = some s') :
    ∃ l, inspect_syn s.toListeners port clean = some l ∧ s'.registry = l.registry := by
  simp only [rx_tcp, Option.bind_eq_bind, Option.bind_eq_some_iff] at he
  obtain ⟨l, hl, he⟩ := he
  refine ⟨l, hl, ?_⟩
  split at he
  · exact Option.some.inj he ▸ rfl
  · split at he
    · obtain ⟨sockets, -, rfl⟩ := Option.map_eq_some_iff.1 he
      rfl
    · cases he

/-- In a branch of `select!` the registry changes only when a SYN is inspected. -/
theorem on_select_registry {s s' : Sys} {e : Event} (hok : SlotsOk s) (he : s.on_select e = some s') :
    s'.registry = s.registry ∨ ∃ port clean l, inspect_syn s.toListeners port clean = some l ∧ s'.registry = l.registry := by
  cases e with
  | remote timers ok now =>
    simp only [on_select] at he
    split at he
    · cases he
    · have := on_remote_registry he
      exact .inl this
  | rx pkt query accepted timers order now =>
    simp only [on_select] at he
    split at he
    · simp only [Option.bind_eq_bind, Option.bind_eq_some_iff, Prod.exists, Option.pure_def, Option.some.injEq] at he
      obtain ⟨t, p, -, rfl⟩ := he
      exact .inl rfl
    · exact .inl (Option.some.inj he ▸ rfl)
    · simp only [on_tcp, Option.bind_eq_some_iff] at he
      obtain ⟨s₁, h1, h2⟩ := he
      obtain rfl := snapshot_dirty_some h2
      split at h1
      · obtain rfl := Option.some.inj h1
        exact .inl rfl
      · obtain ⟨l, hl, hreg⟩ := rx_tcp_registry h1
        exact .inr ⟨_, _, l, hl, hreg⟩
  | handshake_done i ok now =>
    simp only [on_select, Option.bind_eq_bind, Option.bind_eq_some_iff] at he
    obtain ⟨done, -, he⟩ := he
    rcases handshake_done_cases he with ⟨-, rfl⟩ | ⟨ctx, -, ⟨-, rfl⟩ | ⟨-, -, rfl⟩⟩ <;> exact .inl rfl
  | downlink id now => exact .inl (Option.some.inj he ▸ rfl)
  | udp_sweep now =>
    obtain ⟨s₁, h1, hreg, -⟩ := reap_slots_spec (s := { s with
      assoc_table := (s.assoc_table.sweep now UDP_FLOW_IDLE_SECS).2
      fake_pool := release_all s.fake_pool (s.assoc_table.sweep now UDP_FLOW_IDLE_SECS).1 now })
      now s.registry.all_handles hok
    obtain rfl := Option.some.inj (h1.symm.trans he)
    exact .inl hreg
  | fake_ip_sweep now => exact .inl (Option.some.inj he ▸ rfl)
  | timer timers order =>
    simp only [on_select] at he
    obtain rfl := snapshot_dirty_some he
    exact .inl rfl
  | listener upstream now => cases he
  | relay id e => cases he

theorem step_registry {s s' : Sys} {e : Event} (hok : SlotsOk s) (he : s.step e = some s') :
    s'.registry = s.registry ∨ ∃ port clean l, inspect_syn s.toListeners port clean = some l ∧ s'.registry = l.registry := by
  unfold step at he
  split at he
  · simp only [on_relay, Option.bind_eq_bind, Option.bind_eq_some_iff, Prod.exists] at he
    obtain ⟨r, -, r', payload, -, he⟩ := he
    cases payload <;> exact .inl (Option.some.inj he ▸ rfl)
  · have := process_dirty_slot_registry he
    exact .inl this
  · cases he
  · exact on_select_registry hok he
  · cases he

/-- With a pool size that the configuration accepts, port 0 is never registered. -/
theorem Reachable.zero_free {pool_size : Nat} {s : Sys} (hpool : 0 < pool_size) (hr : Reachable pool_size s) :
    s.registry.ports.get 0 = none ∧ s.registry.pool_size = pool_size := by
  refine Reach.inv (fun s : Sys => s.registry.ports.get 0 = none ∧ s.registry.pool_size = pool_size)
    ⟨Table.get_empty _, rfl⟩ (fun s e s' hs hi _ he => ?_) hr
  have hreach : Reachable pool_size s := hs
  rcases step_registry hreach.slotsOk he with hsame | ⟨port, clean, l, hl, hreg⟩
  · exact hsame ▸ hi
  · obtain ⟨hnone, hsize⟩ := inspect_syn_zero_free hi.1 (hi.2.symm ▸ hpool) hl
    rw [hreg]
    exact ⟨hnone, hsize.trans hi.2⟩

/-! ## Which packets are safe -/

/-- The packet gets its listeners and every slot can be rearmed: no `unwrap` on
`listen` is reached. -/
structure SetupSafe (s : Sys) (pkt : Packet) : Prop where
  setup : ∀ port clean, inspect_inbound_tcp pkt = some (port, clean) → ∃ l, inspect_syn s.toListeners port clean = some l
  rearm : ∀ h ctx, s.socket_ctxs.get h = some ctx → ∀ fake_pool now,
    ∃ r, rearm_socket (s.sockets.get h) ctx fake_pool now = some r

/-- In every state the loop can be in and for every packet: listener setup and all
rearms go through exactly when the packet is not a clean SYN to port 0 that finds
the registry with room for another port. -/
theorem listener_setup_iff {pool_size : Nat} {s : Sys} (hpool : 0 < pool_size) (hr : Reachable pool_size s) (pkt : Packet) :
    SetupSafe s pkt ↔ ¬ (inspect_inbound_tcp pkt = some (0, true) ∧ s.registry.ports.len < MAX_INTERCEPTED_PORTS) := by
  obtain ⟨hnone, hsize⟩ := hr.zero_free hpool
  have hzero := inspect_syn_zero (l := s.toListeners) hnone (hsize.symm ▸ hpool)
  constructor
  · rintro hsafe ⟨hpkt, hroom⟩
    have hfull := hzero.1 (hsafe.setup 0 true hpkt)
    omega
  · refine fun hno => ⟨fun port clean hpkt => ?_, fun h ctx hget fake_pool now => ?_⟩
    · by_cases hport : port = 0
      · subst hport
        cases clean with
        | false => exact ⟨_, rfl⟩
        | true => exact hzero.2 (Nat.le_of_not_lt fun hroom => hno ⟨hpkt, hroom⟩)
      · exact exists_inspect_syn _ hport clean
    · rw [rearm_socket_eq, if_neg (hr.slotsOk h ctx hget).port]
      exact ⟨_, rfl⟩

/-- A client is connected to port 80 and a SYN to port 443 arrives. -/
theorem listener_setup_other_port : ∃ s, Reachable 2 s ∧ (s.socket_ctxs.get 0).isSome = true ∧
    (SetupSafe s (.tcp 443 true false) ↔
      ¬ (inspect_inbound_tcp (.tcp 443 true false) = some (0, true) ∧ s.registry.ports.len < MAX_INTERCEPTED_PORTS)) := by
  have hrun : (runEvents step (new 2) (connect ⟨true, true⟩ (ipv4 93 184 216 34))).any
      (fun s => (s.socket_ctxs.get 0).isSome) = true := by
    decide +kernel
  obtain ⟨s, hs, hp⟩ := exists_reach_of_any hrun
  exact ⟨s, hs, hp, listener_setup_iff (by decide) hs _⟩

/-- A SYN to port 0 is the first packet: building its listener panics, and the loop
makes no step. -/
theorem syn_to_port_zero : Reachable 2 (new 2) ∧ ¬ SetupSafe (new 2) (.tcp 0 true false) ∧
    ∀ query accepted timers order now, (new 2).step (.rx (.tcp 0 true false) query accepted timers order now) = none := by
  have hpanic : inspect_syn (new 2).toListeners 0 true = none := by decide +kernel
  refine ⟨.init, fun hsafe => ?_, fun query accepted timers order now => ?_⟩
  · obtain ⟨l, hl⟩ := hsafe.setup 0 true rfl
    rw [hpanic] at hl
    cases hl
  · have hrx : (new 2).rx_tcp 0 true accepted = none := by
      rw [rx_tcp, hpanic]
      rfl
    simp only [step, on_select, classify_inbound, on_tcp, inspect_inbound_tcp]
    exact congrArg (Option.bind · fun s => snapshot_dirty { s with sockets := poll_egress s.sockets timers } order) hrx

end Sys

end MiniVpn
