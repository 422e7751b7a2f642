import MiniVpn.RegistryTheorems
/-!
# The bound on the number of listeners

`MAX_TOTAL_LISTENERS` is to bound the number of listening sockets, so that a flood
of SYNs does not use up the memory. `ensure_spare_listeners` asks for it before
each socket. `ensure_port` bounds the number of ports only, and creates the pool
of a new port whatever the total is. `listener_cap_iff` says in which runs the
bound holds.
-/
open Lib

namespace MiniVpn

/-! ## The configuration -/

def DEFAULT_TUN_POOL_SIZE : Nat := 2

/-- What `from_sources` returns. -/
structure TunListenerConfig where
  pool_size : Nat
  fits : pool_size < 2 ^ 64
  nonzero : pool_size ≠ 0

namespace TunListenerConfig

def from_sources (pool_size : Option String) : Except ClientError TunListenerConfig := do
  let pool_size ← match pool_size with
    | some value =>
      match parse_unsigned 64 value with
      | some n => .ok n
      | none => .error (.InvalidTarget ("invalid pool size: " ++ value))
    | none => .ok ⟨DEFAULT_TUN_POOL_SIZE, by decide⟩
  if h : pool_size.1 = 0 then .error (.InvalidTarget "invalid pool size: must be at least 1")
  else .ok ⟨pool_size.1, pool_size.2, h⟩

/-- The configuration without `MINI_VPN_TUN_POOL_SIZE`. -/
def default : TunListenerConfig := ⟨DEFAULT_TUN_POOL_SIZE, by decide, by decide⟩

example : from_sources none = .ok default := rfl

end TunListenerConfig

namespace Listeners

/-! ## Clean SYNs -/

/-- A clean SYN to a port; between two of them the sockets change in any way. -/
inductive Arrival where
  | syn (port : UInt16)
  | sockets (get : SocketHandle → TcpSocket)

def arrive (l : Listeners) : Arrival → Option Listeners
  | .syn port => Sys.inspect_syn l port true
  | .sockets get => l.next (.sockets get)

/-- The pool of a port that is not registered yet fits under the bound. -/
def PoolFits (l : Listeners) : Arrival → Prop
  | .syn port => l.registry.ports.contains_key port = false → l.registry.ports.len < MAX_INTERCEPTED_PORTS →
      l.registry.total_handles + l.registry.pool_size ≤ l.registry.max_total
  | .sockets _ => True

instance (l : Listeners) : (e : Arrival) → Decidable (l.PoolFits e)
  | .syn port => inferInstanceAs (Decidable (l.registry.ports.contains_key port = false →
      l.registry.ports.len < MAX_INTERCEPTED_PORTS → l.registry.total_handles + l.registry.pool_size ≤ l.registry.max_total))
  | .sockets _ => .isTrue trivial

theorem ensure_port_total {l l' : Listeners} {port : UInt16} {r : Except RegistryError Unit}
    (he : l.ensure_port port = some (r, l')) :
    l'.registry.max_total = l.registry.max_total ∧
      l'.registry.total = l.registry.total +
        (if l.registry.ports.contains_key port = false ∧ l.registry.ports.len < MAX_INTERCEPTED_PORTS
          then l.registry.pool_size else 0) := by
  cases hk : l.registry.ports.contains_key port with
  | true =>
    rw [ensure_port_known hk] at he
    obtain ⟨-, rfl⟩ := Prod.mk.inj (Option.some.inj he)
    simp
  | false =>
    by_cases hfull : MAX_INTERCEPTED_PORTS ≤ l.registry.ports.len
    · rw [ensure_port_capped hk hfull] at he
      obtain ⟨-, rfl⟩ := Prod.mk.inj (Option.some.inj he)
      rw [if_neg (by omega)]
      exact ⟨rfl, rfl⟩
    · have hroom := Nat.lt_of_not_le hfull
      obtain ⟨-, hc, -⟩ := ensure_port_counted hk hroom he
      rw [if_pos ⟨rfl, hroom⟩]
      exact ⟨hc.max_total, hc.total⟩

/-- Spare listeners register no port, and stop at the bound. -/
structure Spared (l l' : Listeners) : Prop where
  max_total : l'.registry.max_total = l.registry.max_total
  pool_size : l'.registry.pool_size = l.registry.pool_size
  ports : ∀ p, l'.registry.ports.contains_key p = l.registry.ports.contains_key p
  len : l'.registry.ports.len = l.registry.ports.len
  grows : l.registry.total ≤ l'.registry.total
  bounded : l'.registry.total ≤ max l.registry.total l.registry.max_total

theorem Spared.refl (l : Listeners) : Spared l l :=
  ⟨rfl, rfl, fun _ => rfl, rfl, Nat.le_refl _, Nat.le_max_left ..⟩

/-- The loop asks for the bound before each socket. -/
theorem add_spare_spared {port : UInt16} (n : Nat) {l l' : Listeners} {r : Except RegistryError Unit}
    (he : add_spare port n l = some (r, l')) : Spared l l' := by
  induction n generalizing l with
  | zero =>
    obtain ⟨-, rfl⟩ := Prod.mk.inj (Option.some.inj he)
    exact .refl l
  | succ n ih =>
    unfold add_spare at he
    split at he
    · obtain ⟨-, rfl⟩ := Prod.mk.inj (Option.some.inj he)
      exact .refl l
    · rename_i hroom
      simp only [Option.bind_eq_bind, Option.bind_eq_some_iff, Prod.exists] at he
      obtain ⟨h, l₁, h1, hs, h2, h3⟩ := he
      obtain ⟨-, hr, -⟩ := add_listener_added h1
      have hrest := ih h3
      rw [hr] at h2 hrest
      have hgrows := hrest.grows
      have hbounded := hrest.bounded
      simp only [ListenerRegistry.total_handles] at hgrows hbounded hroom
      refine ⟨hrest.max_total, hrest.pool_size, fun p => ?_, ?_, by omega, by omega⟩
      · rw [hrest.ports, Table.contains_key, Table.contains_key, Table.get_insert]
        split
        · rename_i hp
          simp [hp, h2]
        · rfl
      · exact hrest.len.trans (Table.len_insert_of_get h2 _)

theorem ensure_spare_spared {l l' : Listeners} {port : UInt16} {min_spare : Nat} {r : Except RegistryError Unit}
    (he : l.ensure_spare_listeners port min_spare = some (r, l')) : Spared l l' := by
  unfold ensure_spare_listeners at he
  split at he
  · obtain ⟨-, rfl⟩ := Prod.mk.inj (Option.some.inj he)
    exact .refl l
  · dsimp only at he
    split at he
    · obtain ⟨-, rfl⟩ := Prod.mk.inj (Option.some.inj he)
      exact .refl l
    · exact add_spare_spared _ he

/-- A SYN runs both functions. -/
theorem arrive_syn {l l' : Listeners} {port : UInt16} (h : l.arrive (.syn port) = some l') :
    ∃ r₁ l₁ r₂, l.ensure_port port = some (r₁, l₁) ∧
      l₁.ensure_spare_listeners port MIN_SPARE_LISTENERS = some (r₂, l') := by
  simp only [arrive, Sys.inspect_syn, if_true, Option.bind_eq_bind, Option.bind_eq_some_iff, Prod.exists,
    Option.pure_def, Option.some.injEq] at h
  obtain ⟨r₁, l₁, hport, r₂, l₂, hspare, rfl⟩ := h
  exact ⟨r₁, l₁, r₂, hport, hspare⟩

/-- One arrival, under the bound so far, keeps it exactly when the pool fits. -/
theorem arrive_total {l l' : Listeners} {e : Arrival} (h : l.arrive e = some l') :
    l'.registry.max_total = l.registry.max_total ∧
      (l.registry.total ≤ l.registry.max_total → (l'.registry.total ≤ l.registry.max_total ↔ l.PoolFits e)) := by
  cases e with
  | sockets get =>
    obtain rfl := Option.some.inj h
    exact ⟨rfl, fun hle => ⟨fun _ => trivial, fun _ => hle⟩⟩
  | syn port =>
    obtain ⟨r₁, l₁, r₂, hport, hspare⟩ := arrive_syn h
    obtain ⟨hmax₁, htotal⟩ := ensure_port_total hport
    have hs := ensure_spare_spared hspare
    have hgrows := hs.grows
    have hbounded := hs.bounded
    rw [hmax₁] at hbounded
    refine ⟨hs.max_total.trans hmax₁, fun hunder => ?_⟩
    constructor
    · intro hbound hk hroom
      rw [if_pos ⟨hk, hroom⟩] at htotal
      rw [ListenerRegistry.total_handles]
      omega
    · intro hfits
      split at htotal
      · rename_i hnew
        have := hfits hnew.1 hnew.2
        rw [ListenerRegistry.total_handles] at this
        omega
      · omega

/-- The number of listeners stays under the bound through a run exactly when every
SYN to a new port finds room for the port's pool. -/
theorem listener_cap_iff (config : TunListenerConfig) (max_total : Nat) {tr : List (Taken Listeners Arrival)} {l : Listeners}
    (h : Run (init config.pool_size max_total) arrive tr l) :
    (∀ t ∈ tr, t.post.registry.total_handles ≤ max_total) ↔ ∀ t ∈ tr, t.pre.PoolFits t.ev := by
  -- Along the run the bound in the registry is `max_total`, and either side of
  -- the equivalence keeps the last state under it.
  suffices hs : l.registry.max_total = max_total ∧
      ((∀ t ∈ tr, t.post.registry.total_handles ≤ max_total) → l.registry.total ≤ max_total) ∧
      ((∀ t ∈ tr, t.post.registry.total_handles ≤ max_total) ↔ ∀ t ∈ tr, t.pre.PoolFits t.ev) from hs.2.2
  induction h with
  | nil => exact ⟨rfl, fun _ => Nat.zero_le _, by simp⟩
  | snoc hr hn ih =>
    obtain ⟨hmax, hunder, hiff⟩ := ih
    obtain ⟨hmax', hstep⟩ := arrive_total hn
    rw [hmax] at hstep
    simp only [List.forall_mem_append, List.forall_mem_singleton]
    refine ⟨hmax'.trans hmax, fun hle => hle.2, ?_⟩
    constructor
    · rintro ⟨hle, hlast⟩
      exact ⟨hiff.1 hle, (hstep (hunder hle)).1 hlast⟩
    · rintro ⟨hfits, hlast⟩
      have hle := hiff.2 hfits
      exact ⟨hle, (hstep (hunder hle)).2 hlast⟩

/-- Two ports with the default pools, and two more listeners for the first. -/
theorem listener_cap_two_ports : ∃ tr l, Run (init TunListenerConfig.default.pool_size 6) arrive tr l ∧
    (∀ t ∈ tr, t.pre.PoolFits t.ev) ∧ l.registry.total_handles = 6 ∧ ∀ t ∈ tr, t.post.registry.total_handles ≤ 6 := by
  have hrun : (runEvents (checked (fun l e => decide (PoolFits l e)) arrive) (init TunListenerConfig.default.pool_size 6)
      [.syn 443, .syn 80, .sockets fun _ => .new, .syn 443]).any (fun l => l.registry.total_handles == 6) = true := by
    decide +kernel
  obtain ⟨tr, l, h, hok, hp⟩ := exists_checked_run_of_any hrun
  have hfits : ∀ t ∈ tr, t.pre.PoolFits t.ev := fun t ht => of_decide_eq_true (hok t ht)
  exact ⟨tr, l, h, hfits, by simpa using hp, (listener_cap_iff TunListenerConfig.default 6 h).2 hfits⟩

/-! ## Past the bound -/

/-- All listeners are taken, and the next SYN to a registered port makes new ones. -/
theorem exists_more {l : Listeners} (hw : Wf l) {port : UInt16} (hport : port ≠ 0)
    (hk : l.registry.ports.contains_key port = true) (hroom : l.registry.total < l.registry.max_total) :
    ∃ tr l', Run l arrive tr l' ∧ Wf l' ∧ Spared l l' ∧ l.registry.total < l'.registry.total := by
  obtain ⟨l₁, htaken⟩ : ∃ l₁, l.next (.sockets fun _ => .new) = some l₁ := ⟨_, rfl⟩
  have hw₁ := next_wf hw htaken
  obtain ⟨hreg, hclosed⟩ : l₁.registry = l.registry ∧ ∀ h, (l₁.sockets.get h).state = .Closed := by
    obtain rfl := Option.some.inj htaken
    exact ⟨rfl, fun _ => rfl⟩
  have hsockets : l.arrive (.sockets fun _ => .new) = some l₁ := htaken
  have hk₁ : l₁.registry.ports.contains_key port = true := hreg ▸ hk
  obtain ⟨⟨r, l'⟩, he⟩ := l₁.exists_ensure_spare hport MIN_SPARE_LISTENERS
  have hsyn : l₁.arrive (.syn port) = some l' := by simp [arrive, Sys.inspect_syn, ensure_port_known hk₁, he]
  obtain ⟨hw', ⟨n, hn⟩, hok, hcap⟩ := ensure_spare_spec hw₁ he
  have hs := ensure_spare_spared he
  refine ⟨_, l', .snoc (.snoc .nil hsockets) hsyn, hw', ?_, ?_⟩
  · exact ⟨hreg ▸ hs.max_total, hreg ▸ hs.pool_size, hreg ▸ hs.ports, hreg ▸ hs.len, hreg ▸ hs.grows, hreg ▸ hs.bounded⟩
  · have htotal := hn.total
    rw [hreg] at htotal
    cases r with
    | error e =>
      have hfull := hcap (by cases e; rfl)
      rw [hs.max_total, hreg] at hfull
      omega
    | ok u =>
      -- No socket listens before the SYN, so that all that listen are new.
      have hspare := hok rfl hk₁
      rw [hn.countP_listen hw₁, List.countP_eq_zero.2 (by simp [hclosed]), MIN_SPARE_LISTENERS] at hspare
      omega

theorem Spared.trans {l l' l'' : Listeners} (h : Spared l l') (h' : Spared l' l'') : Spared l l'' where
  max_total := h'.max_total.trans h.max_total
  pool_size := h'.pool_size.trans h.pool_size
  ports p := (h'.ports p).trans (h.ports p)
  len := h'.len.trans h.len
  grows := Nat.le_trans h.grows h'.grows
  bounded := by
    have h₁ := h.bounded
    have h₂ := h'.bounded
    rw [h.max_total] at h₂
    omega

/-- One registered port is enough to use the listeners up. -/
theorem exists_full {port : UInt16} (hport : port ≠ 0) (room : Nat) {l : Listeners} (hw : Wf l)
    (hk : l.registry.ports.contains_key port = true) (hroom : l.registry.max_total ≤ l.registry.total + room) :
    ∃ tr l', Run l arrive tr l' ∧ Wf l' ∧ Spared l l' ∧ l.registry.max_total ≤ l'.registry.total := by
  induction room generalizing l with
  | zero => exact ⟨[], l, .nil, hw, .refl l, hroom⟩
  | succ room ih =>
    by_cases hfull : l.registry.max_total ≤ l.registry.total
    · exact ⟨[], l, .nil, hw, .refl l, hfull⟩
    · obtain ⟨tr₁, l₁, h₁, hw₁, hs₁, hmore⟩ := exists_more hw hport hk (Nat.lt_of_not_le hfull)
      have hroom₁ : l₁.registry.max_total ≤ l₁.registry.total + room := by
        rw [hs₁.max_total]
        omega
      obtain ⟨tr₂, l₂, h₂, hw₂, hs₂, hfull₂⟩ := ih hw₁ ((hs₁.ports port).trans hk) hroom₁
      exact ⟨_, l₂, h₁.append h₂, hw₂, hs₁.trans hs₂, hs₁.max_total ▸ hfull₂⟩

/-- With the default configuration: port 443 has all 4096 listeners, and a SYN to
port 80 makes two more. -/
theorem listener_cap_exceeded : ∃ tr l, Run (init TunListenerConfig.default.pool_size MAX_TOTAL_LISTENERS) arrive tr l ∧
    l.registry.total_handles = 4098 := by
  have hfirst : ((init 2 MAX_TOTAL_LISTENERS).arrive (.syn 443)).any (fun l => l.registry.total == 2 &&
      l.registry.ports.contains_key 443 && !l.registry.ports.contains_key 80 && l.registry.ports.len == 1 &&
      l.registry.pool_size == 2 && l.registry.max_total == 4096) = true := by decide +kernel
  obtain ⟨l₁, hl₁, hp⟩ := (Option.any_eq_true _ _).1 hfirst
  simp only [Bool.and_eq_true, beq_iff_eq, Bool.not_eq_true'] at hp
  obtain ⟨⟨⟨⟨⟨htotal, hk⟩, hnew⟩, hlen⟩, hpool⟩, hmax⟩ := hp
  have hw₁ : Wf l₁ := by
    obtain ⟨r₁, l₀, r₂, hport, hspare⟩ := arrive_syn hl₁
    exact (ensure_spare_spec (ensure_port_spec (init_wf 2 _) hport).1 hspare).1
  obtain ⟨tr, l₂, hrun, -, hs, hfull⟩ := exists_full (by decide) 4096 hw₁ hk (by omega)
  have hbounded := hs.bounded
  obtain ⟨l₄, hl₄⟩ : ∃ l₄, l₂.arrive (.syn 80) = some l₄ := Sys.exists_inspect_syn l₂ (by decide) true
  obtain ⟨r₁, l₃, r₂, hport, hspare⟩ := arrive_syn hl₄
  -- Port 80 is new, and `ensure_port` does not look at the total.
  obtain ⟨hmax₃, htotal₃⟩ := ensure_port_total hport
  rw [hs.ports, hs.len, hnew, hlen, if_pos ⟨rfl, by decide⟩, hs.pool_size, hpool] at htotal₃
  have hgrows := (ensure_spare_spared hspare).grows
  have hbounded₄ := (ensure_spare_spared hspare).bounded
  rw [hmax₃, hs.max_total] at hbounded₄
  refine ⟨_, l₄, .snoc ((Run.nil.snoc hl₁).append hrun) hl₄, ?_⟩
  rw [ListenerRegistry.total_handles]
  omega

end Listeners
end MiniVpn
