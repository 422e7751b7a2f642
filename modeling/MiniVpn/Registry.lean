import MiniVpn.Lib.Table
import MiniVpn.Slot
/-!
# The listener registry

`ListenerRegistry` of `client_tun.rs`: a pool of listening sockets per
intercepted port, created when the first SYN to the port arrives and grown when
too few of its sockets are free. Slots are never removed.
-/
open Lib

namespace MiniVpn

def MAX_INTERCEPTED_PORTS : Nat := 64
def MAX_TOTAL_LISTENERS : Nat := 4096
def MIN_SPARE_LISTENERS : Nat := 2

abbrev SocketHandle := Nat

/-- `smoltcp::iface::SocketSet`. Sockets are only ever added, so the handle of a
new one is their number. -/
structure SocketSet where
  len : Nat
  get : SocketHandle → TcpSocket

namespace SocketSet

def new : SocketSet := { len := 0, get := fun _ => .new }

def add (s : SocketSet) (socket : TcpSocket) : SocketHandle × SocketSet :=
  (s.len, { len := s.len + 1, get := fun h => if h = s.len then socket else s.get h })

/-- Write through `get_mut`. -/
def set (s : SocketSet) (handle : SocketHandle) (socket : TcpSocket) : SocketSet :=
  { s with get := fun h => if h = handle then socket else s.get h }

@[simp] theorem get_set_self (s : SocketSet) (h : SocketHandle) (x : TcpSocket) : (s.set h x).get h = x := by
  simp [set]

theorem get_set (s : SocketSet) (h h' : SocketHandle) (x : TcpSocket) :
    (s.set h x).get h' = if h' = h then x else s.get h' := rfl

@[simp] theorem set_get (s : SocketSet) (h : SocketHandle) : s.set h (s.get h) = s := by
  have hget : (s.set h (s.get h)).get = s.get := by
    funext h'
    simp only [set]
    split
    · subst_vars; rfl
    · rfl
  cases s
  simpa [set] using hget

@[simp] theorem set_set (s : SocketSet) (h : SocketHandle) (x y : TcpSocket) : (s.set h x).set h y = s.set h y := by
  simp only [set, SocketSet.mk.injEq, true_and]
  funext h'
  split <;> rfl

end SocketSet

structure ListenerRegistry where
  ports : Table UInt16 (List SocketHandle)
  pool_size : Nat
  max_total : Nat
  total : Nat

inductive RegistryError where
  | Capped
deriving DecidableEq, Repr

/-- The registry with the sockets and contexts of its slots. -/
structure Listeners where
  registry : ListenerRegistry
  sockets : SocketSet
  socket_ctxs : Table SocketHandle SocketCtx

namespace ListenerRegistry

def new (pool_size : Nat) : ListenerRegistry :=
  { ports := .empty, pool_size := pool_size, max_total := MAX_TOTAL_LISTENERS, total := 0 }

def total_handles (r : ListenerRegistry) : Nat := r.total

def all_handles (r : ListenerRegistry) : List SocketHandle := (r.ports.iter.map (·.2)).flatten

def handles_for_port (r : ListenerRegistry) (port : UInt16) : List SocketHandle := (r.ports.get port).getD []

theorem mem_all_handles {r : ListenerRegistry} {h : SocketHandle} :
    h ∈ r.all_handles ↔ ∃ port, h ∈ r.handles_for_port port := by
  simp only [all_handles, handles_for_port, List.mem_flatten, List.mem_map, Prod.exists, exists_eq_right]
  constructor
  · rintro ⟨hs, ⟨port, hmem⟩, hin⟩
    exact ⟨port, by rw [Table.mem_iter.1 hmem]; exact hin⟩
  · rintro ⟨port, hin⟩
    cases hp : r.ports.get port with
    | none => simp [hp] at hin
    | some hs => exact ⟨hs, ⟨port, Table.mem_iter.2 hp⟩, by simpa [hp] using hin⟩

end ListenerRegistry

/-- `none` is the panic of `unwrap`. -/
def build_listener_socket (local_port : UInt16) : Option TcpSocket := TcpSocket.new.listen local_port

namespace Listeners

/-- A new socket for `port` with its context; the registry is not told yet. -/
def add_listener (l : Listeners) (port : UInt16) : Option (SocketHandle × Listeners) := do
  let socket ← build_listener_socket port
  let (h, sockets) := l.sockets.add socket
  return (h, { l with sockets := sockets, socket_ctxs := l.socket_ctxs.insert h (.new port) })

/-- The loop of `ensure_port`. -/
def add_listeners (port : UInt16) : Nat → Listeners → List SocketHandle → Option (List SocketHandle × Listeners)
  | 0, l, handles => some (handles, l)
  | n + 1, l, handles => do
    let (h, l) ← l.add_listener port
    add_listeners port n l (handles ++ [h])

/-- The outer `none` is a panic. -/
def ensure_port (l : Listeners) (port : UInt16) : Option (Except RegistryError Unit × Listeners) :=
  if l.registry.ports.contains_key port then some (.ok (), l)
  else if MAX_INTERCEPTED_PORTS ≤ l.registry.ports.len then some (.error .Capped, l)
  else do
    let (handles, l) ← add_listeners port l.registry.pool_size l []
    return (.ok (), { l with registry := { l.registry with
      total := l.registry.total + l.registry.pool_size
      ports := l.registry.ports.insert port handles } })

/-- The loop of `ensure_spare_listeners`. -/
def add_spare (port : UInt16) : Nat → Listeners → Option (Except RegistryError Unit × Listeners)
  | 0, l => some (.ok (), l)
  | n + 1, l =>
    if l.registry.max_total ≤ l.registry.total_handles then some (.error .Capped, l)
    else do
      let (h, l) ← l.add_listener port
      let handles ← l.registry.ports.get port
      add_spare port n { l with registry := { l.registry with
        ports := l.registry.ports.insert port (handles ++ [h])
        total := l.registry.total + 1 } }

def ensure_spare_listeners (l : Listeners) (port : UInt16) (min_spare : Nat) :
    Option (Except RegistryError Unit × Listeners) :=
  match l.registry.ports.get port with
  | none => some (.ok (), l)
  | some handles =>
    let listening := handles.countP fun h => (l.sockets.get h).state == .Listen
    if min_spare ≤ listening then some (.ok (), l)
    else add_spare port (min_spare - listening) l

/-! ## What growing does -/

/-- The contexts belong to the sockets: handles that were not given out yet have
none. -/
def Tight (l : Listeners) : Prop := ∀ h, l.sockets.len ≤ h → l.socket_ctxs.get h = none

/-- `n` fresh slots for `port` were added behind the existing ones. -/
structure Added (port : UInt16) (n : Nat) (l l' : Listeners) : Prop where
  len : l'.sockets.len = l.sockets.len + n
  sock : ∀ h, l'.sockets.get h =
    if l.sockets.len ≤ h ∧ l.sockets.len + n > h then .listening port else l.sockets.get h
  ctx : ∀ h, l'.socket_ctxs.get h =
    if l.sockets.len ≤ h ∧ l.sockets.len + n > h then some (.new port) else l.socket_ctxs.get h
  count : l.Tight → ∀ p : SocketCtx → Bool, p (.new port) = false → l'.socket_ctxs.count p = l.socket_ctxs.count p
  port_ne : 0 < n → port ≠ 0

theorem Added.refl (port : UInt16) (l : Listeners) : Added port 0 l l where
  len := rfl
  sock h := by rw [if_neg (by omega)]
  ctx h := by rw [if_neg (by omega)]
  count _ _ _ := rfl
  port_ne h := absurd h (by omega)

theorem Added.tight {port : UInt16} {n : Nat} {l l' : Listeners} (h : Added port n l l') (ht : l.Tight) : l'.Tight := by
  intro x hx
  rw [h.len] at hx
  rw [h.ctx, if_neg (by omega)]
  exact ht x (by omega)

theorem Added.trans {port : UInt16} {n m : Nat} {l l' l'' : Listeners} (h : Added port n l l')
    (h' : Added port m l' l'') : Added port (n + m) l l'' where
  len := by rw [h'.len, h.len]; omega
  sock x := by
    rw [h'.sock, h.sock, h.len]
    split_ifs <;> first | rfl | omega
  ctx x := by
    rw [h'.ctx, h.ctx, h.len]
    split_ifs <;> first | rfl | omega
  count ht p hp := by rw [h'.count (h.tight ht) p hp, h.count ht p hp]
  port_ne hpos := by
    rcases Nat.eq_zero_or_pos n with hn | hn
    · exact h'.port_ne (by omega)
    · exact h.port_ne hn

/-- `Added` looks at sockets and contexts only. -/
theorem Added.registry {port : UInt16} {n : Nat} {l l' : Listeners} (h : Added port n l l') (r : ListenerRegistry) :
    Added port n l { l' with registry := r } := ⟨h.len, h.sock, h.ctx, h.count, h.port_ne⟩

theorem add_listener_added {l l' : Listeners} {port : UInt16} {h : SocketHandle}
    (he : l.add_listener port = some (h, l')) :
    h = l.sockets.len ∧ l'.registry = l.registry ∧ Added port 1 l l' := by
  simp only [add_listener, build_listener_socket, Option.bind_eq_bind, Option.bind_eq_some_iff, Option.pure_def,
    Option.some.injEq, Prod.mk.injEq] at he
  obtain ⟨socket, hs, rfl, rfl⟩ := he
  have hl : port ≠ 0 ∧ socket = .listening port := by
    unfold TcpSocket.listen at hs
    split at hs
    · cases hs
    · exact ⟨‹_›, by simpa [TcpSocket.is_open, TcpSocket.new, TcpSocket.reset, TcpSocket.listening, eq_comm] using hs⟩
  obtain ⟨hport, rfl⟩ := hl
  have hone : ∀ x, l.sockets.len ≤ x ∧ l.sockets.len + 1 > x ↔ x = l.sockets.len := fun x => by omega
  refine ⟨rfl, rfl, rfl, fun x => ?_, fun x => ?_, fun ht p hp => ?_, fun _ => hport⟩
  · simp only [SocketSet.add, hone]
  · simp only [SocketSet.add, hone, Table.get_insert]
  · simp only [SocketSet.add]
    rw [Table.count_insert, Table.remove_of_get_none (ht _ (Nat.le_refl _)), hp]
    rfl

theorem add_listeners_added {port : UInt16} (n : Nat) {l l' : Listeners} {hs hs' : List SocketHandle}
    (he : add_listeners port n l hs = some (hs', l')) :
    hs' = hs ++ List.range' l.sockets.len n ∧ l'.registry = l.registry ∧ Added port n l l' := by
  induction n generalizing l hs with
  | zero =>
    simp only [add_listeners, Option.some.injEq, Prod.mk.injEq] at he
    obtain ⟨rfl, rfl⟩ := he
    exact ⟨by simp, rfl, .refl port l⟩
  | succ n ih =>
    simp only [add_listeners, Option.bind_eq_bind, Option.bind_eq_some_iff, Prod.exists] at he
    obtain ⟨h, l₁, h1, h2⟩ := he
    obtain ⟨rfl, hr, ha⟩ := add_listener_added h1
    obtain ⟨rfl, hr', ha'⟩ := ih h2
    refine ⟨?_, hr'.trans hr, Nat.add_comm 1 n ▸ ha.trans ha'⟩
    rw [ha.len, List.range'_succ, List.append_assoc]
    rfl

/-- Slots were added and the registry knows them. -/
structure Grown (port : UInt16) (n : Nat) (l l' : Listeners) : Prop extends Added port n l l' where
  handles : ∀ p, l'.registry.handles_for_port p =
    if p = port then l.registry.handles_for_port port ++ List.range' l.sockets.len n
    else l.registry.handles_for_port p

theorem Grown.refl (port : UInt16) (l : Listeners) : Grown port 0 l l where
  toAdded := .refl port l
  handles p := by
    split
    · subst_vars; simp
    · rfl

theorem Grown.trans {port : UInt16} {n m : Nat} {l l' l'' : Listeners} (h : Grown port n l l')
    (h' : Grown port m l' l'') : Grown port (n + m) l l'' where
  toAdded := h.toAdded.trans h'.toAdded
  handles p := by
    rw [h'.handles, h.handles, h.handles, h.len]
    split
    · rw [if_pos rfl, List.append_assoc, List.range'_append_1]
    · rfl

theorem ensure_port_grown {l l' : Listeners} {port : UInt16} {r : Except RegistryError Unit}
    (he : l.ensure_port port = some (r, l')) : ∃ n, Grown port n l l' := by
  unfold ensure_port at he
  split at he
  · simp only [Option.some.injEq, Prod.mk.injEq] at he
    exact ⟨0, he.2 ▸ .refl port l⟩
  · rename_i hnew
    split at he
    · simp only [Option.some.injEq, Prod.mk.injEq] at he
      exact ⟨0, he.2 ▸ .refl port l⟩
    · simp only [Option.bind_eq_bind, Option.bind_eq_some_iff, Prod.exists, Option.pure_def, Option.some.injEq,
        Prod.mk.injEq] at he
      obtain ⟨hs, l₁, h1, -, rfl⟩ := he
      obtain ⟨rfl, hr, ha⟩ := add_listeners_added _ h1
      have hnone : l.registry.ports.get port = none := Table.contains_key_eq_false.1 (by simpa using hnew)
      refine ⟨_, ha.registry _, fun p => ?_⟩
      simp only [ListenerRegistry.handles_for_port, hr, Table.get_insert, hnone]
      split <;> simp

theorem add_spare_grown {port : UInt16} (n : Nat) {l l' : Listeners} {r : Except RegistryError Unit}
    (he : add_spare port n l = some (r, l')) : ∃ m, Grown port m l l' := by
  induction n generalizing l with
  | zero =>
    simp only [add_spare, Option.some.injEq, Prod.mk.injEq] at he
    exact ⟨0, he.2 ▸ .refl port l⟩
  | succ n ih =>
    unfold add_spare at he
    split at he
    · simp only [Option.some.injEq, Prod.mk.injEq] at he
      exact ⟨0, he.2 ▸ .refl port l⟩
    · simp only [Option.bind_eq_bind, Option.bind_eq_some_iff, Prod.exists] at he
      obtain ⟨h, l₁, h1, hs, h2, h3⟩ := he
      obtain ⟨rfl, hr, ha⟩ := add_listener_added h1
      obtain ⟨m, hm⟩ := ih h3
      refine ⟨1 + m, Grown.trans ⟨ha.registry _, fun p => ?_⟩ hm⟩
      rw [hr] at h2
      simp only [ListenerRegistry.handles_for_port, hr, Table.get_insert, h2]
      split <;> simp

theorem ensure_spare_grown {l l' : Listeners} {port : UInt16} {min_spare : Nat} {r : Except RegistryError Unit}
    (he : l.ensure_spare_listeners port min_spare = some (r, l')) : ∃ n, Grown port n l l' := by
  simp only [ensure_spare_listeners] at he
  split at he
  · simp only [Option.some.injEq, Prod.mk.injEq] at he
    exact ⟨0, he.2 ▸ .refl port l⟩
  · split at he
    · simp only [Option.some.injEq, Prod.mk.injEq] at he
      exact ⟨0, he.2 ▸ .refl port l⟩
    · exact add_spare_grown _ he

end Listeners

end MiniVpn
