import MiniVpn.Registry
/-!
# Relay tasks

`run_relay` of `client_tun.rs`, one task per opened remote stream, as a state
machine: a state per point where the task waits. Each step is resolved by the
environment (what the stream returned, which branch of `select!` fired, when
the idle timer ran out), so any interleaving with the main loop is a sequence of
events.

The receiving end of the global channel lives as long as the main loop, so a
send on it waits but never fails; the two exits for a failed send are in
`CloseReason` and never taken.
-/

namespace MiniVpn

def RELAY_CHANNEL_CAPACITY : Nat := 1024
def RELAY_READ_SIZE : Nat := 65536

inductive CloseReason where
  | remote_write_failed
  | local_channel_closed
  | global_rx_closed_on_eof
  | remote_eof
  | global_rx_closed
  | remote_read_failed
  | idle_timeout
deriving DecidableEq, Repr

inductive RelayPc where
  /-- At `select!`. -/
  | select
  /-- In `write_all`, with these bytes still to write. -/
  | write (rest : Bytes)
  /-- Waiting for room in the global channel for data. -/
  | send_back (data : Bytes)
  /-- Waiting for room in the global channel for the empty message. -/
  | send_eof
  /-- Out of the loop, in `shutdown`. -/
  | shutdown (reason : CloseReason)
  /-- Returned: the receiver of the uplink channel is dropped. -/
  | returned (reason : CloseReason)
deriving DecidableEq, Repr

/-- The task has told the main loop that the remote closed the stream. -/
def RelayPc.reported : RelayPc → Bool
  | .shutdown .remote_eof | .returned .remote_eof => true
  | _ => false

structure RelayTask where
  handle : SocketHandle
  target : TargetAddr
  /-- The uplink channel. -/
  rx : List Bytes
  pc : RelayPc
  /-- Bytes written to the remote stream. -/
  written : Bytes
  /-- History: the generation of the slot the task was spawned for. -/
  gen : Nat
deriving DecidableEq

inductive RelayEvent where
  | recv
  | local_closed
  | wrote (n : Nat)
  | write_failed
  | read (data : Bytes)
  | read_eof
  | read_failed
  | sent
  | idle
  | shut
deriving DecidableEq

namespace RelayTask

def new (handle : SocketHandle) (target : TargetAddr) (rx : List Bytes) (gen : Nat) : RelayTask :=
  { handle := handle, target := target, rx := rx, pc := .select, written := [], gen := gen }

/-- The receiver of the uplink channel is gone. -/
def rx_dropped (r : RelayTask) : Bool :=
  match r.pc with
  | .returned _ => true
  | _ => false

/-- One step, with the payload the task put on the global channel, if any.
`tx_alive`: some slot still holds the sender of the uplink channel. `room`: the
global channel is not full. `none`: the event cannot happen here. -/
def step (r : RelayTask) (tx_alive room : Bool) (e : RelayEvent) : Option (RelayTask × Option Bytes) :=
  match r.pc, e with
  | .select, .recv =>
    match r.rx with
    | payload :: rx => some ({ r with rx := rx, pc := .write payload }, none)
    | [] => none
  | .select, .local_closed =>
    if r.rx.isEmpty && !tx_alive then some ({ r with pc := .shutdown .local_channel_closed }, none) else none
  | .write rest, .wrote n =>
    if n ≤ rest.length then
      let r := { r with written := r.written ++ rest.take n }
      some ({ r with pc := if (rest.drop n).isEmpty then .select else .write (rest.drop n) }, none)
    else none
  | .write _, .write_failed => some ({ r with pc := .shutdown .remote_write_failed }, none)
  | .select, .read data =>
    if data.isEmpty || RELAY_READ_SIZE < data.length then none else some ({ r with pc := .send_back data }, none)
  | .select, .read_eof => some ({ r with pc := .send_eof }, none)
  | .select, .read_failed => some ({ r with pc := .shutdown .remote_read_failed }, none)
  | .send_back data, .sent => if room then some ({ r with pc := .select }, some data) else none
  | .send_eof, .sent => if room then some ({ r with pc := .shutdown .remote_eof }, some []) else none
  | .select, .idle => some ({ r with pc := .shutdown .idle_timeout }, none)
  | .shutdown reason, .shut => some ({ r with pc := .returned reason }, none)
  | _, _ => none

/-- A task keeps its slot, its generation and its target. -/
theorem step_frame {r r' : RelayTask} {tx_alive room : Bool} {e : RelayEvent} {message : Option Bytes}
    (h : r.step tx_alive room e = some (r', message)) :
    r'.handle = r.handle ∧ r'.gen = r.gen ∧ r'.target = r.target := by
  unfold step at h
  split at h
  all_goals first
    | (simp only [Option.some.injEq, Prod.mk.injEq] at h; obtain ⟨rfl, -⟩ := h; exact ⟨rfl, rfl, rfl⟩)
    | (split at h <;> simp only [Option.some.injEq, Prod.mk.injEq, reduceCtorEq] at h; obtain ⟨rfl, -⟩ := h; exact ⟨rfl, rfl, rfl⟩)
    | cases h

/-- A task that does not wait to send an empty payload keeps it so; it reports the
end of the stream exactly by sending the empty message; and it returns from
`shutdown` only. -/
theorem step_cases {r r' : RelayTask} {tx_alive room : Bool} {e : RelayEvent} {message : Option Bytes}
    (h : r.step tx_alive room e = some (r', message)) (hdata : ∀ d, r.pc = .send_back d → d ≠ []) :
    (∀ d, r'.pc = .send_back d → d ≠ []) ∧
      (r'.pc.reported = true ↔ r.pc.reported = true ∨ message = some []) ∧
      ∀ reason, r'.pc = .returned reason → r.pc = .shutdown reason ∧ e = .shut := by
  -- A branch that leaves `r₁` and sends `m`.
  have branch {r₁ : RelayTask} {m : Option Bytes} (h : some (r₁, m) = some (r', message)) : r' = r₁ ∧ message = m := by
    simpa [eq_comm] using h
  unfold step at h
  split at h <;> rename_i hpc
  · -- A payload from the uplink channel.
    split at h
    · obtain ⟨rfl, rfl⟩ := branch h
      simp [hpc, RelayPc.reported]
    · cases h
  · -- The uplink channel is closed.
    split at h
    · obtain ⟨rfl, rfl⟩ := branch h
      simp [hpc, RelayPc.reported]
    · cases h
  · -- Part of a payload was written.
    rename_i rest n
    split at h
    · obtain ⟨rfl, rfl⟩ := branch h
      by_cases hd : (rest.drop n).isEmpty = true <;> simp only [hd, hpc] <;> simp [RelayPc.reported]
    · cases h
  · obtain ⟨rfl, rfl⟩ := branch h
    simp [hpc, RelayPc.reported]
  · -- The remote sent data.
    split at h
    · cases h
    · rename_i hne
      obtain ⟨rfl, rfl⟩ := branch h
      simp only [Bool.or_eq_true, not_or] at hne
      simpa [hpc, RelayPc.reported] using hne.1
  · obtain ⟨rfl, rfl⟩ := branch h
    simp [hpc, RelayPc.reported]
  · obtain ⟨rfl, rfl⟩ := branch h
    simp [hpc, RelayPc.reported]
  · -- Data went to the main loop.
    rename_i data
    split at h
    · obtain ⟨rfl, rfl⟩ := branch h
      simp [hpc, RelayPc.reported, hdata data hpc]
    · cases h
  · -- The empty message went to the main loop.
    split at h
    · obtain ⟨rfl, rfl⟩ := branch h
      simp [hpc, RelayPc.reported]
    · cases h
  · obtain ⟨rfl, rfl⟩ := branch h
    simp [hpc, RelayPc.reported]
  · -- `shutdown` is done.
    rename_i reason
    obtain ⟨rfl, rfl⟩ := branch h
    cases reason <;> simp [hpc, RelayPc.reported]
  · cases h

/-- The task is about to return, and not because the remote has closed: the main
loop has not been told. -/
def exitsSilently (r : RelayTask) (e : RelayEvent) : Bool :=
  match r.pc, e with
  | .shutdown reason, .shut => reason != .remote_eof
  | _, _ => false

end RelayTask

end MiniVpn
