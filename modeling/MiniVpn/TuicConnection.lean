import MiniVpn.Addresses
import MiniVpn.Heartbeat
import MiniVpn.Lib.Table
/-!
# The connection to the TUIC server

The tasks that share the one QUIC connection of `TuicUpstream`: each `open_tcp`,
the task of `start_udp`, the probes of the failover task, and the main loop with
`send_udp`. Who finds the connection closed makes a new one under the lock. Every
`await` is a step, and every one can be the last of its task: a timeout or a task
that is dropped leaves the lock.
-/
open Lib

namespace MiniVpn

def CMD_AUTHENTICATE : UInt8 := 0x00

def encode_authenticate (uuid : Vector UInt8 16) (token : Vector UInt8 32) : Bytes :=
  [TUIC_VER, CMD_AUTHENTICATE] ++ uuid.toList ++ token.toList

namespace TuicConnection

/-! ## Connections -/

/-- What goes out over a connection. -/
inductive Sent where
  /-- Written to a unidirectional stream by `authenticate`. -/
  | authenticate (bytes : Bytes)
  /-- That stream has been finished. -/
  | finish
  /-- The head of a bidirectional stream. -/
  | connect (bytes : Bytes)
  /-- A datagram or a unidirectional stream. -/
  | packet (bytes : Bytes)
deriving DecidableEq

/-- A QUIC connection. -/
structure Link where
  /-- `close_reason` is there. -/
  closed : Bool
  sent : List Sent
deriving DecidableEq

/-- The constant fields of `TuicUpstream`. Connections are numbered in the order in
which they were made, and each has keying material of its own. -/
structure Client where
  uuid : Vector UInt8 16
  password : String
  zero_rtt : Bool
  export_keying_material : Nat → (label context : Bytes) → Vector UInt8 32

/-- What `authenticate` writes on a connection. -/
def Client.authenticate (me : Client) (k : Nat) : Bytes :=
  encode_authenticate me.uuid (me.export_keying_material k me.uuid.toList (Wire.utf8 me.password))

/-! ## Tasks -/

/-- What a task wants from `live_conn`. -/
inductive Goal where
  | open_tcp (target : TargetAddr)
  /-- With the number of attempts since the last success. -/
  | start_udp (attempt : Nat)
  | probe
deriving DecidableEq

/-- What `authenticate` is about to do. -/
inductive AuthStep where
  | export_keying_material
  | open_uni
  | write_all
  | finish
deriving DecidableEq

/-- Where a task is in `handshake`. -/
inductive Phase where
  /-- In front of `try_0rtt`, or of `handshake_1rtt`. -/
  | attempt (early : Bool)
  | connecting (k : Nat)
  | authenticate (early : Bool) (k : Nat) (step : AuthStep)
deriving DecidableEq

/-- Where a task waits. -/
inductive Stage where
  /-- In `live_conn`, for the lock. -/
  | lock (goal : Goal)
  /-- In `live_conn`, with the lock. -/
  | reconnect (goal : Goal) (phase : Phase)
  /-- In `is_dead`, for the lock. -/
  | is_dead
  | open_bi (k : Nat) (target : TargetAddr)
  | write_connect (k : Nat) (target : TargetAddr)
  /-- In the inner loop of `start_udp`. -/
  | pump (k : Nat)
  | backoff (attempt : Nat)
  | write_uni_packet (k : Nat) (packet : Bytes)
deriving DecidableEq

structure State where
  links : List Link
  /-- The connection that the mutex guards. -/
  conn : Nat
  /-- The task that has locked it. -/
  guard : Option Nat
  tasks : Table Nat Stage

inductive Event where
  /-- A new task. -/
  | call (t : Nat) (goal : Goal)
  | is_dead (t : Nat)
  /-- `send_udp` of the main loop, with the way it takes. -/
  | send_udp (t : Nat) (stream : Bool) (packet : Bytes)
  /-- A task gets the lock. -/
  | locked (t : Nat)
  /-- What a task waits for has happened, or has failed. -/
  | resume (t : Nat) (ok : Bool)
  | heartbeat (t : Nat)
  /-- `TUIC_RECONNECT_TIMEOUT` or `TUIC_OPEN_TIMEOUT`. -/
  | timeout (t : Nat)
  /-- The future is dropped. -/
  | cancel (t : Nat)
  /-- The connection is lost, or the server has closed it. -/
  | close (k : Nat)

namespace State
variable (s : State)

/-- `close_reason().is_some()`. -/
def is_closed (k : Nat) : Bool := s.links[k]?.all Link.closed

def close (k : Nat) : State := { s with links := s.links.modify k fun l => { l with closed := true } }

def send (k : Nat) (x : Sent) : State := { s with links := s.links.modify k fun l => { l with sent := l.sent ++ [x] } }

/-- A new connection, with its number. -/
def connect : Nat × State := (s.links.length, { s with links := s.links ++ [⟨false, []⟩] })

/-- The task goes on, or is over. -/
def put (t : Nat) (stage : Option Stage) : State :=
  { s with tasks := match stage with
    | some stage => s.tasks.insert t stage
    | none => s.tasks.remove t }

end State

/-- What a task does with the connection it gets. -/
def Goal.go_on (k : Nat) : Goal → Option Stage
  | open_tcp target => some (.open_bi k target)
  | start_udp _ => some (.pump k)
  | probe => none

/-- What a task does without one. -/
def Goal.give_up : Goal → Option Stage
  | start_udp attempt => some (.backoff attempt)
  | _ => none

def Phase.link? : Phase → Option Nat
  | attempt _ => none
  | connecting k => some k
  | authenticate _ k _ => some k

/-- The connection of a handshake that is given up: its last handle is dropped, which
closes it. -/
def State.abandon (s : State) (phase : Phase) : State :=
  match phase.link? with
  | some k => s.close k
  | none => s

/-- The end of `live_conn` without a connection. -/
def State.fail (s : State) (t : Nat) (goal : Goal) (phase : Phase) : State :=
  { s.abandon phase with guard := none }.put t goal.give_up

section
variable (me : Client)

/-- `live_conn` behind the lock, up to its first `await`. -/
def live_conn (s : State) (t : Nat) (goal : Goal) : State :=
  if s.is_closed s.conn then { s with guard := some t }.put t (some (.reconnect goal (.attempt me.zero_rtt)))
  else s.put t (goal.go_on s.conn)

/-- The next step of `handshake`. -/
def handshake (s : State) (t : Nat) (goal : Goal) (phase : Phase) (ok : Bool) : State :=
  match phase, ok with
  | .attempt true, true =>
    let (k, s) := s.connect
    s.put t (some (.reconnect goal (.authenticate true k .export_keying_material)))
  | .attempt true, false => s.put t (some (.reconnect goal (.attempt false)))
  | .attempt false, true =>
    let (k, s) := s.connect
    s.put t (some (.reconnect goal (.connecting k)))
  | .connecting k, true => s.put t (some (.reconnect goal (.authenticate false k .export_keying_material)))
  | .authenticate early k .export_keying_material, true => s.put t (some (.reconnect goal (.authenticate early k .open_uni)))
  | .authenticate early k .open_uni, true => s.put t (some (.reconnect goal (.authenticate early k .write_all)))
  | .authenticate early k .write_all, true =>
    (s.send k (.authenticate (me.authenticate k))).put t (some (.reconnect goal (.authenticate early k .finish)))
  | .authenticate _ k .finish, true => { s.send k .finish with conn := k, guard := none }.put t (goal.go_on k)
  | .authenticate true k _, false => (s.close k).put t (some (.reconnect goal (.attempt false)))
  | phase, false => s.fail t goal phase

def current_conn (s : State) : Option Nat :=
  if s.guard.isSome then none else if s.is_closed s.conn then none else some s.conn

def resume (s : State) (t : Nat) (ok : Bool) : Stage → Option State
  | .reconnect goal phase => some (handshake me s t goal phase ok)
  | .open_bi k target => some (s.put t (if ok then some (.write_connect k target) else none))
  | .write_connect k target => some ((if ok then s.send k (.connect (encode_connect target)) else s).put t none)
  | .write_uni_packet k packet => some ((if ok then s.send k (.packet packet) else s).put t none)
  | .pump _ => if ok then none else some (s.put t (some (.backoff 0)))
  | .backoff attempt => if ok then some (s.put t (some (.lock (.start_udp (min (attempt + 1) (2 ^ 32 - 1)))))) else none
  | .lock _ | .is_dead => none

def step (s : State) : Event → Option State
  | .call t goal => if (s.tasks.get t).isSome then none else some (s.put t (some (.lock goal)))
  | .is_dead t => if (s.tasks.get t).isSome then none else some (s.put t (some .is_dead))
  | .send_udp t stream packet =>
    if (s.tasks.get t).isSome then none
    else
      match current_conn s with
      | none => some s
      | some k => if stream then some (s.put t (some (.write_uni_packet k packet))) else some (s.send k (.packet packet))
  | .locked t =>
    if s.guard.isSome then none
    else
      match s.tasks.get t with
      | some (.lock goal) => some (live_conn me s t goal)
      | some .is_dead => some (s.put t none)
      | _ => none
  | .resume t ok => (s.tasks.get t).bind (resume me s t ok)
  | .heartbeat t =>
    match s.tasks.get t with
    | some (.pump k) => some (s.send k (.packet encode_heartbeat))
    | _ => none
  | .timeout t =>
    match s.tasks.get t with
    | some (.reconnect goal phase) => some (s.fail t goal phase)
    | some (.open_bi _ _) | some (.write_connect _ _) => some (s.put t none)
    | _ => none
  | .cancel t =>
    match s.tasks.get t with
    | some (.reconnect _ phase) => some ({ s.abandon phase with guard := none }.put t none)
    | some _ => some (s.put t none)
    | none => none
  | .close k => some (s.close k)

/-- After `TuicUpstream::connect`. -/
def connected : State where
  links := [⟨false, [.authenticate (me.authenticate 0), .finish]⟩]
  conn := 0
  guard := none
  tasks := .empty

end

end TuicConnection

end MiniVpn
