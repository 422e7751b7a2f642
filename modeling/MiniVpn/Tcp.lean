import Mathlib.Data.Fin.Basic
import MiniVpn.Net
/-!
# The TCP sockets of smoltcp

What `client_tun.rs` relies on of `smoltcp::socket::tcp`: the state machine as
seen by a passive socket, the two ring buffers, and the calls the client makes.
Sequence numbers, windows and retransmission are left out: a `Segment` is the
part of an arriving packet the socket accepted, so a data segment is in-order
and fits the receive window.

The client never calls `close`, so the states of an active close are never
entered; their transitions are here because `reap_dead_slots` looks at them.
-/

namespace MiniVpn

def TCP_SOCKET_BUFFER_SIZE : Nat := 65535

/-! ## Ring buffers -/

/-- `smoltcp::storage::RingBuffer` of `TCP_SOCKET_BUFFER_SIZE` bytes: what is in
it, oldest first, and where in the storage the oldest byte stands. -/
structure SocketBuffer where
  data : Bytes
  read_at : Fin TCP_SOCKET_BUFFER_SIZE
  fits : data.length ≤ TCP_SOCKET_BUFFER_SIZE
deriving DecidableEq

namespace SocketBuffer

def empty : SocketBuffer := { data := [], read_at := ⟨0, by decide⟩, fits := by decide }

def is_empty (b : SocketBuffer) : Bool := b.data.isEmpty

def window (b : SocketBuffer) : Nat := TCP_SOCKET_BUFFER_SIZE - b.data.length

def is_full (b : SocketBuffer) : Bool := b.window == 0

/-- Append as much as fits. -/
def enqueue_unallocated (b : SocketBuffer) (bs : Bytes) : SocketBuffer :=
  { b with
    data := b.data ++ bs.take b.window
    fits := by
      have := b.fits
      simp only [List.length_append, List.length_take, window]
      omega }

/-- Append as much as fits and say how much that was; an empty ring starts over
at the front of its storage. -/
def enqueue_slice (b : SocketBuffer) (bs : Bytes) : SocketBuffer × Nat :=
  let b := if b.is_empty then { b with read_at := ⟨0, by decide⟩ } else b
  (b.enqueue_unallocated bs, min b.window bs.length)

/-- Drop the first `n` bytes. -/
def dequeue_allocated (b : SocketBuffer) (n : Nat) : SocketBuffer :=
  { data := b.data.drop n
    read_at := ⟨(b.read_at.val + min n b.data.length) % TCP_SOCKET_BUFFER_SIZE, Nat.mod_lt _ (by decide)⟩
    fits := by
      have := b.fits
      simp only [List.length_drop]
      omega }

/-- Bytes that stand before the end of the storage: one call of
`dequeue_many_with` sees no more. -/
def contiguous (b : SocketBuffer) : Nat := min b.data.length (TCP_SOCKET_BUFFER_SIZE - b.read_at.val)

/-- `dequeue_many_with` by a reader that takes all it is given. -/
def dequeue_many (b : SocketBuffer) : Bytes × SocketBuffer :=
  (b.data.take b.contiguous, b.dequeue_allocated b.contiguous)

end SocketBuffer

/-! ## Sockets -/

inductive TcpState where
  | Closed
  | Listen
  | SynSent
  | SynReceived
  | Established
  | FinWait1
  | FinWait2
  | CloseWait
  | Closing
  | LastAck
  | TimeWait
deriving DecidableEq, Repr

/-- Both ends of a connection, the socket's own first. -/
structure TcpTuple where
  local_endpoint : IpEndpoint
  remote_endpoint : IpEndpoint
deriving DecidableEq, Repr

structure TcpSocket where
  state : TcpState
  listen_port : UInt16
  tuple : Option TcpTuple
  rx_buffer : SocketBuffer
  tx_buffer : SocketBuffer
deriving DecidableEq

namespace TcpSocket

/-- `TcpSocket::new`. -/
def new : TcpSocket :=
  { state := .Closed, listen_port := 0, tuple := none, rx_buffer := .empty, tx_buffer := .empty }

/-- A socket that waits for a connection on `port`. -/
def listening (port : UInt16) : TcpSocket := { new with state := .Listen, listen_port := port }

def is_open (s : TcpSocket) : Bool :=
  match s.state with
  | .Closed | .TimeWait => false
  | _ => true

def is_active (s : TcpSocket) : Bool :=
  match s.state with
  | .Closed | .TimeWait | .Listen => false
  | _ => true

def may_send (s : TcpSocket) : Bool :=
  match s.state with
  | .Established | .CloseWait => true
  | _ => false

def may_recv (s : TcpSocket) : Bool :=
  match s.state with
  | .Established | .FinWait1 | .FinWait2 => true
  | _ => !s.rx_buffer.is_empty

def can_send (s : TcpSocket) : Bool := s.may_send && !s.tx_buffer.is_full

def can_recv (s : TcpSocket) : Bool := s.may_recv && !s.rx_buffer.is_empty

def local_endpoint (s : TcpSocket) : Option IpEndpoint := s.tuple.map (·.local_endpoint)

/-- `reset`: a closed socket with empty buffers. -/
def reset (_s : TcpSocket) : TcpSocket := new

def abort (s : TcpSocket) : TcpSocket := { s with state := .Closed }

/-- `none` is `Err`: port zero, or the socket is open. -/
def listen (s : TcpSocket) (port : UInt16) : Option TcpSocket :=
  if port = 0 then none
  else if s.is_open then none
  else some { s.reset with listen_port := port, tuple := none, state := .Listen }

/-- `none` is `Err`; otherwise the number of bytes taken. -/
def send_slice (s : TcpSocket) (data : Bytes) : Option (Nat × TcpSocket) :=
  if s.may_send then
    let (tx_buffer, n) := s.tx_buffer.enqueue_slice data
    some (n, { s with tx_buffer := tx_buffer })
  else none

/-- `recv` by a reader that takes all it is given; `none` is `Err`. -/
def recv (s : TcpSocket) : Option (Bytes × TcpSocket) :=
  if s.may_recv then
    let (data, rx_buffer) := s.rx_buffer.dequeue_many
    some (data, { s with rx_buffer := rx_buffer })
  else none

/-! ## Arriving segments and timers -/

inductive Segment where
  /-- A SYN, with the connection it opens. -/
  | syn (tuple : TcpTuple)
  /-- An acknowledgement of `n` bytes of the transmit buffer. -/
  | ack (n : Nat)
  | data (payload : Bytes)
  | fin
  | rst
deriving DecidableEq

def process (s : TcpSocket) (seg : Segment) : TcpSocket :=
  match s.state, seg with
  | .Closed, _ => s
  | .Listen, .syn tuple => { s with state := .SynReceived, tuple := some tuple }
  | .Listen, _ => s
  | .SynReceived, .rst => { s with state := .Listen, tuple := none }
  | _, .rst => { s with state := .Closed, tuple := none }
  | .SynReceived, .ack _ => { s with state := .Established }
  | .SynReceived, .data payload =>
    { s with state := .Established, rx_buffer := s.rx_buffer.enqueue_unallocated payload }
  | .SynReceived, .fin => { s with state := .CloseWait }
  | .Established, .data payload | .FinWait1, .data payload | .FinWait2, .data payload =>
    { s with rx_buffer := s.rx_buffer.enqueue_unallocated payload }
  | .Established, .ack n | .CloseWait, .ack n => { s with tx_buffer := s.tx_buffer.dequeue_allocated n }
  | .FinWait1, .ack n =>
    let tx_buffer := s.tx_buffer.dequeue_allocated n
    { s with tx_buffer := tx_buffer, state := if tx_buffer.is_empty then .FinWait2 else .FinWait1 }
  | .Closing, .ack _ => { s with state := .TimeWait }
  | .LastAck, .ack _ => { s with state := .Closed, tuple := none }
  | .Established, .fin => { s with state := .CloseWait }
  | .FinWait1, .fin => { s with state := .Closing }
  | .FinWait2, .fin => { s with state := .TimeWait }
  | _, _ => s

/-- Whether a packet to `dst_port` is for this socket (`accepts`). -/
def accepts (s : TcpSocket) (dst_port : UInt16) : Segment → Bool
  | .syn tuple => s.state == .Listen && s.listen_port == dst_port && tuple.local_endpoint.port == dst_port
  | _ => s.tuple.any fun t => t.local_endpoint.port == dst_port

/-- What `dispatch` does on its own account. -/
inductive Timer where
  /-- The RST of an aborted connection goes out. -/
  | reset_sent
  /-- TIME-WAIT is over. -/
  | expire
deriving DecidableEq

def dispatch (s : TcpSocket) : Timer → TcpSocket
  | .reset_sent => if s.state = .Closed then { s with tuple := none } else s
  | .expire => if s.state = .TimeWait then s.reset else s

/-! ## What the calls do -/

/-- An aborted socket listens again, as a fresh one would, unless the port is
zero. -/
theorem listen_abort (s : TcpSocket) (port : UInt16) :
    s.abort.listen port = if port = 0 then none else some (listening port) := by
  simp only [listen, abort, is_open, reset, listening]
  rfl

theorem can_recv_iff (s : TcpSocket) : s.can_recv = true ↔ s.rx_buffer.data ≠ [] := by
  have h : s.can_recv = !s.rx_buffer.is_empty := by
    simp only [can_recv, may_recv]
    split <;> simp
  rw [h, Bool.not_eq_true', ← Bool.not_eq_true, Ne, SocketBuffer.is_empty, List.isEmpty_iff]

theorem can_recv_eq_false {s : TcpSocket} (h : s.rx_buffer.data = []) : s.can_recv = false := by
  rw [← Bool.not_eq_true, can_recv_iff]
  exact not_not_intro h

/-- The socket after a read that left `rest` in the receive buffer. -/
def afterRead (s : TcpSocket) (rest : SocketBuffer) : TcpSocket := { s with rx_buffer := rest }

@[simp] theorem afterRead_local_endpoint (s : TcpSocket) (rest : SocketBuffer) :
    (s.afterRead rest).local_endpoint = s.local_endpoint := rfl
/-- A socket that can receive hands out some of its bytes and keeps all else. -/
theorem recv_of_can_recv {s : TcpSocket} (h : s.can_recv = true) :
    ∃ data rest, s.recv = some (data, s.afterRead rest) ∧ data ≠ [] ∧
      data ++ rest.data = s.rx_buffer.data := by
  have hne := (can_recv_iff s).1 h
  have hmay : s.may_recv = true := by
    simp only [can_recv, Bool.and_eq_true] at h
    exact h.1
  refine ⟨s.rx_buffer.dequeue_many.1, s.rx_buffer.dequeue_many.2, by simp only [recv, hmay, if_true, afterRead], ?_, ?_⟩
  · have hat := s.rx_buffer.read_at.isLt
    have hlen := List.length_pos_iff.2 hne
    intro hnil
    have := congrArg List.length hnil
    simp only [SocketBuffer.dequeue_many, List.length_take, SocketBuffer.contiguous, List.length_nil] at this
    omega
  · exact List.take_append_drop _ _

/-- A socket that may send takes what fits of the data and keeps all else. -/
theorem send_slice_of_may_send {s : TcpSocket} (h : s.may_send = true) (data : Bytes) :
    ∃ tx, s.send_slice data = some (min s.tx_buffer.window data.length, { s with tx_buffer := tx }) := by
  simp only [send_slice, h, if_true, SocketBuffer.enqueue_slice]
  split
  · exact ⟨_, rfl⟩
  · exact ⟨_, rfl⟩

/-- Timers never make a socket readable. -/
theorem dispatch_can_recv {s : TcpSocket} {t : Timer} (h : (s.dispatch t).can_recv = true) : s.can_recv = true := by
  rw [can_recv_iff] at h ⊢
  cases t with
  | reset_sent =>
    simp only [dispatch] at h
    split at h <;> exact h
  | expire =>
    simp only [dispatch] at h
    split at h
    · exact absurd rfl h
    · exact h

/-- The socket belongs to `port`: it listens there, and so does the local end of
its connection. -/
structure OnPort (port : UInt16) (s : TcpSocket) : Prop where
  listen : s.state ≠ .Closed → s.listen_port = port
  tuple : ∀ t, s.tuple = some t → t.local_endpoint.port = port

theorem listening_onPort (port : UInt16) : OnPort port (listening port) where
  listen _ := rfl
  tuple t h := by simp [listening, new] at h

theorem OnPort.accepts {port dst : UInt16} {s : TcpSocket} (h : OnPort port s) {seg : Segment}
    (ha : s.accepts dst seg = true) : dst = port := by
  cases seg with
  | syn t =>
    simp only [TcpSocket.accepts, Bool.and_eq_true, beq_iff_eq] at ha
    exact ha.1.2.symm.trans (h.listen (by simp [ha.1.1]))
  | ack _ | data _ | fin | rst =>
    simp only [TcpSocket.accepts, Option.any_eq_true, beq_iff_eq] at ha
    obtain ⟨t, ht, he⟩ := ha
    exact he.symm.trans (h.tuple t ht)

theorem OnPort.process {port : UInt16} {s : TcpSocket} (h : OnPort port s) {seg : Segment}
    (ha : s.accepts port seg = true) : OnPort port (s.process seg) := by
  have hl := h.listen
  have ht := h.tuple
  have hsyn : ∀ t, seg = .syn t → t.local_endpoint.port = port := by
    rintro t rfl
    simp only [TcpSocket.accepts, Bool.and_eq_true, beq_iff_eq] at ha
    exact ha.2
  cases hs : s.state <;> cases seg <;> simp only [TcpSocket.process, hs] <;>
    (constructor <;> simp_all)

theorem OnPort.dispatch {port : UInt16} {s : TcpSocket} (h : OnPort port s) (t : Timer) : OnPort port (s.dispatch t) := by
  cases t with
  | reset_sent =>
    simp only [TcpSocket.dispatch]
    split
    · exact ⟨h.listen, fun t ht => by simp at ht⟩
    · exact h
  | expire =>
    simp only [TcpSocket.dispatch]
    split
    · exact ⟨fun hne => absurd rfl hne, fun t ht => by simp [reset, new] at ht⟩
    · exact h

/-- A socket without connection is closed or listening, and nothing was received
before the connection was established. -/
structure Inv (s : TcpSocket) : Prop where
  bare : s.tuple = none → s.state = .Closed ∨ s.state = .Listen
  unread : s.state = .Listen ∨ s.state = .SynReceived → s.rx_buffer.data = []

theorem listening_inv (port : UInt16) : Inv (listening port) where
  bare _ := .inr rfl
  unread _ := rfl

theorem Inv.process {s : TcpSocket} (h : Inv s) (seg : Segment) : Inv (s.process seg) := by
  obtain ⟨hb, hu⟩ := h
  cases hs : s.state <;> cases seg <;> simp only [TcpSocket.process, hs] <;>
    (constructor <;> simp_all)
  -- The acknowledgement of the last byte in FIN-WAIT-1.
  all_goals split <;> simp

theorem Inv.dispatch {s : TcpSocket} (h : Inv s) (t : Timer) : Inv (s.dispatch t) := by
  cases t with
  | reset_sent =>
    simp only [TcpSocket.dispatch]
    split
    · exact ⟨fun _ => .inl ‹_›, h.unread⟩
    · exact h
  | expire =>
    simp only [TcpSocket.dispatch]
    split
    · exact ⟨fun _ => .inl rfl, fun _ => rfl⟩
    · exact h

/-- No connection has been established yet. -/
def unopened (s : TcpSocket) : Bool := s.state == .Listen || s.state == .SynReceived

theorem unopened_process {s : TcpSocket} {seg : Segment} (h : (s.process seg).unopened = true) : s.unopened = true := by
  cases hs : s.state <;> cases seg <;> simp_all [TcpSocket.process, unopened]
  all_goals split at h <;> simp at h

theorem unopened_dispatch {s : TcpSocket} {t : Timer} (h : (s.dispatch t).unopened = true) : s.unopened = true := by
  cases t <;> simp only [TcpSocket.dispatch] at h <;> split at h <;> first | exact h | cases h

/-- An opened socket keeps its connection until it has none. -/
theorem local_endpoint_process {s : TcpSocket} {seg : Segment} {endpoint : IpEndpoint} (hs : s.unopened = false)
    (h : (s.process seg).local_endpoint = some endpoint) : s.local_endpoint = some endpoint := by
  cases hst : s.state <;> cases seg <;> simp_all [TcpSocket.process, unopened, local_endpoint]

theorem local_endpoint_dispatch {s : TcpSocket} {t : Timer} {endpoint : IpEndpoint}
    (h : (s.dispatch t).local_endpoint = some endpoint) : s.local_endpoint = some endpoint := by
  cases t <;> simp only [TcpSocket.dispatch] at h <;> split at h <;> first | exact h | cases h

/-- Only a socket that waits for its connection starts to be able to send. -/
theorem may_send_process {s : TcpSocket} {seg : Segment} (h : (s.process seg).may_send = true) :
    s.may_send = true ∨ s.unopened = true := by
  cases hs : s.state <;> cases seg <;> simp_all [TcpSocket.process, unopened, may_send]
  case FinWait1.ack n =>
    by_cases he : (s.tx_buffer.dequeue_allocated n).is_empty = true <;> simp [he] at h

theorem may_send_dispatch {s : TcpSocket} {t : Timer} (h : (s.dispatch t).may_send = true) : s.may_send = true := by
  cases t <;> simp only [TcpSocket.dispatch] at h <;> split at h <;> first | exact h | cases h

theorem Inv.unopened_eq_false {s : TcpSocket} (h : Inv s) (hne : s.rx_buffer.data ≠ []) : s.unopened = false := by
  rw [← Bool.not_eq_true, unopened, Bool.or_eq_true, beq_iff_eq, beq_iff_eq]
  exact fun hs => hne (h.unread hs)

end TcpSocket

end MiniVpn
