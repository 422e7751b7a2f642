import MiniVpn.FakeIp
import MiniVpn.Tcp
/-!
# Listener slots

A slot is a smoltcp socket with its `SocketCtx`. This module has the functions
of `client_tun.rs` that work on one slot: flushing the downlink backlog,
buffering uplink bytes during a handshake, reading a payload and rearming.

`SlotHist` is history, not part of the source: what happened to the slot since
it was created or, where it says so, since its last rearm. No modelled function
reads it.
-/
open Lib

namespace MiniVpn

def MAX_UPLINK_BUFFER : Nat := 256 * 1024

/-- Which relay task an `uplink_tx` sends to. -/
abbrev RelayId := Nat

inductive SocketState where
  | Listening
  | OpeningRemote
  | HandshakePending
  | Relaying
  | Closing
  | Rearming
deriving DecidableEq, Repr

structure TcpDownlinkDiag where
  remote_to_global_rx_bytes : UInt64 := 0
  downlink_pending_high_water : Nat := 0
  send_slice_calls : UInt64 := 0
  send_slice_accepted_bytes : UInt64 := 0
  send_slice_zero : UInt64 := 0
  send_slice_errors : UInt64 := 0
  tun_flush_tx_calls : UInt64 := 0
  tun_flush_tx_failures : UInt64 := 0
deriving DecidableEq, Repr

namespace TcpDownlinkDiag

def note_pending (d : TcpDownlinkDiag) (pending_current : Nat) : TcpDownlinkDiag :=
  { d with downlink_pending_high_water := max d.downlink_pending_high_water pending_current }

def note_remote_payload (d : TcpDownlinkDiag) (bytes pending_current : Nat) : TcpDownlinkDiag :=
  { d with remote_to_global_rx_bytes := d.remote_to_global_rx_bytes + UInt64.ofNat bytes }.note_pending pending_current

def note_send_slice_ok (d : TcpDownlinkDiag) (accepted pending_current : Nat) : TcpDownlinkDiag :=
  { d with
    send_slice_calls := d.send_slice_calls + 1
    send_slice_accepted_bytes := d.send_slice_accepted_bytes + UInt64.ofNat accepted
    send_slice_zero := if accepted = 0 then d.send_slice_zero + 1 else d.send_slice_zero
  }.note_pending pending_current

def note_send_slice_error (d : TcpDownlinkDiag) : TcpDownlinkDiag :=
  { d with send_slice_calls := d.send_slice_calls + 1, send_slice_errors := d.send_slice_errors + 1 }

def note_tun_flush (d : TcpDownlinkDiag) (ok : Bool) : TcpDownlinkDiag :=
  { d with
    tun_flush_tx_calls := d.tun_flush_tx_calls + 1
    tun_flush_tx_failures := if ok then d.tun_flush_tx_failures else d.tun_flush_tx_failures + 1 }

end TcpDownlinkDiag

/-- History of a slot. A generation is the time between two rearms. -/
structure SlotHist where
  /-- Rearms so far: the number of the generation. -/
  rearms : Nat := 0
  /-- Increments of `conn_epoch` so far. -/
  bumps : Nat := 0
  /-- Remote bytes appended to `downlink_pending` in this generation. -/
  delivered : Bytes := []
  /-- Bytes the local socket took over in this generation. -/
  accepted : Bytes := []
  /-- Payloads read from the local socket in this generation, each with the
  `local_endpoint` the socket had after the read. -/
  extracted : List (Bytes × Option IpEndpoint) := []
  /-- Bytes put on the uplink channel in this generation. -/
  fed : Bytes := []
  /-- Number of payloads read before the one that spawned a handshake. -/
  spawned : Option Nat := none
deriving DecidableEq

structure SocketCtx where
  local_port : UInt16
  state : SocketState
  uplink_tx : Option RelayId
  downlink_pending : Bytes
  fake_ip : Option Ipv4Addr
  conn_epoch : UInt64
  uplink_buffer : Bytes
  downlink_diag : TcpDownlinkDiag
  hist : SlotHist
deriving DecidableEq

namespace SocketCtx

def new (local_port : UInt16) : SocketCtx :=
  { local_port := local_port
    state := .Listening
    uplink_tx := none
    downlink_pending := []
    fake_ip := none
    conn_epoch := 0
    uplink_buffer := []
    downlink_diag := {}
    hist := {} }

def buffer_uplink (ctx : SocketCtx) (payload : Bytes) : Bool × SocketCtx :=
  if ctx.uplink_buffer.length + payload.length > MAX_UPLINK_BUFFER then (false, ctx)
  else (true, { ctx with uplink_buffer := ctx.uplink_buffer ++ payload })

/-- The slot takes over a reference, if its target has a fake-IP. -/
def hold_fake_ip (ctx : SocketCtx) (fake_ip : Option Ipv4Addr) : SocketCtx :=
  match fake_ip with
  | some ip => { ctx with fake_ip := some ip }
  | none => ctx

/-- A remote payload is appended to the backlog. -/
def received (ctx : SocketCtx) (payload : Bytes) : SocketCtx :=
  let downlink_pending := ctx.downlink_pending ++ payload
  { ctx with
    downlink_pending := downlink_pending
    downlink_diag := ctx.downlink_diag.note_remote_payload payload.length downlink_pending.length
    hist := { ctx.hist with delivered := ctx.hist.delivered ++ payload } }

/-- History: a payload was read, and the socket's endpoint is now `endpoint`. -/
def noteExtracted (ctx : SocketCtx) (payload : Bytes) (endpoint : Option IpEndpoint) : SocketCtx :=
  { ctx with hist := { ctx.hist with extracted := ctx.hist.extracted ++ [(payload, endpoint)] } }

/-- History: `payload` was put on the uplink channel. -/
def noteFed (ctx : SocketCtx) (payload : Bytes) : SocketCtx :=
  { ctx with hist := { ctx.hist with fed := ctx.hist.fed ++ payload } }

end SocketCtx

def flush_downlink (tcp_socket : TcpSocket) (ctx : SocketCtx) : TcpSocket × SocketCtx :=
  if ctx.downlink_pending.isEmpty then (tcp_socket, ctx)
  else
    let ctx := { ctx with downlink_diag := ctx.downlink_diag.note_pending ctx.downlink_pending.length }
    if !tcp_socket.can_send then (tcp_socket, ctx)
    else
      match tcp_socket.send_slice ctx.downlink_pending with
      | some (0, tcp_socket) =>
        (tcp_socket, { ctx with
          downlink_diag := ctx.downlink_diag.note_send_slice_ok 0 ctx.downlink_pending.length })
      | some (n, tcp_socket) =>
        let downlink_pending := ctx.downlink_pending.drop n
        (tcp_socket, { ctx with
          downlink_pending := downlink_pending
          downlink_diag := ctx.downlink_diag.note_send_slice_ok n downlink_pending.length
          hist := { ctx.hist with accepted := ctx.hist.accepted ++ ctx.downlink_pending.take n } })
      | none =>
        (tcp_socket, { ctx with
          downlink_pending := []
          downlink_diag := ctx.downlink_diag.note_send_slice_error.note_pending 0 })

/-- The payload, if the socket can receive, and the socket after the read.
`none` is the panic of `unwrap`. -/
def extract_socket_payload (socket : TcpSocket) : Option (Option Bytes × TcpSocket) :=
  if !socket.can_recv then some (none, socket)
  else do
    let (payload, socket) ← socket.recv
    return (some payload, socket)

/-- `none` is the panic of `unwrap`. -/
def rearm_socket (socket : TcpSocket) (ctx : SocketCtx) (fake_pool : FakeIpPool) (now_secs : Nat) :
    Option (TcpSocket × SocketCtx × FakeIpPool) := do
  let ctx := { ctx with state := .Closing }
  let socket := socket.abort
  let ctx := { ctx with
    uplink_tx := none
    downlink_pending := []
    downlink_diag := {}
    uplink_buffer := []
    conn_epoch := ctx.conn_epoch + 1
    hist := { rearms := ctx.hist.rearms + 1, bumps := ctx.hist.bumps + 1 } }
  let (ctx, fake_pool) := match ctx.fake_ip with
    | some ip => ({ ctx with fake_ip := none }, fake_pool.release ip now_secs)
    | none => (ctx, fake_pool)
  let ctx := { ctx with state := .Rearming }
  let socket ← socket.listen ctx.local_port
  return (socket, { ctx with state := .Listening }, fake_pool)

/-! ## What the functions do -/

/-- The context `rearm_socket` leaves. -/
def SocketCtx.rearmed (ctx : SocketCtx) : SocketCtx :=
  { SocketCtx.new ctx.local_port with
    conn_epoch := ctx.conn_epoch + 1
    hist := { rearms := ctx.hist.rearms + 1, bumps := ctx.hist.bumps + 1 } }

/-- The pool after a slot gave up its reference, if it had one. -/
def FakeIpPool.releaseOpt (p : FakeIpPool) (ip : Option Ipv4Addr) (now : Nat) : FakeIpPool :=
  match ip with
  | some ip => p.release ip now
  | none => p

/-- The pool after a flow took a reference, if its target has a fake-IP. -/
def FakeIpPool.acquireOpt (p : FakeIpPool) (ip : Option Ipv4Addr) (now : Nat) : FakeIpPool :=
  match ip with
  | some ip => p.acquire ip now
  | none => p

@[simp] theorem SocketCtx.buffer_uplink_hist (ctx : SocketCtx) (payload : Bytes) :
    (ctx.buffer_uplink payload).2.hist = ctx.hist := by
  unfold buffer_uplink
  split <;> rfl

@[simp] theorem SocketCtx.hold_fake_ip_hist (ctx : SocketCtx) (fake_ip : Option Ipv4Addr) :
    (ctx.hold_fake_ip fake_ip).hist = ctx.hist := by
  cases fake_ip <;> rfl

/-- Rearming panics on port zero and otherwise puts a fresh generation in place. -/
theorem rearm_socket_eq (socket : TcpSocket) (ctx : SocketCtx) (p : FakeIpPool) (now : Nat) :
    rearm_socket socket ctx p now =
      if ctx.local_port = 0 then none
      else some (.listening ctx.local_port, ctx.rearmed, p.releaseOpt ctx.fake_ip now) := by
  obtain ⟨port, state, up, pend, fake, epoch, buf, diag, hist⟩ := ctx
  cases fake with
  | none =>
    simp only [rearm_socket, TcpSocket.listen_abort, FakeIpPool.releaseOpt]
    split <;> rfl
  | some ip =>
    simp only [rearm_socket, TcpSocket.listen_abort, FakeIpPool.releaseOpt]
    split <;> rfl

theorem flush_downlink_nil {socket : TcpSocket} {ctx : SocketCtx} (h : ctx.downlink_pending = []) :
    flush_downlink socket ctx = (socket, ctx) := by
  simp [flush_downlink, h]

/-- A flush moves some bytes from the front of the backlog into the socket and
touches nothing else but the counters. -/
theorem flush_downlink_cases (socket : TcpSocket) (ctx : SocketCtx) :
    ∃ n tx diag, flush_downlink socket ctx = ({ socket with tx_buffer := tx },
      { ctx with
        downlink_pending := ctx.downlink_pending.drop n
        downlink_diag := diag
        hist := { ctx.hist with accepted := ctx.hist.accepted ++ ctx.downlink_pending.take n } }) := by
  simp only [flush_downlink]
  split
  · exact ⟨0, socket.tx_buffer, ctx.downlink_diag, by simp⟩
  · split
    · exact ⟨0, socket.tx_buffer, _, by simp; rfl⟩
    · rename_i hsend
      have hmay : socket.may_send = true := by
        simp only [TcpSocket.can_send, Bool.not_eq_true', Bool.not_eq_false, Bool.and_eq_true] at hsend
        exact hsend.1
      obtain ⟨tx, htx⟩ := TcpSocket.send_slice_of_may_send hmay ctx.downlink_pending
      rw [htx]
      split
      · rename_i heq
        simp only [Option.some.injEq, Prod.mk.injEq] at heq
        obtain ⟨-, rfl⟩ := heq
        exact ⟨0, tx, _, by simp; rfl⟩
      · rename_i n _ _ heq
        simp only [Option.some.injEq, Prod.mk.injEq] at heq
        obtain ⟨-, rfl⟩ := heq
        exact ⟨n, tx, _, rfl⟩
      · rename_i heq
        cases heq

/-- A socket with room for all of the backlog takes all of it. -/
theorem flush_downlink_room {socket : TcpSocket} {ctx : SocketCtx} (hsend : socket.may_send = true)
    (hroom : ctx.downlink_pending.length ≤ socket.tx_buffer.window) :
    (flush_downlink socket ctx).2.downlink_pending = [] := by
  by_cases hnil : ctx.downlink_pending = []
  · rw [flush_downlink_nil hnil]
    exact hnil
  · have hpos := List.length_pos_iff.2 hnil
    have hcan : socket.can_send = true := by
      simp only [TcpSocket.can_send, hsend, SocketBuffer.is_full, Bool.true_and, Bool.not_eq_true', beq_eq_false_iff_ne]
      omega
    obtain ⟨tx, htx⟩ := TcpSocket.send_slice_of_may_send hsend ctx.downlink_pending
    rw [Nat.min_eq_right hroom] at htx
    simp only [flush_downlink, List.isEmpty_iff, hnil, if_false, hcan, htx, Bool.not_true, Bool.false_eq_true]
    split
    · rename_i heq
      simp only [Option.some.injEq, Prod.mk.injEq] at heq
      omega
    · rename_i heq
      simp only [Option.some.injEq, Prod.mk.injEq] at heq
      simp [← heq.1]
    · rfl

/-- A socket without room for all of the backlog leaves some of it. -/
theorem flush_downlink_short {socket : TcpSocket} {ctx : SocketCtx}
    (hroom : socket.tx_buffer.window < ctx.downlink_pending.length) :
    (flush_downlink socket ctx).2.downlink_pending ≠ [] := by
  have hne : ctx.downlink_pending ≠ [] := List.length_pos_iff.1 (by omega)
  simp only [flush_downlink, List.isEmpty_iff, hne, if_false]
  split
  · exact hne
  · rename_i hcan
    simp only [TcpSocket.can_send, Bool.not_eq_true', Bool.not_eq_false, Bool.and_eq_true] at hcan
    obtain ⟨tx, htx⟩ := TcpSocket.send_slice_of_may_send hcan.1 ctx.downlink_pending
    rw [htx]
    split
    · exact hne
    · rename_i heq
      simp only [Option.some.injEq, Prod.mk.injEq] at heq
      exact fun hnil => by
        have := congrArg List.length hnil
        simp only [List.length_drop, List.length_nil] at this
        omega
    · rename_i heq
      cases heq

theorem extract_of_not_can_recv {socket : TcpSocket} (h : socket.can_recv = false) :
    extract_socket_payload socket = some (none, socket) := by
  simp [extract_socket_payload, h]

/-- A read never panics: it returns nothing, or takes a non-empty front part of
what the socket has received. -/
theorem extract_cases (socket : TcpSocket) :
    (socket.can_recv = false ∧ extract_socket_payload socket = some (none, socket)) ∨
    (socket.can_recv = true ∧ ∃ payload rest, payload ≠ [] ∧ payload ++ rest.data = socket.rx_buffer.data ∧
      extract_socket_payload socket = some (some payload, socket.afterRead rest)) := by
  cases h : socket.can_recv with
  | false => exact .inl ⟨rfl, extract_of_not_can_recv h⟩
  | true =>
    obtain ⟨payload, rest, hr, hne, hsplit⟩ := TcpSocket.recv_of_can_recv h
    exact .inr ⟨rfl, payload, rest, hne, hsplit, by simp [extract_socket_payload, h, hr]⟩

/-- Buffering keeps the payload whole or drops it whole. -/
theorem buffer_uplink_cases (ctx : SocketCtx) (payload : Bytes) :
    (ctx.uplink_buffer.length + payload.length ≤ MAX_UPLINK_BUFFER ∧
      ctx.buffer_uplink payload = (true, { ctx with uplink_buffer := ctx.uplink_buffer ++ payload })) ∨
    (MAX_UPLINK_BUFFER < ctx.uplink_buffer.length + payload.length ∧ ctx.buffer_uplink payload = (false, ctx)) := by
  unfold SocketCtx.buffer_uplink
  split
  · exact .inr ⟨‹_›, rfl⟩
  · exact .inl ⟨by omega, rfl⟩

/-- Buffering touches nothing but the buffer. -/
theorem buffer_uplink_frame (ctx : SocketCtx) (payload : Bytes) :
    ∃ buffer, (ctx.buffer_uplink payload).2 = { ctx with uplink_buffer := buffer } := by
  rcases buffer_uplink_cases ctx payload with ⟨-, he⟩ | ⟨-, he⟩
  · exact ⟨_, congrArg Prod.snd he⟩
  · exact ⟨_, congrArg Prod.snd he⟩

end MiniVpn
