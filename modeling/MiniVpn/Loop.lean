import Mathlib.Data.Finset.Basic
import MiniVpn.Assoc
import MiniVpn.Relay
import MiniVpn.Target
/-!
# The main loop

`run_event_loop` of `client_tun.rs` as a transition system. A state is what the
loop owns together with the relay tasks, the spawned handshakes and the global
channel; an event is one branch of `select!` with everything the environment
decides in it, one slot of `process_dirty_relay`, or one step of a relay task.
Between two slots of `process_dirty_relay` other tasks may run, so the slots
still to be processed are part of the state.

`none` is a panic of the source, or an event that cannot happen in the state.
Log output, metrics and the packets injected into the TUN device are left out.
-/
open Lib

namespace MiniVpn

def FAKE_IP_TTL : Nat := 1800

/-- A message on the global channel. The sender is history: the source sends the
handle and the payload only. -/
structure Message where
  sender : RelayId
  handle : SocketHandle
  payload : Bytes
deriving DecidableEq

/-- A spawned `open_tcp` whose `HandshakeDone` has not been received. `bump` and
`gen` are history: the number of epoch increments and of rearms of the slot when
it was spawned. -/
structure Handshake where
  handle : SocketHandle
  epoch : UInt64
  target : TargetAddr
  bump : Nat
  gen : Nat
deriving DecidableEq

/-- What the upstream does in one call: whether `open_tcp` is run inline, and
whether it succeeds. -/
structure Upstream where
  open_is_cheap : Bool
  open_tcp : Bool
deriving DecidableEq, Repr

structure Sys extends Listeners where
  dirty : Finset SocketHandle
  fake_pool : FakeIpPool
  assoc_table : AssocTable
  /-- Relay tasks in the order they were spawned; a `RelayId` is an index. -/
  relays : List RelayTask
  global_rx : List Message
  handshakes : List Handshake
  /-- Slots `process_dirty_relay` has still to process; empty at `select!`. -/
  todo : List SocketHandle
  /-- History: handshakes whose result was installed, each with the number of rearms
  of the slot at that time. -/
  installed : List (Handshake × Nat)

namespace Sys

def new (pool_size : Nat) : Sys :=
  { registry := .new pool_size
    sockets := .new
    socket_ctxs := .empty
    dirty := ∅
    fake_pool := .new
    assoc_table := .new
    relays := []
    global_rx := []
    handshakes := []
    todo := []
    installed := [] }

/-- Write a slot back. -/
def put (s : Sys) (handle : SocketHandle) (socket : TcpSocket) (ctx : SocketCtx) : Sys :=
  { s with
    sockets := s.sockets.set handle socket
    socket_ctxs := s.socket_ctxs.insert handle ctx }

def rearm_socket_with_reason (s : Sys) (handle : SocketHandle) (ctx : SocketCtx) (now_secs : Nat) : Option Sys := do
  let (socket, ctx, fake_pool) ← rearm_socket (s.sockets.get handle) ctx s.fake_pool now_secs
  return { s.put handle socket ctx with fake_pool := fake_pool }

/-! ## The uplink channels -/

inductive TryReserve where
  | Permit
  | Full
  | Closed
deriving DecidableEq, Repr

def try_reserve (s : Sys) (tx : RelayId) : TryReserve :=
  match s.relays[tx]? with
  | none => .Closed
  | some r => if r.rx_dropped then .Closed else if RELAY_CHANNEL_CAPACITY ≤ r.rx.length then .Full else .Permit

/-- `permit.send`. -/
def send (s : Sys) (tx : RelayId) (payload : Bytes) : Sys :=
  { s with relays := s.relays.modify tx fun r => { r with rx := r.rx ++ [payload] } }

/-- `try_send` on a channel that holds `rx`; `none` is `Err`. -/
def try_send (rx : List Bytes) (payload : Bytes) : Option (List Bytes) :=
  if rx.length < RELAY_CHANNEL_CAPACITY then some (rx ++ [payload]) else none

def spawn_remote_relay (s : Sys) (handle : SocketHandle) (target : TargetAddr) (rx : List Bytes) (gen : Nat) : Sys :=
  { s with relays := s.relays ++ [.new handle target rx gen] }

/-! ## Local payloads -/

/-- `Err` is only traced by the caller, so it is not returned here. -/
def handle_local_payload (s : Sys) (handle : SocketHandle) (payload : Bytes) (target : Option TargetAddr)
    (fake_ip : Option Ipv4Addr) (upstream : Upstream) (now_secs : Nat) : Option Sys :=
  match s.socket_ctxs.get handle with
  | none => some s
  | some ctx =>
    let socket := s.sockets.get handle
    if ctx.state = .HandshakePending then
      -- A payload over the limit is dropped.
      let (_, ctx) := ctx.buffer_uplink payload
      some (s.put handle socket ctx)
    else
      match target with
      | none => some s
      | some target =>
        if upstream.open_is_cheap then
          let ctx := { ctx with state := .OpeningRemote }
          if !upstream.open_tcp then
            -- The early return of `?`: the payload is gone.
            some (s.put handle socket ctx)
          else
            match try_send [] payload with
            | none => s.rearm_socket_with_reason handle ctx now_secs
            | some rx =>
              let ctx := { ctx with uplink_tx := some s.relays.length, state := .Relaying }
              let ctx := ctx.hold_fake_ip fake_ip
              let s := { s with fake_pool := s.fake_pool.acquireOpt fake_ip now_secs }
              some ((s.put handle socket (ctx.noteFed payload)).spawn_remote_relay handle target rx ctx.hist.rearms)
        else
          let ctx := { ctx with
            state := .HandshakePending
            conn_epoch := ctx.conn_epoch + 1
            hist := { ctx.hist with
              bumps := ctx.hist.bumps + 1
              spawned := some (ctx.hist.extracted.length - 1) } }
          let epoch := ctx.conn_epoch
          let ctx := ctx.hold_fake_ip fake_ip
          let s := { s with fake_pool := s.fake_pool.acquireOpt fake_ip now_secs }
          let (_, ctx) := ctx.buffer_uplink payload
          let s := s.put handle socket ctx
          some { s with handshakes := s.handshakes ++
            [{ handle := handle, epoch := epoch, target := target, bump := ctx.hist.bumps, gen := ctx.hist.rearms }] }

/-- The part of `process_listener_activity` for a slot with an uplink: a permit
first, then the payload, so that a full channel leaves the bytes in the socket. -/
def established_uplink (s : Sys) (handle : SocketHandle) (ctx : SocketCtx) (tx : RelayId) (now_secs : Nat) : Option Sys :=
  match s.try_reserve tx with
  | .Permit => do
    let (payload, socket) ← extract_socket_payload (s.sockets.get handle)
    match payload with
    | some payload =>
      let ctx := { ctx with state := .Relaying }
      let ctx := (ctx.noteExtracted payload socket.local_endpoint).noteFed payload
      return (s.put handle socket ctx).send tx payload
    | none => return s
  | .Full => some s
  | .Closed => s.rearm_socket_with_reason handle ctx now_secs

/-- The part of `process_listener_activity` for a slot without uplink. -/
def first_payload (s : Sys) (handle : SocketHandle) (ctx : SocketCtx) (upstream : Upstream) (now_secs : Nat) :
    Option Sys := do
  let (payload, socket) ← extract_socket_payload (s.sockets.get handle)
  match payload with
  | none => return s
  | some payload =>
    let ctx := ctx.noteExtracted payload socket.local_endpoint
    let s := s.put handle socket ctx
    match socket.local_endpoint with
    | none => return s
    | some endpoint =>
      match resolve_target endpoint s.fake_pool with
      | .Direct target fake_ip => s.handle_local_payload handle payload (some target) fake_ip upstream now_secs
      | .Refuse => s.rearm_socket_with_reason handle ctx now_secs
      | .Block => s.rearm_socket_with_reason handle ctx now_secs

def process_listener_activity (s : Sys) (handle : SocketHandle) (upstream : Upstream) (now_secs : Nat) : Option Sys :=
  match s.socket_ctxs.get handle with
  | none => some s
  | some ctx =>
    let (socket, ctx) := flush_downlink (s.sockets.get handle) ctx
    let s := s.put handle socket ctx
    match ctx.uplink_tx with
    | some tx => s.established_uplink handle ctx tx now_secs
    | none => s.first_payload handle ctx upstream now_secs

/-- One round of `process_dirty_relay`. -/
def process_dirty_slot (s : Sys) (handle : SocketHandle) (upstream : Upstream) (now_secs : Nat) : Option Sys := do
  let s ← s.process_listener_activity handle upstream now_secs
  let has_recv := (s.sockets.get handle).can_recv
  let has_pending := (s.socket_ctxs.get handle).any fun ctx => !ctx.downlink_pending.isEmpty
  if has_recv || has_pending then return s else return { s with dirty := s.dirty.erase handle }

/-! ## Handshake results and remote payloads -/

/-- The new channel of an installed handshake, with the bytes buffered meanwhile
as its first message; `none` when the channel does not take them. -/
def flush_uplink_buffer (ctx : SocketCtx) : Option (List Bytes × SocketCtx) :=
  if ctx.uplink_buffer.isEmpty then some ([], ctx)
  else do
    let rx ← try_send [] ctx.uplink_buffer
    return (rx, { ctx.noteFed ctx.uplink_buffer with uplink_buffer := [] })

def handle_handshake_done (s : Sys) (done : Handshake) (ok : Bool) (now_secs : Nat) : Option Sys :=
  match s.socket_ctxs.get done.handle with
  | none => some s
  | some ctx =>
    if ctx.conn_epoch ≠ done.epoch then some s
    else if ctx.state ≠ .HandshakePending then some s
    else if ok then
      let tx := s.relays.length
      match flush_uplink_buffer ctx with
      | none => s.rearm_socket_with_reason done.handle { ctx with uplink_buffer := [] } now_secs
      | some (rx, ctx) =>
        let ctx := { ctx with uplink_tx := some tx, state := .Relaying }
        let s := (s.put done.handle (s.sockets.get done.handle) ctx).spawn_remote_relay
          done.handle done.target rx ctx.hist.rearms
        some { s with installed := s.installed ++ [(done, ctx.hist.rearms)] }
    else s.rearm_socket_with_reason done.handle ctx now_secs

/-- The egress half of `iface.poll`. -/
def poll_egress (sockets : SocketSet) (timers : List (SocketHandle × TcpSocket.Timer)) : SocketSet :=
  timers.foldl (fun sockets t => sockets.set t.1 ((sockets.get t.1).dispatch t.2)) sockets

/-- The ingress half of `iface.poll`: one packet, whose accepted parts go to one
socket. -/
def poll_ingress (sockets : SocketSet) (dst_port : UInt16) (handle : SocketHandle) :
    List TcpSocket.Segment → Option SocketSet
  | [] => some sockets
  | seg :: segs =>
    if handle < sockets.len ∧ (sockets.get handle).accepts dst_port seg then
      poll_ingress (sockets.set handle ((sockets.get handle).process seg)) dst_port handle segs
    else none

def handle_remote_payload (s : Sys) (handle : SocketHandle) (payload : Bytes)
    (timers : List (SocketHandle × TcpSocket.Timer)) (flush_ok : Bool) (now_secs : Nat) : Option Sys :=
  match s.socket_ctxs.get handle with
  | none => some s
  | some ctx =>
    if payload.isEmpty then s.rearm_socket_with_reason handle ctx now_secs
    else if ctx.uplink_tx.isNone then some s
    else
      let (socket, ctx) := flush_downlink (s.sockets.get handle) (ctx.received payload)
      let ctx := { ctx with state := .Relaying }
      let s := s.put handle socket ctx
      let ctx := { ctx with downlink_diag := ctx.downlink_diag.note_tun_flush flush_ok }
      some { s with
        sockets := poll_egress s.sockets timers
        socket_ctxs := s.socket_ctxs.insert handle ctx }

/-- The `global_rx` branch. -/
def on_remote (s : Sys) (handle : SocketHandle) (payload : Bytes)
    (timers : List (SocketHandle × TcpSocket.Timer)) (flush_ok : Bool) (now_secs : Nat) : Option Sys := do
  let s ← s.handle_remote_payload handle payload timers flush_ok now_secs
  if (s.socket_ctxs.get handle).any fun ctx => !ctx.downlink_pending.isEmpty then
    return { s with dirty := insert handle s.dirty }
  else return s

/-! ## Inbound packets -/

def release_all (fake_pool : FakeIpPool) (ips : List Ipv4Addr) (now_secs : Nat) : FakeIpPool :=
  ips.foldl (fun p ip => p.release ip now_secs) fake_pool

/-- The datagram handed to `send_udp` is left out. -/
def handle_tuic_udp_uplink (assoc_table : AssocTable) (fake_pool : FakeIpPool) (udp : UdpInbound) (now_secs : Nat) :
    Option (AssocTable × FakeIpPool) :=
  match resolve_target { addr := udp.dst_ip, port := udp.dst_port } fake_pool with
  | .Refuse => some (assoc_table, fake_pool)
  | .Block => some (assoc_table, fake_pool)
  | .Direct _ fake_ip => do
    let tuple := { src_ip := udp.src_ip, src_port := udp.src_port, dst_ip := udp.dst_ip, dst_port := udp.dst_port }
    let is_new := !assoc_table.contains tuple
    let (assoc_id, assoc_table) ← assoc_table.intern tuple
    let assoc_table := assoc_table.touch assoc_id now_secs
    let (assoc_table, fake_pool) := match is_new, fake_ip with
      | true, some ip => (assoc_table.set_fake_ip assoc_id ip, fake_pool.acquire ip now_secs)
      | _, _ => (assoc_table, fake_pool)
    let (ips, assoc_table) := assoc_table.take_reclaimed_fake_ips
    return (assoc_table, release_all fake_pool ips now_secs)

/-- `handle_dns_hijack`: `query` is what `dns::parse_query` makes of the payload. -/
def handle_dns_hijack (fake_pool : FakeIpPool) (query : Option DnsQuery) (now_secs : Nat) : FakeIpPool :=
  match query with
  | some q => if q.qtype = QTYPE_A then (fake_pool.alloc q.qname now_secs).2 else fake_pool
  | none => fake_pool

/-- The SYN inspector: listeners for the port of a clean SYN. A capped registry
is only reported. -/
def inspect_syn (l : Listeners) (port : UInt16) (is_clean_syn : Bool) : Option Listeners :=
  if is_clean_syn then do
    let (_, l) ← l.ensure_port port
    let (_, l) ← l.ensure_spare_listeners port MIN_SPARE_LISTENERS
    return l
  else some l

/-- The start of `process_dirty_relay`: a snapshot of the dirty set, in the
set's iteration order. -/
def snapshot_dirty (s : Sys) (order : List SocketHandle) : Option Sys :=
  if order.Nodup ∧ order.toFinset = s.dirty then some { s with todo := order } else none

def isSyn : TcpSocket.Segment → Bool
  | .syn _ => true
  | _ => false

/-- The inspection of a TCP packet and the ingress half of the poll: listeners
for its port, the port's slots marked dirty, and what the socket that takes the
packet takes of it. -/
def rx_tcp (s : Sys) (port : UInt16) (is_clean_syn : Bool)
    (accepted : Option (SocketHandle × List TcpSocket.Segment)) : Option Sys := do
  let l ← inspect_syn s.toListeners port is_clean_syn
  let s := { s with
    toListeners := l
    dirty := s.dirty ∪ (l.registry.handles_for_port port).toFinset }
  match accepted with
  | none => some s
  | some (handle, segs) =>
    if segs.all fun seg => isSyn seg == is_clean_syn then
      (poll_ingress s.sockets port handle segs).map fun sockets => { s with sockets := sockets }
    else none

/-- The smoltcp path of the `wait_for_rx` branch, up to `process_dirty_relay`. -/
def on_tcp (s : Sys) (pkt : Packet) (accepted : Option (SocketHandle × List TcpSocket.Segment))
    (timers : List (SocketHandle × TcpSocket.Timer)) (order : List SocketHandle) : Option Sys :=
  let polled := match inspect_inbound_tcp pkt with
    | none => some s
    | some (port, is_clean_syn) => s.rx_tcp port is_clean_syn accepted
  polled.bind fun s => { s with sockets := poll_egress s.sockets timers }.snapshot_dirty order

/-! ## Sweeps -/

def is_dead (socket : TcpSocket) (ctx : SocketCtx) : Bool :=
  ctx.state != .Listening &&
    (!socket.is_active || socket.state == .CloseWait || (ctx.state == .OpeningRemote && ctx.uplink_tx.isNone))

/-- One round of `reap_dead_slots`. -/
def reap_slot (now_secs : Nat) (s : Sys) (handle : SocketHandle) : Option Sys :=
  match s.socket_ctxs.get handle with
  | some ctx => if is_dead (s.sockets.get handle) ctx then s.rearm_socket_with_reason handle ctx now_secs else some s
  | none => some s

/-- The number of reaped slots is not used by the loop. -/
def reap_dead_slots (s : Sys) (now_secs : Nat) : Option Sys := s.registry.all_handles.foldlM (reap_slot now_secs) s

/-- The `udp_sweep` branch. -/
def on_udp_sweep (s : Sys) (now : Nat) : Option Sys :=
  let (ips, assoc_table) := s.assoc_table.sweep now UDP_FLOW_IDLE_SECS
  let s := { s with assoc_table := assoc_table, fake_pool := release_all s.fake_pool ips now }
  s.reap_dead_slots now

/-! ## Steps -/

inductive Event where
  | remote (timers : List (SocketHandle × TcpSocket.Timer)) (flush_ok : Bool) (now : Nat)
  | rx (pkt : Packet) (query : Option DnsQuery) (accepted : Option (SocketHandle × List TcpSocket.Segment))
      (timers : List (SocketHandle × TcpSocket.Timer)) (order : List SocketHandle) (now : Nat)
  | handshake_done (i : Nat) (ok : Bool) (now : Nat)
  | downlink (assoc_id : UInt16) (now : Nat)
  | udp_sweep (now : Nat)
  | fake_ip_sweep (now : Nat)
  | timer (timers : List (SocketHandle × TcpSocket.Timer)) (order : List SocketHandle)
  | listener (upstream : Upstream) (now : Nat)
  | relay (id : RelayId) (e : RelayEvent)

/-- Some slot holds the sender of the channel of relay `id`. -/
def tx_alive (s : Sys) (id : RelayId) : Bool := s.socket_ctxs.iter.any fun e => e.2.uplink_tx == some id

def on_relay (s : Sys) (id : RelayId) (e : RelayEvent) : Option Sys := do
  let r ← s.relays[id]?
  let (r, message) ← r.step (s.tx_alive id) (s.global_rx.length < RELAY_CHANNEL_CAPACITY) e
  let s := { s with relays := s.relays.set id r }
  match message with
  | some payload => return { s with global_rx := s.global_rx ++ [{ sender := id, handle := r.handle, payload := payload }] }
  | none => return s

/-- A branch of `select!`. -/
def on_select (s : Sys) : Event → Option Sys
  | .remote timers flush_ok now =>
    match s.global_rx with
    | [] => none
    | msg :: rest => { s with global_rx := rest }.on_remote msg.handle msg.payload timers flush_ok now
  | .rx pkt query accepted timers order now =>
    match pkt, classify_inbound pkt with
    | .udp udp, .UdpRelay => do
      let (assoc_table, fake_pool) ← handle_tuic_udp_uplink s.assoc_table s.fake_pool udp now
      return { s with assoc_table := assoc_table, fake_pool := fake_pool }
    | .udp _, .Dns => some { s with fake_pool := handle_dns_hijack s.fake_pool query now }
    | pkt, _ => s.on_tcp pkt accepted timers order
  | .handshake_done i ok now => do
    let done ← s.handshakes[i]?
    { s with handshakes := s.handshakes.eraseIdx i }.handle_handshake_done done ok now
  | .downlink assoc_id now => some { s with assoc_table := s.assoc_table.touch assoc_id now }
  | .udp_sweep now => s.on_udp_sweep now
  | .fake_ip_sweep now => some { s with fake_pool := (s.fake_pool.sweep now FAKE_IP_TTL).2 }
  | .timer timers order => { s with sockets := poll_egress s.sockets timers }.snapshot_dirty order
  | _ => none

def step (s : Sys) (e : Event) : Option Sys :=
  match e, s.todo with
  | .relay id e, _ => s.on_relay id e
  | .listener upstream now, handle :: todo => { s with todo := todo }.process_dirty_slot handle upstream now
  | .listener _ _, [] => none
  | e, [] => s.on_select e
  | _, _ :: _ => none

end Sys

end MiniVpn
