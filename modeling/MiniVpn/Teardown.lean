import MiniVpn.Wiring
/-!
# Teardown towards the app

`rearm_socket` aborts the socket and listens again at once. The RST of an aborted
connection is sent by the next poll that finds the socket closed with its
connection still known, and `listen` has made it forget the connection by then.
Nothing else in the client closes a connection from its side, so no poll ever
sends a RST or FIN for a slot of its own accord. What an app may still get is the RST
with which smoltcp answers a segment that no socket has use for, so the packets of a
run are taken here with what smoltcp reads of them.
-/
open Lib

namespace MiniVpn

namespace TcpSocket

/-- The connection, if it is open. -/
def openConn (s : TcpSocket) : Option TcpTuple := if s.is_active then s.tuple else none

/-- The connection for which the next dispatch sends a segment that ends it: the
RST of a closed socket that still knows its connection, or a FIN. -/
def teardown (s : TcpSocket) : Option TcpTuple :=
  match s.state with
  | .Closed | .FinWait1 | .Closing | .LastAck => s.tuple
  | _ => none

/-- The socket is in no state an active close leads to, and has forgotten its
connection if it is closed. -/
structure Passive (s : TcpSocket) : Prop where
  forgets : s.state = .Closed → s.tuple = none
  states : s.state = .Closed ∨ s.state = .Listen ∨ s.state = .SynReceived ∨ s.state = .Established ∨ s.state = .CloseWait

theorem Passive.teardown {s : TcpSocket} (h : Passive s) : s.teardown = none := by
  rcases h.states with hs | hs | hs | hs | hs <;> simp only [TcpSocket.teardown, hs]
  exact h.forgets hs

theorem Passive.listening (port : UInt16) : Passive (listening port) := ⟨(nomatch ·), .inr (.inl rfl)⟩

theorem Passive.congr {s s' : TcpSocket} (h : Passive s) (hstate : s'.state = s.state) (htuple : s'.tuple = s.tuple) :
    Passive s' := ⟨fun hc => htuple.trans (h.forgets (hstate ▸ hc)), hstate ▸ h.states⟩

theorem Passive.read {s : TcpSocket} (h : Passive s) (rest : SocketBuffer) : Passive (s.afterRead rest) := h.congr rfl rfl

theorem Passive.process {s : TcpSocket} (h : Passive s) (seg : Segment) : Passive (s.process seg) := by
  obtain ⟨hf, hs⟩ := h
  rcases hs with hs | hs | hs | hs | hs <;> cases seg <;> simp only [TcpSocket.process, hs] <;>
    (constructor <;> simp_all)

theorem Passive.dispatch {s : TcpSocket} (h : Passive s) (t : Timer) : Passive (s.dispatch t) := by
  cases t with
  | reset_sent =>
    simp only [TcpSocket.dispatch]
    split
    · exact ⟨fun _ => rfl, h.states⟩
    · exact h
  | expire =>
    simp only [TcpSocket.dispatch]
    split
    · exact ⟨fun _ => rfl, .inl rfl⟩
    · exact h

theorem Passive.flush {s : TcpSocket} {ctx : SocketCtx} (h : Passive s) : Passive (flush_downlink s ctx).1 := by
  obtain ⟨n, tx, diag, he⟩ := flush_downlink_cases s ctx
  rw [he]
  exact h.congr rfl rfl

end TcpSocket

theorem Turn.passive {socket socket' : TcpSocket} {ctx ctx' : SocketCtx} (ht : Turn socket ctx socket' ctx')
    (h : socket.Passive) : socket'.Passive := by
  cases ht with
  | flush => exact h.flush
  | tunFlush => exact h
  | orphan _ rest | buffer _ rest | openFailed _ rest => exact h.read rest

namespace Sys

def AllPassive (s : Sys) : Prop := ∀ h, (s.sockets.get h).Passive

theorem AllPassive.set {s : Sys} (hs : AllPassive s) {socket : TcpSocket} (h : socket.Passive) (x y : SocketHandle) :
    ((s.sockets.set x socket).get y).Passive := by
  rw [SocketSet.get_set]
  split
  · exact h
  · exact hs y

/-- No effect leads to an active close. -/
theorem allPassive_effect {s s' : Sys} {l : Label} (he : Effect s l s') (hs : AllPassive s) : AllPassive s' := by
  cases he with
  | pool | flows | mark | unmark | schedule | discard | dropHandshake | relay => exact hs
  | grow port n l hg =>
    intro h
    simp only [hg.sock]
    split
    · exact .listening port
    · exact hs h
  | segment port h seg => exact hs.set ((hs h).process seg) h
  | dispatch h t => exact hs.set ((hs h).dispatch t) h
  | turn h ctx socket' ctx' _ ht => exact hs.set (ht.passive (hs h)) h
  | deliver msg rest ctx tx socket' ctx' l _ _ _ _ hfl =>
    have hflush : (flush_downlink (s.sockets.get msg.handle) (ctx.received msg.payload)).1.Passive := (hs msg.handle).flush
    rw [hfl] at hflush
    exact hs.set hflush msg.handle
  | rearm h ctx | refuse _ _ ctx => exact hs.set (.listening ctx.local_port) _
  | eof msg rest ctx => exact hs.set (.listening ctx.local_port) msg.handle
  | relayed h _ _ _ rest | opened h _ _ rest | spawned h _ _ rest => exact hs.set ((hs h).read rest) h
  | install i done => exact hs.set (hs done.handle) done.handle

theorem Reachable.allPassive {pool_size : Nat} {s : Sys} (hr : Reachable pool_size s) : AllPassive s :=
  hr.inv AllPassive (fun _ => ⟨fun _ => rfl, .inl rfl⟩) fun _ _ _ he hs => allPassive_effect he hs

theorem AllPassive.steps {special : Label → Prop} {s s' : Sys} (hs : AllPassive s) (hst : Steps special s s') :
    AllPassive s' := by
  obtain ⟨ls, hp, -⟩ := hst
  exact hp.inv (fun _ => True) AllPassive (fun _ _ _ _ he hi => allPassive_effect he hi) (fun _ _ => trivial) hs

/-! ## Polls -/

/-- The state in which the step calls `iface.poll` and has taken in the packet, if
it polls at all. -/
def polled (s : Sys) : Event → Option Sys
  | .rx pkt _ accepted _ _ _ =>
    match pkt with
    | .udp _ => none
    | pkt =>
      match inspect_inbound_tcp pkt with
      | none => some s
      | some (port, is_clean_syn) => s.rx_tcp port is_clean_syn accepted
  | .timer _ _ => some s
  | .remote _ _ _ =>
    match s.global_rx with
    | [] => none
    | msg :: rest =>
      match s.socket_ctxs.get msg.handle with
      | none => none
      | some ctx =>
        if msg.payload.isEmpty || ctx.uplink_tx.isNone then none
        else
          let (socket, ctx) := flush_downlink (s.sockets.get msg.handle) (ctx.received msg.payload)
          some ({ s with global_rx := rest }.put msg.handle socket { ctx with state := .Relaying })
  | _ => none

/-! ## Packets -/

inductive TcpControl where
  | None
  | Psh
  | Syn
  | Fin
  | Rst
deriving DecidableEq, Repr

/-- What smoltcp reads of a TCP packet. The connection is seen from the client, its
destination first. Of the acknowledgement number, if there is one, it is kept whether
it is that of the SYN a socket in SYN-RECEIVED has sent. -/
structure TcpRepr where
  conn : TcpTuple
  control : TcpControl
  ack_number : Option Bool
deriving DecidableEq, Repr

end Sys

/-- `accepts` of a packet as a whole. -/
def TcpSocket.takes (s : TcpSocket) (repr : Sys.TcpRepr) : Bool :=
  s.state != .Closed && !(s.state == .Listen && repr.ack_number.isSome) &&
    match s.tuple with
    | some tuple => tuple == repr.conn
    | none => repr.conn.local_endpoint.port != 0 && s.listen_port == repr.conn.local_endpoint.port

namespace Sys

/-- The socket that a packet goes to. -/
def taker (sockets : SocketSet) (repr : TcpRepr) : Option SocketHandle :=
  (List.range sockets.len).find? fun h => (sockets.get h).takes repr

/-- `process_tcp` answers a segment with a RST when no socket takes it, and so does
`process` of a socket that waits for another acknowledgement of its SYN; a RST is not
answered. -/
def refuses (sockets : SocketSet) (repr : TcpRepr) : Bool :=
  repr.control != .Rst &&
    match taker sockets repr with
    | none => true
    | some h => (sockets.get h).state == .SynReceived && repr.ack_number == some false

/-- A part of a packet that a socket may take. -/
def TcpRepr.hasPart (repr : TcpRepr) : TcpSocket.Segment → Bool
  | .syn tuple => repr.control == .Syn && tuple == repr.conn
  | .rst => repr.control == .Rst
  | .fin => repr.control == .Fin
  | .ack _ => repr.ack_number.isSome
  | .data _ => repr.control != .Rst

/-- An event, with what smoltcp reads of its packet; `none` if it is no TCP packet or
smoltcp drops it. -/
structure WireEvent where
  ev : Event
  repr : Option TcpRepr

/-- The sockets that the packet of a poll meets. -/
def met (s : Sys) (repr : TcpRepr) : Option SocketSet :=
  (inspect_syn s.toListeners repr.conn.local_endpoint.port (repr.control == .Syn && repr.ack_number.isNone)).map (·.sockets)

/-- The packet of the event is the one that smoltcp reads, and what a socket takes of
it is taken by the socket it goes to. -/
def carries (s : Sys) (x : WireEvent) : Bool :=
  match x.ev, x.repr with
  | .rx (.tcp port syn ack) _ accepted _ _ _, some repr =>
    port == repr.conn.local_endpoint.port && syn == (repr.control == .Syn) && ack == repr.ack_number.isSome &&
      match accepted with
      | none => true
      | some (h, segs) => (s.met repr).any fun sockets =>
        taker sockets repr == some h && !refuses sockets repr && segs.all repr.hasPart
  | .rx (.tcp _ _ _) _ accepted _ _ _, none => accepted.isNone
  | _, some _ => false
  | _, none => true

/-- A step with its packet. -/
def wireStep (s : Sys) (x : WireEvent) : Option Sys := if s.carries x then s.step x.ev else none

/-- The connections that the poll of an event ends: those for which one of the sockets
has a RST or FIN to send, and the one whose segment is answered with a RST. -/
def ends (s : Sys) (x : WireEvent) : List TcpTuple :=
  ((s.polled x.ev).toList.flatMap fun p => (List.range p.sockets.len).filterMap fun h => (p.sockets.get h).teardown) ++
    (x.repr.toList.filter fun repr => (s.met repr).any fun sockets => refuses sockets repr).map (·.conn)

theorem reachable_of_wire {pool_size : Nat} {tr : List (Taken Sys WireEvent)} {s : Sys}
    (h : Run (new pool_size) wireStep tr s) : Reachable pool_size s := by
  induction h with
  | nil => exact .init
  | snoc _ hn ih =>
    unfold wireStep at hn
    split at hn
    · exact .step ih trivial hn
    · cases hn

/-- The step rearms slot `h` while its socket has the open connection `c`. -/
structure TearsDown (t : Taken Sys WireEvent) (h : SocketHandle) (c : TcpTuple) : Prop where
  conn : (t.pre.sockets.get h).openConn = some c
  rearms : ∃ ctx ctx', t.pre.socket_ctxs.get h = some ctx ∧ t.post.socket_ctxs.get h = some ctx' ∧
    ctx'.hist.rearms = ctx.hist.rearms + 1

/-- Connection `c` of slot `h` is torn down in the run, and its last step `u` makes the
first poll since then. -/
def NextPoll (tr : List (Taken Sys WireEvent)) (h : SocketHandle) (c : TcpTuple) (u : Taken Sys WireEvent) : Prop :=
  ∃ before t between, tr = before ++ t :: (between ++ [u]) ∧ TearsDown t h c ∧
    (∀ v ∈ between, v.pre.polled v.ev.ev = none) ∧ (u.pre.polled u.ev.ev).isSome = true

/-- The sockets of a poll are passive, as those of every state are. -/
theorem Reachable.polled_passive {pool_size : Nat} {s p : Sys} {e : Event} (hr : Reachable pool_size s)
    (hp : s.polled e = some p) : AllPassive p := by
  cases e with
  | rx pkt query accepted timers order now =>
    cases pkt with
    | udp u => cases hp
    | other => exact Option.some.inj hp ▸ hr.allPassive
    | tcp port syn ack => exact hr.allPassive.steps (rx_tcp_steps hp)
  | timer timers order => exact Option.some.inj hp ▸ hr.allPassive
  | remote timers ok now =>
    simp only [polled] at hp
    split at hp
    · cases hp
    · rename_i msg rest _
      split at hp
      · cases hp
      · rename_i ctx hget
        split at hp
        · cases hp
        · obtain rfl := Option.some.inj hp
          exact hr.allPassive.set (hr.allPassive _).flush msg.handle
  | handshake_done | downlink | udp_sweep | fake_ip_sweep | listener | relay => cases hp

/-! ## No teardown is seen -/

/-- No socket has a segment to send that ends a connection: only the answer to a
packet does. -/
theorem Reachable.mem_ends {pool_size : Nat} {s : Sys} (hr : Reachable pool_size s) (x : WireEvent) (c : TcpTuple) :
    c ∈ s.ends x ↔
      ∃ repr sockets, x.repr = some repr ∧ repr.conn = c ∧ s.met repr = some sockets ∧ refuses sockets repr = true := by
  have hsilent : ((s.polled x.ev).toList.flatMap fun p =>
      (List.range p.sockets.len).filterMap fun h => (p.sockets.get h).teardown) = [] := by
    rw [List.flatMap_eq_nil_iff]
    intro p hp
    rw [List.filterMap_eq_nil_iff]
    exact fun h _ => (hr.polled_passive (Option.mem_toList.1 hp) h).teardown
  rw [ends, hsilent, List.nil_append, List.mem_map]
  constructor
  · rintro ⟨repr, hmem, rfl⟩
    obtain ⟨hrepr, hany⟩ := List.mem_filter.1 hmem
    obtain ⟨sockets, hmet, hrefuse⟩ := (Option.any_eq_true _ _).1 hany
    exact ⟨repr, sockets, Option.mem_toList.1 hrepr, rfl, hmet, hrefuse⟩
  · rintro ⟨repr, sockets, hrepr, rfl, hmet, hrefuse⟩
    refine ⟨repr, List.mem_filter.2 ⟨Option.mem_toList.2 hrepr, ?_⟩, rfl⟩
    exact (Option.any_eq_true _ _).2 ⟨sockets, hmet, hrefuse⟩

theorem NextPoll.reachable {pool_size : Nat} {tr : List (Taken Sys WireEvent)} {s : Sys} {h : SocketHandle} {c : TcpTuple}
    {u : Taken Sys WireEvent} (hrun : Run (new pool_size) wireStep tr s) (hnext : NextPoll tr h c u) :
    Reachable pool_size u.pre := by
  obtain ⟨before, t, between, rfl, -⟩ := hnext
  rw [← List.cons_append, ← List.append_assoc] at hrun
  exact reachable_of_wire hrun.last.1

/-- In every run, whatever step tears a connection down: the next poll sends the app
a segment that ends the connection exactly when the packet of that poll is a segment
of the connection that smoltcp refuses. An app that sends nothing is not told. -/
theorem teardown_visible_iff {pool_size : Nat} {tr : List (Taken Sys WireEvent)} {s : Sys} {h : SocketHandle}
    {c : TcpTuple} {u : Taken Sys WireEvent} (hrun : Run (new pool_size) wireStep tr s) (hnext : NextPoll tr h c u) :
    c ∈ u.pre.ends u.ev ↔ ∃ repr sockets, u.ev.repr = some repr ∧ repr.conn = c ∧ u.pre.met repr = some sockets ∧
      refuses sockets repr = true :=
  (hnext.reachable hrun).mem_ends u.ev c

/-- The steps of a run, then one that tears a connection down, then one that
polls. -/
theorem nextPoll_of_run {pool_size : Nat} {h : SocketHandle} {c : TcpTuple} {P : Sys → Bool} (es : List WireEvent)
    (x x' : WireEvent)
    (hrun : (runEvents wireStep (new pool_size) es).any (fun s => (s.wireStep x).any fun s₁ => (s₁.wireStep x').isSome &&
      (s₁.polled x'.ev).isSome && decide ((s.sockets.get h).openConn = some c) && P s₁ &&
        (s.socket_ctxs.get h).any fun ctx => (s₁.socket_ctxs.get h).any fun ctx' =>
          ctx'.hist.rearms == ctx.hist.rearms + 1) = true) :
    ∃ tr s u, Run (new pool_size) wireStep tr s ∧ NextPoll tr h c u ∧ u.ev = x' ∧ P u.pre = true := by
  obtain ⟨tr, s, hs, hp⟩ := exists_run_of_any hrun
  obtain ⟨s₁, h1, hp⟩ := (Option.any_eq_true _ _).1 hp
  simp only [Bool.and_eq_true, decide_eq_true_eq] at hp
  obtain ⟨⟨⟨⟨hstep, hpoll⟩, hconn⟩, hP⟩, hp⟩ := hp
  obtain ⟨s₂, h2⟩ := Option.isSome_iff_exists.1 hstep
  obtain ⟨ctx, hctx, hp⟩ := (Option.any_eq_true _ _).1 hp
  obtain ⟨ctx', hctx', hp⟩ := (Option.any_eq_true _ _).1 hp
  refine ⟨_, s₂, ⟨s₁, x', s₂⟩, .snoc (.snoc hs h1) h2, ⟨tr, ⟨s, x, s₁⟩, [], by simp,
    ⟨hconn, ctx, ctx', hctx, hctx', by simpa using hp⟩, by simp, hpoll⟩, rfl, hP⟩

/-- The connection of `connect`. -/
def clientConn : TcpTuple := ⟨⟨ipv4 93 184 216 34, 80⟩, ⟨ipv4 10 0 0 5, 40000⟩⟩

/-- The client's packets are segments of its connection. -/
def fromClient (e : Event) : WireEvent where
  ev := e
  repr := match e with
    | .rx (.tcp _ syn ack) _ _ _ _ _ =>
      some { conn := clientConn, control := if syn then .Syn else .Psh, ack_number := if ack then some true else none }
    | _ => none

/-- A relayed client, whose remote closes. -/
def relayedThenEof : List Event :=
  connect ⟨true, true⟩ (ipv4 93 184 216 34) ++ packet ⟨true, true⟩ [.data [1]] ++ [.relay 0 .read_eof, .relay 0 .sent]

/-- After the end of the stream the app sends one more byte, and is told. -/
theorem teardown_visible_answered : ∃ tr s u, Run (new 2) wireStep tr s ∧ NextPoll tr 0 clientConn u ∧
    u.ev = fromClient (.rx (.tcp 80 false true) none none [] [0, 1] 0) ∧ clientConn ∈ u.pre.ends u.ev := by
  obtain ⟨tr, s, u, hrun, hnext, hev, hrefuse⟩ := @nextPoll_of_run 2 0 clientConn
    (fun s => (s.met ⟨clientConn, .Psh, some true⟩).any fun sockets => refuses sockets ⟨clientConn, .Psh, some true⟩)
    (relayedThenEof.map fromClient) (fromClient (.remote [] true 0))
    (fromClient (.rx (.tcp 80 false true) none none [] [0, 1] 0)) (by decide +kernel)
  obtain ⟨sockets, hmet, hrefuse⟩ := (Option.any_eq_true _ _).1 hrefuse
  refine ⟨tr, s, u, hrun, hnext, hev, (teardown_visible_iff hrun hnext).2 ⟨_, sockets, ?_, ?_, hmet, hrefuse⟩⟩
  · rw [hev]
    rfl
  · rfl

/-- After the end of the stream the app only waits: the poll that should reset its
connection sends nothing. -/
theorem eof_not_seen : ∃ tr s u, Run (new 2) wireStep tr s ∧ NextPoll tr 0 clientConn u ∧
    clientConn ∉ u.pre.ends u.ev := by
  obtain ⟨tr, s, u, hrun, hnext, hev, -⟩ := @nextPoll_of_run 2 0 clientConn (fun _ => true)
    (relayedThenEof.map fromClient) (fromClient (.remote [] true 0)) (fromClient (.timer [] [])) (by decide +kernel)
  refine ⟨tr, s, u, hrun, hnext, fun hends => ?_⟩
  obtain ⟨repr, -, hrepr, -⟩ := ((hnext.reachable hrun).mem_ends u.ev clientConn).1 hends
  rw [hev] at hrepr
  cases hrepr

end Sys

end MiniVpn
