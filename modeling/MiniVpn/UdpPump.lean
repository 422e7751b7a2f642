import MiniVpn.Heartbeat
import MiniVpn.UdpDownlink
/-!
# The UDP task

The whole task of `start_udp`: it takes the connection, pumps what comes down into
a bounded channel that the main loop receives from, and after a loss sleeps and
starts over. Datagrams go into the channel from the task itself, which waits
there when the channel is full. A stream is read by a task of its own, which
holds one of the permits until its packet is in the channel; a stream that finds
no permit is dropped.
-/
open Lib

namespace MiniVpn

def TUIC_DOWNLINK_CAPACITY : Nat := 1024
def MAX_CONCURRENT_DOWNLINK_STREAMS : Nat := 256
def UDP_RECONNECT_CAP_MS : Nat := 30000
def UDP_RECONNECT_BASE_MS : Nat := 500

/-- What comes on a `quinn::RecvStream` until it ends, and whether it ends with
`finish`. -/
structure RecvStream where
  data : Bytes
  finished : Bool
deriving DecidableEq, Repr

def RecvStream.read_to_end (recv : RecvStream) (size_limit : Nat) : Option Bytes :=
  if recv.finished ∧ recv.data.length ≤ size_limit then some recv.data else none

def read_uni_packet (recv : RecvStream) : Option Bytes :=
  match recv.read_to_end MAX_TUIC_PACKET_BYTES with
  | some buf => if !buf.isEmpty then some buf else none
  | none => none

/-- `1u64.checked_shl`. -/
def checked_shl_one (n : UInt32) : Option Nat := if n < 64 then some (2 ^ n.toNat) else none

/-- Milliseconds. -/
def udp_reconnect_backoff (attempt : UInt32) : Nat :=
  let exp := min (UDP_RECONNECT_BASE_MS * (checked_shl_one attempt).getD (2 ^ 64 - 1)) (2 ^ 64 - 1)
  min exp UDP_RECONNECT_CAP_MS

/-- `u32::saturating_add(1)`. -/
def saturating_succ (n : UInt32) : UInt32 := if n = 0xFFFFFFFF then n else n + 1

/-- A task that reads a stream: it reads, or it waits for room in the channel. -/
inductive Reader where
  | reading
  | sending (pkt : Bytes)
deriving DecidableEq, Repr

/-- The packet for which a reader waits. -/
def Reader.pkt? : Reader → Option Bytes
  | .reading => none
  | .sending pkt => some pkt

/-- What the task of `start_udp` waits for. -/
inductive UdpTask where
  | live_conn
  | sleep
  | select
  | send (bytes : Bytes)
  | returned
deriving DecidableEq, Repr

/-- The datagram for which the task waits. -/
def UdpTask.pending : UdpTask → List Bytes
  | .send bytes => [bytes]
  | _ => []

/-- The inner loop runs. -/
def UdpTask.pumping : UdpTask → Bool
  | .select => true
  | .send _ => true
  | _ => false

/-- The task, the readers it has spawned, and the channel. -/
structure UdpPump where
  me : TuicUpstream
  clock : Nat
  task : UdpTask
  attempt : UInt32
  /-- Of the inner loop, which starts it over. -/
  prev_pressured : Bool
  /-- `stream_sem`. -/
  permits : Nat
  readers : Table Nat Reader
  channel : List Bytes
  /-- The main loop still holds `downlink_rx`. -/
  receiver : Bool
  udp_drops_down : UInt64

namespace UdpPump

def start_udp (mode : UdpRelayMode) : UdpPump where
  me := .new mode
  clock := 0
  task := .live_conn
  attempt := 0
  prev_pressured := false
  permits := MAX_CONCURRENT_DOWNLINK_STREAMS
  readers := .empty
  channel := []
  receiver := true
  udp_drops_down := 0

inductive Event where
  | send_udp (now : Nat) (current_conn : Option Connection) (datagram : Bytes)
  | live_conn (ok : Bool)
  /-- The sleep is over. -/
  | wake
  | read_datagram (bytes : Bytes)
  /-- A new stream, for the reader `r`. -/
  | accept_uni (r : Nat)
  | conn_lost
  | stats_tick (now : Nat) (conn : Connection)
  | hb_tick (now : Nat) (conn : Connection)
  /-- The send of the task is through, or has failed. -/
  | sent
  /-- The stream of reader `r` is over. -/
  | read (r : Nat) (recv : RecvStream)
  | reader_sent (r : Nat)
  /-- The main loop takes a packet. -/
  | recv (bytes : Bytes)
  /-- The main loop is over. -/
  | drop_receiver

/-- A reader is done, and so is its permit. -/
def finish_reader (s : UdpPump) (r : Nat) : UdpPump :=
  { s with readers := s.readers.remove r, permits := s.permits + 1 }

def inc_udp_drops_down (s : UdpPump) : UdpPump := { s with udp_drops_down := s.udp_drops_down + 1 }

/-- `downlink_tx.send`: waits, goes through, or fails. -/
def poll_send (s : UdpPump) (bytes : Bytes) : Option (Except Unit UdpPump) :=
  if s.receiver then
    if s.channel.length < TUIC_DOWNLINK_CAPACITY then some (.ok { s with channel := s.channel ++ [bytes] }) else none
  else some (.error ())

/-- `none` when the event is not possible. -/
def step (s : UdpPump) : Event → Option UdpPump
  | .send_udp now current_conn datagram =>
    if s.clock ≤ now then some { s with me := s.me.send_udp now current_conn datagram, clock := now } else none
  | .live_conn ok =>
    match s.task with
    | .live_conn =>
      if ok then some { s with task := .select, attempt := 0, prev_pressured := false }
      else some { s with task := .sleep, prev_pressured := false }
    | _ => none
  | .wake =>
    match s.task with
    | .sleep => some { s with task := .live_conn, attempt := saturating_succ s.attempt }
    | _ => none
  | .read_datagram bytes =>
    match s.task with
    | .select => some { s with task := .send bytes }
    | _ => none
  | .accept_uni r =>
    match s.task with
    | .select =>
      match s.permits with
      | 0 => some s.inc_udp_drops_down
      | permits + 1 =>
        match s.readers.get r with
        | none => some { s with permits := permits, readers := s.readers.insert r .reading }
        | some _ => none
    | _ => none
  | .conn_lost =>
    match s.task with
    | .select => some { s with task := .sleep }
    | _ => none
  | .stats_tick now conn =>
    match s.task with
    | .select =>
      if s.clock ≤ now then
        let (_, prev_pressured, me) := s.me.on_stats_tick now conn s.prev_pressured
        some { s with me := me, prev_pressured := prev_pressured, clock := now }
      else none
    | _ => none
  | .hb_tick now conn =>
    match s.task with
    | .select =>
      if s.clock ≤ now then
        some { s with task := if (s.me.on_hb_tick now conn).2 then .sleep else .select, clock := now }
      else none
    | _ => none
  | .sent =>
    match s.task with
    | .send bytes =>
      match s.poll_send bytes with
      | some (.ok s) => some { s with task := .select }
      | some (.error _) => some { s with task := .returned }
      | none => none
    | _ => none
  | .read r recv =>
    match s.readers.get r with
    | some .reading =>
      match read_uni_packet recv with
      | some pkt => some { s with readers := s.readers.insert r (.sending pkt) }
      | none => some (s.inc_udp_drops_down.finish_reader r)
    | _ => none
  | .reader_sent r =>
    match s.readers.get r with
    | some (.sending pkt) =>
      match s.poll_send pkt with
      | some (.ok s) => some (s.finish_reader r)
      | some (.error _) => some (s.finish_reader r)
      | none => none
    | _ => none
  | .recv bytes =>
    match s.channel with
    | b :: channel => if s.receiver ∧ b = bytes then some { s with channel := channel } else none
    | [] => none
  | .drop_receiver => if s.receiver then some { s with receiver := false, channel := [] } else none

/-- What a step can do. -/
inductive Move (s : UdpPump) : Event → UdpPump → Prop
  | send_udp {now : Nat} {current_conn : Option Connection} {datagram : Bytes} : s.clock ≤ now →
      Move s (.send_udp now current_conn datagram)
        { s with me := s.me.send_udp now current_conn datagram, clock := now }
  | up : s.task = .live_conn →
      Move s (.live_conn true) { s with task := .select, attempt := 0, prev_pressured := false }
  | failed : s.task = .live_conn → Move s (.live_conn false) { s with task := .sleep, prev_pressured := false }
  | wake : s.task = .sleep → Move s .wake { s with task := .live_conn, attempt := saturating_succ s.attempt }
  | read_datagram {bytes : Bytes} : s.task = .select → Move s (.read_datagram bytes) { s with task := .send bytes }
  | refused {r : Nat} : s.task = .select → s.permits = 0 → Move s (.accept_uni r) s.inc_udp_drops_down
  | accepted {r permits : Nat} : s.task = .select → s.permits = permits + 1 → s.readers.get r = none →
      Move s (.accept_uni r) { s with permits := permits, readers := s.readers.insert r .reading }
  | lost : s.task = .select → Move s .conn_lost { s with task := .sleep }
  | stats_tick {now : Nat} {conn : Connection} : s.task = .select → s.clock ≤ now →
      Move s (.stats_tick now conn) { s with
        me := (s.me.on_stats_tick now conn s.prev_pressured).2.2
        prev_pressured := (s.me.on_stats_tick now conn s.prev_pressured).2.1
        clock := now }
  | hb_tick {now : Nat} {conn : Connection} : s.task = .select → s.clock ≤ now →
      Move s (.hb_tick now conn)
        { s with task := if (s.me.on_hb_tick now conn).2 then .sleep else .select, clock := now }
  | sent {bytes : Bytes} : s.task = .send bytes → s.receiver = true → s.channel.length < TUIC_DOWNLINK_CAPACITY →
      Move s .sent { s with channel := s.channel ++ [bytes], task := .select }
  | returned {bytes : Bytes} : s.task = .send bytes → s.receiver = false → Move s .sent { s with task := .returned }
  | read {r : Nat} {recv : RecvStream} {pkt : Bytes} : s.readers.get r = some .reading →
      read_uni_packet recv = some pkt → Move s (.read r recv) { s with readers := s.readers.insert r (.sending pkt) }
  | discarded {r : Nat} {recv : RecvStream} : s.readers.get r = some .reading → read_uni_packet recv = none →
      Move s (.read r recv) (s.inc_udp_drops_down.finish_reader r)
  | reader_sent {r : Nat} {pkt : Bytes} : s.readers.get r = some (.sending pkt) → s.receiver = true →
      s.channel.length < TUIC_DOWNLINK_CAPACITY →
      Move s (.reader_sent r) (finish_reader { s with channel := s.channel ++ [pkt] } r)
  | reader_gone {r : Nat} {pkt : Bytes} : s.readers.get r = some (.sending pkt) → s.receiver = false →
      Move s (.reader_sent r) (s.finish_reader r)
  | recv {bytes : Bytes} {channel : List Bytes} : s.receiver = true → s.channel = bytes :: channel →
      Move s (.recv bytes) { s with channel := channel }
  | drop_receiver : s.receiver = true → Move s .drop_receiver { s with receiver := false, channel := [] }

theorem poll_send_eq_ok {s s' : UdpPump} {bytes : Bytes} (h : s.poll_send bytes = some (.ok s')) :
    s.receiver = true ∧ s.channel.length < TUIC_DOWNLINK_CAPACITY ∧ s' = { s with channel := s.channel ++ [bytes] } := by
  unfold poll_send at h
  split at h
  · rename_i hr
    split at h
    · rename_i hlen
      simp only [Option.some.injEq, Except.ok.injEq] at h
      exact ⟨hr, hlen, h.symm⟩
    · cases h
  · simp at h

theorem poll_send_eq_error {s : UdpPump} {bytes : Bytes} (h : s.poll_send bytes = some (.error ())) :
    s.receiver = false := by
  unfold poll_send at h
  split at h
  · split at h <;> simp at h
  · rename_i hr
    exact Bool.eq_false_iff.2 hr

theorem step_move {s s' : UdpPump} {e : Event} (h : s.step e = some s') : Move s e s' := by
  cases e with
  | send_udp now current_conn datagram =>
    simp only [step, Option.ite_none_right_eq_some, Option.some.injEq] at h
    obtain ⟨hclock, rfl⟩ := h
    exact .send_udp hclock
  | live_conn ok =>
    simp only [step] at h
    split at h
    · cases ok with
      | true => exact Option.some.inj h ▸ .up ‹_›
      | false => exact Option.some.inj h ▸ .failed ‹_›
    · cases h
  | wake =>
    simp only [step] at h
    split at h
    · exact Option.some.inj h ▸ .wake ‹_›
    · cases h
  | read_datagram bytes =>
    simp only [step] at h
    split at h
    · exact Option.some.inj h ▸ .read_datagram ‹_›
    · cases h
  | accept_uni r =>
    simp only [step] at h
    split at h
    · split at h
      · exact Option.some.inj h ▸ .refused ‹_› ‹_›
      · split at h
        · exact Option.some.inj h ▸ .accepted ‹_› ‹_› ‹_›
        · cases h
    · cases h
  | conn_lost =>
    simp only [step] at h
    split at h
    · exact Option.some.inj h ▸ .lost ‹_›
    · cases h
  | stats_tick now conn =>
    simp only [step] at h
    split at h
    · simp only [Option.ite_none_right_eq_some, Option.some.injEq] at h
      obtain ⟨hclock, rfl⟩ := h
      exact .stats_tick ‹_› hclock
    · cases h
  | hb_tick now conn =>
    simp only [step] at h
    split at h
    · simp only [Option.ite_none_right_eq_some, Option.some.injEq] at h
      obtain ⟨hclock, rfl⟩ := h
      exact .hb_tick ‹_› hclock
    · cases h
  | sent =>
    simp only [step] at h
    split at h
    · split at h
      · rename_i hsend
        obtain ⟨hr, hlen, rfl⟩ := poll_send_eq_ok hsend
        exact Option.some.inj h ▸ .sent ‹_› hr hlen
      · exact Option.some.inj h ▸ .returned ‹_› (poll_send_eq_error ‹_›)
      · cases h
    · cases h
  | read r recv =>
    simp only [step] at h
    split at h
    · split at h
      · exact Option.some.inj h ▸ .read ‹_› ‹_›
      · exact Option.some.inj h ▸ .discarded ‹_› ‹_›
    · cases h
  | reader_sent r =>
    simp only [step] at h
    split at h
    · split at h
      · rename_i hsend
        obtain ⟨hr, hlen, rfl⟩ := poll_send_eq_ok hsend
        exact Option.some.inj h ▸ .reader_sent ‹_› hr hlen
      · exact Option.some.inj h ▸ .reader_gone ‹_› (poll_send_eq_error ‹_›)
      · cases h
    · cases h
  | recv bytes =>
    simp only [step] at h
    split at h
    · simp only [Option.ite_none_right_eq_some, Option.some.injEq] at h
      obtain ⟨⟨hr, rfl⟩, rfl⟩ := h
      exact .recv hr ‹_›
    · cases h
  | drop_receiver =>
    simp only [step, Option.ite_none_right_eq_some, Option.some.injEq] at h
    obtain ⟨hr, rfl⟩ := h
    exact .drop_receiver hr

abbrev Trace := List (Taken UdpPump Event)

section
variable {mode : UdpRelayMode} {tr : Trace} {s s' : UdpPump} {e : Event}

/-! ## Bounds -/

/-- A permit is free or held by a reader, and the channel holds what it has room
for. -/
structure Bounded (s : UdpPump) : Prop where
  permits : s.permits + s.readers.len = MAX_CONCURRENT_DOWNLINK_STREAMS
  channel : s.channel.length ≤ TUIC_DOWNLINK_CAPACITY
  returned : s.task = .returned → s.receiver = false

theorem finish_reader_permits {r : Nat} {reader : Reader} (h : s.readers.get r = some reader) :
    (s.finish_reader r).permits + (s.finish_reader r).readers.len = s.permits + s.readers.len := by
  rw [Table.len_of_get h]
  show s.permits + 1 + (s.readers.remove r).len = _
  omega

theorem Bounded.move (h : Bounded s) (hm : Move s e s') : Bounded s' := by
  obtain ⟨hp, hc, hret⟩ := h
  cases hm with
  | send_udp | stats_tick => exact ⟨hp, hc, hret⟩
  | up | failed | wake | read_datagram | lost => exact ⟨hp, hc, fun h => nomatch h⟩
  | refused => exact ⟨hp, hc, hret⟩
  | accepted htask hpermits hr =>
    refine ⟨?_, hc, hret⟩
    rw [Table.len_insert_of_get_none hr, ← hp, hpermits]
    dsimp only
    omega
  | hb_tick htask =>
    refine ⟨hp, hc, fun h => ?_⟩
    dsimp only at h
    split at h <;> cases h
  | sent htask hr hlen =>
    refine ⟨hp, ?_, fun h => nomatch h⟩
    rw [List.length_append, List.length_singleton]
    omega
  | returned htask hr => exact ⟨hp, hc, fun _ => hr⟩
  | read hr =>
    refine ⟨?_, hc, hret⟩
    rw [Table.len_insert_of_get hr, ← hp]
  | discarded hr =>
    refine ⟨?_, hc, hret⟩
    rw [finish_reader_permits (s := s.inc_udp_drops_down) hr]
    exact hp
  | reader_sent hr hopen hlen =>
    refine ⟨(finish_reader_permits (s := { s with channel := _ }) hr).trans hp, ?_, hret⟩
    rw [finish_reader, List.length_append, List.length_singleton]
    omega
  | reader_gone hr => exact ⟨(finish_reader_permits hr).trans hp, hc, hret⟩
  | recv hr hch =>
    rw [hch, List.length_cons] at hc
    exact ⟨hp, by dsimp only; omega, hret⟩
  | drop_receiver => exact ⟨hp, Nat.zero_le _, fun _ => rfl⟩

theorem bounded (h : Run (start_udp mode) step tr s) : Bounded s := by
  induction h with
  | nil => exact ⟨rfl, Nat.zero_le _, fun h => nomatch h⟩
  | snoc _ hn ih => exact ih.move (step_move hn)

/-! ## What goes through the channel -/

/-- What `read_datagram` returned. -/
def Event.datagram? : Event → Option Bytes
  | .read_datagram bytes => some bytes
  | _ => none

/-- The packet that a stream carried. -/
def Event.packet? : Event → Option Bytes
  | .read _ stream => read_uni_packet stream
  | _ => none

/-- What the main loop takes. -/
def Event.recv? : Event → Option Bytes
  | .recv bytes => some bytes
  | _ => none

def Event.isStream : Event → Bool
  | .accept_uni _ => true
  | _ => false

def datagrams (tr : Trace) : List Bytes := tr.filterMap fun t => t.ev.datagram?

def packets (tr : Trace) : List Bytes := tr.filterMap fun t => t.ev.packet?

def received (tr : Trace) : List Bytes := tr.filterMap fun t => t.ev.recv?

def streams (tr : Trace) : Nat := tr.countP fun t => t.ev.isStream

/-- The packets that wait with their readers. -/
def waiting (readers : Table Nat Reader) : List Bytes := readers.iter.filterMap fun e => e.2.pkt?

theorem waiting_insert (readers : Table Nat Reader) (r : Nat) (reader : Reader) :
    waiting (readers.insert r reader) = reader.pkt?.toList ++ waiting (readers.remove r) := by
  rw [waiting, Table.iter_insert, List.filterMap_cons, waiting]
  cases reader <;> rfl

theorem waiting_of_get {readers : Table Nat Reader} {r : Nat} {reader : Reader} (h : readers.get r = some reader) :
    (waiting readers).Perm (reader.pkt?.toList ++ waiting (readers.remove r)) := by
  refine ((Table.iter_perm_of_get h).filterMap _).trans ?_
  rw [← waiting_insert]
  rfl

/-- How a packet came. -/
inductive Way where
  | datagram
  | stream
deriving DecidableEq, Repr

def via (way : Way) (log : List (Way × Bytes)) : List Bytes := (log.filter (·.1 == way)).map (·.2)

theorem via_append (way : Way) (log log' : List (Way × Bytes)) : via way (log ++ log') = via way log ++ via way log' := by
  rw [via, List.filter_append, List.map_append, via, via]

/-- `log` is what has gone into the channel, in order, and `drops` streams were
dropped. What the main loop has received and what is still in the channel is the
log. Every datagram is in it, in order, or waits with the task; every packet of a
stream is in it or waits with its reader; and every stream is dropped, read or
in the log. -/
structure Accounts (tr : Trace) (s : UdpPump) (log : List (Way × Bytes)) (drops : Nat) : Prop where
  received : received tr ++ s.channel = log.map (·.2)
  datagrams : datagrams tr = via .datagram log ++ s.task.pending
  packets : (packets tr).Perm (via .stream log ++ waiting s.readers)
  streams : streams tr = drops + s.readers.len + (via .stream log).length
  drops : s.udp_drops_down = UInt64.ofNat drops

/-- The same for one step. -/
structure Conserves (s : UdpPump) (e : Event) (s' : UdpPump) (log : List (Way × Bytes)) (drops : Nat) : Prop where
  received : e.recv?.toList ++ s'.channel = s.channel ++ log.map (·.2)
  datagrams : s.task.pending ++ e.datagram?.toList = via .datagram log ++ s'.task.pending
  packets : (e.packet?.toList ++ waiting s.readers).Perm (via .stream log ++ waiting s'.readers)
  streams : (if e.isStream then 1 else 0) + s.readers.len = drops + s'.readers.len + (via .stream log).length
  drops : s'.udp_drops_down = s.udp_drops_down + UInt64.ofNat drops

theorem Accounts.snoc {log log' : List (Way × Bytes)} {drops drops' : Nat} (h : Accounts tr s log drops)
    (hc : Conserves s e s' log' drops') : Accounts (tr ++ [⟨s, e, s'⟩]) s' (log ++ log') (drops + drops') where
  received := by
    have hrecv : UdpPump.received (tr ++ [⟨s, e, s'⟩]) = UdpPump.received tr ++ e.recv?.toList := by
      rw [UdpPump.received, List.filterMap_append]
      cases hr : e.recv? <;> simp [UdpPump.received, hr]
    rw [hrecv, List.append_assoc, hc.received, ← List.append_assoc, h.received, List.map_append]
  datagrams := by
    have hdg : UdpPump.datagrams (tr ++ [⟨s, e, s'⟩]) = UdpPump.datagrams tr ++ e.datagram?.toList := by
      rw [UdpPump.datagrams, List.filterMap_append]
      cases hr : e.datagram? <;> simp [UdpPump.datagrams, hr]
    rw [hdg, h.datagrams, List.append_assoc, hc.datagrams, via_append, List.append_assoc]
  packets := by
    have hpk : UdpPump.packets (tr ++ [⟨s, e, s'⟩]) = UdpPump.packets tr ++ e.packet?.toList := by
      rw [UdpPump.packets, List.filterMap_append]
      cases hr : e.packet? <;> simp [UdpPump.packets, hr]
    rw [hpk, via_append, List.append_assoc]
    refine (h.packets.append_right _).trans ?_
    rw [List.append_assoc]
    exact (List.perm_append_comm.trans hc.packets).append_left _
  streams := by
    have hst : UdpPump.streams (tr ++ [⟨s, e, s'⟩]) = UdpPump.streams tr + if e.isStream then 1 else 0 := by
      rw [UdpPump.streams, List.countP_append, List.countP_singleton, UdpPump.streams]
    have h1 := h.streams
    have h2 := hc.streams
    rw [hst, via_append, List.length_append]
    omega
  drops := by rw [hc.drops, h.drops, UInt64.ofNat_add]

/-- A step without packets. -/
theorem Conserves.quiet (hd : e.datagram? = none) (hp : e.packet? = none) (hr : e.recv? = none)
    (hs : e.isStream = false) (htask : s.task.pending = s'.task.pending) (hch : s'.channel = s.channel)
    (hreaders : s'.readers = s.readers) (hdrops : s'.udp_drops_down = s.udp_drops_down) : Conserves s e s' [] 0 where
  received := by simp [hr, hch]
  datagrams := by simp [hd, htask, via]
  packets := by simp [hp, hreaders, via]
  streams := by simp [hs, hreaders, via]
  drops := by simp [hdrops]

/-- Every step keeps the books while the main loop is there. -/
theorem Move.conserves (hm : Move s e s') (hopen : s'.receiver = true) : ∃ log drops, Conserves s e s' log drops := by
  cases hm with
  | send_udp => exact ⟨[], 0, .quiet rfl rfl rfl rfl rfl rfl rfl rfl⟩
  | up h | failed h | wake h | lost h => exact ⟨[], 0, .quiet rfl rfl rfl rfl (by rw [h]; rfl) rfl rfl rfl⟩
  | stats_tick h => exact ⟨[], 0, .quiet rfl rfl rfl rfl rfl rfl rfl rfl⟩
  | hb_tick h =>
    refine ⟨[], 0, .quiet rfl rfl rfl rfl ?_ rfl rfl rfl⟩
    rw [h]
    dsimp only
    split <;> rfl
  | @read_datagram bytes h =>
    refine ⟨[], 0, by simp [Event.recv?], ?_, .refl _, by simp [Event.isStream, via], by simp⟩
    rw [h]
    rfl
  | refused h hpermits =>
    refine ⟨[], 1, by simp [Event.recv?, inc_udp_drops_down], by simp [Event.datagram?, via, inc_udp_drops_down],
      .refl _, by simp [Event.isStream, via, inc_udp_drops_down], rfl⟩
  | accepted h hpermits hr =>
    refine ⟨[], 0, by simp [Event.recv?], by simp [Event.datagram?, via], ?_, ?_, by simp⟩
    · rw [waiting_insert, Table.remove_of_get_none hr]
      exact .refl _
    · rw [Table.len_insert_of_get_none hr]
      simp [Event.isStream, via, Nat.add_comm]
  | @sent bytes h hr hlen =>
    refine ⟨[(.datagram, bytes)], 0, by simp [Event.recv?], ?_, .refl _, by simp [Event.isStream, via], by simp⟩
    rw [h]
    rfl
  | returned h hr =>
    rw [hr] at hopen
    cases hopen
  | @read r recv pkt hr hpkt =>
    refine ⟨[], 0, by simp [Event.recv?], by simp [Event.datagram?, via], ?_, ?_, by simp⟩
    · rw [waiting_insert, Event.packet?, hpkt]
      exact (waiting_of_get hr).append_left _
    · rw [Table.len_insert_of_get hr]
      simp [Event.isStream, via]
  | discarded hr hpkt =>
    refine ⟨[], 1, by simp [Event.recv?, inc_udp_drops_down, finish_reader],
      by simp [Event.datagram?, via, inc_udp_drops_down, finish_reader], ?_, ?_, rfl⟩
    · rw [Event.packet?, hpkt]
      exact waiting_of_get hr
    · rw [Table.len_of_get hr]
      simp [Event.isStream, via, finish_reader, inc_udp_drops_down, Nat.add_comm]
  | @reader_sent r pkt hr _ hlen =>
    refine ⟨[(.stream, pkt)], 0, by simp [Event.recv?, finish_reader], by simp [Event.datagram?, via, finish_reader],
      waiting_of_get hr, ?_, by simp [finish_reader]⟩
    rw [Table.len_of_get hr]
    simp [Event.isStream, via, finish_reader]
  | reader_gone hr hclosed =>
    rw [finish_reader, hclosed] at hopen
    cases hopen
  | recv hr hch =>
    refine ⟨[], 0, ?_, by simp [Event.datagram?, via], .refl _, by simp [Event.isStream, via], by simp⟩
    rw [hch]
    simp [Event.recv?]
  | drop_receiver => cases hopen

/-- The main loop does not come back. -/
theorem Move.receiver (hm : Move s e s') (hopen : s'.receiver = true) : s.receiver = true := by
  cases hm <;> first | exact hopen | assumption

theorem accounts (h : Run (start_udp mode) step tr s) (hopen : s.receiver = true) :
    ∃ log drops, Accounts tr s log drops := by
  induction h with
  | nil => exact ⟨[], 0, rfl, rfl, .refl _, rfl, rfl⟩
  | snoc _ hn ih =>
    have hm := step_move hn
    obtain ⟨log, drops, hacc⟩ := ih (hm.receiver hopen)
    obtain ⟨log', drops', hcons⟩ := hm.conserves hopen
    exact ⟨_, _, hacc.snoc hcons⟩

theorem read_uni_packet_eq_some {recv : RecvStream} {pkt : Bytes} (h : read_uni_packet recv = some pkt) :
    recv.finished = true ∧ recv.data = pkt ∧ pkt ≠ [] ∧ pkt.length ≤ MAX_TUIC_PACKET_BYTES := by
  unfold read_uni_packet RecvStream.read_to_end at h
  split at h
  · rename_i buf hbuf
    simp only [Option.ite_none_right_eq_some, Option.some.injEq] at h hbuf
    obtain ⟨⟨hfin, hlen⟩, rfl⟩ := hbuf
    obtain ⟨hne, rfl⟩ := h
    exact ⟨hfin, rfl, by simpa using hne, hlen⟩
  · cases h

/-- Over every run, reconnects included: at most 256 streams are read at a time
and at most 1024 packets are in the channel; a packet of a stream is the whole
stream; and while the main loop is there nothing is lost but the streams that the
counter counts. -/
theorem downlink_exact (h : Run (start_udp mode) step tr s) :
    s.permits + s.readers.len = MAX_CONCURRENT_DOWNLINK_STREAMS ∧ s.channel.length ≤ TUIC_DOWNLINK_CAPACITY ∧
    (s.task = .returned → s.receiver = false) ∧
    (∀ pkt ∈ packets tr, pkt ≠ [] ∧ pkt.length ≤ MAX_TUIC_PACKET_BYTES ∧
      ∃ t ∈ tr, ∃ r recv, t.ev = .read r recv ∧ recv.finished = true ∧ recv.data = pkt) ∧
    (s.receiver = true → ∃ log drops, Accounts tr s log drops) := by
  obtain ⟨hpermits, hchannel, hreturned⟩ := bounded h
  refine ⟨hpermits, hchannel, hreturned, fun pkt hpkt => ?_, accounts h⟩
  obtain ⟨t, htr, ht⟩ := List.mem_filterMap.1 hpkt
  cases hev : t.ev with
  | read r recv =>
    rw [hev] at ht
    obtain ⟨hfin, hdata, hne, hlen⟩ := read_uni_packet_eq_some ht
    exact ⟨hne, hlen, t, htr, r, recv, hev, hfin, hdata⟩
  | _ =>
    rw [hev] at ht
    cases ht

end

/-- A stream and a datagram cross: the datagram comes second and is received
first. A second stream is empty. -/
def sampleEvents : List Event :=
  [.live_conn true, .accept_uni 0, .read 0 ⟨[5, 6], true⟩, .read_datagram [7], .sent, .reader_sent 0, .accept_uni 1,
    .read 1 ⟨[], true⟩, .recv [7]]

theorem downlink_exact_sample : ∃ tr s, Run (start_udp .Native) step tr s ∧
    s.permits + s.readers.len = 256 ∧ s.udp_drops_down = 1 ∧
    ∃ log drops, Accounts tr s log drops ∧ log.map (·.2) = [[7], [5, 6]] := by
  obtain ⟨tr, s, hrun, hp⟩ := @exists_trace_of_any _ _ (start_udp .Native) step
    (fun x => received x.1 == [[7]] && x.2.channel == [[5, 6]] && x.2.udp_drops_down == 1 && x.2.receiver)
    sampleEvents (by decide +kernel)
  simp only [Bool.and_eq_true, beq_iff_eq] at hp
  obtain ⟨⟨⟨hreceived, hchannel⟩, hdrops⟩, hopen⟩ := hp
  obtain ⟨hpermits, -, -, -, haccounts⟩ := downlink_exact hrun
  obtain ⟨log, drops, hacc⟩ := haccounts hopen
  refine ⟨tr, s, hrun, hpermits, hdrops, log, drops, hacc, ?_⟩
  rw [← hacc.received, hreceived, hchannel]
  rfl

section
variable {mode : UdpRelayMode} {tr : Trace} {s s' : UdpPump} {e : Event}

/-! ## Sleeping -/

/-- Doubling from 500 ms up to 30 s, for every attempt: neither the shift nor the
product overflows below the cap. -/
theorem udp_reconnect_backoff_eq (attempt : UInt32) :
    udp_reconnect_backoff attempt = min (UDP_RECONNECT_BASE_MS * 2 ^ attempt.toNat) UDP_RECONNECT_CAP_MS := by
  unfold udp_reconnect_backoff checked_shl_one
  simp only [UDP_RECONNECT_BASE_MS, UDP_RECONNECT_CAP_MS]
  split
  · rw [Option.getD_some]
    omega
  · rename_i hge
    have h64 : 64 ≤ attempt.toNat := by
      rw [UInt32.lt_iff_toNat_lt] at hge
      exact Nat.le_of_not_lt hge
    have hpow : 2 ^ 64 ≤ 2 ^ attempt.toNat := Nat.pow_le_pow_right (by decide) h64
    rw [Option.getD_none]
    omega

theorem toNat_saturating_succ (n : UInt32) : (saturating_succ n).toNat = min (n.toNat + 1) (2 ^ 32 - 1) := by
  unfold saturating_succ
  have hlt := n.toNat_lt
  split
  · rename_i h
    rw [h]
    decide
  · rename_i h
    have hne : n.toNat ≠ 2 ^ 32 - 1 := fun heq => h (UInt32.toNat_inj.1 heq)
    rw [UInt32.toNat_add]
    show (n.toNat + 1) % 2 ^ 32 = _
    omega

/-- A failure of `live_conn` is a setback. A connection that comes up makes the
earlier ones forgotten, and stands for its own loss. -/
def Event.setbacks (n : Nat) : Event → Nat
  | .live_conn true => 1
  | .live_conn false => n + 1
  | _ => n

def setbacks (tr : Trace) : Nat := tr.foldl (fun n t => t.ev.setbacks n) 0

/-- `attempt` after `n` setbacks: the sleep comes before it is raised. -/
def Scheduled (s : UdpPump) (n : Nat) : Prop :=
  match s.task with
  | .live_conn => s.attempt.toNat = min n (2 ^ 32 - 1)
  | .sleep => 0 < n ∧ s.attempt.toNat = min (n - 1) (2 ^ 32 - 1)
  | .select => s.attempt = 0 ∧ n = 1
  | .send _ => s.attempt = 0 ∧ n = 1
  | .returned => True

theorem scheduled_sleep (h : s.attempt = 0) {n : Nat} (hn : n = 1) (s' : UdpPump) (htask : s'.task = .sleep)
    (hattempt : s'.attempt = s.attempt) : Scheduled s' n := by
  rw [Scheduled, htask, hattempt, h, hn]
  decide

theorem Scheduled.move {n : Nat} (h : Scheduled s n) (hm : Move s e s') : Scheduled s' (e.setbacks n) := by
  cases hm with
  | send_udp | stats_tick | refused | accepted | read | discarded | reader_sent | reader_gone | recv | drop_receiver =>
    exact h
  | up htask => exact ⟨rfl, rfl⟩
  | failed htask =>
    rw [Scheduled, htask] at h
    exact ⟨Nat.succ_pos n, h⟩
  | wake htask =>
    rw [Scheduled, htask] at h
    show (saturating_succ s.attempt).toNat = min n (2 ^ 32 - 1)
    rw [toNat_saturating_succ]
    omega
  | read_datagram htask =>
    rw [Scheduled, htask] at h
    exact h
  | lost htask =>
    rw [Scheduled, htask] at h
    exact scheduled_sleep h.1 h.2 _ rfl rfl
  | @hb_tick now conn htask hclock =>
    rw [Scheduled, htask] at h
    by_cases hbreak : (s.me.on_hb_tick now conn).2 = true
    · exact scheduled_sleep h.1 h.2 _ (if_pos hbreak) rfl
    · rw [Scheduled]
      simp only [hbreak]
      exact h
  | sent htask =>
    rw [Scheduled, htask] at h
    exact h
  | returned => trivial

theorem scheduled (h : Run (start_udp mode) step tr s) : Scheduled s (setbacks tr) := by
  induction h with
  | nil => rfl
  | snoc _ hn ih =>
    rw [setbacks, List.foldl_append]
    exact ih.move (step_move hn)

/-- Before every attempt to reconnect the task sleeps for 500 ms, doubled for
each setback since the last connection, or since the start, but the first. -/
theorem sleep_exact (h : Run (start_udp mode) step tr s) (hsleep : s.task = .sleep) :
    0 < setbacks tr ∧ udp_reconnect_backoff s.attempt =
      min (UDP_RECONNECT_BASE_MS * 2 ^ (setbacks tr - 1)) UDP_RECONNECT_CAP_MS := by
  have hs := scheduled h
  rw [Scheduled, hsleep] at hs
  obtain ⟨hpos, hattempt⟩ := hs
  refine ⟨hpos, ?_⟩
  rw [udp_reconnect_backoff_eq, hattempt]
  rcases Nat.le_total (setbacks tr - 1) (2 ^ 32 - 1) with hle | hle
  · rw [Nat.min_eq_left hle]
  · -- The counter has stopped, far above the cap.
    have hcap (n : Nat) (hn : 6 ≤ n) : min (UDP_RECONNECT_BASE_MS * 2 ^ n) UDP_RECONNECT_CAP_MS = UDP_RECONNECT_CAP_MS := by
      have hpow : 2 ^ 6 ≤ 2 ^ n := Nat.pow_le_pow_right (by decide) hn
      simp only [UDP_RECONNECT_BASE_MS, UDP_RECONNECT_CAP_MS]
      omega
    rw [Nat.min_eq_right hle, hcap _ (by decide), hcap _ (by omega)]

end

/-- Two failures, a connection that is lost, and a third failure. -/
def setbackEvents : List Event :=
  [.live_conn false, .wake, .live_conn false, .wake, .live_conn true, .conn_lost, .wake, .live_conn false]

theorem sleep_exact_sample : ∃ tr s, Run (start_udp .Quic) step tr s ∧ s.task = .sleep ∧
    udp_reconnect_backoff s.attempt = 1000 := by
  obtain ⟨tr, s, hrun, hp⟩ := @exists_trace_of_any _ _ (start_udp .Quic) step
    (fun x => x.2.task == .sleep && setbacks x.1 == 2) setbackEvents (by decide +kernel)
  simp only [Bool.and_eq_true, beq_iff_eq] at hp
  obtain ⟨htask, hset⟩ := hp
  obtain ⟨-, heq⟩ := sleep_exact hrun htask
  exact ⟨tr, s, hrun, htask, by rw [heq, hset]; rfl⟩

section
variable {mode : UdpRelayMode} {tr : Trace} {s s' : UdpPump} {e : Event}

/-! ## The heartbeat of the whole task -/

/-- What the heartbeat needs of the task. -/
def driver (s : UdpPump) : UdpDriver :=
  { me := s.me, pumping := s.task.pumping, prev_pressured := s.prev_pressured, clock := s.clock }

def Event.send_time : Event → Option Nat
  | .send_udp now _ _ => some now
  | _ => none

def send_times (tr : Trace) : List Nat := tr.filterMap fun t => t.ev.send_time

/-- A step of the task is one of the driver, with the same call of `send_udp` in
it, or the driver does not see it. -/
theorem Move.driver (hm : Move s e s') : (s'.driver = s.driver ∧ e.send_time = none) ∨
    ∃ e' : UdpDriver.Event, s.driver.step e' = some s'.driver ∧ e'.send_time = e.send_time := by
  cases hm with
  | refused | accepted | read | discarded | reader_sent | reader_gone | recv | drop_receiver => exact .inl ⟨rfl, rfl⟩
  | wake h | read_datagram h | sent h =>
    refine .inl ⟨?_, rfl⟩
    rw [UdpPump.driver, UdpPump.driver, h]
    rfl
  | @send_udp now current_conn datagram hclock => exact .inr ⟨.send_udp now current_conn datagram, if_pos hclock, rfl⟩
  | up h =>
    refine .inr ⟨.live_conn true, ?_, rfl⟩
    rw [UdpPump.driver, UdpPump.driver, h]
    rfl
  | failed h =>
    refine .inr ⟨.live_conn false, ?_, rfl⟩
    rw [UdpPump.driver, UdpPump.driver, h]
    rfl
  | lost h | returned h =>
    refine .inr ⟨.conn_lost, ?_, rfl⟩
    rw [UdpPump.driver, UdpPump.driver, h]
    rfl
  | @stats_tick now conn h hclock =>
    refine .inr ⟨.stats_tick now conn, ?_, rfl⟩
    have hpump : s.driver.pumping = true ∧ s.driver.clock ≤ now := ⟨by rw [UdpPump.driver, h]; rfl, hclock⟩
    exact if_pos hpump
  | @hb_tick now conn h hclock =>
    refine .inr ⟨.hb_tick now conn, ?_, rfl⟩
    have hpump : s.driver.pumping = true ∧ s.driver.clock ≤ now := ⟨by rw [UdpPump.driver, h]; rfl, hclock⟩
    refine (if_pos hpump).trans (congrArg some ?_)
    simp only [UdpPump.driver]
    cases (s.me.on_hb_tick now conn).2 <;> rfl

/-- Every run of the task is one of the driver. -/
theorem refines_driver (h : Run (start_udp mode) step tr s) :
    ∃ tr', Run (UdpDriver.start_udp mode) UdpDriver.step tr' s.driver ∧ UdpDriver.send_times tr' = send_times tr := by
  induction h with
  | nil => exact ⟨[], .nil, rfl⟩
  | @snoc tr s s' e _ hn ih =>
    obtain ⟨tr', hrun, htimes⟩ := ih
    have hsnoc : send_times (tr ++ [⟨s, e, s'⟩]) = send_times tr ++ e.send_time.toList := by
      rw [send_times, List.filterMap_append]
      cases he : e.send_time <;> simp [send_times, he]
    rcases (step_move hn).driver with ⟨heq, hnone⟩ | ⟨e', hstep, hsend⟩
    · rw [heq, hsnoc, hnone]
      exact ⟨tr', hrun, htimes.trans (List.append_nil _).symm⟩
    · refine ⟨_, .snoc hrun hstep, ?_⟩
      rw [UdpDriver.send_times_snoc, hsnoc, htimes, hsend]

/-- Whatever else the task does, a tick sends a heartbeat if and only if a call
of `send_udp` lies in the window, the calls of the first second apart. -/
theorem heartbeat_exact {now : Nat} {conn : Connection} (h : Run (start_udp mode) step tr s)
    (htick : s.step (.hb_tick now conn) = some s') :
    (∀ time ∈ send_times tr, time ≤ now) ∧
    ((s.me.on_hb_tick now conn).1 = some encode_heartbeat ↔
      ∃ time ∈ send_times tr, time ≠ 0 ∧ now - time ≤ TUIC_HB_IDLE_WINDOW_SECS) := by
  obtain ⟨tr', hrun, htimes⟩ := refines_driver h
  have hlatest := UdpDriver.latest_of_run hrun
  rw [htimes] at hlatest
  have hclock : s.clock ≤ now := by
    cases step_move htick with
    | hb_tick _ hclock => exact hclock
  refine ⟨fun time htime => (hlatest.le time htime).trans (hlatest.clock.trans hclock), ?_⟩
  rw [UdpDriver.on_hb_tick_eq_some_iff]
  constructor
  · rintro ⟨hne, hwin⟩
    exact ⟨_, hlatest.mem fun hnil => hne (hlatest.never hnil), hne, hwin⟩
  · rintro ⟨time, htime, hne, hwin⟩
    have hle : time ≤ s.me.last_udp_activity := hlatest.le time htime
    exact ⟨by omega, by omega⟩

end

/-- A packet is sent while the task waits for room in the channel. -/
def heartbeatEvents : List Event := [.live_conn true, .read_datagram [1], .send_udp 5 none [9], .sent]

theorem heartbeat_exact_sample : ∃ tr s, Run (start_udp .Native) step tr s ∧ send_times tr = [5] ∧
    (s.me.on_hb_tick 65 UdpDriver.open_connection).1 = some encode_heartbeat := by
  obtain ⟨tr, s, hrun, hp⟩ := @exists_trace_of_any _ _ (start_udp .Native) step
    (fun x => send_times x.1 == [5] && (x.2.step (.hb_tick 65 UdpDriver.open_connection)).isSome)
    heartbeatEvents (by decide +kernel)
  simp only [Bool.and_eq_true, beq_iff_eq, Option.isSome_iff_exists] at hp
  obtain ⟨htimes, s', htick⟩ := hp
  refine ⟨tr, s, hrun, htimes, (heartbeat_exact hrun htick).2.2 ⟨5, ?_, by decide, by decide⟩⟩
  rw [htimes]
  exact List.mem_singleton_self 5

end UdpPump

end MiniVpn
