import MiniVpn.Packets
import MiniVpn.Lib.Runs
/-!
# Sending UDP and the heartbeat

`TuicUpstream::send_udp` and the task of `start_udp`, two tasks that share
`last_udp_activity`: the one stores the second in which it was called, the other
reads it every few seconds and sends a heartbeat while it is recent. Zero stands
for "never", and it is also the first second of the clock.
-/
open Lib

namespace MiniVpn

def CMD_HEARTBEAT : UInt8 := 0x04
def TUIC_HB_IDLE_WINDOW_SECS : Nat := 60
def QUIC_INITIAL_MTU : Nat := 1280

def encode_heartbeat : Bytes := [TUIC_VER, CMD_HEARTBEAT]

inductive UdpSend where
  | Datagram
  | Stream
deriving DecidableEq, Repr

inductive UdpRelayMode where
  | Native
  | Quic
deriving DecidableEq, Repr

def udp_send_plan (mode : UdpRelayMode) (max_datagram : Option Nat) (len : Nat) : UdpSend :=
  match mode with
  | .Quic => .Stream
  | .Native =>
    match max_datagram with
    | some max => if len ≤ max then .Datagram else .Stream
    | none => .Stream

def is_datagram_pressured (send_buffer_space mtu : Nat) : Bool := send_buffer_space < mtu

/-- The rising edge, and the new value of `prev`. -/
def note_pressure_edge (pressured prev : Bool) : Bool × Bool := (pressured && !prev, pressured)

def should_send_heartbeat (last_activity now idle_window : Nat) : Bool :=
  last_activity != 0 && now - last_activity ≤ idle_window

/-- `quinn::SendDatagramError`. -/
inductive SendDatagramError where
  | UnsupportedByPeer
  | Disabled
  | TooLarge
  | ConnectionLost
deriving DecidableEq, Repr

/-- What the calls on a live connection return, if they are made now. -/
structure Connection where
  max_datagram_size : Option Nat
  send_datagram : Except SendDatagramError Unit
  write_uni_packet : Except String Unit
  datagram_send_buffer_space : Nat

/-- The fields of `TuicUpstream` that `send_udp` and the UDP task use. -/
structure TuicUpstream where
  udp_relay_mode : UdpRelayMode
  udp_drops : UInt64
  udp_stream_fallbacks : UInt64
  last_udp_activity : Nat
  datagram_pressure_events : UInt64
deriving DecidableEq, Repr

namespace TuicUpstream

def new (udp_relay_mode : UdpRelayMode) : TuicUpstream := {
  udp_relay_mode := udp_relay_mode
  udp_drops := 0
  udp_stream_fallbacks := 0
  last_udp_activity := 0
  datagram_pressure_events := 0 }

def send_udp_via_stream (me : TuicUpstream) (conn : Connection) : TuicUpstream :=
  match conn.write_uni_packet with
  | .ok _ => me
  | .error _ => { me with udp_drops := me.udp_drops + 1 }

/-- `send_udp` at the second `now`, with what `current_conn` returns. The stream
may take its time; all that happens then is a count. -/
def send_udp (me : TuicUpstream) (now : Nat) (current_conn : Option Connection) (datagram : Bytes) : TuicUpstream :=
  let me := { me with last_udp_activity := now }
  match current_conn with
  | none => { me with udp_drops := me.udp_drops + 1 }
  | some conn =>
    match udp_send_plan me.udp_relay_mode conn.max_datagram_size datagram.length with
    | .Datagram =>
      match conn.send_datagram with
      | .ok _ => me
      | .error .TooLarge =>
        let me := { me with udp_stream_fallbacks := me.udp_stream_fallbacks + 1 }
        me.send_udp_via_stream conn
      | .error _ => { me with udp_drops := me.udp_drops + 1 }
    | .Stream =>
      let me := if me.udp_relay_mode = .Native then { me with udp_stream_fallbacks := me.udp_stream_fallbacks + 1 } else me
      me.send_udp_via_stream conn

/-- The heartbeat tick: what is handed to the connection, and whether the inner
loop is left. -/
def on_hb_tick (me : TuicUpstream) (now : Nat) (conn : Connection) : Option Bytes × Bool :=
  let last := me.last_udp_activity
  if should_send_heartbeat last now TUIC_HB_IDLE_WINDOW_SECS then
    match conn.send_datagram with
    | .ok _ => (some encode_heartbeat, false)
    | .error _ => (some encode_heartbeat, true)
  else (none, false)

/-- The statistics tick: whether a line is printed, with the latch of the task. -/
def on_stats_tick (me : TuicUpstream) (now : Nat) (conn : Connection) (prev_pressured : Bool) :
    Bool × Bool × TuicUpstream :=
  let fb := me.udp_stream_fallbacks
  let drops := me.udp_drops
  let last := me.last_udp_activity
  let udp_active := should_send_heartbeat last now TUIC_HB_IDLE_WINDOW_SECS
  let pressured := me.udp_relay_mode == .Native &&
    is_datagram_pressured conn.datagram_send_buffer_space (conn.max_datagram_size.getD QUIC_INITIAL_MTU)
  let (rising, prev_pressured) := note_pressure_edge pressured prev_pressured
  let me := if rising then { me with datagram_pressure_events := me.datagram_pressure_events + 1 } else me
  (udp_active || fb > 0 || drops > 0, prev_pressured, me)

end TuicUpstream

/-- The task of `start_udp` with the state it shares with `send_udp`, and the
time of the last event. -/
structure UdpDriver where
  me : TuicUpstream
  /-- The inner loop runs, on a connection. -/
  pumping : Bool
  prev_pressured : Bool
  clock : Nat
deriving DecidableEq, Repr

namespace UdpDriver

def start_udp (mode : UdpRelayMode) : UdpDriver :=
  { me := .new mode, pumping := false, prev_pressured := false, clock := 0 }

/-- A call of `send_udp`, or what the task has waited for: the result of
`live_conn`, an error on the downlink, or a tick. -/
inductive Event where
  | send_udp (now : Nat) (current_conn : Option Connection) (datagram : Bytes)
  | live_conn (ok : Bool)
  | conn_lost
  | stats_tick (now : Nat) (conn : Connection)
  | hb_tick (now : Nat) (conn : Connection)

/-- `none` when the event is not possible. The clock never goes back. -/
def step (d : UdpDriver) : Event → Option UdpDriver
  | .send_udp now current_conn datagram =>
    if d.clock ≤ now then some { d with me := d.me.send_udp now current_conn datagram, clock := now } else none
  | .live_conn ok => if d.pumping then none else some { d with pumping := ok, prev_pressured := false }
  | .conn_lost => if d.pumping then some { d with pumping := false } else none
  | .stats_tick now conn =>
    if d.pumping ∧ d.clock ≤ now then
      let (_, prev_pressured, me) := d.me.on_stats_tick now conn d.prev_pressured
      some { d with me := me, prev_pressured := prev_pressured, clock := now }
    else none
  | .hb_tick now conn =>
    if d.pumping ∧ d.clock ≤ now then some { d with pumping := !(d.me.on_hb_tick now conn).2, clock := now } else none

abbrev Trace := List (Taken UdpDriver Event)

/-! ## The last activity -/

/-- When `send_udp` was called, if this is a call. -/
def Event.send_time : Event → Option Nat
  | .send_udp now _ _ => some now
  | _ => none

/-- The seconds of all calls of `send_udp`. -/
def send_times (tr : Trace) : List Nat := tr.filterMap fun t => t.ev.send_time

/-- `last` is the last of `times`, none of which lies in the future of `clock`. -/
structure Latest (times : List Nat) (last clock : Nat) : Prop where
  never : times = [] → last = 0
  mem : times ≠ [] → last ∈ times
  le : ∀ t ∈ times, t ≤ last
  clock : last ≤ clock

theorem Latest.wait {times : List Nat} {last clock now : Nat} (h : Latest times last clock) (hnow : clock ≤ now) :
    Latest times last now :=
  ⟨h.never, h.mem, h.le, h.clock.trans hnow⟩

/-- A call comes no earlier than those before it. -/
theorem Latest.snoc {times : List Nat} {last clock now : Nat} (h : Latest times last clock) (hnow : clock ≤ now) :
    Latest (times ++ [now]) now now := by
  refine ⟨by simp, by simp, fun t ht => ?_, le_rfl⟩
  rcases List.mem_append.1 ht with ht | ht
  · have hlast := h.le t ht
    have hclock := h.clock
    omega
  · exact (List.mem_singleton.1 ht).le

/-- The last call is in the window if any is. -/
theorem Latest.exists_recent_iff {times : List Nat} {last clock : Nat} (h : Latest times last clock) (now window : Nat) :
    (∃ t ∈ times, now - t ≤ window) ↔ times ≠ [] ∧ now - last ≤ window := by
  constructor
  · rintro ⟨t, ht, hwin⟩
    have hle := h.le t ht
    exact ⟨List.ne_nil_of_mem ht, by omega⟩
  · rintro ⟨hne, hwin⟩
    exact ⟨last, h.mem hne, hwin⟩

/-- Whatever becomes of the packet, the call leaves its time. -/
theorem last_udp_activity_send_udp (me : TuicUpstream) (now : Nat) (current_conn : Option Connection) (datagram : Bytes) :
    (me.send_udp now current_conn datagram).last_udp_activity = now := by
  have hstream : ∀ (me : TuicUpstream) (conn : Connection),
      (me.send_udp_via_stream conn).last_udp_activity = me.last_udp_activity := by
    intro me conn
    unfold TuicUpstream.send_udp_via_stream
    split <;> rfl
  unfold TuicUpstream.send_udp
  simp only
  split
  · rfl
  · split
    · split
      · rfl
      · rw [hstream]
      · rfl
    · rw [hstream]
      split <;> rfl

theorem last_udp_activity_on_stats_tick (me : TuicUpstream) (now : Nat) (conn : Connection) (prev : Bool) :
    (me.on_stats_tick now conn prev).2.2.last_udp_activity = me.last_udp_activity := by
  unfold TuicUpstream.on_stats_tick
  simp only
  split <;> rfl

/-- What a step does to the shared time and the clock. -/
theorem step_activity {d d' : UdpDriver} {e : Event} (h : d.step e = some d') : d.clock ≤ d'.clock ∧
    (∀ now, e.send_time = some now → d'.me.last_udp_activity = now ∧ d'.clock = now) ∧
    (e.send_time = none → d'.me.last_udp_activity = d.me.last_udp_activity) := by
  cases e with
  | send_udp now current_conn datagram =>
    simp only [step, Option.ite_none_right_eq_some, Option.some.injEq] at h
    obtain ⟨hclock, rfl⟩ := h
    refine ⟨hclock, fun t ht => ?_, fun hnone => (by cases hnone)⟩
    obtain rfl := Option.some.inj ht
    exact ⟨last_udp_activity_send_udp .., rfl⟩
  | live_conn ok =>
    simp only [step, Option.ite_none_left_eq_some, Option.some.injEq] at h
    obtain ⟨-, rfl⟩ := h
    exact ⟨le_rfl, fun t ht => (by cases ht), fun _ => rfl⟩
  | conn_lost =>
    simp only [step, Option.ite_none_right_eq_some, Option.some.injEq] at h
    obtain ⟨-, rfl⟩ := h
    exact ⟨le_rfl, fun t ht => (by cases ht), fun _ => rfl⟩
  | stats_tick now conn =>
    simp only [step, Option.ite_none_right_eq_some, Option.some.injEq] at h
    obtain ⟨⟨-, hclock⟩, rfl⟩ := h
    exact ⟨hclock, fun t ht => (by cases ht), fun _ => last_udp_activity_on_stats_tick d.me now conn d.prev_pressured⟩
  | hb_tick now conn =>
    simp only [step, Option.ite_none_right_eq_some, Option.some.injEq] at h
    obtain ⟨⟨-, hclock⟩, rfl⟩ := h
    exact ⟨hclock, fun t ht => (by cases ht), fun _ => rfl⟩

theorem send_times_snoc (tr : Trace) (t : Taken UdpDriver Event) :
    send_times (tr ++ [t]) = send_times tr ++ t.ev.send_time.toList := by
  rw [send_times, List.filterMap_append]
  cases h : t.ev.send_time <;> simp [send_times, h]

/-- The shared number is the time of the last call, over every run. -/
theorem latest_of_run {mode : UdpRelayMode} {tr : Trace} {d : UdpDriver} (h : Run (start_udp mode) step tr d) :
    Latest (send_times tr) d.me.last_udp_activity d.clock := by
  induction h with
  | nil => exact ⟨fun _ => rfl, fun hne => absurd rfl hne, by simp [send_times], le_rfl⟩
  | @snoc tr d d' e hr hn ih =>
    obtain ⟨hclock, hsend, hother⟩ := step_activity hn
    rw [send_times_snoc]
    cases htime : e.send_time with
    | some now =>
      obtain ⟨hlast, heq⟩ := hsend now htime
      rw [heq] at hclock
      rw [hlast, heq]
      exact ih.snoc hclock
    | none =>
      rw [hother htime]
      exact (List.append_nil (send_times tr)).symm ▸ ih.wait hclock

/-! ## The heartbeat -/

/-- A tick sends a heartbeat when the number is recent and not zero. -/
theorem on_hb_tick_eq_some_iff (me : TuicUpstream) (now : Nat) (conn : Connection) :
    (me.on_hb_tick now conn).1 = some encode_heartbeat ↔
      me.last_udp_activity ≠ 0 ∧ now - me.last_udp_activity ≤ TUIC_HB_IDLE_WINDOW_SECS := by
  have hdue : should_send_heartbeat me.last_udp_activity now TUIC_HB_IDLE_WINDOW_SECS = true ↔
      me.last_udp_activity ≠ 0 ∧ now - me.last_udp_activity ≤ TUIC_HB_IDLE_WINDOW_SECS := by
    simp [should_send_heartbeat]
  rw [← hdue]
  unfold TuicUpstream.on_hb_tick
  simp only
  split
  · rename_i hsend
    split <;> simp [hsend]
  · rename_i hsend
    simp [hsend]

/-- The task once its connection is up. -/
def connected : UdpDriver := { start_udp .Native with pumping := true }

/-- The same after a packet in second `time`. -/
def after_packet (conn : Connection) (time : Nat) : UdpDriver :=
  { connected with me := connected.me.send_udp time (some conn) [1, 2, 3], clock := time }

/-- The connection comes up, and a packet is sent in second `time`. -/
def one_packet (conn : Connection) (time : Nat) : Trace :=
  [⟨start_udp .Native, .live_conn true, connected⟩,
    ⟨connected, .send_udp time (some conn) [1, 2, 3], after_packet conn time⟩]

/-- A heartbeat tick behind it. -/
def packet_tick (conn : Connection) (time now : Nat) : Taken UdpDriver Event :=
  ⟨after_packet conn time, .hb_tick now conn, { after_packet conn time with
    pumping := !((after_packet conn time).me.on_hb_tick now conn).2, clock := now }⟩

theorem run_packet_tick (conn : Connection) {time now : Nat} (h : time ≤ now) :
    Run (start_udp .Native) step (one_packet conn time ++ [packet_tick conn time now]) (packet_tick conn time now).post := by
  have hup : Run (start_udp .Native) step [⟨start_udp .Native, .live_conn true, connected⟩] connected := .snoc .nil rfl
  have hsend : connected.step (.send_udp time (some conn) [1, 2, 3]) = some (after_packet conn time) := by
    simp [step, after_packet, connected, start_udp]
  have htick : (after_packet conn time).step (.hb_tick now conn) = some (packet_tick conn time now).post :=
    if_pos ⟨rfl, h⟩
  exact .snoc (.snoc hup hsend) htick

/-- The only calls a tick misses are those of the first second: it sends a
heartbeat if and only if some call lies in the window, except when there were
calls, all of them in second 0, and the window still reaches back to it. -/
theorem hb_tick_follows_activity_iff {mode : UdpRelayMode} {tr : Trace} {t : Taken UdpDriver Event} {now : Nat}
    {conn : Connection} (h : Run (start_udp mode) step (tr ++ [t]) t.post) (ht : t.ev = .hb_tick now conn) :
    (∀ time ∈ send_times tr, time ≤ now) ∧
    (((t.pre.me.on_hb_tick now conn).1 = some encode_heartbeat ↔
        ∃ time ∈ send_times tr, now - time ≤ TUIC_HB_IDLE_WINDOW_SECS) ↔
      ¬ (send_times tr ≠ [] ∧ (∀ time ∈ send_times tr, time = 0) ∧ now ≤ TUIC_HB_IDLE_WINDOW_SECS)) := by
  obtain ⟨hrun, hstep, -⟩ := h.last
  have hlatest := latest_of_run hrun
  have hclock : t.pre.clock ≤ now := by
    rw [ht, step, Option.ite_none_right_eq_some] at hstep
    exact hstep.1.2
  refine ⟨fun time htime => (hlatest.le time htime).trans (hlatest.clock.trans hclock), ?_⟩
  rw [on_hb_tick_eq_some_iff, hlatest.exists_recent_iff]
  by_cases hne : send_times tr = []
  · simp [hne, hlatest.never hne]
  by_cases hzero : t.pre.me.last_udp_activity = 0
  · have hall : ∀ time ∈ send_times tr, time = 0 := by
      intro time htime
      have hle := hlatest.le time htime
      omega
    simp only [hzero, ne_eq, not_true, false_and, Nat.sub_zero, false_iff, hne, not_false_eq_true, true_and, not_le]
    exact ⟨fun hgt hle => absurd hle.2 (not_le.2 hgt), fun hnot => not_le.1 fun hle => hnot ⟨hall, hle⟩⟩
  · have hsome : ¬ ∀ time ∈ send_times tr, time = 0 := fun hall => hzero (hall _ (hlatest.mem hne))
    simp [hne, hzero, hsome]

/-- A live connection with room for everything. -/
def open_connection : Connection :=
  { max_datagram_size := some 1200, send_datagram := .ok (), write_uni_packet := .ok (), datagram_send_buffer_space := 4096 }

/-- A packet in second 5 keeps the heartbeat going until second 65. -/
theorem hb_tick_follows_second_five :
    ((packet_tick open_connection 5 65).pre.me.on_hb_tick 65 open_connection).1 = some encode_heartbeat ↔
      ∃ time ∈ send_times (one_packet open_connection 5), 65 - time ≤ TUIC_HB_IDLE_WINDOW_SECS :=
  (hb_tick_follows_activity_iff (run_packet_tick open_connection (by decide)) rfl).2.2 (by decide)

/-- A packet in the first second lies in the window of a tick two seconds later,
and the tick sends nothing. -/
theorem hb_tick_misses_first_second :
    Run (start_udp .Native) step (one_packet open_connection 0 ++ [packet_tick open_connection 0 2])
      (packet_tick open_connection 0 2).post ∧
    (∃ time ∈ send_times (one_packet open_connection 0), 2 - time ≤ TUIC_HB_IDLE_WINDOW_SECS) ∧
    ((packet_tick open_connection 0 2).pre.me.on_hb_tick 2 open_connection).1 = none :=
  ⟨run_packet_tick open_connection (by decide), ⟨0, by decide, by decide⟩, by decide⟩

end UdpDriver
end MiniVpn
