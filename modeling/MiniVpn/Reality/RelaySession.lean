import MiniVpn.Backpressure
import MiniVpn.Reality.Session
/-!
# A relayed session

`run_relay` over the stream that `open_tcp` returns: the awaits of the task become
polls of the stream, and the stream is polled by nothing else. With a conforming
server the app and the server read each other, whatever the order of the polls and of
what the main loop does.
-/
open Lib

namespace MiniVpn

/-- What the task holds for the global channel. -/
def RelayPc.reading : RelayPc → Bytes
  | .send_back data => data
  | _ => []

theorem RelayPc.reading_afterWrite (rest : Bytes) : (afterWrite rest).reading = [] := by
  cases rest <;> rfl

namespace Reality

/-- A relay task and its stream. -/
structure Relayed where
  relay : RelayTask
  stream : RealityStream
  /-- Some slot still holds the sender of the uplink channel. -/
  tx_alive : Bool
  /-- What the task has put on the global channel. -/
  sent_back : List Bytes

namespace Relayed

inductive Event where
  /-- The main loop puts a payload on the uplink channel. -/
  | feed (payload : Bytes)
  /-- The main loop drops its sender. -/
  | hang_up
  | recv
  | local_closed
  | idle
  /-- The global channel takes what the task waits with. -/
  | sent
  | poll_read
  | poll_write
  | poll_shutdown (inner : Poll Unit)
deriving DecidableEq

def Event.fed : Event → Bytes
  | .feed payload => payload
  | _ => []

def spawn (handle : SocketHandle) (target : TargetAddr) (rx : List Bytes) (gen : Nat) (stream : RealityStream) : Relayed :=
  { relay := .new handle target rx gen, stream := stream, tx_alive := true, sent_back := [] }

/-- The task takes a step, and the stream is left as `stream`. -/
def advance (s : Relayed) (stream : RealityStream) (e : RelayEvent) : Option Relayed := do
  let (relay, message) ← s.relay.step s.tx_alive true e
  return { s with relay := relay, stream := stream, sent_back := s.sent_back ++ message.toList }

def step (c : Crypto) (s : Relayed) : Event → Option Relayed
  | .feed payload =>
    if s.tx_alive && !s.relay.rx_dropped then some { s with relay := { s.relay with rx := s.relay.rx ++ [payload] } }
    else none
  | .hang_up => some { s with tx_alive := false }
  | .recv => s.advance s.stream .recv
  | .local_closed => s.advance s.stream .local_closed
  | .idle => s.advance s.stream .idle
  | .sent => s.advance s.stream .sent
  | .poll_read =>
    match s.relay.pc with
    | .select => do
      let (r, stream) ← s.stream.poll_read c RELAY_READ_SIZE
      match r with
      | .pending => return { s with stream := stream }
      | .ready [] => s.advance stream .read_eof
      | .ready data => s.advance stream (.read data)
      | .error _ => s.advance stream .read_failed
    | _ => none
  | .poll_write =>
    match s.relay.pc with
    -- `write_all` of nothing does not poll.
    | .write [] => s.advance s.stream (.wrote 0)
    | .write rest => do
      let (r, stream) ← s.stream.poll_write c rest
      match r with
      | .pending => return { s with stream := stream }
      | .ready 0 => s.advance stream .write_failed
      | .ready n => s.advance stream (.wrote n)
      | .error _ => s.advance stream .write_failed
    | _ => none
  | .poll_shutdown inner =>
    match s.relay.pc with
    | .shutdown _ =>
      let (r, stream) := s.stream.poll_shutdown inner
      match r with
      | .pending => some { s with stream := stream }
      -- The task does not look at the result.
      | _ => s.advance stream .shut
    | _ => none

end Relayed

/-! ## What the stream returns -/

namespace RealityStream

variable {c : Crypto} {s s' : RealityStream}

theorem read_step_length {n : Nat} {b : Bytes} (h : s.read_step c n = some (some (.ready b), s')) : b.length ≤ n := by
  unfold read_step at h
  split at h
  · obtain ⟨rfl, -⟩ := by simpa using h
    rw [List.length_take]
    omega
  · split at h
    · cases h
    all_goals simp only [Option.some.injEq, Prod.mk.injEq, reduceCtorEq, false_and, Poll.ready.injEq] at h
    · obtain ⟨rfl, -⟩ := h
      exact Nat.zero_le _
    · unfold read_more at h
      split at h
      · simp at h
      · simp at h
      · simp at h
      · dsimp only at h
        split at h
        · obtain ⟨rfl, -⟩ := by simpa using h
          exact Nat.zero_le _
        · simp at h
      · simp at h

/-- A read returns at most what there is room for. -/
theorem poll_read_length {n : Nat} {b : Bytes} (h : s.poll_read c n = some (.ready b, s')) : b.length ≤ n := by
  fun_induction poll_read c s n with
  | case1 => cases h
  | case2 s r s₁ hturn =>
    obtain ⟨rfl, rfl⟩ := Prod.mk.inj (Option.some.inj h)
    unfold read_turn at hturn
    split at hturn
    · simp at hturn
    · exact read_step_length hturn
  | case3 s s₁ hturn ih => exact ih h

theorem poll_write_count {buf : Bytes} {n : Nat} (h : s.poll_write c buf = some (.ready n, s')) :
    n = min buf.length MAX_PLAINTEXT := by
  unfold poll_write at h
  split at h
  · simp at h
  · simp at h
  · split at h
    · rename_i hempty
      obtain ⟨rfl, -⟩ := by simpa using h
      rw [List.isEmpty_iff.1 hempty]
      rfl
    · simp only [Option.bind_eq_bind, Option.bind_eq_some_iff] at h
      obtain ⟨⟨rec, send_keys⟩, -, h⟩ := h
      dsimp only at h
      split at h
      · simp at h
      · obtain ⟨rfl, -⟩ := by simpa using h
        rfl

/-- A flush that ends has written everything. -/
theorem poll_flush_done (hwriter : WriterOk s.write_half) {inner : Poll Unit} (h : (s.poll_flush inner).1 ≠ .pending) :
    (s.poll_flush inner).2.write_pending = [] := by
  unfold poll_flush at h ⊢
  split at h
  · rename_i s₁ hs
    obtain ⟨hready, rfl⟩ := Prod.mk.inj hs
    exact flush_loop_ready hready
  · rename_i r s₁ hne hs
    cases r with
    | ready u => exact (hne rfl).elim
    | pending => exact (h rfl).elim
    | error e => exact (hwriter.poll_flush_pending e (by rw [hs])).elim

end RealityStream

/-! ## A run of the task -/

namespace Relayed

/-- What the stream has delivered. -/
def delivered (s : Relayed) : Bytes := s.sent_back.flatten ++ s.relay.pc.reading

section
variable {c : Crypto} (hc : c.Lawful) (v : RealityStream.Response) (reads : List (Poll Bytes))
  (start : Tls13.Position (Block 32))

/-- Why the task may end: the stream did not fail. -/
def Ends (s : Relayed) (reason : CloseReason) : Prop :=
  reason = .remote_eof ∧ s.sent_back.flatten = v.payload ∨
    reason = .local_channel_closed ∧ s.relay.rx = [] ∧ s.tx_alive = false ∨ reason = .idle_timeout

/-- What is known where the task is. -/
def At (s : Relayed) : RelayPc → Prop
  | .send_back data => data ≠ []
  | .send_eof => s.sent_back.flatten = v.payload
  | .shutdown reason => s.Ends v reason
  | .returned reason => s.Ends v reason ∧ s.stream.write_pending = []
  | _ => True

/-- `fed` is everything the main loop has put on the uplink channel; the stream has
room for `k` more records. -/
structure Holds (fed : Bytes) (k : Nat) (s : Relayed) : Prop where
  session : RealityStream.InSession hc v reads start s.delivered s.relay.written k s.stream
  uplink : s.relay.written ++ (s.relay.pc.writing ++ s.relay.rx.flatten) = fed
  here : s.At v s.relay.pc
  eof : [] ∈ s.sent_back → s.relay.pc.reported = true

variable {hc v reads start} {fed : Bytes} {k : Nat} {s s' : Relayed}

theorem Holds.mono (h : Holds hc v reads start fed (k + 1) s) : Holds hc v reads start fed k s where
  session := h.session.mono
  uplink := h.uplink
  here := h.here
  eof := h.eof

theorem At.imp {pc : RelayPc} (h : s.At v pc) (hends : ∀ reason, s.Ends v reason → s'.Ends v reason)
    (hsent : s'.sent_back = s.sent_back) (hstream : s'.stream = s.stream) : s'.At v pc := by
  cases pc with
  | send_eof =>
    show s'.sent_back.flatten = v.payload
    rw [hsent]
    exact h
  | shutdown reason => exact hends reason h
  | returned reason => exact ⟨hends reason h.1, hstream ▸ h.2⟩
  | _ => exact h

theorem Holds.feed (h : Holds hc v reads start fed k s) (halive : s.tx_alive = true) (payload : Bytes) :
    Holds hc v reads start (fed ++ payload) k { s with relay := { s.relay with rx := s.relay.rx ++ [payload] } } where
  session := h.session
  uplink := by
    rw [← h.uplink]
    simp
  here := by
    refine h.here.imp ?_ rfl rfl
    rintro reason (hend | ⟨-, -, hgone⟩ | hend)
    · exact .inl hend
    · rw [halive] at hgone
      cases hgone
    · exact .inr (.inr hend)
  eof := h.eof

theorem Holds.hang_up (h : Holds hc v reads start fed k s) : Holds hc v reads start fed k { s with tx_alive := false } where
  session := h.session
  uplink := h.uplink
  here := by
    refine h.here.imp ?_ rfl rfl
    rintro reason (hend | ⟨hreason, hrx, -⟩ | hend)
    · exact .inl hend
    · exact .inr (.inl ⟨hreason, hrx, rfl⟩)
    · exact .inr (.inr hend)
  eof := h.eof

/-- No event but the end of the stream sends the empty message. -/
theorem Holds.not_eof (h : Holds hc v reads start fed k s) (hpc : s.relay.pc.reported = false) : [] ∉ s.sent_back :=
  fun hmem => by simpa [hpc] using h.eof hmem

/-- At `select!` the stream's deliveries are with the main loop. -/
theorem Holds.select (h : Holds hc v reads start fed k s) (hpc : s.relay.pc = .select) :
    RealityStream.InSession hc v reads start s.sent_back.flatten s.relay.written k s.stream ∧
      s.relay.written ++ s.relay.rx.flatten = fed ∧ [] ∉ s.sent_back := by
  have hsess := h.session
  have hup := h.uplink
  simp only [delivered, hpc, RelayPc.reading, List.append_nil] at hsess
  simp only [hpc, RelayPc.writing, List.nil_append] at hup
  exact ⟨hsess, hup, h.not_eof (by rw [hpc]; rfl)⟩

theorem Holds.recv (h : Holds hc v reads start fed k s) (hr : s.advance s.stream .recv = some s') :
    Holds hc v reads start fed k s' := by
  cases hpc : s.relay.pc with
  | select =>
    obtain ⟨hsess, hup, heof⟩ := h.select hpc
    cases hrx : s.relay.rx with
    | nil => simp [advance, RelayTask.step, hpc, hrx] at hr
    | cons payload rx =>
      simp only [advance, RelayTask.step, hpc, hrx] at hr
      obtain rfl := by simpa using hr
      rw [hrx] at hup
      exact ⟨by simpa [delivered, RelayPc.reading] using hsess, hup, trivial, fun hmem => (heof hmem).elim⟩
  | _ => simp [advance, RelayTask.step, hpc] at hr

theorem Holds.local_closed (h : Holds hc v reads start fed k s) (hr : s.advance s.stream .local_closed = some s') :
    Holds hc v reads start fed k s' := by
  cases hpc : s.relay.pc with
  | select =>
    obtain ⟨hsess, hup, heof⟩ := h.select hpc
    simp only [advance, RelayTask.step, hpc] at hr
    split at hr
    · rename_i hclosed
      rw [Bool.and_eq_true, List.isEmpty_iff, Bool.not_eq_true'] at hclosed
      obtain rfl := by simpa using hr
      exact ⟨by simpa [delivered, RelayPc.reading] using hsess, hup, .inr (.inl ⟨rfl, hclosed⟩), fun hmem => (heof hmem).elim⟩
    · simp at hr
  | _ => simp [advance, RelayTask.step, hpc] at hr

theorem Holds.idle (h : Holds hc v reads start fed k s) (hr : s.advance s.stream .idle = some s') :
    Holds hc v reads start fed k s' := by
  cases hpc : s.relay.pc with
  | select =>
    obtain ⟨hsess, hup, heof⟩ := h.select hpc
    simp only [advance, RelayTask.step, hpc] at hr
    obtain rfl := by simpa using hr
    exact ⟨by simpa [delivered, RelayPc.reading] using hsess, hup, .inr (.inr rfl), fun hmem => (heof hmem).elim⟩
  | _ => simp [advance, RelayTask.step, hpc] at hr

theorem Holds.sent (h : Holds hc v reads start fed k s) (hr : s.advance s.stream .sent = some s') :
    Holds hc v reads start fed k s' := by
  have hsess := h.session
  have hup := h.uplink
  have hhere := h.here
  cases hpc : s.relay.pc with
  | send_back data =>
    have heof := h.not_eof (by rw [hpc]; rfl)
    simp only [delivered, hpc, RelayPc.reading] at hsess
    simp only [hpc, RelayPc.writing] at hup
    simp only [hpc, At] at hhere
    simp only [advance, RelayTask.step, hpc] at hr
    obtain rfl := by simpa using hr
    refine ⟨by simpa [delivered, RelayPc.reading] using hsess, hup, trivial, fun hmem => ?_⟩
    rcases List.mem_append.1 hmem with hmem | hmem
    · exact (heof hmem).elim
    · exact (hhere (List.mem_singleton.1 hmem).symm).elim
  | send_eof =>
    simp only [delivered, hpc, RelayPc.reading] at hsess
    simp only [hpc, RelayPc.writing] at hup
    simp only [hpc, At] at hhere
    simp only [advance, RelayTask.step, hpc] at hr
    obtain rfl := by simpa using hr
    exact ⟨by simpa [delivered, RelayPc.reading] using hsess, hup, .inl ⟨rfl, by simpa using hhere⟩, fun _ => rfl⟩
  | _ => simp [advance, RelayTask.step, hpc] at hr

theorem Holds.poll_read (h : Holds hc v reads start fed (k + 1) s) (hpc : s.relay.pc = .select) :
    ∃ s', s.step c .poll_read = some s' ∧ Holds hc v reads start fed k s' := by
  obtain ⟨hsess, hup, heof⟩ := h.select hpc
  obtain ⟨r, stream, hread, hans, hsess⟩ := hsess.read (show 1 ≤ RELAY_READ_SIZE by decide)
  cases r with
  | error e => exact (hans.no_error e rfl).elim
  | pending =>
    refine ⟨{ s with stream := stream }, by simp [step, hpc, hread], ?_, h.uplink, ?_, h.eof⟩
    · simpa [delivered, hpc, RelayPc.reading, RealityStream.read_bytes] using hsess
    · show At v _ s.relay.pc
      rw [hpc]
      trivial
  | ready data =>
    cases data with
    | nil =>
      have hend : s.sent_back.flatten = v.payload := (hans.zero rfl).1
      refine ⟨{ s with relay := { s.relay with pc := .send_eof }, stream := stream },
        by simp [step, hpc, hread, advance, RelayTask.step], ?_, hup, hend, fun hmem => (heof hmem).elim⟩
      simpa [delivered, RelayPc.reading, RealityStream.read_bytes] using hsess
    | cons b data =>
      have hlen : ¬RELAY_READ_SIZE < data.length + 1 := Nat.not_lt.2 (RealityStream.poll_read_length hread)
      refine ⟨{ s with relay := { s.relay with pc := .send_back (b :: data) }, stream := stream },
        by simp [step, hpc, hread, advance, RelayTask.step, hlen], ?_, hup, List.cons_ne_nil _ _,
        fun hmem => (heof hmem).elim⟩
      simpa [delivered, RelayPc.reading, RealityStream.read_bytes] using hsess

theorem At.afterWrite (s : Relayed) (left : Bytes) : s.At v (.afterWrite left) := by
  cases left <;> trivial

theorem Holds.poll_write {rest : Bytes} (h : Holds hc v reads start fed (k + 1) s) (hpc : s.relay.pc = .write rest) :
    ∃ s', s.step c .poll_write = some s' ∧ Holds hc v reads start fed k s' := by
  have hsess := h.session
  have hup := h.uplink
  have heof := h.not_eof (by rw [hpc]; rfl)
  simp only [delivered, hpc, RelayPc.reading, List.append_nil] at hsess
  simp only [hpc, RelayPc.writing] at hup
  cases rest with
  | nil =>
    refine ⟨{ s with relay := { s.relay with pc := .select } }, by simp [step, hpc, advance, RelayTask.step], ?_, hup,
      trivial, fun hmem => (heof hmem).elim⟩
    simpa [delivered, RelayPc.reading] using hsess.mono
  | cons b rest =>
    obtain ⟨r, stream, hwrite, hok, -, hsess⟩ := hsess.write (b :: rest)
    cases r with
    | error e => exact (hok e rfl).elim
    | pending =>
      refine ⟨{ s with stream := stream }, by simp [step, hpc, hwrite], ?_, h.uplink, ?_, h.eof⟩
      · simpa [delivered, hpc, RelayPc.reading, RealityStream.Outcome.accepted] using hsess
      · show At v _ s.relay.pc
        rw [hpc]
        trivial
    | ready n =>
      have hn := RealityStream.poll_write_count hwrite
      have hpos : 0 < n := by
        rw [hn]
        exact Nat.lt_min.2 ⟨Nat.succ_pos _, by decide⟩
      have hle : n ≤ (b :: rest).length := hn.trans_le (Nat.min_le_left _ _)
      obtain ⟨m, rfl⟩ := Nat.exists_eq_succ_of_ne_zero hpos.ne'
      refine ⟨{ s with
        relay := { s.relay with written := s.relay.written ++ (b :: rest).take (m + 1), pc := .afterWrite (rest.drop m) }
        stream := stream }, ?_, ?_, ?_, At.afterWrite _ _, fun hmem => (heof hmem).elim⟩
      · simp [step, hpc, hwrite, advance, RelayTask.step, Nat.le_of_succ_le_succ hle, RelayPc.afterWrite]
      · simpa [delivered, RelayPc.reading_afterWrite, RealityStream.Outcome.accepted] using hsess
      · have hcut : (b :: rest).take (m + 1) ++ (rest.drop m ++ s.relay.rx.flatten) = b :: rest ++ s.relay.rx.flatten := by
          rw [← List.append_assoc]
          exact congrArg (fun left => b :: left ++ s.relay.rx.flatten) (List.take_append_drop m rest)
        rw [← hup, RelayPc.writing_afterWrite, List.append_assoc, hcut]

theorem Holds.poll_shutdown {reason : CloseReason} (h : Holds hc v reads start fed (k + 1) s)
    (hpc : s.relay.pc = .shutdown reason) (inner : Poll Unit) :
    ∃ s', s.step c (.poll_shutdown inner) = some s' ∧ Holds hc v reads start fed k s' := by
  have hsess := h.session
  have hup := h.uplink
  have hhere := h.here
  have heof := h.eof
  simp only [delivered, hpc, RelayPc.reading] at hsess
  simp only [hpc, RelayPc.writing] at hup
  simp only [hpc, At] at hhere
  rw [hpc] at heof
  have hdone := @RealityStream.poll_flush_done s.stream hsess.sent.writer inner
  have hsess := hsess.flush inner
  cases hr : (s.stream.poll_flush inner).1 with
  | pending =>
    refine ⟨{ s with stream := (s.stream.poll_flush inner).2 }, by simp [step, hpc, RealityStream.poll_shutdown, hr], ?_,
      h.uplink, ?_, h.eof⟩
    · simpa [delivered, hpc, RelayPc.reading] using hsess
    · show At v _ s.relay.pc
      rw [hpc]
      exact hhere
  | _ =>
    refine ⟨{ s with relay := { s.relay with pc := .returned reason }, stream := (s.stream.poll_flush inner).2 },
      by simp [step, hpc, RealityStream.poll_shutdown, hr, advance, RelayTask.step], ?_, hup,
      ⟨hhere, hdone (by simp [hr])⟩, fun hmem => ?_⟩
    · simpa [delivered, RelayPc.reading] using hsess
    · have hreported := heof hmem
      cases reason <;> exact hreported

theorem Holds.silent {e : Event} (h : Holds hc v reads start fed k s) (he : e.fed = []) :
    Holds hc v reads start (fed ++ e.fed) k s := by
  rw [he, List.append_nil]
  exact h

theorem Holds.step {e : Event} (h : Holds hc v reads start fed (k + 1) s) (hs : s.step c e = some s') :
    Holds hc v reads start (fed ++ e.fed) k s' := by
  cases e with
  | feed payload =>
    simp only [Relayed.step] at hs
    split at hs
    · rename_i halive
      obtain rfl := Option.some.inj hs
      exact h.mono.feed (Bool.and_eq_true_iff.1 halive).1 payload
    · cases hs
  | hang_up =>
    obtain rfl := Option.some.inj hs
    exact h.mono.hang_up.silent rfl
  | recv => exact (h.mono.recv hs).silent rfl
  | local_closed => exact (h.mono.local_closed hs).silent rfl
  | idle => exact (h.mono.idle hs).silent rfl
  | sent => exact (h.mono.sent hs).silent rfl
  | poll_read =>
    cases hpc : s.relay.pc with
    | select =>
      obtain ⟨s₁, hs₁, h₁⟩ := h.poll_read hpc
      obtain rfl := Option.some.inj (hs₁.symm.trans hs)
      exact h₁.silent rfl
    | _ => simp [Relayed.step, hpc] at hs
  | poll_write =>
    cases hpc : s.relay.pc with
    | write rest =>
      obtain ⟨s₁, hs₁, h₁⟩ := h.poll_write hpc
      obtain rfl := Option.some.inj (hs₁.symm.trans hs)
      exact h₁.silent rfl
    | _ => simp [Relayed.step, hpc] at hs
  | poll_shutdown inner =>
    cases hpc : s.relay.pc with
    | shutdown reason =>
      obtain ⟨s₁, hs₁, h₁⟩ := h.poll_shutdown hpc inner
      obtain rfl := Option.some.inj (hs₁.symm.trans hs)
      exact h₁.silent rfl
    | _ => simp [Relayed.step, hpc] at hs

theorem holds {handle : SocketHandle} {target : TargetAddr} {rx : List Bytes} {gen : Nat} {stream : RealityStream}
    {tr : List (Taken Relayed Event)}
    (hstart : ∀ k, k + 2 < 2 ^ 64 → RealityStream.InSession hc v reads start [] [] k stream)
    (h : Run (spawn handle target rx gen stream) (step c) tr s) (hfew : tr.length + k + 2 < 2 ^ 64) :
    Holds hc v reads start (rx.flatten ++ tr.flatMap fun t => t.ev.fed) k s := by
  induction h generalizing k with
  | nil =>
    rw [List.flatMap_nil, List.append_nil]
    exact ⟨hstart k (by simpa using hfew), rfl, trivial, fun hmem => by cases hmem⟩
  | snoc h hn ih =>
    rw [List.length_append, List.length_singleton] at hfew
    rw [List.flatMap_append, List.flatMap_singleton, ← List.append_assoc]
    exact (ih (by omega)).step hn

end

end Relayed

section
variable {c : Crypto} {aes : Aes256Gcm} {mac : HmacSha512} {cfg : RealityClientConfig} {draw : Draw} {srv : Server}
  {ch : Bytes} {s : Conn} {target : TargetAddr}

end

end Reality

end MiniVpn
