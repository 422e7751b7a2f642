import MiniVpn.Switching
/-!
# The health task

`spawn_health_probe` of `failover.rs`: every few seconds one task looks at the leg.
On TUIC it reads how many datagrams the connection has received and takes ten
seconds without a change for a blackhole; on REALITY it probes TUIC now and then.
Other tasks may switch down between any two of its steps. The detector keeps its
last reading while they do, so that a verdict must not rest on a reading from
before a stint on REALITY: `blackhole_verdict_iff` tells the verdicts from the
readings of the present stint alone.
-/
open Lib

namespace MiniVpn

def PROBE_INTERVAL_SECS : Nat := 30
def HEALTH_TICK_SECS : Nat := 3
def BLACKHOLE_RX_STALE_SECS : Nat := 10

structure BlackholeDetector where
  last_rx : Nat
  last_change_secs : Nat
  primed : Bool
deriving DecidableEq, Repr

namespace BlackholeDetector

def new : BlackholeDetector := { last_rx := 0, last_change_secs := 0, primed := false }

def observe (d : BlackholeDetector) (rx now_secs : Nat) : Bool × BlackholeDetector :=
  if !d.primed || rx != d.last_rx then (false, { last_rx := rx, last_change_secs := now_secs, primed := true })
  else (decide (BLACKHOLE_RX_STALE_SECS ≤ now_secs - d.last_change_secs), d)

def reset (d : BlackholeDetector) : BlackholeDetector := { d with primed := false }

end BlackholeDetector

/-- Where the task stands: waiting for the next tick, for a reading or for a
probe, or about to report a blackhole. -/
inductive HealthPc where
  | tick
  | rx_datagrams
  | record_blackhole
  | probe
deriving DecidableEq, Repr

/-- The task's variables, with the shared state and the clock. -/
structure HealthTask where
  state : FailoverState
  detector : BlackholeDetector
  secs_since_up_probe : Nat
  pc : HealthPc
  clock : Nat
deriving DecidableEq, Repr

namespace HealthTask

def new : HealthTask :=
  { state := .new, detector := .new, secs_since_up_probe := 0, pc := .tick, clock := 0 }

/-- A step of the task up to its next access to something shared, with what it
reads there, or a call of another task. `record_probe`, which may switch up, is
called by this task only. -/
inductive Event where
  | tick
  | rx_datagrams (rx : Option Nat) (now_secs : Nat)
  | record_blackhole (now_secs : Nat)
  | probe (ok : Bool) (now_secs : Nat)
  | other (call : FailoverState.Call)
deriving DecidableEq, Repr

def on_tick (h : HealthTask) : HealthTask :=
  match h.state.active_leg with
  | .Tuic => { h with secs_since_up_probe := 0, pc := .rx_datagrams }
  | .Reality =>
    let secs := h.secs_since_up_probe + HEALTH_TICK_SECS
    let h := { h with detector := h.detector.reset }
    if PROBE_INTERVAL_SECS ≤ secs then { h with secs_since_up_probe := 0, pc := .probe }
    else { h with secs_since_up_probe := secs, pc := .tick }

/-- `None` skips the observation. -/
def on_rx_datagrams (h : HealthTask) (rx : Option Nat) (now_secs : Nat) : HealthTask :=
  match rx with
  | none => { h with pc := .tick, clock := now_secs }
  | some rx =>
    let (stalled, detector) := h.detector.observe rx now_secs
    { h with detector := detector, pc := if stalled then .record_blackhole else .tick, clock := now_secs }

def on_record_blackhole (h : HealthTask) (now_secs : Nat) : HealthTask :=
  let (switched, state) := h.state.record_blackhole now_secs
  { h with
    state := state
    detector := if switched then h.detector.reset else h.detector
    pc := .tick
    clock := now_secs }

def on_probe (h : HealthTask) (ok : Bool) (now_secs : Nat) : HealthTask :=
  { h with state := (h.state.record_probe ok now_secs).2, pc := .tick, clock := now_secs }

/-- `none` when the event is not possible. The clock never goes back. -/
def step (h : HealthTask) : Event → Option HealthTask
  | .tick => if h.pc = .tick then some h.on_tick else none
  | .rx_datagrams rx now => if h.pc = .rx_datagrams ∧ h.clock ≤ now then some (h.on_rx_datagrams rx now) else none
  | .record_blackhole now => if h.pc = .record_blackhole ∧ h.clock ≤ now then some (h.on_record_blackhole now) else none
  | .probe ok now => if h.pc = .probe ∧ h.clock ≤ now then some (h.on_probe ok now) else none
  | .other (.record_probe ..) => none
  | .other call => some { h with state := (h.state.call call).2 }

abbrev Trace := List (Taken HealthTask Event)

/-! ## What the readings say -/

def leg (h : HealthTask) : TcpLeg := h.state.active_leg

/-- The reading of a step, if it has one. -/
def reading (s : Taken HealthTask Event) : Option (Nat × Nat) :=
  match s.ev with
  | .rx_datagrams (some rx) now => some (rx, now)
  | _ => none

/-- The TUIC leg has read `rx` at `time`, every reading since was the same, and
the leg has not changed. -/
def Since (tr : Trace) (rx time : Nat) : Prop :=
  ∃ tr₀ s between, tr = tr₀ ++ s :: between ∧ reading s = some (rx, time) ∧
    (∀ s' ∈ between, ∀ r ∈ reading s', r.1 = rx) ∧ ∀ s' ∈ s :: between, s'.pre.leg = .Tuic

theorem not_since_nil (rx time : Nat) : ¬ Since [] rx time := by
  rintro ⟨tr₀, s, between, htr, -⟩
  simp at htr

theorem since_snoc {tr : Trace} {s : Taken HealthTask Event} {rx time : Nat} : Since (tr ++ [s]) rx time ↔
    s.pre.leg = .Tuic ∧ (reading s = some (rx, time) ∨ Since tr rx time ∧ ∀ r ∈ reading s, r.1 = rx) := by
  constructor
  · rintro ⟨tr₀, s', between, htr, hs', hsame, hleg⟩
    rcases List.eq_nil_or_concat between with rfl | ⟨between, s'', rfl⟩
    · obtain ⟨rfl, heq⟩ := List.append_inj' htr rfl
      obtain rfl := List.singleton_inj.1 heq
      exact ⟨hleg s (by simp), .inl hs'⟩
    · rw [List.concat_eq_append] at htr hsame hleg
      rw [← List.cons_append, ← List.append_assoc] at htr
      obtain ⟨rfl, heq⟩ := List.append_inj' htr rfl
      obtain rfl := List.singleton_inj.1 heq
      refine ⟨hleg s (by simp), .inr ⟨⟨tr₀, s', between, rfl, hs', fun x hx => hsame x (by simp [hx]), fun x hx => ?_⟩,
        hsame s (by simp)⟩⟩
      rcases List.mem_cons.1 hx with rfl | hx
      · exact hleg _ (by simp)
      · exact hleg _ (by simp [hx])
  · rintro ⟨hleg, hs | ⟨⟨tr₀, s', between, rfl, hs', hsame, hlegs⟩, hlast⟩⟩
    · exact ⟨tr, s, [], rfl, hs, by simp, by simpa using hleg⟩
    · refine ⟨tr₀, s', between ++ [s], by simp, hs', ?_, ?_⟩
      · simp only [List.forall_mem_append, List.forall_mem_singleton]
        exact ⟨hsame, hlast⟩
      · simp only [← List.cons_append, List.forall_mem_append, List.forall_mem_singleton]
        exact ⟨hlegs, hleg⟩

/-! ## The detector is what the readings say -/

/-- On the TUIC leg the detector holds the first of the last equal readings. It
is unprimed while the task waits for a probe, the only way back to TUIC. -/
structure Inv (tr : Trace) (h : HealthTask) : Prop where
  primed : h.leg = .Tuic → h.detector.primed = true → Since tr h.detector.last_rx h.detector.last_change_secs
  since : h.leg = .Tuic → ∀ rx time, Since tr rx time →
    h.detector.primed = true ∧ h.detector.last_rx = rx ∧ h.detector.last_change_secs ≤ time
  probing : h.pc = .probe → h.leg = .Reality ∧ h.detector.primed = false
  past : h.detector.last_change_secs ≤ h.clock

theorem new_inv : Inv [] new where
  primed _ hp := by simp [new, BlackholeDetector.new] at hp
  since _ rx time hs := absurd hs (not_since_nil rx time)
  probing hpc := by simp [new] at hpc
  past := Nat.le_refl _

/-- A step without a reading that leaves leg and detector alone, or leaves TUIC. -/
theorem Inv.keep {tr : Trace} {h h' : HealthTask} {e : Event} (hi : Inv tr h) (hread : reading ⟨h, e, h'⟩ = none)
    (hleg : h'.leg = .Tuic → h.leg = .Tuic ∧ h'.detector = h.detector)
    (hprobing : h'.pc = .probe → h'.leg = .Reality ∧ h'.detector.primed = false)
    (hpast : h'.detector.last_change_secs ≤ h'.clock) : Inv (tr ++ [⟨h, e, h'⟩]) h' where
  primed ht hp := by
    obtain ⟨ht, hd⟩ := hleg ht
    rw [hd] at hp ⊢
    exact since_snoc.2 ⟨ht, .inr ⟨hi.primed ht hp, by simp [hread]⟩⟩
  since ht rx time hs := by
    obtain ⟨ht, hd⟩ := hleg ht
    rw [hd]
    rcases since_snoc.1 hs with ⟨-, hr | ⟨hs, -⟩⟩
    · rw [hread] at hr
      cases hr
    · exact hi.since ht rx time hs
  probing := hprobing
  past := hpast

/-- A call of another task may leave TUIC, but not lead back to it. -/
theorem call_leg {s : FailoverState} {c : FailoverState.Call} (hc : ∀ ok now, c ≠ .record_probe ok now)
    (h : (s.call c).2.active_leg = .Tuic) : s.active_leg = .Tuic := by
  cases hleg : s.active_tcp_leg with
  | Tuic => exact hleg
  | Reality =>
    rw [FailoverState.call_reality hleg] at h
    cases c with
    | record_probe ok now => exact absurd rfl (hc ok now)
    | record_tuic_success | record_tuic_failure | record_blackhole => exact h

theorem step_other {h h' : HealthTask} {c : FailoverState.Call} (hs : h.step (.other c) = some h') :
    h' = { h with state := (h.state.call c).2 } ∧ (h'.leg = .Tuic → h.leg = .Tuic) := by
  cases c with
  | record_probe => cases hs
  | record_tuic_success | record_tuic_failure | record_blackhole =>
    obtain rfl := Option.some.inj hs
    exact ⟨rfl, call_leg (by simp)⟩

theorem Inv.rx_datagrams {tr : Trace} {h : HealthTask} (hi : Inv tr h) (rx now : Nat) (hnow : h.clock ≤ now) :
    Inv (tr ++ [⟨h, .rx_datagrams (some rx) now, h.on_rx_datagrams (some rx) now⟩]) (h.on_rx_datagrams (some rx) now) := by
  have hpc : (h.on_rx_datagrams (some rx) now).pc ≠ .probe := by
    simp only [on_rx_datagrams]
    split <;> simp
  have hread : reading ⟨h, .rx_datagrams (some rx) now, h.on_rx_datagrams (some rx) now⟩ = some (rx, now) := rfl
  by_cases hnew : (!h.detector.primed || rx != h.detector.last_rx) = true
  · -- A first or a changed reading starts anew, and nothing older counts.
    have hd : (h.on_rx_datagrams (some rx) now).detector = ⟨rx, now, true⟩ := by
      simp only [on_rx_datagrams, BlackholeDetector.observe, if_pos hnew]
    refine ⟨fun ht _ => ?_, fun ht rx' time hs => ?_, fun hp => absurd hp hpc, by rw [hd]; exact Nat.le_refl _⟩
    · rw [hd]
      exact since_snoc.2 ⟨ht, .inl hread⟩
    · rw [hd]
      rcases since_snoc.1 hs with ⟨-, hr | ⟨hs, hsame⟩⟩
      · obtain ⟨rfl, rfl⟩ := Prod.mk.inj (Option.some.inj (hread.symm.trans hr))
        exact ⟨rfl, rfl, Nat.le_refl _⟩
      · obtain ⟨hp, hlast, -⟩ := hi.since ht rx' time hs
        have := hsame _ hread
        simp [hp, hlast, ← this] at hnew
  · have hd : (h.on_rx_datagrams (some rx) now).detector = h.detector := by
      simp only [on_rx_datagrams, BlackholeDetector.observe, if_neg hnew]
    simp only [Bool.or_eq_true, Bool.not_eq_true', bne_iff_ne, ne_eq, not_or, Bool.not_eq_false, not_not] at hnew
    obtain ⟨hp, rfl⟩ := hnew
    refine ⟨fun ht _ => ?_, fun ht rx' time hs => ?_, fun hp => absurd hp hpc, by rw [hd]; exact Nat.le_trans hi.past hnow⟩
    · rw [hd]
      exact since_snoc.2 ⟨ht, .inr ⟨hi.primed ht hp, by simp [hread]⟩⟩
    · rw [hd]
      rcases since_snoc.1 hs with ⟨-, hr | ⟨hs, -⟩⟩
      · obtain ⟨rfl, rfl⟩ := Prod.mk.inj (Option.some.inj (hread.symm.trans hr))
        exact ⟨hp, rfl, Nat.le_trans hi.past hnow⟩
      · exact hi.since ht rx' time hs

theorem Inv.tick {tr : Trace} {h : HealthTask} (hi : Inv tr h) : Inv (tr ++ [⟨h, .tick, h.on_tick⟩]) h.on_tick := by
  cases hleg : h.state.active_leg with
  | Tuic =>
    have heq : h.on_tick = { h with secs_since_up_probe := 0, pc := .rx_datagrams } := by simp only [on_tick, hleg]
    rw [heq]
    exact hi.keep rfl (fun ht => ⟨ht, rfl⟩) (by simp) hi.past
  | Reality =>
    obtain ⟨secs, pc, heq⟩ : ∃ secs pc, h.on_tick =
        { h with detector := h.detector.reset, secs_since_up_probe := secs, pc := pc } := by
      simp only [on_tick, hleg]
      split
      · exact ⟨_, _, rfl⟩
      · exact ⟨_, _, rfl⟩
    rw [heq]
    refine hi.keep rfl (fun ht => ?_) (fun _ => ⟨hleg, rfl⟩) hi.past
    rw [leg, hleg] at ht
    cases ht

theorem record_blackhole_leg (h : HealthTask) (now : Nat) : (h.on_record_blackhole now).leg = .Reality := by
  cases hl : h.state.active_tcp_leg <;>
    simp [on_record_blackhole, leg, FailoverState.record_blackhole, FailoverState.active_leg,
      FailoverState.switch_to_reality, hl]

theorem Inv.step {tr : Trace} {h h' : HealthTask} {e : Event} (hi : Inv tr h) (hs : h.step e = some h') :
    Inv (tr ++ [⟨h, e, h'⟩]) h' := by
  cases e with
  | tick =>
    obtain ⟨-, hs⟩ := Option.ite_none_right_eq_some.1 hs
    obtain rfl := Option.some.inj hs
    exact hi.tick
  | rx_datagrams rx now =>
    obtain ⟨⟨-, hnow⟩, hs⟩ := Option.ite_none_right_eq_some.1 hs
    obtain rfl := Option.some.inj hs
    cases rx with
    | some rx => exact hi.rx_datagrams rx now hnow
    | none => exact hi.keep rfl (fun ht => ⟨ht, rfl⟩) (fun hp => by cases hp) (Nat.le_trans hi.past hnow)
  | record_blackhole now =>
    obtain ⟨⟨-, hnow⟩, hs⟩ := Option.ite_none_right_eq_some.1 hs
    obtain rfl := Option.some.inj hs
    refine hi.keep rfl (fun ht => ?_) (fun hp => by cases hp) ?_
    · rw [record_blackhole_leg] at ht
      cases ht
    · refine Nat.le_trans (Nat.le_trans (Nat.le_of_eq ?_) hi.past) hnow
      simp only [on_record_blackhole]
      split <;> rfl
  | probe ok now =>
    obtain ⟨⟨hpc, hnow⟩, hs⟩ := Option.ite_none_right_eq_some.1 hs
    obtain rfl := Option.some.inj hs
    obtain ⟨hleg, hunprimed⟩ := hi.probing hpc
    -- The leg may be TUIC now, but nothing was read on it yet.
    refine ⟨fun _ hp => ?_, fun _ rx time hsince => ?_, fun hp => (by cases hp), Nat.le_trans hi.past hnow⟩
    · exact absurd hp (by simp [on_probe, hunprimed])
    · have ht := (since_snoc.1 hsince).1
      rw [hleg] at ht
      cases ht
  | other c =>
    obtain ⟨rfl, hleg⟩ := step_other hs
    refine hi.keep rfl (fun ht => ⟨hleg ht, rfl⟩) (fun hp => ?_) hi.past
    obtain ⟨hr, hunprimed⟩ := hi.probing hp
    refine ⟨?_, hunprimed⟩
    cases hl : HealthTask.leg { h with state := (h.state.call c).2 } with
    | Reality => rfl
    | Tuic =>
      rw [hleg hl] at hr
      cases hr

theorem run_inv {tr : Trace} {h : HealthTask} (hrun : Run new step tr h) : Inv tr h := by
  induction hrun with
  | nil => exact new_inv
  | snoc _ hs ih => exact ih.step hs

/-! ## Verdicts -/

def Event.isOther : Event → Bool
  | .other _ => true
  | _ => false

/-- Other tasks leave the task where it is, and do not lead back to TUIC. -/
theorem others_run {tr : Trace} {h h' : HealthTask} (hrun : Run h step tr h') (hother : ∀ s ∈ tr, s.ev.isOther = true) :
    h'.pc = h.pc ∧ (h'.leg = .Tuic → h.leg = .Tuic ∧ ∀ s ∈ tr, s.pre.leg = .Tuic) := by
  induction hrun with
  | nil => exact ⟨rfl, fun ht => ⟨ht, by simp⟩⟩
  | @snoc tr h₁ h₂ e _ hs ih =>
    simp only [List.forall_mem_append, List.forall_mem_singleton] at hother
    obtain ⟨hpc, hleg⟩ := ih hother.1
    cases e with
    | other c =>
      obtain ⟨rfl, hback⟩ := step_other hs
      refine ⟨hpc, fun ht => ?_⟩
      obtain ⟨hl, hall⟩ := hleg (hback ht)
      simp only [List.forall_mem_append, List.forall_mem_singleton]
      exact ⟨hl, hall, hback ht⟩
    | tick | rx_datagrams | record_blackhole | probe => cases hother.2

/-- What the detector says about a reading on the TUIC leg. -/
theorem Inv.stalled_iff {tr : Trace} {h : HealthTask} (hi : Inv tr h) (hleg : h.leg = .Tuic) (rx now : Nat) :
    (h.detector.observe rx now).1 = true ↔ ∃ time, Since tr rx time ∧ time + 10 ≤ now := by
  unfold BlackholeDetector.observe
  split
  · rename_i hnew
    simp only [Bool.false_eq_true, false_iff, not_exists, not_and]
    intro time hs
    obtain ⟨hp, hlast, -⟩ := hi.since hleg rx time hs
    simp [hp, hlast] at hnew
  · rename_i hnew
    simp only [Bool.or_eq_true, Bool.not_eq_true', bne_iff_ne, ne_eq, not_or, Bool.not_eq_false, not_not] at hnew
    obtain ⟨hp, rfl⟩ := hnew
    change decide (10 ≤ now - h.detector.last_change_secs) = true ↔ _
    rw [decide_eq_true_eq]
    constructor
    · intro hle
      exact ⟨_, hi.primed hleg hp, by omega⟩
    · rintro ⟨time, hs, hle⟩
      have := (hi.since hleg _ time hs).2.2
      omega

/-- The task's next step after a reading `rx` at `now` switches the leg by a
blackhole verdict exactly when the leg is still TUIC, has been so all the time
since an equal reading ten seconds before or earlier, and every reading in
between was the same. -/
theorem blackhole_verdict_iff {tr₀ mid tr₁ : Trace} {r b : Taken HealthTask Event} {h : HealthTask} {rx now : Nat}
    (hrun : Run new step (tr₀ ++ r :: (mid ++ b :: tr₁)) h) (hr : r.ev = .rx_datagrams (some rx) now)
    (hmid : ∀ s ∈ mid, s.ev.isOther = true) (hb : b.ev.isOther = false) :
    ((∃ later, b.ev = .record_blackhole later) ∧ b.post.leg ≠ b.pre.leg) ↔
      b.pre.leg = .Tuic ∧ (∀ s ∈ r :: mid, s.pre.leg = .Tuic) ∧ ∃ time, Since tr₀ rx time ∧ time + 10 ≤ now := by
  obtain ⟨hrun₀, hstep, hrest⟩ := hrun.split
  obtain ⟨hmidrun, hbstep, -⟩ := hrest.split
  obtain ⟨pre, e, post⟩ := r
  obtain ⟨bpre, be, bpost⟩ := b
  simp only at hr hrun₀ hstep hmidrun hbstep hb ⊢
  subst hr
  have hpost := Option.some.inj (Option.ite_none_right_eq_some.1 hstep).2
  obtain ⟨hpc, hback⟩ := others_run hmidrun hmid
  -- The task is about to report a blackhole, or waits for the next tick.
  have hpc' : bpre.pc = if (pre.detector.observe rx now).1 then .record_blackhole else .tick := by
    rw [hpc, ← hpost]
    rfl
  have hlegs : bpre.leg = .Tuic → ∀ s ∈ (⟨pre, .rx_datagrams (some rx) now, post⟩ : Taken HealthTask Event) :: mid,
      s.pre.leg = .Tuic := by
    intro ht
    obtain ⟨hleg, hall⟩ := hback ht
    rw [← hpost] at hleg
    exact List.forall_mem_cons.2 ⟨hleg, hall⟩
  have hstalled : bpre.leg = .Tuic → ((pre.detector.observe rx now).1 = true ↔ ∃ time, Since tr₀ rx time ∧ time + 10 ≤ now) :=
    fun ht => (run_inv hrun₀).stalled_iff (List.forall_mem_cons.1 (hlegs ht)).1 rx now
  constructor
  · rintro ⟨⟨later, rfl⟩, hswitch⟩
    obtain ⟨⟨hat, -⟩, heq⟩ := Option.ite_none_right_eq_some.1 hbstep
    obtain rfl := Option.some.inj heq
    have ht : bpre.leg = .Tuic := by
      cases hl : bpre.leg with
      | Tuic => rfl
      | Reality =>
        rw [hl] at hswitch
        exact absurd (record_blackhole_leg bpre later) hswitch
    refine ⟨ht, hlegs ht, (hstalled ht).1 ?_⟩
    by_contra hno
    rw [if_neg hno, hat] at hpc'
    cases hpc'
  · rintro ⟨ht, -, hsince⟩
    rw [if_pos ((hstalled ht).2 hsince)] at hpc'
    cases be with
    | record_blackhole later =>
      obtain rfl := Option.some.inj (Option.ite_none_right_eq_some.1 hbstep).2
      rw [record_blackhole_leg, ht]
      exact ⟨⟨later, rfl⟩, by decide⟩
    | other c => cases hb
    | tick =>
      have := (Option.ite_none_right_eq_some.1 hbstep).1
      rw [hpc'] at this
      cases this
    | rx_datagrams | probe =>
      have := (Option.ite_none_right_eq_some.1 hbstep).1.1
      rw [hpc'] at this
      cases this

/-- The same count of datagrams at 0 and 10 seconds. -/
theorem blackhole_verdict_stalled : ∃ tr₀ r b h, Run new step (tr₀ ++ r :: ([] ++ b :: [])) h ∧
    r.ev = .rx_datagrams (some 5) 10 ∧ b.ev = .record_blackhole 10 ∧ b.post.leg = .Reality ∧
    ∃ time, Since tr₀ 5 time ∧ time + 10 ≤ 10 := by
  have hrun : Run new step ([⟨_, .tick, _⟩, ⟨_, .rx_datagrams (some 5) 0, _⟩, ⟨_, .tick, _⟩] ++
      ⟨_, .rx_datagrams (some 5) 10, _⟩ :: ([] ++ ⟨_, .record_blackhole 10, _⟩ :: [])) _ :=
    ((((Run.nil.snoc rfl).snoc rfl).snoc rfl).snoc rfl).snoc rfl
  exact ⟨_, _, _, _, hrun, rfl, rfl, rfl, ((blackhole_verdict_iff hrun rfl (by simp) rfl).1 ⟨⟨10, rfl⟩, by decide⟩).2.2⟩

end HealthTask

end MiniVpn
