import Mathlib.Data.UInt
/-!
# The failover state

`FailoverState` of `failover.rs` decides which leg new TCP connections take. Its
fields are atomics and every method is one call here; `record_tuic_success`
returns nothing in the source and `false` here. `set_leg` is called by tests
only and left out.
-/

namespace MiniVpn

def DOWN_SLOW_CONSEC : UInt32 := 3
def UP_PROBE_CONSEC : UInt32 := 3
def UP_COOLDOWN_SECS : Nat := 60

inductive TcpLeg where
  | Tuic
  | Reality
deriving DecidableEq, Repr

structure FailoverState where
  active_tcp_leg : TcpLeg
  tuic_consec_fail : UInt32
  probe_consec_ok : UInt32
  reality_switch_at : Nat
deriving DecidableEq, Repr

namespace FailoverState

def new : FailoverState :=
  { active_tcp_leg := .Tuic, tuic_consec_fail := 0, probe_consec_ok := 0, reality_switch_at := 0 }

def active_leg (s : FailoverState) : TcpLeg := s.active_tcp_leg

def switch_to_reality (s : FailoverState) (now_secs : Nat) : Bool × FailoverState :=
  if s.active_tcp_leg = .Tuic then
    (true, { s with
      active_tcp_leg := .Reality
      reality_switch_at := now_secs
      tuic_consec_fail := 0
      probe_consec_ok := 0 })
  else (false, s)

def switch_to_tuic (s : FailoverState) : Bool × FailoverState :=
  if s.active_tcp_leg = .Reality then
    (true, { s with active_tcp_leg := .Tuic, tuic_consec_fail := 0, probe_consec_ok := 0 })
  else (false, s)

def record_tuic_success (s : FailoverState) : FailoverState := { s with tuic_consec_fail := 0 }

def record_tuic_failure (s : FailoverState) (dead : Bool) (now_secs : Nat) : Bool × FailoverState :=
  if s.active_leg ≠ .Tuic then (false, s)
  else if dead then s.switch_to_reality now_secs
  else
    let n := s.tuic_consec_fail + 1
    let s := { s with tuic_consec_fail := n }
    if DOWN_SLOW_CONSEC ≤ n then s.switch_to_reality now_secs else (false, s)

def record_probe (s : FailoverState) (ok : Bool) (now_secs : Nat) : Bool × FailoverState :=
  if s.active_leg ≠ .Reality then (false, s)
  else if !ok then (false, { s with probe_consec_ok := 0 })
  else
    let n := s.probe_consec_ok + 1
    let s := { s with probe_consec_ok := n }
    let cooled := decide (UP_COOLDOWN_SECS ≤ now_secs - s.reality_switch_at)
    if UP_PROBE_CONSEC ≤ n ∧ cooled = true then s.switch_to_tuic else (false, s)

def record_blackhole (s : FailoverState) (now_secs : Nat) : Bool × FailoverState :=
  if s.active_leg ≠ .Tuic then (false, s) else s.switch_to_reality now_secs

/-! ## Calls -/

inductive Call where
  | record_tuic_success
  | record_tuic_failure (dead : Bool) (now_secs : Nat)
  | record_probe (ok : Bool) (now_secs : Nat)
  | record_blackhole (now_secs : Nat)
deriving DecidableEq, Repr

def call (s : FailoverState) : Call → Bool × FailoverState
  | .record_tuic_success => (false, s.record_tuic_success)
  | .record_tuic_failure dead now_secs => s.record_tuic_failure dead now_secs
  | .record_probe ok now_secs => s.record_probe ok now_secs
  | .record_blackhole now_secs => s.record_blackhole now_secs

/-- The state right after a switch down. -/
def down (now_secs : Nat) : FailoverState :=
  { active_tcp_leg := .Reality, tuic_consec_fail := 0, probe_consec_ok := 0, reality_switch_at := now_secs }

/-- The state right after a switch up. -/
def up (s : FailoverState) : FailoverState :=
  { s with active_tcp_leg := .Tuic, tuic_consec_fail := 0, probe_consec_ok := 0 }

/-- What a call does on the TUIC leg. -/
def onTuic (s : FailoverState) : Call → Bool × FailoverState
  | .record_tuic_success => (false, { s with tuic_consec_fail := 0 })
  | .record_tuic_failure true now => (true, down now)
  | .record_tuic_failure false now =>
    if 3 ≤ s.tuic_consec_fail + 1 then (true, down now)
    else (false, { s with tuic_consec_fail := s.tuic_consec_fail + 1 })
  | .record_probe _ _ => (false, s)
  | .record_blackhole now => (true, down now)

/-- What a call does on the REALITY leg. -/
def onReality (s : FailoverState) : Call → Bool × FailoverState
  | .record_tuic_success => (false, { s with tuic_consec_fail := 0 })
  | .record_tuic_failure _ _ => (false, s)
  | .record_probe false _ => (false, { s with probe_consec_ok := 0 })
  | .record_probe true now =>
    if 3 ≤ s.probe_consec_ok + 1 ∧ 60 ≤ now - s.reality_switch_at then (true, s.up)
    else (false, { s with probe_consec_ok := s.probe_consec_ok + 1 })
  | .record_blackhole _ => (false, s)

theorem call_tuic {s : FailoverState} (h : s.active_tcp_leg = .Tuic) (c : Call) : s.call c = s.onTuic c := by
  cases c with
  | record_tuic_success => rfl
  | record_tuic_failure dead now =>
    cases dead <;> simp [call, record_tuic_failure, active_leg, switch_to_reality, h, onTuic, down, DOWN_SLOW_CONSEC]
  | record_probe ok now => simp [call, record_probe, active_leg, h, onTuic]
  | record_blackhole now => simp [call, record_blackhole, active_leg, switch_to_reality, h, onTuic, down]

theorem call_reality {s : FailoverState} (h : s.active_tcp_leg = .Reality) (c : Call) : s.call c = s.onReality c := by
  cases c with
  | record_tuic_success => rfl
  | record_tuic_failure dead now => simp [call, record_tuic_failure, active_leg, h, onReality]
  | record_probe ok now =>
    cases ok with
    | false => simp [call, record_probe, active_leg, h, onReality]
    | true =>
      by_cases hcool : 60 ≤ now - s.reality_switch_at <;>
        simp [call, record_probe, active_leg, switch_to_tuic, h, onReality, up, UP_PROBE_CONSEC, UP_COOLDOWN_SECS, hcool]
  | record_blackhole now => simp [call, record_blackhole, active_leg, h, onReality]

end FailoverState

end MiniVpn
