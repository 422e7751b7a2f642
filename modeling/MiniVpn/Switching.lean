import MiniVpn.Lib.Runs
import MiniVpn.Failover
/-!
# When the leg switches

The conditions of the switches are told from the calls made so far and from
nothing else: the calls since the last success or switch for the way down, the
probes since the last switch for the way up. `Inv` says that the counters and
the timestamp are these numbers.
-/
open Lib

namespace MiniVpn
namespace FailoverState

def next (s : FailoverState) (c : Call) : Option FailoverState := some (s.call c).2

abbrev Trace := List (Taken FailoverState Call)

/-! ## What the trace says -/

/-- The call changed the leg. -/
def switched (t : Taken FailoverState Call) : Bool := t.post.active_leg != t.pre.active_leg

/-- A failure on the TUIC leg that found the connection alive. -/
def slow (t : Taken FailoverState Call) : Bool :=
  match t.ev with
  | .record_tuic_failure false _ => t.pre.active_leg == .Tuic
  | _ => false

/-- Neither a success nor a switch. -/
def quiet (t : Taken FailoverState Call) : Bool := !switched t && t.ev != .record_tuic_success

/-- The failures of live connections since the last success or switch. -/
def slowFailures (tr : Trace) : Nat := (tr.reverse.takeWhile quiet).countP slow

def probe (t : Taken FailoverState Call) : Option Bool :=
  match t.ev with
  | .record_probe ok _ => some ok
  | _ => none

/-- The successful probes at the end of those recorded since the last switch. -/
def goodProbes (tr : Trace) : Nat :=
  (((tr.reverse.takeWhile fun t => !switched t).filterMap probe).takeWhile id).length

def time : Call → Option Nat
  | .record_tuic_success => none
  | .record_tuic_failure _ now => some now
  | .record_probe _ now => some now
  | .record_blackhole now => some now

/-- When the last switch was. -/
def lastSwitch (tr : Trace) : Option Nat := (tr.reverse.find? switched).bind fun t => time t.ev

/-- The calls that returned `true`, by the leg they switched to. -/
def winners (tr : Trace) : List TcpLeg := (tr.filter fun t => (t.pre.call t.ev).1).map fun t => t.post.active_leg

theorem slowFailures_snoc (tr : Trace) (t : Taken FailoverState Call) : slowFailures (tr ++ [t]) =
    if quiet t then slowFailures tr + (if slow t then 1 else 0) else 0 := by
  simp only [slowFailures, List.reverse_append, List.reverse_singleton, List.singleton_append, List.takeWhile_cons]
  split
  · rw [List.countP_cons]
  · rfl

theorem goodProbes_snoc (tr : Trace) (t : Taken FailoverState Call) : goodProbes (tr ++ [t]) =
    if switched t then 0 else if probe t = some true then goodProbes tr + 1
    else if probe t = some false then 0 else goodProbes tr := by
  simp only [goodProbes, List.reverse_append, List.reverse_singleton, List.singleton_append, List.takeWhile_cons]
  cases switched t with
  | true => rfl
  | false =>
    simp only [Bool.not_false, if_true, Bool.false_eq_true, if_false, List.filterMap_cons]
    cases hp : probe t with
    | none => simp
    | some ok => cases ok <;> simp

theorem lastSwitch_snoc (tr : Trace) (t : Taken FailoverState Call) : lastSwitch (tr ++ [t]) =
    if switched t then time t.ev else lastSwitch tr := by
  simp only [lastSwitch, List.reverse_append, List.reverse_singleton, List.singleton_append, List.find?_cons]
  cases switched t <;> rfl

theorem goodProbes_le_length (tr : Trace) : goodProbes tr ≤ tr.length := by
  refine Nat.le_trans (List.takeWhile_prefix _).length_le ?_
  refine Nat.le_trans (List.length_filterMap_le _ _) ?_
  refine Nat.le_trans (List.takeWhile_prefix _).length_le ?_
  rw [List.length_reverse]

/-! ## The counters are what the trace says -/

structure Inv (tr : Trace) (s : FailoverState) : Prop where
  fail : s.active_tcp_leg = .Tuic → s.tuic_consec_fail.toNat = slowFailures tr ∧ slowFailures tr ≤ 2
  probes : s.active_tcp_leg = .Reality → s.probe_consec_ok.toNat = goodProbes tr
  switch_at : s.active_tcp_leg = .Reality → lastSwitch tr = some s.reality_switch_at

/-- A call that takes new connections to REALITY: a blackhole, a dead
connection, or the third failure of a live one. -/
def Down (tr : Trace) (c : Call) : Prop :=
  (∃ now, c = .record_blackhole now) ∨ (∃ now, c = .record_tuic_failure true now) ∨
    ∃ now, c = .record_tuic_failure false now ∧ slowFailures tr = 2

/-- A call that takes them back: a good probe, the third in a row or a later
one, a minute after the switch down. -/
def Up (tr : Trace) (c : Call) : Prop :=
  ∃ now since, c = .record_probe true now ∧ 2 ≤ goodProbes tr ∧ lastSwitch tr = some since ∧ since + 60 ≤ now

theorem toNat_succ {n : UInt32} {k : Nat} (h : n.toNat = k) (hk : k + 1 < 2 ^ 32) : (n + 1).toNat = k + 1 := by
  rw [UInt32.toNat_add, h]
  exact Nat.mod_eq_of_lt hk

theorem three_le_succ_iff {n : UInt32} {k : Nat} (h : n.toNat = k) (hk : k + 1 < 2 ^ 32) : 3 ≤ n + 1 ↔ 2 ≤ k := by
  rw [UInt32.le_iff_toNat_le, toNat_succ h hk]
  exact Nat.succ_le_succ_iff

/-- A caller is told `true` exactly when its call changed the leg. -/
theorem call_true_iff (s : FailoverState) (c : Call) :
    (s.call c).1 = true ↔ (s.call c).2.active_leg ≠ s.active_leg := by
  cases hleg : s.active_tcp_leg with
  | Tuic =>
    rw [FailoverState.call_tuic hleg]
    cases c with
    | record_tuic_failure dead now =>
      cases dead with
      | true => simp [onTuic, active_leg, hleg, down]
      | false =>
        simp only [onTuic]
        split <;> simp [active_leg, hleg, down]
    | _ => simp [onTuic, active_leg, hleg, down]
  | Reality =>
    rw [FailoverState.call_reality hleg]
    cases c with
    | record_probe ok now =>
      cases ok with
      | false => simp [onReality, active_leg]
      | true =>
        simp only [onReality]
        split <;> simp [active_leg, hleg, up]
    | _ => simp [onReality, active_leg]

section Step
variable {tr : Trace} {s : FailoverState}

theorem switched_eq_false {c : Call} {s' : FailoverState} (h : s'.active_tcp_leg = s.active_tcp_leg) :
    switched ⟨s, c, s'⟩ = false := by
  simp [switched, active_leg, h]

/-- A switch down starts the counts anew. -/
theorem Inv.switch_down (hleg : s.active_tcp_leg = .Tuic) {c : Call} {now : Nat} (hnow : time c = some now) :
    Inv (tr ++ [⟨s, c, down now⟩]) (down now) := by
  have hsw : switched ⟨s, c, down now⟩ = true := by simp [switched, active_leg, hleg, down]
  refine ⟨fun h => (by cases h), fun _ => ?_, fun _ => ?_⟩
  · rw [goodProbes_snoc, if_pos hsw]
    rfl
  · rw [lastSwitch_snoc, if_pos hsw]
    exact hnow

/-- On the TUIC leg only the failures count. -/
theorem Inv.of_tuic (hleg : s.active_tcp_leg = .Tuic)
    (hfail : s.tuic_consec_fail.toNat = slowFailures tr ∧ slowFailures tr ≤ 2) : Inv tr s := by
  refine ⟨fun _ => hfail, fun h => ?_, fun h => ?_⟩
  · rw [hleg] at h
    cases h
  · rw [hleg] at h
    cases h

/-- A call on the REALITY leg that leaves leg and timestamp, and moves the probe
counter as the trace does. -/
theorem Inv.stay_reality (hi : Inv tr s) (hleg : s.active_tcp_leg = .Reality) {c : Call} {s' : FailoverState}
    (h' : s'.active_tcp_leg = .Reality) (hat : s'.reality_switch_at = s.reality_switch_at)
    (hp : s'.probe_consec_ok.toNat = goodProbes (tr ++ [⟨s, c, s'⟩])) : Inv (tr ++ [⟨s, c, s'⟩]) s' := by
  refine ⟨fun h => ?_, fun _ => hp, fun _ => ?_⟩
  · rw [h'] at h
    cases h
  · rw [lastSwitch_snoc, switched_eq_false (h'.trans hleg.symm), hat]
    exact hi.switch_at hleg

/-- On the TUIC leg a call switches when it meets `Down`, and keeps `Inv`. -/
theorem Inv.call_tuic (hi : Inv tr s) (hleg : s.active_tcp_leg = .Tuic) (c : Call) :
    ((s.call c).2.active_tcp_leg = .Reality ↔ Down tr c) ∧
      Inv (tr ++ [⟨s, c, (s.call c).2⟩]) (s.call c).2 := by
  obtain ⟨hfail, hle⟩ := hi.fail hleg
  rw [FailoverState.call_tuic hleg]
  cases c with
  | record_tuic_success =>
    refine ⟨by simp [onTuic, Down, hleg], .of_tuic hleg ?_⟩
    rw [slowFailures_snoc]
    simp [quiet, onTuic]
  | record_tuic_failure dead now =>
    cases dead with
    | true => exact ⟨by simp [onTuic, Down, down], .switch_down hleg rfl⟩
    | false =>
      have hthree := three_le_succ_iff hfail (by omega)
      by_cases htwo : slowFailures tr = 2
      · have heq : s.onTuic (.record_tuic_failure false now) = (true, down now) := if_pos (hthree.2 (by omega))
        rw [heq]
        exact ⟨by simp [Down, htwo, down], .switch_down hleg rfl⟩
      · have heq : s.onTuic (.record_tuic_failure false now) =
            (false, { s with tuic_consec_fail := s.tuic_consec_fail + 1 }) := if_neg fun h => htwo (by have := hthree.1 h; omega)
        rw [heq]
        refine ⟨by simp [Down, htwo, hleg], .of_tuic hleg ?_⟩
        have hq : quiet ⟨s, .record_tuic_failure false now, { s with tuic_consec_fail := s.tuic_consec_fail + 1 }⟩ = true := by
          simp [quiet, switched, active_leg]
        have hs : slow ⟨s, .record_tuic_failure false now, { s with tuic_consec_fail := s.tuic_consec_fail + 1 }⟩ = true := by
          simp [slow, active_leg, hleg]
        rw [slowFailures_snoc, if_pos hq, if_pos hs]
        exact ⟨toNat_succ hfail (by omega), by omega⟩
  | record_probe ok now =>
    refine ⟨by simp [onTuic, Down, hleg], .of_tuic hleg ?_⟩
    rw [slowFailures_snoc]
    simpa [quiet, switched_eq_false, slow, onTuic] using ⟨hfail, hle⟩
  | record_blackhole now => exact ⟨by simp [onTuic, Down, down], .switch_down hleg rfl⟩

/-- On the REALITY leg a call switches when it meets `Up`, and keeps `Inv`. -/
theorem Inv.call_reality (hi : Inv tr s) (hleg : s.active_tcp_leg = .Reality) (hlen : tr.length + 1 < 2 ^ 32) (c : Call) :
    ((s.call c).2.active_tcp_leg = .Tuic ↔ Up tr c) ∧
      Inv (tr ++ [⟨s, c, (s.call c).2⟩]) (s.call c).2 := by
  have hprobes := hi.probes hleg
  have hswitch := hi.switch_at hleg
  rw [FailoverState.call_reality hleg]
  cases c with
  | record_tuic_success =>
    refine ⟨by simp [onReality, Up, hleg], hi.stay_reality hleg hleg rfl ?_⟩
    rw [goodProbes_snoc]
    simpa [onReality, switched, active_leg, probe] using hprobes
  | record_tuic_failure dead now =>
    refine ⟨by simp [onReality, Up, hleg], hi.stay_reality hleg hleg rfl ?_⟩
    rw [goodProbes_snoc]
    simpa [onReality, switched, active_leg, probe] using hprobes
  | record_blackhole now =>
    refine ⟨by simp [onReality, Up, hleg], hi.stay_reality hleg hleg rfl ?_⟩
    rw [goodProbes_snoc]
    simpa [onReality, switched, active_leg, probe] using hprobes
  | record_probe ok now =>
    cases ok with
    | false =>
      refine ⟨by simp [onReality, Up, hleg], hi.stay_reality hleg hleg rfl ?_⟩
      rw [goodProbes_snoc]
      simp [onReality, switched, active_leg, probe]
    | true =>
      have hle := goodProbes_le_length tr
      have hthree := three_le_succ_iff hprobes (by omega)
      by_cases hup : 2 ≤ goodProbes tr ∧ 60 ≤ now - s.reality_switch_at
      · have heq : s.onReality (.record_probe true now) = (true, s.up) := if_pos ⟨hthree.2 hup.1, hup.2⟩
        rw [heq]
        refine ⟨?_, fun _ => ?_, fun h => (by cases h), fun h => (by cases h)⟩
        · simp only [up, true_iff, Up]
          exact ⟨now, _, rfl, hup.1, hswitch, by omega⟩
        · rw [slowFailures_snoc]
          simp [quiet, switched, active_leg, up, hleg]
      · have heq : s.onReality (.record_probe true now) =
            (false, { s with probe_consec_ok := s.probe_consec_ok + 1 }) := if_neg fun h => hup ⟨hthree.1 h.1, h.2⟩
        rw [heq]
        refine ⟨?_, hi.stay_reality hleg hleg rfl ?_⟩
        · simp only [hleg, reduceCtorEq, false_iff]
          rintro ⟨now', since, hc, hgood, hs, htime⟩
          obtain ⟨-, rfl⟩ := Call.record_probe.inj hc
          obtain rfl := Option.some.inj (hs.symm.trans hswitch)
          exact hup ⟨hgood, by omega⟩
        · rw [goodProbes_snoc]
          simpa [switched, active_leg, probe] using toNat_succ hprobes (by omega)

end Step

/-! ## Whole runs -/

section Run
variable {tr : Trace} {s : FailoverState}

theorem run_inv (h : Run new next tr s) (hlen : tr.length < 2 ^ 32) : Inv tr s := by
  induction h with
  | nil => exact ⟨fun _ => ⟨rfl, by decide⟩, fun h => (by cases h), fun h => (by cases h)⟩
  | @snoc tr s s' c hr hn ih =>
    rw [List.length_append, List.length_singleton] at hlen
    have hi := ih (by omega)
    obtain rfl := Option.some.inj hn
    cases hleg : s.active_tcp_leg with
    | Tuic => exact (hi.call_tuic hleg c).2
    | Reality => exact (hi.call_reality hleg hlen c).2

/-- The `i`-th switch goes down for even `i` and up for odd `i`. -/
def alternate (n : Nat) : List TcpLeg := (List.range n).map fun i => if i % 2 = 0 then .Reality else .Tuic

theorem run_winners (h : Run new next tr s) :
    ∃ n, winners tr = alternate n ∧ s.active_leg = if n % 2 = 0 then .Tuic else .Reality := by
  induction h with
  | nil => exact ⟨0, rfl, rfl⟩
  | @snoc tr s s' c hr hn ih =>
    obtain ⟨n, hw, hleg⟩ := ih
    obtain rfl := Option.some.inj hn
    rw [winners, List.filter_append, List.map_append, ← winners, hw]
    by_cases hchange : (s.call c).2.active_leg = s.active_leg
    · have hlost : (s.call c).1 = false := by
        rw [Bool.eq_false_iff]
        exact fun h => (call_true_iff s c).1 h hchange
      exact ⟨n, by simp [hlost], hchange.trans hleg⟩
    · have hwon := (call_true_iff s c).2 hchange
      -- There are two legs, so a change from one of them is a change to the other.
      have hother : (s.call c).2.active_leg = if n % 2 = 0 then .Reality else .Tuic := by
        rw [hleg] at hchange
        split at hchange <;> cases h' : (s.call c).2.active_leg <;> simp_all
      refine ⟨n + 1, ?_, ?_⟩
      · rw [alternate, alternate, List.range_succ, List.map_append]
        simp [hwon, hother]
      · rw [hother]
        rcases Nat.mod_two_eq_zero_or_one n with h0 | h0
        · rw [if_pos h0, if_neg (by omega)]
        · rw [if_neg (by omega), if_pos (by omega)]

/-- The switching contract: what the next call of any run returns and does. -/
theorem switching_contract (h : Run new next tr s) (hlen : tr.length + 1 < 2 ^ 32) (c : Call) :
    ((s.call c).1 = true ↔ (s.call c).2.active_leg ≠ s.active_leg) ∧
    (s.active_leg = .Tuic → ((s.call c).2.active_leg = .Reality ↔ Down tr c)) ∧
    (s.active_leg = .Reality → ((s.call c).2.active_leg = .Tuic ↔ Up tr c)) ∧
    ∃ n, winners tr = alternate n ∧ s.active_leg = if n % 2 = 0 then .Tuic else .Reality := by
  have hi := run_inv h (by omega)
  refine ⟨call_true_iff s c, fun hleg => ?_, fun hleg => ?_, run_winners h⟩
  · exact (hi.call_tuic hleg c).1
  · exact (hi.call_reality hleg hlen c).1

/-- Three failures of live connections, then probes: the third good one in a
row comes too early, the fourth switches back. -/
theorem switching_contract_back : ∃ tr s, Run new next tr s ∧ tr.length + 1 < 2 ^ 32 ∧ s.active_leg = .Reality ∧
    (s.call (.record_probe true 165)).2.active_leg = .Tuic ∧ Up tr (.record_probe true 165) := by
  have hrun : (traceEvents next new
      [.record_tuic_failure false 98, .record_tuic_failure false 99, .record_tuic_failure false 100,
        .record_probe true 130, .record_probe true 140, .record_probe true 150]).any
      (fun x => x.1.length == 6 && x.2.active_leg == .Reality &&
        (x.2.call (.record_probe true 165)).2.active_leg == .Tuic) = true := by decide +kernel
  obtain ⟨tr, s, h, hp⟩ := exists_trace_of_any hrun
  simp only [Bool.and_eq_true, beq_iff_eq] at hp
  obtain ⟨⟨hlen, hleg⟩, hup⟩ := hp
  have hlen' : tr.length + 1 < 2 ^ 32 := by omega
  exact ⟨tr, s, h, hlen', hleg, hup, ((switching_contract h hlen' _).2.2.1 hleg).1 hup⟩

end Run

end FailoverState
end MiniVpn
