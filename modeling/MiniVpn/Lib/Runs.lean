import Mathlib.Data.List.Induction
import Mathlib.Logic.Relation
/-!
# Runs of an event-driven system

A system is an initial state and a partial transition function `next`: in state
`s` the event `e` leads to `s'` when `next s e = some s'`. `Reach ok` are the
states reached by runs whose steps all satisfy `ok`, a condition on the state
before the step and the event. `Run` also records the steps, for statements
about whole runs.
-/

namespace Lib

variable {σ ε : Type} {init : σ} {next : σ → ε → Option σ}

/-- States reached from `init` by steps that all satisfy `ok`. -/
inductive Reach (init : σ) (next : σ → ε → Option σ) (ok : σ → ε → Prop) : σ → Prop
  | init : Reach init next ok init
  | step {s s' : σ} {e : ε} : Reach init next ok s → ok s e → next s e = some s' → Reach init next ok s'

/-- An invariant kept by every step that satisfies `ok` holds in every state
reached by such steps. -/
theorem Reach.inv {ok : σ → ε → Prop} (I : σ → Prop) (h0 : I init)
    (hs : ∀ s e s', Reach init next ok s → I s → ok s e → next s e = some s' → I s')
    {s : σ} (h : Reach init next ok s) : I s := by
  induction h with
  | init => exact h0
  | step hr hok hn ih => exact hs _ _ _ hr ih hok hn

theorem Reach.mono {ok ok' : σ → ε → Prop} (himp : ∀ s e, ok s e → ok' s e)
    {s : σ} (h : Reach init next ok s) : Reach init next ok' s := by
  induction h with
  | init => exact .init
  | step _ hok hn ih => exact .step ih (himp _ _ hok) hn

theorem Reach.trans {ok : σ → ε → Prop} {s s' : σ} (h : Reach init next ok s) (h' : Reach s next ok s') :
    Reach init next ok s' := by
  induction h' with
  | init => exact h
  | step _ hok hn ih => exact .step ih hok hn

/-- A step of a run: the state before, the event and the state after. -/
structure Taken (σ ε : Type) where
  pre : σ
  ev : ε
  post : σ

/-- Runs from `init`: the steps taken, and the state they end in. -/
inductive Run (init : σ) (next : σ → ε → Option σ) : List (Taken σ ε) → σ → Prop
  | nil : Run init next [] init
  | snoc {tr : List (Taken σ ε)} {s s' : σ} {e : ε} :
      Run init next tr s → next s e = some s' → Run init next (tr ++ [⟨s, e, s'⟩]) s'

/-- A run whose steps all satisfy `ok` ends in a state of `Reach ok`. -/
theorem Run.reach {ok : σ → ε → Prop} {tr : List (Taken σ ε)} {s : σ} (h : Run init next tr s)
    (hok : ∀ t ∈ tr, ok t.pre t.ev) : Reach init next ok s := by
  induction h with
  | nil => exact .init
  | snoc _ hn ih =>
    exact .step (ih fun t ht => hok t (List.mem_append_left _ ht)) (hok _ (List.mem_append_right _ (List.mem_singleton_self _))) hn

/-- Every step of a run is a step of the system, from a state reached by the
steps before it. -/
theorem Run.taken (ok : σ → ε → Prop) {tr : List (Taken σ ε)} {s : σ} (h : Run init next tr s)
    (hok : ∀ t ∈ tr, ok t.pre t.ev) : ∀ t ∈ tr, Reach init next ok t.pre ∧ next t.pre t.ev = some t.post := by
  induction h with
  | nil => simp
  | snoc hr hn ih =>
    have hok' := fun t ht => hok t (List.mem_append_left _ ht)
    intro t ht
    rcases List.mem_append.1 ht with ht | ht
    · exact ih hok' t ht
    · rw [List.mem_singleton] at ht
      subst ht
      exact ⟨hr.reach hok', hn⟩

theorem Run.append {tr tr' : List (Taken σ ε)} {s s' : σ} (h : Run init next tr s) (h' : Run s next tr' s') :
    Run init next (tr ++ tr') s' := by
  induction h' with
  | nil => rwa [List.append_nil]
  | snoc _ hn ih =>
    rw [← List.append_assoc]
    exact .snoc ih hn

theorem Run.last {tr : List (Taken σ ε)} {t : Taken σ ε} {s : σ} (h : Run init next (tr ++ [t]) s) :
    Run init next tr t.pre ∧ next t.pre t.ev = some t.post ∧ s = t.post := by
  generalize htr : tr ++ [t] = tr' at h
  cases h with
  | nil => simp at htr
  | snoc h hn =>
    obtain ⟨rfl, heq⟩ := List.append_inj' htr rfl
    obtain rfl := List.singleton_inj.1 heq
    exact ⟨h, hn, rfl⟩

/-- A run can be cut at any of its steps. -/
theorem Run.split {tr tr' : List (Taken σ ε)} {t : Taken σ ε} {s : σ} (h : Run init next (tr ++ t :: tr') s) :
    Run init next tr t.pre ∧ next t.pre t.ev = some t.post ∧ Run t.post next tr' s := by
  induction tr' using List.reverseRecOn generalizing s with
  | nil =>
    obtain ⟨hr, hn, rfl⟩ := h.last
    exact ⟨hr, hn, .nil⟩
  | append_singleton tr' t' ih =>
    rw [← List.cons_append, ← List.append_assoc] at h
    obtain ⟨hr, hn, rfl⟩ := h.last
    obtain ⟨h1, h2, h3⟩ := ih hr
    exact ⟨h1, h2, .snoc h3 hn⟩

/-- What holds at the start and after every step holds at the end. -/
theorem Run.at_end {P : σ → Prop} {tr : List (Taken σ ε)} {s : σ} (h : Run init next tr s) (h0 : P init)
    (hall : ∀ t ∈ tr, P t.post) : P s := by
  cases h with
  | nil => exact h0
  | snoc => exact hall _ (List.mem_append_right _ (List.mem_singleton_self _))

/-! ## Steps made of smaller ones -/

/-- A sequence of labelled actions. -/
inductive Path {ι : Type} (act : σ → ι → σ → Prop) : σ → List ι → σ → Prop
  | nil {s : σ} : Path act s [] s
  | cons {s s' s'' : σ} {l : ι} {ls : List ι} : act s l s' → Path act s' ls s'' → Path act s (l :: ls) s''

section Path
variable {ι : Type} {act : σ → ι → σ → Prop}

theorem Path.single {s s' : σ} {l : ι} (h : act s l s') : Path act s [l] s' := .cons h .nil

theorem Path.append {s s' s'' : σ} {ls ls' : List ι} (h : Path act s ls s') (h' : Path act s' ls' s'') :
    Path act s (ls ++ ls') s'' := by
  induction h with
  | nil => exact h'
  | cons ha _ ih => exact .cons ha (ih h')

/-- What every action with an allowed label keeps, a path of them keeps. -/
theorem Path.inv (ok : ι → Prop) (I : σ → Prop) (hact : ∀ s l s', ok l → act s l s' → I s → I s')
    {s s' : σ} {ls : List ι} (h : Path act s ls s') (hok : ∀ l ∈ ls, ok l) (hs : I s) : I s' := by
  induction h with
  | nil => exact hs
  | cons ha _ ih =>
    exact ih (fun l hl => hok l (List.mem_cons_of_mem _ hl)) (hact _ _ _ (hok _ List.mem_cons_self) ha hs)

end Path

/-- Run a list of events. -/
def runEvents (next : σ → ε → Option σ) : σ → List ε → Option σ
  | s, [] => some s
  | s, e :: es => (next s e).bind fun s' => runEvents next s' es

theorem reach_of_runEvents {ok : σ → ε → Prop} (hok : ∀ s e, ok s e) :
    ∀ (es : List ε) {s s' : σ}, Reach init next ok s → runEvents next s es = some s' → Reach init next ok s'
  | [], s, s', hs, h => by
    simp only [runEvents, Option.some.injEq] at h
    exact h ▸ hs
  | e :: es, s, s', hs, h => by
    simp only [runEvents, Option.bind_eq_some_iff] at h
    obtain ⟨s₁, h1, h2⟩ := h
    exact reach_of_runEvents hok es (.step hs (hok s e) h1) h2

/-- A list of events that runs and ends in a state with property `p` reaches
such a state. -/
theorem exists_reach_of_any {p : σ → Bool} {es : List ε} (h : (runEvents next init es).any p = true) :
    ∃ s, Reach init next (fun _ _ => True) s ∧ p s = true := by
  obtain ⟨s, hs, hp⟩ := (Option.any_eq_true _ _).1 h
  exact ⟨s, reach_of_runEvents (fun _ _ => trivial) es .init hs, hp⟩

theorem run_of_runEvents (es : List ε) {tr : List (Taken σ ε)} {s s' : σ} (hs : Run init next tr s)
    (h : runEvents next s es = some s') : ∃ tr', Run init next tr' s' := by
  induction es generalizing tr s with
  | nil =>
    simp only [runEvents, Option.some.injEq] at h
    exact ⟨tr, h ▸ hs⟩
  | cons e es ih =>
    simp only [runEvents, Option.bind_eq_some_iff] at h
    obtain ⟨s₁, h1, h2⟩ := h
    exact ih (.snoc hs h1) h2

/-- The same, with the run. -/
theorem exists_run_of_any {p : σ → Bool} {es : List ε} (h : (runEvents next init es).any p = true) :
    ∃ tr s, Run init next tr s ∧ p s = true := by
  obtain ⟨s, hs, hp⟩ := (Option.any_eq_true _ _).1 h
  obtain ⟨tr, htr⟩ := run_of_runEvents es .nil hs
  exact ⟨tr, s, htr, hp⟩

/-- Run a list of events and record the steps. -/
def traceEvents (next : σ → ε → Option σ) : σ → List ε → Option (List (Taken σ ε) × σ)
  | s, [] => some ([], s)
  | s, e :: es => (next s e).bind fun s' => (traceEvents next s' es).map fun r => (⟨s, e, s'⟩ :: r.1, r.2)

theorem run_of_traceEvents (es : List ε) {tr tr' : List (Taken σ ε)} {s s' : σ} (hs : Run init next tr s)
    (h : traceEvents next s es = some (tr', s')) : Run init next (tr ++ tr') s' := by
  induction es generalizing tr tr' s with
  | nil =>
    obtain ⟨rfl, rfl⟩ := Prod.mk.inj (Option.some.inj h)
    rwa [List.append_nil]
  | cons e es ih =>
    simp only [traceEvents, Option.bind_eq_some_iff, Option.map_eq_some_iff, Prod.mk.injEq] at h
    obtain ⟨s₁, h1, r, h2, rfl, rfl⟩ := h
    have := ih (.snoc hs h1) h2
    rwa [List.append_assoc, List.singleton_append] at this

/-- A list of events whose recorded run has property `p`. -/
theorem exists_trace_of_any {p : List (Taken σ ε) × σ → Bool} {es : List ε}
    (h : (traceEvents next init es).any p = true) : ∃ tr s, Run init next tr s ∧ p (tr, s) = true := by
  obtain ⟨⟨tr, s⟩, hs, hp⟩ := (Option.any_eq_true _ _).1 h
  exact ⟨tr, s, run_of_traceEvents es .nil hs, hp⟩

/-- Steps that pass a check. -/
def checked (ok : σ → ε → Bool) (next : σ → ε → Option σ) (s : σ) (e : ε) : Option σ := if ok s e then next s e else none

theorem Run.unchecked {ok : σ → ε → Bool} {tr : List (Taken σ ε)} {s : σ} (h : Run init (checked ok next) tr s) :
    Run init next tr s ∧ ∀ t ∈ tr, ok t.pre t.ev = true := by
  induction h with
  | nil => exact ⟨.nil, by simp⟩
  | snoc _ hn ih =>
    unfold checked at hn
    split at hn
    · rename_i hok
      refine ⟨.snoc ih.1 hn, fun t ht => ?_⟩
      rcases List.mem_append.1 ht with ht | ht
      · exact ih.2 t ht
      · rw [List.mem_singleton] at ht
        subst ht
        exact hok
    · cases hn

/-- A list of events that runs with a check before every step gives a run whose
steps all pass it. -/
theorem exists_checked_run_of_any {ok : σ → ε → Bool} {p : σ → Bool} {es : List ε}
    (h : (runEvents (checked ok next) init es).any p = true) :
    ∃ tr s, Run init next tr s ∧ (∀ t ∈ tr, ok t.pre t.ev = true) ∧ p s = true := by
  obtain ⟨tr, s, hrun, hp⟩ := exists_run_of_any h
  obtain ⟨hrun, hok⟩ := hrun.unchecked
  exact ⟨tr, s, hrun, hok, hp⟩

end Lib
