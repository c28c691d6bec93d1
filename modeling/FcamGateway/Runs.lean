import Mathlib.Data.List.Basic

/-! Runs of a system that takes one enabled action at a time. The rules here
name no system: an invariant is proved for one step and carried to every state
a run reaches, with or without a condition that each step of the run meets. -/
namespace FcamGateway.Runs

variable {State Action : Type}

/-- Take the actions in order. A disabled action ends the attempt: the sequence
is then not a run. -/
def run (step : State → Action → Option State) : State → List Action → Option State
  | start, [] => some start
  | start, action :: rest =>
    match step start action with
    | some next => run step next rest
    | none => none

/-- Every action of the sequence meets the guard in the state it is taken in. -/
def Meets (step : State → Action → Option State) (guard : State → Action → Prop) :
    State → List Action → Prop
  | _, [] => True
  | start, action :: rest => guard start action ∧
    ∀ next, step start action = some next → Meets step guard next rest

variable {step : State → Action → Option State} {guard : State → Action → Prop}

theorem run_cons (ran : run step start (action :: rest) = some last) :
    ∃ next, step start action = some next ∧ run step next rest = some last := by
  simp only [run] at ran
  split at ran
  · rename_i next taken
    exact ⟨next, taken, ran⟩
  · cases ran

/-- A sequence is a run exactly when both of its parts are, one after the other. -/
theorem run_append (front back : List Action) :
    run step start (front ++ back) =
      (run step start front).bind fun middle => run step middle back := by
  induction front generalizing start with
  | nil => rfl
  | cons action front ih =>
    simp only [List.cons_append, run]
    split
    · exact ih
    · rfl

/-- One more action at the end of a run. -/
theorem run_append_single {front : List Action} (ran : run step start front = some middle)
    (taken : step middle action = some last) :
    run step start (front ++ [action]) = some last := by
  rw [run_append, ran, Option.bind_some, run, taken]
  rfl

theorem meets_append_left (front back : List Action)
    (met : Meets step guard start (front ++ back)) : Meets step guard start front := by
  induction front generalizing start with
  | nil => trivial
  | cons action front ih => exact ⟨met.1, fun next taken => ih (met.2 next taken)⟩

theorem meets_append (front back : List Action) (met : Meets step guard start front)
    (rest : ∀ middle, run step start front = some middle → Meets step guard middle back) :
    Meets step guard start (front ++ back) := by
  induction front generalizing start with
  | nil => exact rest start rfl
  | cons action front ih =>
    refine ⟨met.1, fun next taken => ih (met.2 next taken) fun middle ran => rest middle ?_⟩
    simp only [run, taken]
    exact ran

/-- What each guarded step preserves, a run of guarded steps preserves. -/
theorem guarded_run_preserves {holds : State → Prop}
    (preserves : ∀ start action next, holds start → guard start action →
      step start action = some next → holds next)
    (actions : List Action) (held : holds start) (met : Meets step guard start actions)
    (ran : run step start actions = some last) : holds last := by
  induction actions generalizing start with
  | nil =>
    cases ran
    exact held
  | cons action actions ih =>
    obtain ⟨next, taken, rest⟩ := run_cons ran
    exact ih (preserves start action next held met.1 taken) (met.2 next taken) rest

/-- What every step preserves, every run preserves. -/
theorem run_preserves {holds : State → Prop}
    (preserves : ∀ start action next, holds start →
      step start action = some next → holds next)
    (actions : List Action) (held : holds start)
    (ran : run step start actions = some last) : holds last := by
  induction actions generalizing start with
  | nil =>
    cases ran
    exact held
  | cons action actions ih =>
    obtain ⟨next, taken, rest⟩ := run_cons ran
    exact ih (preserves start action next held taken) rest

/-- Where the guard says exactly when a step preserves something, a run meets the guard
exactly when every state on its way has it. -/
theorem meets_iff_reached {holds : State → Prop}
    (exact : ∀ start action next, holds start → step start action = some next →
      (guard start action ↔ holds next))
    (actions : List Action) (held : holds start) (ran : run step start actions = some last) :
    Meets step guard start actions ↔ ∀ front back middle, actions = front ++ back →
      run step start front = some middle → holds middle := by
  constructor
  · intro met front back middle split reached
    subst split
    exact guarded_run_preserves
      (fun start action next held guarded taken => (exact start action next held taken).mp guarded)
      front held (meets_append_left front back met) reached
  · intro reached
    induction actions generalizing start with
    | nil => trivial
    | cons action actions ih =>
      obtain ⟨next, taken, rest⟩ := run_cons ran
      have after : holds next := reached [action] actions next rfl (by simp only [run, taken])
      refine ⟨(exact start action next held taken).mpr after, fun other again => ?_⟩
      obtain rfl : next = other := Option.some.inj (taken.symm.trans again)
      refine ih after rest fun front back middle split ran => ?_
      refine reached (action :: front) back middle (by rw [split, List.cons_append]) ?_
      simp only [run, taken]
      exact ran

end FcamGateway.Runs
