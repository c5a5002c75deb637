import Mathlib.Data.List.Basic
import Mathlib.Order.Basic

/-! Machines whose every step is chosen by an action, and the rules that carry a property
of single steps to all states of a run. A run is a list of actions; an action that the
machine refuses ends the run.
-/

universe u v w

/-- A machine starts in `init` and takes an action by a partial step function. -/
structure Machine (State : Type u) (Action : Type v) where
  init : State
  step : State → Action → Option State

namespace Machine

variable {State : Type u} {Action : Type v} {machine : Machine State Action}

/-- The state after the actions in order, or none as soon as one of them is refused. -/
def run (machine : Machine State Action) (state : State) : List Action → Option State
  | [] => some state
  | action :: rest =>
      (machine.step state action).bind (fun next => machine.run next rest)

/-- A state is reachable when some list of actions leads to it from the initial state. -/
def Reachable (machine : Machine State Action) (state : State) : Prop :=
  ∃ actions, machine.run machine.init actions = some state

/-- A nonempty run is its first step followed by the run from there. -/
theorem run_cons {state final : State} {action : Action} {rest : List Action}
    : machine.run state (action :: rest) = some final
      ↔ ∃ next,
          machine.step state action = some next ∧ machine.run next rest = some final := by
  simp only [run, Option.bind_eq_some_iff]

/-- Two runs in a row are one, by induction on the first. -/
theorem run_append {state middle final : State} {first second : List Action}
    (ran : machine.run state first = some middle)
    (later : machine.run middle second = some final)
    : machine.run state (first ++ second) = some final := by
  induction first generalizing state with
  | nil =>
      cases Option.some.inj ran
      exact later
  | cons action rest ih =>
      obtain ⟨next, stepped, ran⟩ := run_cons.mp ran
      exact run_cons.mpr ⟨next, stepped, ih ran⟩

/-- A property that every step keeps holds at the end of a run if it holds at its start.
Witness: induction on the actions, generalizing over the first state.
-/
theorem run_invariant {property : State → Prop} {state final : State}
    {actions : List Action}
    (kept
      : ∀ before action after,
          property before → machine.step before action = some after → property after)
    (holds : property state) (ran : machine.run state actions = some final)
    : property final := by
  induction actions generalizing state with
  | nil => exact Option.some.inj ran ▸ holds
  | cons action rest ih =>
      obtain ⟨next, stepped, later⟩ := run_cons.mp ran
      exact ih (kept state action next holds stepped) later

/-- A property of the actions so far and the state that every step carries on holds at the end
of a run. Witness: induction on the actions, generalizing over those before them.
-/
theorem run_records (property : List Action → State → Prop) {past actions : List Action}
    {state final : State}
    (carried
      : ∀ past before action after,
          property past before
          → machine.step before action = some after
          → property (past ++ [action]) after)
    (holds : property past state) (ran : machine.run state actions = some final)
    : property (past ++ actions) final := by
  induction actions generalizing state past with
  | nil =>
      cases Option.some.inj ran
      simpa using holds
  | cons action rest ih =>
      obtain ⟨next, stepped, later⟩ := run_cons.mp ran
      simpa using ih (carried past state action next holds stepped) later

/-- A property of the initial state that every step keeps holds in every reachable state,
by the run invariant from the initial state.
-/
theorem Reachable.invariant {property : State → Prop} {state : State}
    (reached : machine.Reachable state)
    (start : property machine.init)
    (kept
      : ∀ before action after,
          property before → machine.step before action = some after → property after)
    : property state := by
  obtain ⟨actions, ran⟩ := reached
  exact run_invariant kept start ran

/-- What every step lowers, keeps or raises at most to the demand after it is at the end of a run
at most what it was at its start, or has been demanded in between. Witness: induction on the
actions.
-/
theorem le_or_demanded {Measure : Type w} [Preorder Measure] {used demand : State → Measure}
    {state final : State} {actions : List Action}
    (raises
      : ∀ before action after,
          machine.step before action = some after
          → used after ≤ used before ∨ used after ≤ demand after)
    (ran : machine.run state actions = some final)
    : used final ≤ used state
      ∨ ∃ before after middle,
          actions = before ++ after
          ∧ machine.run state before = some middle
          ∧ used final ≤ demand middle := by
  induction actions generalizing state with
  | nil =>
      cases Option.some.inj ran
      exact .inl le_rfl
  | cons action rest ih =>
      obtain ⟨next, stepped, later⟩ := run_cons.mp ran
      rcases ih later with unraised | ⟨before, after, middle, split, reached, demanded⟩
      · rcases raises state action next stepped with old | new
        · exact .inl (unraised.trans old)
        · exact .inr
            ⟨[action], rest, next, rfl, run_cons.mpr ⟨next, stepped, rfl⟩, unraised.trans new⟩
      · refine .inr ⟨action :: before, after, middle, by rw [split]; rfl, ?_, demanded⟩
        exact run_cons.mpr ⟨next, stepped, reached⟩

-----------------------------------------------------------------------------------------
-- Properties of all states and of all steps of a run
-----------------------------------------------------------------------------------------

/-- Every state that the run visits has the property, the first and the last included. -/
def Always (machine : Machine State Action) (property : State → Prop) (state : State)
    : List Action → Prop
  | [] => property state
  | action :: rest =>
      property state
      ∧ ∀ next, machine.step state action = some next → machine.Always property next rest

/-- Every step that the run takes meets the condition on its ends and its action. -/
def EachStep (machine : Machine State Action)
    (condition : State → Action → State → Prop) (state : State)
    : List Action → Prop
  | [] => True
  | action :: rest =>
      ∀ next,
        machine.step state action = some next
        → condition state action next ∧ machine.EachStep condition next rest

instance decidableAlways (property : State → Prop) [DecidablePred property]
    : (state : State) → (actions : List Action)
      → Decidable (machine.Always property state actions)
  | state, [] => inferInstanceAs (Decidable (property state))
  | state, action :: rest =>
      match stepped : machine.step state action with
      | none => decidable_of_iff (property state) (by simp [Always, stepped])
      | some next =>
          have := decidableAlways property next rest
          decidable_of_iff (property state ∧ machine.Always property next rest) (by
            simp [Always, stepped])

instance decidableEachStep (condition : State → Action → State → Prop)
    [∀ before action after, Decidable (condition before action after)]
    : (state : State) → (actions : List Action)
      → Decidable (machine.EachStep condition state actions)
  | _, [] => inferInstanceAs (Decidable True)
  | state, action :: rest =>
      match stepped : machine.step state action with
      | none => isTrue (by simp [EachStep, stepped])
      | some next =>
          have := decidableEachStep condition next rest
          decidable_of_iff
            (condition state action next ∧ machine.EachStep condition next rest) (by
            simp [EachStep, stepped])

/-- A condition that the actions alone guarantee holds of all steps, by induction on them. -/
theorem eachStep_of_actions {condition : State → Action → State → Prop} {state : State}
    {actions : List Action}
    (met : ∀ action ∈ actions, ∀ before after, condition before action after)
    : machine.EachStep condition state actions := by
  induction actions generalizing state with
  | nil => trivial
  | cons action rest ih =>
      obtain ⟨first, later⟩ := List.forall_mem_cons.mp met
      exact fun next _ => ⟨first state next, ih later⟩

/-- Two conditions that all steps meet are met by all steps together, by induction. -/
theorem EachStep.and {one other : State → Action → State → Prop} {state : State}
    {actions : List Action} (each : machine.EachStep one state actions)
    (also : machine.EachStep other state actions)
    : machine.EachStep
        (fun before action after => one before action after ∧ other before action after)
        state actions := by
  induction actions generalizing state with
  | nil => trivial
  | cons action rest ih =>
      intro next stepped
      obtain ⟨met, later⟩ := each next stepped
      obtain ⟨met_also, later_also⟩ := also next stepped
      exact ⟨⟨met, met_also⟩, ih later later_also⟩

/-- A property of all visited states holds in the first one. -/
theorem Always.first {property : State → Prop} {state : State} {actions : List Action}
    (always : machine.Always property state actions)
    : property state := by
  cases actions with
  | nil => exact always
  | cons action rest => exact always.1

/-- A property of all visited states holds in the last one, by induction on the run. -/
theorem Always.last {property : State → Prop} {state final : State}
    {actions : List Action} (always : machine.Always property state actions)
    (ran : machine.run state actions = some final)
    : property final := by
  induction actions generalizing state with
  | nil => exact Option.some.inj ran ▸ always
  | cons action rest ih =>
      obtain ⟨next, stepped, later⟩ := run_cons.mp ran
      exact ih (always.2 next stepped) later

/-- A weaker property holds in all visited states as well, by induction on the run. -/
theorem Always.mono {strong weak : State → Prop} {state : State} {actions : List Action}
    (implied : ∀ state, strong state → weak state)
    (always : machine.Always strong state actions)
    : machine.Always weak state actions := by
  induction actions generalizing state with
  | nil => exact implied state always
  | cons action rest ih =>
      exact ⟨implied state always.1, fun next stepped => ih (always.2 next stepped)⟩

/-- What a property of a state implies for every step from it holds of all steps of a run
whose states have the property, by induction on the run.
-/
theorem Always.eachStep {property : State → Prop}
    {condition : State → Action → State → Prop} {state : State} {actions : List Action}
    (implied
      : ∀ before action after,
          property before
          → machine.step before action = some after
          → condition before action after)
    (always : machine.Always property state actions)
    : machine.EachStep condition state actions := by
  induction actions generalizing state with
  | nil => trivial
  | cons action rest ih =>
      intro next stepped
      exact ⟨implied state action next always.1 stepped, ih (always.2 next stepped)⟩

/-- What a condition on a step implies, if the state before it has a property, holds of all
steps of a run that meets the condition and keeps the property, by induction on the run.
-/
theorem EachStep.mono {property : State → Prop}
    {condition weaker : State → Action → State → Prop} {state : State}
    {actions : List Action}
    (implied
      : ∀ before action after,
          property before
          → machine.step before action = some after
          → condition before action after
          → weaker before action after)
    (each : machine.EachStep condition state actions)
    (always : machine.Always property state actions)
    : machine.EachStep weaker state actions := by
  induction actions generalizing state with
  | nil => trivial
  | cons action rest ih =>
      intro next stepped
      obtain ⟨met, later⟩ := each next stepped
      exact ⟨implied state action next always.1 stepped met, ih later (always.2 next stepped)⟩

/-- An invariant that only the steps meeting a condition keep holds in all states of a run
whose steps all meet it. Witness: induction on the run, one conditioned step at a time.
-/
theorem EachStep.always {invariant : State → Prop}
    {condition : State → Action → State → Prop} {state : State} {actions : List Action}
    (each : machine.EachStep condition state actions)
    (kept
      : ∀ before action after,
          invariant before
          → machine.step before action = some after
          → condition before action after
          → invariant after)
    (start : invariant state)
    : machine.Always invariant state actions := by
  induction actions generalizing state with
  | nil => exact start
  | cons action rest ih =>
      refine ⟨start, fun next stepped => ?_⟩
      obtain ⟨met, later⟩ := each next stepped
      exact ih later (kept state action next start stepped met)

/-- When a condition decides of every single step whether the property survives it, the
property holds throughout a run exactly if all its steps meet the condition.
Witness: induction on the run; the invariant carries what the decision relies on.
-/
theorem always_iff_eachStep (invariant : State → Prop) {property : State → Prop}
    {condition : State → Action → State → Prop} {state : State} {actions : List Action}
    (decides
      : ∀ before action after,
          invariant before
          → property before
          → machine.step before action = some after
          → (property after ↔ condition before action after))
    (kept
      : ∀ before action after,
          invariant before
          → property before
          → machine.step before action = some after
          → condition before action after
          → invariant after)
    (start : invariant state) (holds : property state)
    : machine.Always property state actions
      ↔ machine.EachStep condition state actions := by
  induction actions generalizing state with
  | nil => exact ⟨fun _ => trivial, fun _ => holds⟩
  | cons action rest ih =>
      constructor
      · intro always next stepped
        have later := always.2 next stepped
        have met := (decides state action next start holds stepped).mp later.first
        have next_inv := kept state action next start holds stepped met
        exact ⟨met, (ih next_inv later.first).mp later⟩
      · intro each
        refine ⟨holds, fun next stepped => ?_⟩
        obtain ⟨met, later⟩ := each next stepped
        have next_inv := kept state action next start holds stepped met
        have next_holds := (decides state action next start holds stepped).mpr met
        exact (ih next_inv next_holds).mpr later

/-- Two conditions that agree on every step from a state with the invariant agree on runs.
Witness: induction on the run; the invariant is kept by every step.
-/
theorem eachStep_congr {invariant : State → Prop}
    {left right : State → Action → State → Prop} {state : State} {actions : List Action}
    (agree
      : ∀ before action after,
          invariant before
          → machine.step before action = some after
          → (left before action after ↔ right before action after))
    (kept
      : ∀ before action after,
          invariant before → machine.step before action = some after → invariant after)
    (start : invariant state)
    : machine.EachStep left state actions ↔ machine.EachStep right state actions := by
  induction actions generalizing state with
  | nil => exact Iff.rfl
  | cons action rest ih =>
      refine forall_congr' fun next => forall_congr' fun stepped => ?_
      exact and_congr (agree state action next start stepped)
        (ih (kept state action next start stepped))

end Machine
