import Gway.Library.Machine

/-! Simulations between machines. Each step of the concrete machine is matched by a run of the
abstract one, which may be empty, so every concrete run has an abstract one beside it.
-/

universe u v w x

namespace Machine

variable {State : Type u} {Action : Type v} {Abstract : Type w} {AbstractAction : Type x}

/-- What the concrete run does in terms of the abstract machine, step after step. -/
def trace (machine : Machine State Action) (matched : State → Action → List AbstractAction)
    (state : State)
    : List Action → List AbstractAction
  | [] => []
  | action :: rest =>
      matched state action
      ++ match machine.step state action with
        | none => []
        | some next => machine.trace matched next rest

/-- The states in relation start in relation, and matched steps keep them so. -/
structure Simulation (concrete : Machine State Action)
    (abstract : Machine Abstract AbstractAction)
    (matched : State → Action → List AbstractAction) (related : State → Abstract → Prop)
    : Prop where
  init : related concrete.init abstract.init
  step
    : ∀ before action after spec,
        related before spec
        → concrete.step before action = some after
        → ∃ next, abstract.run spec (matched before action) = some next ∧ related after next

variable {concrete : Machine State Action} {abstract : Machine Abstract AbstractAction}
  {matched : State → Action → List AbstractAction} {related : State → Abstract → Prop}

/-- From related states every concrete run has its trace as an abstract run, and both end in
related states. Witness: induction on the actions, one matched step at a time.
-/
theorem Simulation.run_from (simulation : Simulation concrete abstract matched related)
    {state final : State} {spec : Abstract} {actions : List Action}
    (start : related state spec) (ran : concrete.run state actions = some final)
    : ∃ last,
        abstract.run spec (concrete.trace matched state actions) = some last
        ∧ related final last := by
  induction actions generalizing state spec with
  | nil => exact ⟨spec, rfl, Option.some.inj ran ▸ start⟩
  | cons action rest ih =>
      obtain ⟨next, stepped, later⟩ := run_cons.mp ran
      obtain ⟨middle, steps, kept⟩ := simulation.step state action next spec start stepped
      obtain ⟨last, reached, ended⟩ := ih kept later
      refine ⟨last, ?_, ended⟩
      rw [trace, stepped]
      exact run_append steps reached

/-- So has a run from the initial state. -/
theorem Simulation.run (simulation : Simulation concrete abstract matched related)
    {final : State} {actions : List Action}
    (ran : concrete.run concrete.init actions = some final)
    : ∃ last,
        abstract.run abstract.init (concrete.trace matched concrete.init actions) = some last
        ∧ related final last :=
  simulation.run_from simulation.init ran

/-- Every reachable state is related to a reachable one. -/
theorem Simulation.reachable (simulation : Simulation concrete abstract matched related)
    {state : State} (reached : concrete.Reachable state)
    : ∃ spec, abstract.Reachable spec ∧ related state spec := by
  obtain ⟨actions, ran⟩ := reached
  obtain ⟨spec, matches_run, holds⟩ := simulation.run ran
  exact ⟨spec, ⟨_, matches_run⟩, holds⟩

end Machine
