import Gway.Library.Machine

/-! Machines that come to an end. Steps that count as work lower a rank, so there is only so
much of it, and a machine that goes on working gets to a state without any.
-/

universe u v

-----------------------------------------------------------------------------------------
-- Ranks of many tasks
-----------------------------------------------------------------------------------------

section RankAll

variable {Task : Type u} {rank : Task → Nat}

/-- The ranks of all tasks together. -/
def rankAll (rank : Task → Nat) : List Task → Nat
  | [] => 0
  | task :: rest => rank task + rankAll rank rest

@[simp] theorem rankAll_append (tasks more : List Task)
    : rankAll rank (tasks ++ more) = rankAll rank tasks + rankAll rank more := by
  induction tasks with
  | nil => simp [rankAll]
  | cons task rest ih => simp only [List.cons_append, rankAll, ih, Nat.add_assoc]

/-- Replacing one task counts its new rank for its old one, by induction on the tasks. -/
theorem rankAll_set {tasks : List Task} {id : Nat} {before after : Task}
    (present : tasks[id]? = some before)
    : rankAll rank (tasks.set id after) + rank before
      = rankAll rank tasks + rank after := by
  induction tasks generalizing id with
  | nil => cases present
  | cons task rest ih =>
      cases id with
      | zero =>
          obtain rfl := Option.some.inj present
          simp only [List.set_cons_zero, rankAll]
          omega
      | succ id =>
          have later := ih (show rest[id]? = some before from present)
          simp only [List.set_cons_succ, rankAll]
          omega

/-- So does changing one task in place. -/
theorem rankAll_modify {tasks : List Task} {id : Nat} {before : Task} {change : Task → Task}
    (present : tasks[id]? = some before)
    : rankAll rank (tasks.modify id change) + rank before
      = rankAll rank tasks + rank (change before) := by
  rw [← rankAll_set present, List.modify_eq_set_getElem?, present]
  rfl

end RankAll

namespace Machine

variable {State : Type u} {Action : Type v} {machine : Machine State Action}
  {working : State → Action → State → Prop} {invariant : State → Prop} {rank : State → Nat}

/-- Work lowers the rank in every state that has the invariant, which all steps keep. -/
structure Progress (machine : Machine State Action)
    (working : State → Action → State → Prop) (invariant : State → Prop)
    (rank : State → Nat)
    : Prop where
  keeps
    : ∀ before action after,
        invariant before → machine.step before action = some after → invariant after
  lowers
    : ∀ before action after,
        invariant before
        → machine.step before action = some after
        → working before action after
        → rank after < rank before

/-- There is no work that the machine could do. -/
def Idle (machine : Machine State Action) (working : State → Action → State → Prop)
    (state : State)
    : Prop :=
  ∀ action after, machine.step state action = some after → ¬ working state action after

/-- There is no more work than the rank says, by induction on the run. -/
theorem Progress.length_le (progress : Progress machine working invariant rank)
    {state final : State} {actions : List Action} (holds : invariant state)
    (ran : machine.run state actions = some final)
    (works : machine.EachStep working state actions)
    : actions.length + rank final ≤ rank state := by
  induction actions generalizing state with
  | nil =>
      cases Option.some.inj ran
      simp
  | cons action rest ih =>
      obtain ⟨next, stepped, later⟩ := run_cons.mp ran
      obtain ⟨worked, more⟩ := works next stepped
      have lower := progress.lowers state action next holds stepped worked
      have bounded := ih (progress.keeps state action next holds stepped) later more
      rw [List.length_cons]
      omega

/-- Work leads to a state where there is none left. Witness: strong induction on the rank. -/
theorem Progress.exists_idle (progress : Progress machine working invariant rank)
    {state : State} (holds : invariant state)
    : ∃ actions final,
        machine.run state actions = some final
        ∧ machine.EachStep working state actions
        ∧ machine.Idle working final := by
  induction bound : rank state using Nat.strongRecOn generalizing state with
  | ind bound ih =>
      by_cases more
        : ∃ action next, machine.step state action = some next ∧ working state action next
      · obtain ⟨action, next, stepped, worked⟩ := more
        have lower := progress.lowers state action next holds stepped worked
        obtain ⟨actions, final, ran, works, idle⟩
          := ih (rank next) (bound ▸ lower) (progress.keeps state action next holds stepped) rfl
        refine ⟨action :: actions, final, run_cons.mpr ⟨next, stepped, ran⟩, ?_, idle⟩
        intro other also
        cases Option.some.inj (stepped.symm.trans also)
        exact ⟨worked, works⟩
      · refine ⟨[], state, rfl, trivial, fun action next stepped worked => ?_⟩
        exact more ⟨action, next, stepped, worked⟩

end Machine
