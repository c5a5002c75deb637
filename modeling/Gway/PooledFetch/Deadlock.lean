import Gway.Library.Progress
import Gway.PooledFetch.MapOps

/-! The guards of the outer map cannot block each other for good. A process holds at most one of
them and waits for one only while it holds none.
-/

namespace Gway.PooledFetch.MapOps

variable {Shard : Type} {shard : SocketAddr → Shard} {state next : State}
  {before after : Process} {pool : Pool}

/-- How many operations a process has left at most. -/
def Process.rank : Process → Nat
  | .cleanup _ _ .started => 5
  | .cleanup _ _ .found => 4
  | .cleanup _ _ .removed => 3
  | .cleanup _ _ (.tested _) => 2
  | .cleanup _ _ .removingKey => 1
  | .drop _ .started => 4
  | .drop _ .entered => 3
  | .drop _ .defaulted => 2
  | .drop _ .inserted => 1
  | .take _ .started => 3
  | .take _ .found => 2
  | .take _ (.popped _) => 1
  | .cleanup _ _ .finished | .drop _ .finished | .take _ (.finished _) => 0

def State.rank (state : State) : Nat :=
  rankAll Process.rank state.processes

/-- The step is an operation of a process that runs. -/
def IsOp (_ : State) (action : Action) (_ : State) : Prop :=
  ∃ id, action = .op id

/-- A process is at its end. -/
def Process.Finished : Process → Prop
  | .cleanup _ _ .finished | .drop _ .finished | .take _ (.finished _) => True
  | _ => False

theorem ProcessStep.rank_lt (stepped : ProcessStep shard state before after pool)
    : after.rank < before.rank := by
  cases stepped <;> simp [Process.rank]

/-- Every operation leaves fewer operations. -/
theorem mapOps_progress [DecidableEq Shard] (shard : SocketAddr → Shard)
    : (mapOps shard).Progress IsOp (fun _ => True) State.rank := by
  constructor
  · exact fun _ _ _ _ _ => trivial
  · rintro before action after - stepped ⟨id, rfl⟩
    obtain ⟨process, process', pool, present, done, rfl⟩ := step_op_eq_some stepped
    have counted
        : rankAll Process.rank (before.processes.set id process') + process.rank
          = rankAll Process.rank before.processes + process'.rank :=
      rankAll_set present
    have lower := done.rank_lt
    simp only [State.rank, State.advance]
    omega

/-- A process with a guard can do its next operation. -/
theorem stepProcess_of_guard [DecidableEq Shard] {guard : Guard}
    (holds : before.guard = some guard)
    : (stepProcess shard state before).isSome := by
  cases before with
  | cleanup addr peerAddr phase => cases phase <;> first | rfl | cases holds
  | drop body phase => cases phase <;> first | rfl | cases holds
  | take addr phase => cases phase <;> first | rfl | cases holds

/-- Without any guards every process that is not at its end can. -/
theorem stepProcess_of_free [DecidableEq Shard] (unfinished : ¬ before.Finished)
    (free : ∀ wanted, state.Free shard wanted)
    : (stepProcess shard state before).isSome := by
  cases before with
  | cleanup addr peerAddr phase =>
      cases phase with
      | started =>
          simp only [stepProcess, free, if_true]
          cases state.pool.lookup addr <;> rfl
      | removingKey => simp [stepProcess, free]
      | finished => exact absurd trivial unfinished
      | _ => rfl
  | drop body phase =>
      cases phase with
      | started => simp [stepProcess, free]
      | finished => exact absurd trivial unfinished
      | _ => rfl
  | take addr phase =>
      cases phase with
      | started =>
          simp only [stepProcess, free, if_true]
          cases state.pool.lookup addr <;> rfl
      | finished conn => exact absurd trivial unfinished
      | _ => rfl

/-- A machine without work left has no process that could do an operation. -/
theorem stepProcess_of_idle [DecidableEq Shard] (idle : (mapOps shard).Idle IsOp state)
    (member : before ∈ state.processes)
    : stepProcess shard state before = none := by
  obtain ⟨id, present⟩ := List.getElem?_of_mem member
  cases stepped : stepProcess shard state before with
  | none => rfl
  | some result =>
      exact absurd ⟨id, rfl⟩ (idle (.op id) (state.advance id result.1 result.2)
        (by simp [mapOps, step, present, stepped]))

/-- Some process can do an operation unless all are at their ends. Witness: one that holds a
guard, or any other one if there is none.
-/
theorem finished_of_idle [DecidableEq Shard] (idle : (mapOps shard).Idle IsOp state)
    : ∀ process ∈ state.processes, process.Finished := by
  have bare (process : Process) (member : process ∈ state.processes) : process.guard = none := by
    cases holds : process.guard with
    | none => rfl
    | some guard =>
        have moves : (stepProcess shard state process).isSome := stepProcess_of_guard holds
        rw [stepProcess_of_idle idle member] at moves
        cases moves
  intro process member
  by_contra unfinished
  have free (wanted : Guard) : state.Free shard wanted := by
    intro other among held holds
    rw [bare other among] at holds
    cases holds
  have moves : (stepProcess shard state process).isSome :=
    stepProcess_of_free unfinished free
  rw [stepProcess_of_idle idle member] at moves
  cases moves

/-- The pool's code never blocks: from every state of the maps the processes that run can do no
more operations than their phases have left, in any order, and as long as one of them is not
at its end some process can do its next one. So all of them come to their ends.
-/
theorem mapOps_finishes [DecidableEq Shard] (shard : SocketAddr → Shard) (state : State)
    : (∀ actions final,
        (mapOps shard).run state actions = some final
        → (∀ action ∈ actions, ∃ id, action = .op id)
        → actions.length + final.rank ≤ state.rank)
      ∧ ((mapOps shard).Idle IsOp state → ∀ process ∈ state.processes, process.Finished)
      ∧ ∃ actions final,
          (mapOps shard).run state actions = some final
          ∧ ∀ process ∈ final.processes, process.Finished := by
  refine ⟨?_, finished_of_idle, ?_⟩
  · intro actions final ran ops
    exact (mapOps_progress shard).length_le trivial ran
      (Machine.eachStep_of_actions fun action member _ _ => ops action member)
  · obtain ⟨actions, final, ran, -, idle⟩ := (mapOps_progress shard).exists_idle trivial
    exact ⟨actions, final, ran, finished_of_idle idle⟩

end Gway.PooledFetch.MapOps
