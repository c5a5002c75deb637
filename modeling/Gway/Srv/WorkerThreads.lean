import Gway.Srv.ConnLock
import Gway.Srv.GracefulDrain

/-! The gateway on a given number of worker threads. `conn_lock.read()` blocks the thread that
polls the task of a connection, so the tasks that wait for their guards take the threads
away from those that hold one.
-/

namespace Gway.Srv

/-- The worker threads that are blocked in `conn_lock.read()`, one for each waiting task. -/
def State.blocked (state : State) : Nat :=
  state.conns.countP (·.phase = .waiting)

/-- A step that polls a task needs a worker thread. `srv` runs on a thread of its own, and a
task that is granted its read guard is on the thread that it has blocked.
-/
def Action.needsWorker : Action → Bool
  | .main _ | .conn _ .lock => false
  | _ => true

/-- One step on the given number of worker threads. A thread in the middle of a poll counts
as free, because the poll of a task that is not blocked always comes to an end.
-/
def workerStep (workers : Nat) (state : State) (action : Action) : Option State :=
  if action.needsWorker = true → state.blocked < workers then step false state action
  else none

/-- The gateway on a number of worker threads, with parking_lot's `conn_lock`. -/
def workerThreads (workers : Nat) : Machine State Action where
  init := .init
  step := workerStep workers

/-- Every accept loop has ended. -/
def State.LoopsEnded (state : State) : Prop :=
  ∀ service, ∃ how joined, state.services service = .ended how joined

/-- A worker thread can poll a connection task that is ready, where clients keep sending, or
`srv` can go on, which is to take `conn_lock.write()` once the services are joined.
-/
def State.CanMove (workers : Nat) (state : State) : Prop :=
  (∃ conn action, (workerStep workers state (.conn conn action)).isSome = true)
  ∨ ∃ action, (stepMain state action).isSome = true

/-- After the accept loops have ended something can move until `srv` has returned. -/
def Progress (workers : Nat) (state : State) : Prop :=
  state.LoopsEnded → state.main ≠ .returned → state.CanMove workers

/-- When `srv` begins to wait for the write guard, and when a worker thread takes up the task
of another connection while `srv` waits, either no connection holds a read guard or one more
worker thread is not blocked.
-/
def KeepsWorker (workers : Nat) (before : State) (action : Action) (_after : State) : Prop :=
  match action with
  | .main .joinEnd => before.connLock.readers ≠ [] → before.blocked < workers
  | .conn _ .start =>
      before.main = .draining → before.connLock.readers ≠ [] → before.blocked + 1 < workers
  | _ => True

instance (workers : Nat) (before : State) (action : Action) (after : State)
    : Decidable (KeepsWorker workers before action after) := by
  unfold KeepsWorker
  split <;> infer_instance

/-- `srv` waits for a connection that no worker thread is left to serve. -/
def Stuck (workers : Nat) (state : State) : Prop :=
  state.main = .draining ∧ state.connLock.readers ≠ [] ∧ workers ≤ state.blocked

instance (workers : Nat) (state : State) : Decidable (Stuck workers state) :=
  inferInstanceAs (Decidable (_ ∧ _ ∧ _))

/-- What the three invariants say about the states that the machine reaches. -/
structure WorkerInvariant (state : State) : Prop where
  order : state.SpawnOrder
  drain : DrainInvariant state
  lock : ConnLockInvariant state

variable {workers : Nat} {state next : State}

/-- A step on worker threads is a step of the gateway. -/
theorem step_of_workerStep {action : Action}
    (stepped : workerStep workers state action = some next)
    : step false state action = some next :=
  (Option.ite_none_right_eq_some.mp stepped).2

theorem WorkerInvariant.init : WorkerInvariant State.init :=
  ⟨.init, .init, .init⟩

theorem WorkerInvariant.step {action : Action} (inv : WorkerInvariant state)
    (stepped : workerStep workers state action = some next)
    : WorkerInvariant next := by
  have stepped := step_of_workerStep stepped
  exact ⟨inv.order.step stepped, inv.drain.step inv.order stepped, inv.lock.step stepped⟩

-----------------------------------------------------------------------------------------
-- Which states are stuck
-----------------------------------------------------------------------------------------

/-- In a stuck state nothing moves: the readers keep `srv` waiting, `srv` keeps the waiting
tasks blocked, and these leave the readers no thread.
-/
theorem Stuck.not_canMove (inv : WorkerInvariant state) (stuck : Stuck workers state)
    : ¬ state.CanMove workers := by
  obtain ⟨draining, readers, blocked⟩ := stuck
  rintro (⟨conn, action, moves⟩ | ⟨action, moves⟩)
  · obtain ⟨after, stepped⟩ := Option.isSome_iff_exists.mp moves
    cases action with
    | lock =>
        have stepped := step_of_workerStep stepped
        obtain ⟨-, granted⟩ := Option.ite_none_right_eq_some.mp stepped
        obtain ⟨lock, acquired, rfl⟩ := Option.map_eq_some_iff.mp granted
        have free := (RwLock.acquireRead_eq_some.mp acquired).1
        have empty := free.2.resolve_left (by simp)
        exact inv.lock.queue draining empty
    | _ =>
        have worker := (Option.ite_none_right_eq_some.mp stepped).1 rfl
        omega
  · obtain ⟨after, stepped⟩ := Option.isSome_iff_exists.mp moves
    cases action with
    | lockConns =>
        obtain ⟨-, granted⟩ := Option.ite_none_right_eq_some.mp stepped
        obtain ⟨lock, acquired, rfl⟩ := Option.map_eq_some_iff.mp granted
        exact readers (RwLock.acquireWrite_eq_some.mp acquired).1.2
    | joinNext service =>
        simp only [stepMain] at stepped
        split at stepped <;> simp [draining] at stepped
    | _ => simp [stepMain, draining] at stepped

/-- Once the accept loops have ended `srv` has spawned all three services. -/
theorem State.LoopsEnded.spawned (ended : state.LoopsEnded) (order : state.SpawnOrder)
    : state.main.unspawned = [] := by
  refine List.eq_nil_iff_forall_not_mem.mpr fun service pending => ?_
  obtain ⟨how, joined, phase⟩ := ended service
  cases phase.symm.trans (order service pending)

/-- Where the accept loops have ended, every state that is not stuck can move.
Witness: `srv` joins while it can, a served connection is polled by a free thread, and
without served connections `srv` is granted the write guard.
-/
theorem canMove_of_not_stuck (inv : WorkerInvariant state) (ended : state.LoopsEnded)
    (unreturned : state.main ≠ .returned) (free : ¬ Stuck workers state)
    : state.CanMove workers := by
  have spawned := ended.spawned inv.order
  cases main : state.main with
  | joining =>
      by_cases joined : state.AllJoined
      · exact Or.inr ⟨.joinEnd, by simp [stepMain, main, joined]⟩
      · obtain ⟨service, open_⟩ := not_forall.mp joined
        obtain ⟨how, reaped, phase⟩ := ended service
        rw [phase, ServicePhase.joined, Bool.not_eq_true] at open_
        subst open_
        exact Or.inr ⟨.joinNext service, by simp [stepMain, main, phase]⟩
  | draining =>
      have unlocked : state.connLock.writer = none := by
        by_contra held
        cases main.symm.trans (inv.lock.writer held)
      cases readers : state.connLock.readers with
      | nil =>
          refine Or.inr ⟨.lockConns, ?_⟩
          simp [stepMain, main, RwLock.acquireWrite, unlocked, readers]
      | cons conn rest =>
          have serving := (inv.lock.readers conn).mp (by simp [readers])
          have worker : state.blocked < workers := by
            by_contra none
            exact free ⟨main, by simp [readers], Nat.le_of_not_lt none⟩
          exact Or.inl ⟨conn, .finish, by simp [workerStep, worker, step, stepConn, serving]⟩
  | locked => exact Or.inr ⟨.unlockConns, by simp [stepMain, main]⟩
  | unlocked => exact Or.inr ⟨.ret, by simp [stepMain, main]⟩
  | returned => exact absurd main unreturned
  | spawning service => cases service <;> simp [main, MainPhase.unspawned] at spawned
  | _ => simp [main, MainPhase.unspawned] at spawned

/-- There is progress in a state exactly if it is not stuck. -/
theorem progress_iff (inv : WorkerInvariant state)
    : Progress workers state ↔ ¬ Stuck workers state := by
  constructor
  · intro progress stuck
    have ended : state.LoopsEnded := by
      intro service
      have joined := inv.drain.joined (Or.inl stuck.1) service
      obtain ⟨how, ended⟩ := (joined_iff _).mp joined
      exact ⟨how, true, ended⟩
    exact stuck.not_canMove inv (progress ended (by simp [stuck.1]))
  · intro free ended unreturned
    exact canMove_of_not_stuck inv ended unreturned free

-----------------------------------------------------------------------------------------
-- Which steps get the gateway stuck
-----------------------------------------------------------------------------------------

/-- A change of one element of a list changes a count by that element. -/
private theorem countP_modify {Element : Type} (elements : List Element)
    (counted : Element → Bool) (change : Element → Element) {index : Nat} {found : Element}
    (present : elements[index]? = some found)
    : (elements.modify index change).countP counted + (counted found).toNat
      = elements.countP counted + (counted (change found)).toNat := by
  induction elements generalizing index with
  | nil => simp at present
  | cons first rest ih =>
      cases index with
      | zero =>
          obtain rfl := Option.some.inj present
          cases before : counted first <;> cases after : counted (change first) <;>
            simp [before, after]
      | succ index =>
          have later := ih present
          cases counts : counted first <;> simp [counts] <;> omega

/-- A connection that changes its phase changes the number of blocked worker threads by
itself.
-/
theorem blocked_setConn {conn : ConnId} {before : ConnPhase}
    (present : state.connPhase conn = some before) (after : ConnPhase)
    : (state.setConn conn after).blocked + (decide (before = .waiting)).toNat
      = state.blocked + (decide (after = .waiting)).toNat := by
  obtain ⟨found, at_, rfl⟩ := Option.map_eq_some_iff.mp present
  exact countP_modify state.conns (·.phase = .waiting) _ at_

/-- While `srv` drains, a step gets the gateway stuck exactly if it begins the wait or takes
up another connection without leaving a worker thread. Witness: the services have ended, no
waiting task is granted its guard, and all other polls need a thread that stays free.
-/
theorem progress_step_iff {action : Action} (inv : WorkerInvariant state)
    (progress : Progress workers state)
    (stepped : workerStep workers state action = some next)
    : Progress workers next ↔ KeepsWorker workers state action next := by
  rw [progress_iff (inv.step stepped)]
  have free := (progress_iff inv).mp progress
  have worker := (Option.ite_none_right_eq_some.mp stepped).1
  have moved := step_of_workerStep stepped
  cases action with
  | main action =>
      have moved : stepMain state action = some next := moved
      cases action with
      | joinEnd =>
          obtain ⟨-, done⟩ := Option.ite_none_right_eq_some.mp moved
          cases done
          simp [Stuck, KeepsWorker, State.blocked, RwLock.enqueue]
      | _ =>
          have target := stepMain_target moved
          have elsewhere : next.main ≠ .draining :=
            fun draining => by simp [MainAction.targets, draining] at target
          exact iff_of_true (fun stuck => elsewhere stuck.1) trivial
  | stop action =>
      obtain ⟨_, _, _, rfl⟩ := stepStop_frame moved
      exact iff_of_true free trivial
  | request request action =>
      obtain ⟨_, rfl⟩ := stepRequest_frame moved
      exact iff_of_true free trivial
  | service service action =>
      have running : state.main ≠ .draining := by
        intro draining
        have none := inv.drain.services_stopped (Or.inl draining) service action
        simp [step, none] at moved
      obtain ⟨_, _, _, rfl⟩ := stepService_frame moved
      exact iff_of_true (fun stuck => running stuck.1) trivial
  | conn conn action =>
      cases action with
      | start =>
          obtain ⟨spawned, done⟩ := Option.ite_none_right_eq_some.mp moved
          cases done
          have grows := blocked_setConn spawned .waiting
          simp only [reduceCtorEq, decide_false, Bool.toNat_false, decide_true,
            Bool.toNat_true, Nat.add_zero] at grows
          simp only [Stuck, setConn_main, setConn_connLock, grows, KeepsWorker, not_and,
            Nat.not_le]
      | lock =>
          obtain ⟨waiting, granted⟩ := Option.ite_none_right_eq_some.mp moved
          obtain ⟨lock, acquired, rfl⟩ := Option.map_eq_some_iff.mp granted
          have readable := (RwLock.acquireRead_eq_some.mp acquired).1
          have empty := readable.2.resolve_left (by simp)
          exact iff_of_true (fun stuck => inv.lock.queue stuck.1 empty) trivial
      | finish =>
          obtain ⟨serving, done⟩ := Option.ite_none_right_eq_some.mp moved
          cases done
          have same := blocked_setConn serving .finished
          simp only [reduceCtorEq, decide_false, Bool.toNat_false, Nat.add_zero] at same
          refine iff_of_true (fun stuck => ?_) trivial
          have none : workers ≤ (state.setConn conn .finished).blocked := stuck.2.2
          have some := worker rfl
          omega
      | request =>
          obtain ⟨-, done⟩ := Option.ite_none_right_eq_some.mp moved
          cases done
          exact iff_of_true free trivial

/-- With any number of worker threads, something can move in every state of a run from the
end of the accept loops to the return of `srv` exactly if every step of the run leaves a
worker thread to the connections that `srv` waits for.
-/
theorem srv_progress_iff (workers : Nat) (actions : List Action)
    : (workerThreads workers).Always (Progress workers) .init actions
      ↔ (workerThreads workers).EachStep (KeepsWorker workers) .init actions := by
  refine Machine.always_iff_eachStep WorkerInvariant
    (fun before action after inv progress stepped => progress_step_iff inv progress stepped)
    (fun before action after inv _ stepped _ => inv.step stepped) .init ?_
  exact (progress_iff .init).mpr (by simp [Stuck, State.init])

/-- Two connections are accepted, of which only the first is served before `srv` waits for
the write guard. Then the task of the second is polled.
-/
def takesLastWorker : List Action :=
  acceptOne ++ [.conn 0 .start, .conn 0 .lock, .service .h1 .accept, .service .h1 .spawnConn]
    ++ stopServices ++ [.conn 1 .start]

/-- On one worker thread nothing can move at the end of that run, although the first client
keeps sending. Witness: the end of the run by evaluation, which is stuck.
-/
theorem takesLastWorker_deadlock
    : ∃ state,
        (workerThreads 1).run .init takesLastWorker = some state
        ∧ state.LoopsEnded
        ∧ state.main ≠ .returned
        ∧ ¬ state.CanMove 1 := by
  have ended
      : ((workerThreads 1).run .init takesLastWorker).map
          (fun state => (decide (Stuck 1 state), decide state.AllJoined))
        = some (true, true) := by
    decide
  obtain ⟨state, ran, ended⟩ := Option.map_eq_some_iff.mp ended
  obtain ⟨stuck, joined⟩ := Prod.mk.inj ended
  have stuck := of_decide_eq_true stuck
  have joined := of_decide_eq_true joined
  have inv : WorkerInvariant state :=
    Machine.run_invariant (fun _ _ _ inv stepped => inv.step stepped) .init ran
  refine ⟨state, ran, fun service => ?_, by simp [stuck.1], stuck.not_canMove inv⟩
  obtain ⟨how, phase⟩ := (joined_iff _).mp (joined service)
  exact ⟨how, true, phase⟩

/-- Two worker threads are enough for that run. -/
example : (workerThreads 2).EachStep (KeepsWorker 2) .init takesLastWorker := by decide

end Gway.Srv
