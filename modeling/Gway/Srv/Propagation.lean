import Gway.Srv.ShutdownSignal

/-! How a shutdown reaches every service, whatever ends first. Here a service may end at any
moment and in any way, not only where its code is known to return or to panic.
-/

namespace Gway.Srv

/-- What the gateway does, or the end of a service in the middle of anything it does. -/
inductive Event where
  | act (action : Action)
  | ends (service : Service) (how : Ending)
deriving DecidableEq, Repr

/-- A service that runs ends; if it holds a read guard of `shutdown_lock` it drops it. -/
def stepEnds (state : State) (service : Service) (how : Ending) : Option State :=
  match state.services service with
  | .absent | .ended _ _ => none
  | .leaving =>
      some
        { state.setService service (.ended how false) with
          shutdownLock := state.shutdownLock.releaseRead service }
  | _ => some (state.setService service (.ended how false))

def stepEvent (barging : Bool) (state : State) : Event → Option State
  | .act action => step barging state action
  | .ends service how => stepEnds state service how

/-- The gateway with services that may fail at any time. -/
def failing (barging : Bool) : Machine State Event where
  init := .init
  step := stepEvent barging

/-- The stop task has ended after `graceful_shutdown`, or has been dropped after its abort. -/
def State.StopOver (state : State) : Prop :=
  state.stop = .finished ∨ state.stop = .dropped

/-- Nobody holds `shutdown_lock` for writing, the only task that asks for the write guard asks
no more, and a service in its loop leaves it as soon as it polls the lock.
-/
structure ShuttingDown (state : State) : Prop where
  free : state.shutdownLock.writer = none
  stopped : ∀ action, stepStop state action = none
  leaves
    : ∀ service,
        state.services service = .selecting
        → ∃ next,
            stepService state service .pollShutdown = some next
            ∧ next.services service = .leaving

/-- `shutdown_lock` is held and waited for by nobody but the stop task, which `srv` spawns
first, and `srv` passes the join only with all services joined.
-/
structure StopInvariant (state : State) : Prop where
  begun : state.main = .started → state.stop = .absent
  writer : state.shutdownLock.writer ≠ none → state.stop = .holding ∨ state.stop = .releasing
  queue : state.shutdownLock.queue = if state.stop = .queued then [()] else []
  joined : state.main.PastJoin → state.AllJoined

theorem StopInvariant.init : StopInvariant State.init where
  begun := fun _ => rfl
  writer := by simp [State.init]
  queue := rfl
  joined := by simp [State.init, MainPhase.PastJoin, MainPhase.Granted]

variable {barging : Bool} {state next : State}

theorem StopInvariant.stepMain {action : MainAction} (inv : StopInvariant state)
    (stepped : stepMain state action = some next)
    : StopInvariant next := by
  cases action with
  | spawnStop =>
      obtain ⟨started, done⟩ := Option.ite_none_right_eq_some.mp stepped
      cases done
      have absent := inv.begun started
      refine ⟨by simp, fun held => ?_, ?_, by simp [MainPhase.PastJoin, MainPhase.Granted]⟩
      · simpa [absent] using inv.writer held
      · simpa [absent] using inv.queue
  | lockConns =>
      obtain ⟨draining, granted⟩ := Option.ite_none_right_eq_some.mp stepped
      obtain ⟨lock, -, rfl⟩ := Option.map_eq_some_iff.mp granted
      exact ⟨by simp, inv.writer, inv.queue, fun _ => inv.joined (Or.inl draining)⟩
  | joinEnd =>
      obtain ⟨⟨-, joined⟩, done⟩ := Option.ite_none_right_eq_some.mp stepped
      cases done
      exact ⟨by simp, inv.writer, inv.queue, fun _ => joined⟩
  | unlockConns =>
      obtain ⟨locked, done⟩ := Option.ite_none_right_eq_some.mp stepped
      cases done
      exact ⟨by simp, inv.writer, inv.queue, fun _ => inv.joined (Or.inr (Or.inl locked))⟩
  | ret =>
      obtain ⟨unlocked, done⟩ := Option.ite_none_right_eq_some.mp stepped
      cases done
      exact ⟨by simp, inv.writer, inv.queue,
        fun _ => inv.joined (Or.inr (Or.inr (Or.inl unlocked)))⟩
  | spawnService =>
      obtain ⟨service, running, rfl⟩ := spawnService_eq_some.mp stepped
      refine ⟨?_, inv.writer, inv.queue, ?_⟩
      · cases service <;> simp [Service.next]
      · cases service <;> simp [Service.next, MainPhase.PastJoin, MainPhase.Granted]
  | joinNext service =>
      obtain ⟨how, ended, joining, rfl⟩ := joinNext_eq_some.mp stepped
      refine ⟨?_, inv.writer, inv.queue, ?_⟩
      · simp [State.setService, joining]
      · simp [State.setService, joining, MainPhase.PastJoin, MainPhase.Granted]
  | _ =>
      obtain ⟨-, done⟩ := Option.ite_none_right_eq_some.mp stepped
      cases done
      exact ⟨by simp, inv.writer, inv.queue, by simp [MainPhase.PastJoin, MainPhase.Granted]⟩

/-- The stop task puts itself into the lock and takes itself out of it. -/
theorem StopInvariant.stepStop {action : StopAction} (inv : StopInvariant state)
    (stepped : stepStop state action = some next)
    : StopInvariant next := by
  have begun (present : state.stop ≠ .absent) {phase : StopPhase}
      (started : state.main = .started)
      : phase = .absent :=
    absurd (inv.begun started) present
  have unheld (idle : state.stop ≠ .holding) (running : state.stop ≠ .releasing)
      : state.shutdownLock.writer = none := by
    by_contra held
    exact (inv.writer held).elim idle running
  have queue := inv.queue
  cases action with
  | poll =>
      obtain ⟨spawned, polled⟩ := pollStop_eq_some.mp stepped
      rw [spawned] at queue
      rcases polled with ⟨lock, acquired, rfl⟩ | ⟨-, rfl⟩
      · obtain ⟨-, -, -, waiting⟩ := RwLock.acquireWrite_eq_some.mp acquired
        exact ⟨begun (by simp [spawned]), by simp, by simp [waiting, queue], inv.joined⟩
      · have free := unheld (by simp [spawned]) (by simp [spawned])
        exact ⟨begun (by simp [spawned]), by simp [RwLock.enqueue, free],
          by simp [RwLock.enqueue, queue], inv.joined⟩
  | granted =>
      obtain ⟨queued, granted⟩ := Option.ite_none_right_eq_some.mp stepped
      obtain ⟨lock, acquired, rfl⟩ := Option.map_eq_some_iff.mp granted
      obtain ⟨-, -, -, waiting⟩ := RwLock.acquireWrite_eq_some.mp acquired
      rw [queued] at queue
      exact ⟨begun (by simp [queued]), by simp, by simp [waiting, queue], inv.joined⟩
  | gracefulComplete =>
      obtain ⟨holding, done⟩ := Option.ite_none_right_eq_some.mp stepped
      cases done
      rw [holding] at queue
      exact ⟨begun (by simp [holding]), by simp, by simpa using queue, inv.joined⟩
  | release =>
      obtain ⟨releasing, done⟩ := Option.ite_none_right_eq_some.mp stepped
      cases done
      rw [releasing] at queue
      exact ⟨begun (by simp [releasing]), by simp [RwLock.releaseWrite],
        by simpa [RwLock.releaseWrite] using queue, inv.joined⟩
  | drop =>
      obtain ⟨-, dropped⟩ := Option.ite_none_right_eq_some.mp stepped
      split at dropped
      case h_1 spawned =>
        cases dropped
        rw [spawned] at queue
        have free := unheld (by simp [spawned]) (by simp [spawned])
        exact ⟨begun (by simp [spawned]), by simp [free], by simpa using queue, inv.joined⟩
      case h_2 queued =>
        cases dropped
        rw [queued] at queue
        have free := unheld (by simp [queued]) (by simp [queued])
        exact ⟨begun (by simp [queued]), by simp [RwLock.dequeue, free],
          by simp [RwLock.dequeue, queue], inv.joined⟩
      case h_3 holding =>
        cases dropped
        rw [holding] at queue
        exact ⟨begun (by simp [holding]), by simp [RwLock.releaseWrite],
          by simpa [RwLock.releaseWrite] using queue, inv.joined⟩
      case h_4 => contradiction

/-- A step of a service that has not ended touches no writer and comes before the join. -/
theorem StopInvariant.of_running {service : Service} (inv : StopInvariant state)
    (running : (state.services service).joined = false) (main : next.main = state.main)
    (stop : next.stop = state.stop)
    (writer : next.shutdownLock.writer = state.shutdownLock.writer)
    (queue : next.shutdownLock.queue = state.shutdownLock.queue)
    : StopInvariant next where
  begun := by simpa only [main, stop] using inv.begun
  writer := by simpa only [writer, stop] using inv.writer
  queue := by simpa only [queue, stop] using inv.queue
  joined := by
    intro past
    rw [main] at past
    have joined := inv.joined past service
    rw [running] at joined
    cases joined

/-- A service that takes a step has not been joined. -/
theorem stepService_joined {service : Service} {action : ServiceAction}
    (stepped : stepService state service action = some next)
    : (state.services service).joined = false := by
  by_contra joined
  obtain ⟨how, ended⟩ := (joined_iff _).mp (Bool.not_eq_false _ ▸ joined)
  exact stepService_running stepped how true ended

/-- The end of a service changes its phase and at most drops its read guard. -/
theorem stepEnds_spec {service : Service} {how : Ending}
    (stepped : stepEnds state service how = some next)
    : (state.services service).joined = false
      ∧ next.main = state.main
      ∧ next.stop = state.stop
      ∧ next.shutdownLock.writer = state.shutdownLock.writer
      ∧ next.shutdownLock.queue = state.shutdownLock.queue := by
  cases phase : state.services service <;> simp only [stepEnds, phase] at stepped
  all_goals first
  | contradiction
  | (cases stepped; exact ⟨rfl, rfl, rfl, rfl, rfl⟩)

theorem StopInvariant.step {event : Event} (inv : StopInvariant state)
    (stepped : stepEvent barging state event = some next)
    : StopInvariant next := by
  cases event with
  | ends service how =>
      obtain ⟨running, main, stop, writer, queue⟩ := stepEnds_spec stepped
      exact inv.of_running running main stop writer queue
  | act action =>
      have stepped : Srv.step barging state action = some next := stepped
      cases action with
      | main action => exact inv.stepMain stepped
      | stop action => exact inv.stepStop stepped
      | service service action =>
          obtain ⟨writer, queue⟩ := stepService_writers stepped
          have running := stepService_joined stepped
          obtain ⟨_, _, _, rfl⟩ := stepService_frame stepped
          exact inv.of_running running rfl rfl writer queue
      | conn conn action =>
          obtain ⟨_, _, _, rfl⟩ := stepConn_frame stepped
          exact ⟨inv.begun, inv.writer, inv.queue, inv.joined⟩
      | request request action =>
          obtain ⟨_, rfl⟩ := stepRequest_frame stepped
          exact ⟨inv.begun, inv.writer, inv.queue, inv.joined⟩

/-- `srv` touches the stop task only to spawn it. -/
theorem stepMain_stop {action : MainAction} (stepped : stepMain state action = some next)
    (other : action ≠ .spawnStop)
    : next.stop = state.stop := by
  cases action with
  | spawnStop => exact absurd rfl other
  | lockConns =>
      obtain ⟨-, granted⟩ := Option.ite_none_right_eq_some.mp stepped
      obtain ⟨lock, -, rfl⟩ := Option.map_eq_some_iff.mp granted
      rfl
  | _ =>
      simp only [stepMain] at stepped
      repeat' split at stepped
      all_goals first
      | contradiction
      | (cases stepped; rfl)

/-- A stop task that is over takes no step. -/
theorem State.StopOver.stepStop (halted : state.StopOver) (action : StopAction)
    : stepStop state action = none := by
  rcases halted with halted | halted <;> cases action <;> simp [Srv.stepStop, halted]

/-- The stop task stays over: `srv` spawns it only once and before anything else. -/
theorem State.StopOver.step {event : Event} (halted : state.StopOver)
    (inv : StopInvariant state) (stepped : stepEvent barging state event = some next)
    : next.StopOver := by
  have same (stop : next.stop = state.stop) : next.StopOver := by
    simpa only [State.StopOver, stop] using halted
  cases event with
  | ends service how => exact same (stepEnds_spec stepped).2.2.1
  | act action =>
      have stepped : Srv.step barging state action = some next := stepped
      cases action with
      | main action =>
          have stepped : Srv.stepMain state action = some next := stepped
          by_cases spawn : action = .spawnStop
          case pos =>
            subst spawn
            obtain ⟨started, -⟩ := Option.ite_none_right_eq_some.mp stepped
            have absent := inv.begun started
            rcases halted with halted | halted <;> cases absent.symm.trans halted
          case neg => exact same (stepMain_stop stepped spawn)
      | stop action =>
          have none : Srv.stepStop state action = none := halted.stepStop action
          simp [Srv.step, none] at stepped
      | service service action =>
          obtain ⟨_, _, _, rfl⟩ := stepService_frame stepped
          exact same rfl
      | conn conn action =>
          obtain ⟨_, _, _, rfl⟩ := stepConn_frame stepped
          exact same rfl
      | request request action =>
          obtain ⟨_, rfl⟩ := stepRequest_frame stepped
          exact same rfl

/-- Once the stop task is over, the lock is free for good and opens the way out. -/
theorem State.StopOver.shuttingDown (halted : state.StopOver) (inv : StopInvariant state)
    : ShuttingDown state := by
  have free : state.shutdownLock.writer = none := by
    by_contra held
    have running := inv.writer held
    rcases halted with halted | halted <;> simp [halted] at running
  have empty : state.shutdownLock.queue = [] := by
    rcases halted with halted | halted <;> simpa [halted] using inv.queue
  refine ⟨free, halted.stepStop, fun service selecting => ?_⟩
  have readable : state.shutdownLock.Readable false := ⟨free, Or.inr empty⟩
  obtain ⟨lock, granted⟩ : ∃ lock, state.shutdownLock.acquireRead false service = some lock :=
    ⟨_, dif_pos readable⟩
  exact ⟨{ state.setService service .leaving with shutdownLock := lock },
    by simp [stepService, selecting, granted], by simp [State.setService]⟩

/-- What the gateway does, it does on a machine with failing services too. -/
theorem failing_run {actions : List Action} {final : State}
    (ran : (gateway barging).run state actions = some final)
    : (failing barging).run state (actions.map .act) = some final := by
  induction actions generalizing state with
  | nil => exact ran
  | cons action rest ih =>
      obtain ⟨next, stepped, later⟩ := Machine.run_cons.mp ran
      exact Machine.run_cons.mpr ⟨next, stepped, ih later⟩

theorem stopInvariant_of_reachable (reached : (failing barging).Reachable state)
    : StopInvariant state :=
  reached.invariant .init fun _ _ _ inv stepped => inv.step stepped

/-- Whichever services end, and however: once the stop task is over, the gateway is shutting
down in every later state, and past the join all three services have ended.
-/
theorem shutdown_propagates (reached : (failing barging).Reachable state)
    : (state.StopOver
        → ∀ events later,
            (failing barging).run state events = some later → ShuttingDown later)
      ∧ (state.main.PastJoin
        → ∀ service, ∃ how, state.services service = .ended how true) := by
  have inv := stopInvariant_of_reachable reached
  constructor
  · intro halted events later ran
    obtain ⟨halted, inv⟩ :=
      @Machine.run_invariant _ _ _ (fun state => state.StopOver ∧ StopInvariant state) _ _ _
        (fun _ _ _ both stepped => ⟨both.1.step both.2 stepped, both.2.step stepped⟩)
        ⟨halted, inv⟩ ran
    exact halted.shuttingDown inv
  · intro past service
    exact (joined_iff _).mp (inv.joined past service)

/-- `h2` dies while `graceful_shutdown` is awaited: the stop task is aborted and dropped with
its write guard, and the other services can leave.
-/
def deadService : List Event :=
  (acceptOne.map .act)
    ++ [.ends .h2 .panicked, .act (.main (.joinNext .h2)), .act (.stop .drop)]

theorem shutdown_propagates_deadService
    : ∃ state,
        (failing false).run .init deadService = some state
        ∧ state.StopOver
        ∧ ShuttingDown state := by
  have ended
      : ((failing false).run .init deadService).map (fun state => state.stop)
        = some .dropped := by
    decide
  obtain ⟨state, ran, stop⟩ := Option.map_eq_some_iff.mp ended
  have halted : state.StopOver := Or.inr stop
  exact ⟨state, ran, halted, (shutdown_propagates ⟨deadService, ran⟩).1 halted [] state rfl⟩

end Gway.Srv
