import Gway.Srv.GracefulDrain

/-! The shutdown signal is the state of `shutdown_lock`: a free lock means shut down. The
lock is free before the stop task has first been polled as well, so the signal is right
only from that poll on.
-/

namespace Gway.Srv

/-- The service has left its accept loop through the shutdown branch. -/
def ServicePhase.shuttingDown : ServicePhase → Bool
  | .leaving | .ended .shutdown _ => true
  | _ => false

/-- The service has ended with an error, a panic or a closed listener. -/
def ServicePhase.failed : ServicePhase → Bool
  | .ended .closed _ | .ended .error _ | .ended .panicked _ => true
  | _ => false

/-- Another service than this one has ended with an error, a panic or a closed listener. -/
def State.OtherFailed (state : State) (service : Service) : Prop :=
  ∃ other, other ≠ service ∧ (state.services other).failed = true

/-- A service leaves through the shutdown branch only after `graceful_shutdown` has
completed or another service has failed.
-/
def NotPremature (state : State) : Prop :=
  ∀ service,
    (state.services service).shuttingDown = true
    → state.graceful = true ∨ state.OtherFailed service

/-- No service polls `shutdown_lock.read()` before the stop task's first poll, unless
another service has failed.
-/
def StopPolledFirst (before : State) (action : Action) (_after : State) : Prop :=
  ∀ service,
    action = .service service .pollShutdown
    → before.stop ≠ .spawned ∨ before.OtherFailed service

instance (state : State) (service : Service) : Decidable (state.OtherFailed service) :=
  inferInstanceAs
    (Decidable (∃ other, other ≠ service ∧ (state.services other).failed = true))

instance : DecidablePred NotPremature := fun state =>
  inferInstanceAs
    (Decidable
      (∀ service,
        (state.services service).shuttingDown = true
        → state.graceful = true ∨ state.OtherFailed service))

instance (before : State) (action : Action) (after : State)
    : Decidable (StopPolledFirst before action after) :=
  inferInstanceAs
    (Decidable
      (∀ service,
        action = .service service .pollShutdown
        → before.stop ≠ .spawned ∨ before.OtherFailed service))

/-- The lock is free for readers until the stop task's first poll and closed to them from
then on, until the stop task ends by itself, which takes `graceful_shutdown`, or by an
abort, which takes a service that has ended.
-/
structure ShutdownInvariant (state : State) : Prop where
  begun : state.stop = .absent ↔ state.main = .started
  open_ : state.stop = .absent ∨ state.stop = .spawned → state.shutdownLock.Readable false
  queued : state.stop = .queued → state.shutdownLock.queue ≠ []
  held
    : state.stop = .holding ∨ state.stop = .releasing → state.shutdownLock.writer ≠ none
  completed
    : state.stop = .releasing ∨ state.stop = .finished ↔ state.graceful = true
  aborted : state.aborted = true → ∃ service, (state.services service).joined = true
  dropped : state.stop = .dropped → state.aborted = true

theorem ShutdownInvariant.init : ShutdownInvariant State.init where
  begun := by simp [State.init]
  open_ := by simp [State.init, RwLock.Readable]
  queued := by simp [State.init]
  held := by simp [State.init]
  completed := by simp [State.init]
  aborted := by simp [State.init]
  dropped := by simp [State.init]

/-- Changing a service that has not been joined forgets no joined service. -/
private theorem joined_update {services : Service → ServicePhase} {service : Service}
    (phase : ServicePhase) (open_ : (services service).joined = false)
    (joined : ∃ other, (services other).joined = true)
    : ∃ other, (Function.update services service phase other).joined = true := by
  obtain ⟨other, joined⟩ := joined
  have different : other ≠ service := by
    rintro rfl
    simp [open_] at joined
  exact ⟨other, by simpa only [Function.update_of_ne different] using joined⟩

/-- `srv` moves on without touching the stop task, after having spawned it. -/
private theorem ShutdownInvariant.begun_of_moved {state : State} {main : MainPhase}
    (inv : ShutdownInvariant state) (before : state.main ≠ .started) (after : main ≠ .started)
    : state.stop = .absent ↔ main = .started :=
  iff_of_false (fun absent => before (inv.begun.mp absent)) after

theorem ShutdownInvariant.stepMain {state next : State} {action : MainAction}
    (inv : ShutdownInvariant state) (order : state.SpawnOrder)
    (stepped : stepMain state action = some next)
    : ShutdownInvariant next := by
  cases action with
  | spawnStop =>
      obtain ⟨started, done⟩ := Option.ite_none_right_eq_some.mp stepped
      cases done
      have absent := inv.begun.mpr started
      have running := inv.completed
      refine ⟨by simp, fun _ => inv.open_ (Or.inl absent), by simp, by simp, ?_,
        inv.aborted, by simp⟩
      simpa [absent] using running
  | spawnService =>
      obtain ⟨spawned, running, rfl⟩ := spawnService_eq_some.mp stepped
      have absent := order.spawning running
      have moved : state.stop = .absent ↔ spawned.next = .started :=
        inv.begun_of_moved (by simp [running]) (by cases spawned <;> simp [Service.next])
      exact ⟨moved, inv.open_, inv.queued, inv.held, inv.completed,
        fun aborted => joined_update _ (by simp [absent, ServicePhase.joined])
          (inv.aborted aborted), inv.dropped⟩
  | joinNext service =>
      obtain ⟨how, ended, joining, rfl⟩ := joinNext_eq_some.mp stepped
      exact ⟨inv.begun, inv.open_, inv.queued, inv.held, inv.completed,
        fun _ => ⟨service, by simp [State.setService, ServicePhase.joined]⟩, fun _ => rfl⟩
  | lockConns =>
      obtain ⟨draining, granted⟩ := Option.ite_none_right_eq_some.mp stepped
      obtain ⟨lock, acquired, rfl⟩ := Option.map_eq_some_iff.mp granted
      exact ⟨inv.begun_of_moved (by simp [draining]) (by simp), inv.open_, inv.queued,
        inv.held, inv.completed, inv.aborted, inv.dropped⟩
  | joinEnd =>
      obtain ⟨⟨joining, -⟩, done⟩ := Option.ite_none_right_eq_some.mp stepped
      cases done
      exact ⟨inv.begun_of_moved (by simp [joining]) (by simp), inv.open_, inv.queued,
        inv.held, inv.completed, inv.aborted, inv.dropped⟩
  | _ =>
      obtain ⟨before, done⟩ := Option.ite_none_right_eq_some.mp stepped
      cases done
      exact ⟨inv.begun_of_moved (by simp [before]) (by simp), inv.open_, inv.queued,
        inv.held, inv.completed, inv.aborted, inv.dropped⟩

theorem ShutdownInvariant.stepStop {state next : State} {action : StopAction}
    (inv : ShutdownInvariant state) (stepped : stepStop state action = some next)
    : ShutdownInvariant next := by
  have begun {phase : StopPhase} (present : state.stop ≠ .absent) (other : phase ≠ .absent)
      : phase = .absent ↔ state.main = .started :=
    iff_of_false other fun started => present (inv.begun.mpr started)
  have incomplete (running : state.stop ≠ .releasing) (unfinished : state.stop ≠ .finished)
      : state.graceful = false := by
    cases completed : state.graceful with
    | false => rfl
    | true =>
        rcases inv.completed.mpr completed with same | same
        · exact absurd same running
        · exact absurd same unfinished
  cases action with
  | poll =>
      obtain ⟨spawned, polled⟩ := pollStop_eq_some.mp stepped
      have graceful := incomplete (by simp [spawned]) (by simp [spawned])
      have present : state.stop ≠ .absent := by simp [spawned]
      rcases polled with ⟨lock, acquired, rfl⟩ | ⟨-, rfl⟩
      · have held := (RwLock.acquireWrite_eq_some.mp acquired).2.2.1
        exact ⟨begun present (by simp), by simp, by simp, fun _ => by simp [held],
          by simp [graceful], inv.aborted, by simp⟩
      · exact ⟨begun present (by simp), by simp, fun _ => by simp [RwLock.enqueue],
          by simp, by simp [graceful], inv.aborted, by simp⟩
  | granted =>
      obtain ⟨queued, granted⟩ := Option.ite_none_right_eq_some.mp stepped
      obtain ⟨lock, acquired, rfl⟩ := Option.map_eq_some_iff.mp granted
      have graceful := incomplete (by simp [queued]) (by simp [queued])
      have held := (RwLock.acquireWrite_eq_some.mp acquired).2.2.1
      exact ⟨begun (by simp [queued]) (by simp), by simp, by simp, fun _ => by simp [held],
        by simp [graceful], inv.aborted, by simp⟩
  | gracefulComplete =>
      obtain ⟨holding, done⟩ := Option.ite_none_right_eq_some.mp stepped
      cases done
      exact ⟨begun (by simp [holding]) (by simp), by simp, by simp,
        fun _ => inv.held (Or.inl holding), by simp, inv.aborted, by simp⟩
  | release =>
      obtain ⟨releasing, done⟩ := Option.ite_none_right_eq_some.mp stepped
      cases done
      exact ⟨begun (by simp [releasing]) (by simp), by simp, by simp, by simp,
        by simp [inv.completed.mp (Or.inl releasing)], inv.aborted, by simp⟩
  | drop =>
      obtain ⟨aborted, dropped⟩ := Option.ite_none_right_eq_some.mp stepped
      have done {lock : RwLock Service Unit} (present : state.stop ≠ .absent)
          (running : state.stop ≠ .releasing) (unfinished : state.stop ≠ .finished)
          : ShutdownInvariant { state with stop := .dropped, shutdownLock := lock } :=
        ⟨begun present (by simp), by simp, by simp, by simp,
          by simp [incomplete running unfinished], inv.aborted, fun _ => aborted⟩
      split at dropped
      all_goals first
      | contradiction
      | (next phase =>
          cases dropped
          exact done (by simp [phase]) (by simp [phase]) (by simp [phase]))

/-- Services only read-lock `shutdown_lock`: its writer and its queue stay. -/
theorem stepService_writers {state next : State} {service : Service}
    {action : ServiceAction} (stepped : stepService state service action = some next)
    : next.shutdownLock.writer = state.shutdownLock.writer
      ∧ next.shutdownLock.queue = state.shutdownLock.queue := by
  cases action with
  | pollShutdown =>
      rcases (pollShutdown_eq_some.mp stepped).2 with ⟨lock, acquired, rfl⟩ | ⟨-, rfl⟩
      · obtain ⟨free, -, writer, queue⟩ := RwLock.acquireRead_eq_some.mp acquired
        exact ⟨writer.trans free.1.symm, queue⟩
      · exact ⟨rfl, rfl⟩
  | _ =>
      simp only [Srv.stepService] at stepped
      split at stepped
      all_goals first
      | contradiction
      | (cases stepped; exact ⟨rfl, rfl⟩)

/-- A service that takes a step has not ended. -/
theorem stepService_running {state next : State} {service : Service}
    {action : ServiceAction} (stepped : stepService state service action = some next)
    (how : Ending) (joined : Bool)
    : state.services service ≠ .ended how joined := by
  intro ended
  simp [stepService_ended ended action] at stepped

/-- What holds of a service that has ended still holds after a step of another one. -/
private theorem ended_kept {state next : State} {service : Service} {action : ServiceAction}
    {property : ServicePhase → Bool}
    (stepped : stepService state service action = some next)
    (ends : ∀ phase, property phase = true → ∃ how joined, phase = .ended how joined)
    {other : Service} (holds : property (state.services other) = true)
    : property (next.services other) = true := by
  have different : other ≠ service := by
    rintro rfl
    obtain ⟨how, joined, ended⟩ := ends _ holds
    exact stepService_running stepped how joined ended
  rwa [stepService_others stepped different]

theorem ShutdownInvariant.stepService {state next : State} {service : Service}
    {action : ServiceAction} (inv : ShutdownInvariant state)
    (stepped : stepService state service action = some next)
    : ShutdownInvariant next := by
  obtain ⟨writer, queue⟩ := stepService_writers stepped
  have joined {other} (joined : (state.services other).joined = true)
      : (next.services other).joined = true := by
    refine ended_kept stepped (fun phase holds => ?_) joined
    obtain ⟨how, ended⟩ := (joined_iff phase).mp holds
    exact ⟨how, true, ended⟩
  obtain ⟨services, lock, conns, rfl⟩ := stepService_frame stepped
  dsimp only at writer queue
  refine ⟨inv.begun, ?_, ?_, ?_, inv.completed, ?_, inv.dropped⟩
  · simpa only [RwLock.Readable, writer, queue] using inv.open_
  · simpa only [queue] using inv.queued
  · simpa only [writer] using inv.held
  · intro aborted
    obtain ⟨other, reaped⟩ := inv.aborted aborted
    exact ⟨other, joined reaped⟩

theorem ShutdownInvariant.step {barging : Bool} {state next : State} {action : Action}
    (inv : ShutdownInvariant state) (order : state.SpawnOrder)
    (stepped : step barging state action = some next)
    : ShutdownInvariant next := by
  cases action with
  | main action => exact inv.stepMain order stepped
  | stop action => exact inv.stepStop stepped
  | service service action => exact inv.stepService stepped
  | conn conn action =>
      obtain ⟨_, _, _, rfl⟩ := stepConn_frame stepped
      exact ⟨inv.begun, inv.open_, inv.queued, inv.held, inv.completed, inv.aborted, inv.dropped⟩
  | request request action =>
      obtain ⟨_, rfl⟩ := stepRequest_frame stepped
      exact ⟨inv.begun, inv.open_, inv.queued, inv.held, inv.completed, inv.aborted, inv.dropped⟩

-----------------------------------------------------------------------------------------
-- Which step can make a service leave early
-----------------------------------------------------------------------------------------

/-- Nobody leaves early by a step that makes no service leave and undoes neither the
completion of `graceful_shutdown` nor a failure.
-/
theorem NotPremature.mono {state next : State} (holds : NotPremature state)
    (leaving
      : ∀ service,
          (next.services service).shuttingDown = true
          → (state.services service).shuttingDown = true)
    (graceful : state.graceful = true → next.graceful = true)
    (failed
      : ∀ service,
          (state.services service).failed = true → (next.services service).failed = true)
    : NotPremature next := by
  intro service left
  rcases holds service (leaving service left) with done | ⟨other, different, ended⟩
  · exact Or.inl (graceful done)
  · exact Or.inr ⟨other, different, failed other ended⟩

/-- Once some service has been joined, a service still in its loop may leave: the joined
one failed, or left itself for a reason that counts here too.
-/
theorem NotPremature.after_join {state : State} (holds : NotPremature state)
    {service joined : Service} (selecting : state.services service = .selecting)
    (reaped : (state.services joined).joined = true)
    : state.graceful = true ∨ state.OtherFailed service := by
  obtain ⟨how, ended⟩ := (joined_iff _).mp reaped
  have different : joined ≠ service := by
    rintro rfl
    simp [ended] at selecting
  by_cases left : how = .shutdown
  · subst left
    rcases holds joined (by simp [ended, ServicePhase.shuttingDown]) with
      done | ⟨other, -, failed⟩
    · exact Or.inl done
    · refine Or.inr ⟨other, ?_, failed⟩
      rintro rfl
      simp [selecting, ServicePhase.failed] at failed
  · refine Or.inr ⟨joined, different, ?_⟩
    cases how <;> simp_all [ServicePhase.failed]

/-- `srv` changes no service's reason to have left its loop. -/
theorem stepMain_status {state next : State} {action : MainAction} (order : state.SpawnOrder)
    (stepped : stepMain state action = some next) (service : Service)
    : (next.services service).shuttingDown = (state.services service).shuttingDown
      ∧ (next.services service).failed = (state.services service).failed := by
  cases action with
  | spawnService =>
      obtain ⟨spawned, running, rfl⟩ := spawnService_eq_some.mp stepped
      have absent := order.spawning running
      by_cases same : service = spawned
      · subst same
        simp [State.setService, absent, ServicePhase.shuttingDown, ServicePhase.failed]
      · simp [State.setService, Function.update_of_ne same]
  | joinNext joined =>
      obtain ⟨how, ended, -, rfl⟩ := joinNext_eq_some.mp stepped
      by_cases same : service = joined
      · subst same
        cases how <;>
          simp [State.setService, ended, ServicePhase.shuttingDown, ServicePhase.failed]
      · simp [State.setService, Function.update_of_ne same]
  | lockConns =>
      obtain ⟨-, granted⟩ := Option.ite_none_right_eq_some.mp stepped
      obtain ⟨lock, -, rfl⟩ := Option.map_eq_some_iff.mp granted
      exact ⟨rfl, rfl⟩
  | _ =>
      obtain ⟨-, done⟩ := Option.ite_none_right_eq_some.mp stepped
      cases done
      exact ⟨rfl, rfl⟩

/-- The completion of `graceful_shutdown` is never undone. -/
theorem stepStop_graceful {state next : State} {action : StopAction}
    (stepped : stepStop state action = some next) (done : state.graceful = true)
    : next.graceful = true := by
  cases action with
  | granted =>
      obtain ⟨-, granted⟩ := Option.ite_none_right_eq_some.mp stepped
      obtain ⟨lock, -, rfl⟩ := Option.map_eq_some_iff.mp granted
      exact done
  | gracefulComplete =>
      obtain ⟨-, completed⟩ := Option.ite_none_right_eq_some.mp stepped
      cases completed
      rfl
  | _ =>
      simp only [stepStop] at stepped
      repeat' split at stepped
      all_goals first
      | contradiction
      | (cases stepped; exact done)

/-- A service starts to leave only by polling `shutdown_lock.read()`. -/
theorem stepService_leaving {state next : State} {service : Service}
    {action : ServiceAction} (stepped : stepService state service action = some next)
    (other : action ≠ .pollShutdown)
    (left : (next.services service).shuttingDown = true)
    : (state.services service).shuttingDown = true := by
  cases action with
  | pollShutdown => exact absurd rfl other
  | leave =>
      obtain ⟨leaving, -⟩ := Option.ite_none_right_eq_some.mp stepped
      simp [leaving, ServicePhase.shuttingDown]
  | spawnConn =>
      obtain ⟨conn, holding, rfl⟩ := spawnConn_eq_some.mp stepped
      simp [State.setService, State.setConn, ServicePhase.shuttingDown] at left
  | _ =>
      obtain ⟨-, done⟩ := Option.ite_none_right_eq_some.mp stepped
      cases done
      simp [State.setService, ServicePhase.shuttingDown] at left

/-- A service that polls a readable lock leaves; a refused one stays in its loop. -/
theorem pollShutdown_cases {state next : State} {service : Service}
    (stepped : stepService state service .pollShutdown = some next)
    : state.services service = .selecting
      ∧ (state.shutdownLock.Readable false ∧ next.services service = .leaving
          ∧ next.graceful = state.graceful
        ∨ ¬ state.shutdownLock.Readable false ∧ next = state) := by
  obtain ⟨selecting, polled⟩ := pollShutdown_eq_some.mp stepped
  refine ⟨selecting, ?_⟩
  rcases polled with ⟨lock, acquired, rfl⟩ | ⟨refused, rfl⟩
  · have free := (RwLock.acquireRead_eq_some.mp acquired).1
    exact Or.inl ⟨free, by simp [State.setService], rfl⟩
  · refine Or.inr ⟨fun free => ?_, rfl⟩
    simp [RwLock.acquireRead, free] at refused

/-- A failed service stays failed while the services take steps. -/
theorem stepService_failed {state next : State} {service : Service}
    {action : ServiceAction} (stepped : stepService state service action = some next)
    {other : Service} (failed : (state.services other).failed = true)
    : (next.services other).failed = true := by
  refine ended_kept stepped (fun phase holds => ?_) failed
  cases phase with
  | ended how joined => exact ⟨how, joined, rfl⟩
  | _ => simp [ServicePhase.failed] at holds

/-- A service that finds the lock readable has a reason to leave, unless the stop task is
still to be polled. Witness: the phases of the stop task; in each of the others the lock is
not readable or the reason is there.
-/
theorem reason_to_leave {state : State} {service : Service}
    (inv : ShutdownInvariant state) (order : state.SpawnOrder) (holds : NotPremature state)
    (selecting : state.services service = .selecting)
    (free : state.shutdownLock.Readable false)
    (polled : state.stop ≠ .spawned ∨ state.OtherFailed service)
    : state.graceful = true ∨ state.OtherFailed service := by
  rcases polled with polled | failed
  · cases stop : state.stop with
    | absent =>
        have started := inv.begun.mp stop
        have absent := order service (by
          cases service <;> simp [started, MainPhase.unspawned])
        simp [selecting] at absent
    | spawned => exact absurd stop polled
    | queued =>
        have waiting := inv.queued stop
        simp [waiting, RwLock.Readable] at free
    | holding => exact absurd free.1 (inv.held (Or.inl stop))
    | releasing => exact absurd free.1 (inv.held (Or.inr stop))
    | finished => exact Or.inl (inv.completed.mp (Or.inr stop))
    | dropped =>
        obtain ⟨joined, reaped⟩ := inv.aborted (inv.dropped stop)
        exact holds.after_join selecting reaped
  · exact Or.inr failed

/-- A poll of `shutdown_lock.read()` is in order exactly if the stop task has been polled
before or another service has failed.
-/
theorem notPremature_poll_iff {state next : State} {service : Service}
    (inv : ShutdownInvariant state) (order : state.SpawnOrder) (holds : NotPremature state)
    (stepped : stepService state service .pollShutdown = some next)
    : NotPremature next ↔ state.stop ≠ .spawned ∨ state.OtherFailed service := by
  have failed {other : Service} (before : (state.services other).failed = true)
      : (next.services other).failed = true :=
    stepService_failed stepped before
  rcases pollShutdown_cases stepped with ⟨selecting, ⟨free, leaving, graceful⟩ | ⟨refused, same⟩⟩
  · constructor
    · intro after
      have left := after service (by simp [leaving, ServicePhase.shuttingDown])
      rcases left with completed | ⟨other, different, ended⟩
      · have released := inv.completed.mpr (graceful ▸ completed)
        exact Or.inl (by rcases released with stop | stop <;> simp [stop])
      · rw [stepService_others stepped different] at ended
        exact Or.inr ⟨other, different, ended⟩
    · intro polled left_service left
      have reason
          : state.graceful = true ∨ state.OtherFailed left_service := by
        by_cases same : left_service = service
        · subst same
          exact reason_to_leave inv order holds selecting free polled
        · rw [stepService_others stepped same] at left
          exact holds left_service left
      rcases reason with completed | ⟨other, different, ended⟩
      · exact Or.inl (graceful.trans completed)
      · exact Or.inr ⟨other, different, failed ended⟩
  · subst same
    refine iff_of_true holds (Or.inl fun spawned => refused ?_)
    exact inv.open_ (Or.inr spawned)

/-- Only a poll of `shutdown_lock.read()` decides whether a service leaves early. -/
theorem notPremature_step_iff {barging : Bool} {state next : State} {action : Action}
    (inv : ShutdownInvariant state) (order : state.SpawnOrder) (holds : NotPremature state)
    (stepped : step barging state action = some next)
    : NotPremature next ↔ StopPolledFirst state action next := by
  cases action with
  | service service action =>
      by_cases poll : action = .pollShutdown
      · subst poll
        refine (notPremature_poll_iff inv order holds stepped).trans ⟨?_, ?_⟩
        · rintro polled other ⟨⟩
          exact polled
        · exact fun condition => condition service rfl
      · refine iff_of_true ?_ (fun other same => absurd (Action.service.inj same).2 poll)
        refine holds.mono (fun other left => ?_) (fun done => ?_)
          fun other => stepService_failed stepped
        · by_cases same : other = service
          · subst same
            exact stepService_leaving stepped poll left
          · rwa [stepService_others stepped same] at left
        · obtain ⟨_, _, _, rfl⟩ := stepService_frame stepped
          exact done
  | main action =>
      refine iff_of_true ?_ (by simp [StopPolledFirst])
      have status := stepMain_status order stepped
      obtain ⟨_, _, _, _, _, rfl⟩ := stepMain_frame stepped
      exact holds.mono (fun service left => (status service).1 ▸ left) (fun done => done)
        fun service failed => (status service).2 ▸ failed
  | stop action =>
      refine iff_of_true ?_ (by simp [StopPolledFirst])
      have done := stepStop_graceful stepped
      obtain ⟨_, _, _, rfl⟩ := stepStop_frame stepped
      exact holds.mono (fun _ left => left) done fun _ failed => failed
  | conn conn action =>
      obtain ⟨_, _, _, rfl⟩ := stepConn_frame stepped
      exact iff_of_true holds (by simp [StopPolledFirst])
  | request request action =>
      obtain ⟨_, rfl⟩ := stepRequest_frame stepped
      exact iff_of_true holds (by simp [StopPolledFirst])

/-- No service of a run leaves early exactly if, on every poll of `shutdown_lock.read()`, the
stop task has been polled before or another service has failed.
-/
theorem srv_notPremature_iff (barging : Bool) (actions : List Action)
    : (gateway barging).Always NotPremature .init actions
      ↔ (gateway barging).EachStep StopPolledFirst .init actions := by
  refine Machine.always_iff_eachStep
    (fun state => state.SpawnOrder ∧ ShutdownInvariant state)
    (fun before action after inv holds stepped =>
      notPremature_step_iff inv.2 inv.1 holds stepped)
    (fun before action after inv _ stepped _ => ⟨inv.1.step stepped, inv.2.step inv.1 stepped⟩)
    ⟨.init, .init⟩ ?_
  simp [NotPremature, State.init, ServicePhase.shuttingDown]

/-- `h1` is polled before the stop task. -/
def servicePolledFirst : List Action :=
  [.main .spawnStop, .main .bound, .main .spawnService, .service .h1 .enterLoop,
    .service .h1 .pollShutdown, .service .h1 .leave]

/-- `h1` shuts down at start: nobody asked for a shutdown and no service has failed. -/
theorem h1_leaves_at_start
    : ¬ (gateway false).Always NotPremature .init servicePolledFirst
      ∧ ((gateway false).run .init servicePolledFirst).map
          (fun final => (final.services .h1, final.graceful, final.stop))
        = some (.ended .shutdown false, false, .spawned) := by
  decide

/-- When the stop task is polled first, the accept loops end in order. -/
example : (gateway false).Always NotPremature .init (acceptOne ++ stopServices) := by decide

end Gway.Srv
