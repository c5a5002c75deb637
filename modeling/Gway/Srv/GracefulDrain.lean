import Gway.Srv.System

/-! What `conn_lock` does and does not promise when `srv` returns: the write guard waits for
the connections that hold a read guard, and each connection takes its read guard only in
its own task, at that task's first poll.
-/

namespace Gway.Srv

/-- Every accepted connection has been served to completion. -/
def State.AllFinished (state : State) : Prop :=
  ∀ conn ∈ state.conns, conn.phase = .finished

/-- Once `srv` has returned `Ok`, every accepted connection has been served. -/
def Drained (state : State) : Prop :=
  state.main = .returned → state.AllFinished

/-- `srv` has been granted the write guard. -/
def MainPhase.Granted (main : MainPhase) : Prop :=
  main = .locked ∨ main = .unlocked ∨ main = .returned

/-- The same from the moment on at which `srv` is granted the write guard. -/
def Settled (state : State) : Prop :=
  state.main.Granted → state.AllFinished

/-- No spawned connection task is still to be granted its read guard. -/
def State.GuardsTaken (state : State) : Prop :=
  ∀ conn ∈ state.conns, conn.phase ≠ .spawned ∧ conn.phase ≠ .waiting

/-- `srv` is granted `conn_lock.write()` only after every connection task its read guard. -/
def GuardsTakenFirst (before : State) (action : Action) (_after : State) : Prop :=
  action = .main .lockConns → before.GuardsTaken

instance (state : State) : Decidable state.AllFinished :=
  inferInstanceAs (Decidable (∀ conn ∈ state.conns, conn.phase = .finished))

instance (state : State) : Decidable state.GuardsTaken :=
  inferInstanceAs (Decidable (∀ conn ∈ state.conns, conn.phase ≠ .spawned ∧ conn.phase ≠ .waiting))

instance : DecidablePred Drained := fun state =>
  inferInstanceAs (Decidable (state.main = .returned → state.AllFinished))

instance (before : State) (action : Action) (after : State)
    : Decidable (GuardsTakenFirst before action after) :=
  inferInstanceAs (Decidable (action = .main .lockConns → before.GuardsTaken))

/-- `srv` is past the join of its services. -/
def MainPhase.PastJoin (main : MainPhase) : Prop :=
  main = .draining ∨ main.Granted

/-- A serving connection holds a read guard, an accept loop with a connection in hand is
the only one to know it, and `srv` passes the join only with all services joined.
-/
structure DrainInvariant (state : State) : Prop where
  guarded : ∀ conn, state.connPhase conn = some .serving → conn ∈ state.connLock.readers
  handed
    : ∀ conn,
        state.connPhase conn = some .accepted
        → ∃ service, state.services service = .accepted conn
  joined : state.main.PastJoin → state.AllJoined

/-- The invariant of the initial state: there is no connection and `srv` has not begun. -/
theorem DrainInvariant.init : DrainInvariant State.init where
  guarded := by simp [State.init, State.connPhase]
  handed := by simp [State.init, State.connPhase]
  joined := by simp [State.init, MainPhase.PastJoin, MainPhase.Granted]

-----------------------------------------------------------------------------------------
-- Every step keeps the invariant
-----------------------------------------------------------------------------------------

/-- Changing a service that has no connection in hand hides no connection. -/
private theorem handed_update {services : Service → ServicePhase} {service : Service}
    {conn : ConnId} (phase : ServicePhase) (idle : services service ≠ .accepted conn)
    (handed : ∃ holder, services holder = .accepted conn)
    : ∃ holder, Function.update services service phase holder = .accepted conn := by
  obtain ⟨holder, holds⟩ := handed
  have different : holder ≠ service := by
    rintro rfl
    exact idle holds
  exact ⟨holder, (Function.update_of_ne different _ _).trans holds⟩

theorem DrainInvariant.stepMain {state next : State} {action : MainAction}
    (inv : DrainInvariant state) (order : state.SpawnOrder)
    (stepped : stepMain state action = some next)
    : DrainInvariant next := by
  cases action with
  | spawnService =>
      obtain ⟨spawned, running, rfl⟩ := spawnService_eq_some.mp stepped
      have absent := order.spawning running
      refine ⟨inv.guarded, ?_, ?_⟩
      · intro conn accepted
        exact handed_update _ (by simp [absent]) (inv.handed conn accepted)
      · cases spawned <;> simp [Service.next, MainPhase.PastJoin, MainPhase.Granted]
  | joinNext service =>
      obtain ⟨how, ended, joining, rfl⟩ := joinNext_eq_some.mp stepped
      refine ⟨inv.guarded, ?_, ?_⟩
      · intro conn accepted
        exact handed_update _ (by simp [ended]) (inv.handed conn accepted)
      · simp [State.setService, joining, MainPhase.PastJoin, MainPhase.Granted]
  | joinEnd =>
      obtain ⟨⟨-, joined⟩, done⟩ := Option.ite_none_right_eq_some.mp stepped
      cases done
      exact ⟨inv.guarded, inv.handed, fun _ => joined⟩
  | lockConns =>
      obtain ⟨draining, granted⟩ := Option.ite_none_right_eq_some.mp stepped
      obtain ⟨lock, acquired, rfl⟩ := Option.map_eq_some_iff.mp granted
      obtain ⟨⟨-, free⟩, -, -, -⟩ := RwLock.acquireWrite_eq_some.mp acquired
      refine ⟨?_, inv.handed, fun _ => inv.joined (Or.inl draining)⟩
      intro conn serving
      have reader := inv.guarded conn serving
      simp [free] at reader
  | unlockConns =>
      obtain ⟨locked, done⟩ := Option.ite_none_right_eq_some.mp stepped
      cases done
      exact ⟨inv.guarded, inv.handed, fun _ => inv.joined (Or.inr (Or.inl locked))⟩
  | ret =>
      obtain ⟨unlocked, done⟩ := Option.ite_none_right_eq_some.mp stepped
      cases done
      exact ⟨inv.guarded, inv.handed,
        fun _ => inv.joined (Or.inr (Or.inr (Or.inl unlocked)))⟩
  | _ =>
      obtain ⟨before, done⟩ := Option.ite_none_right_eq_some.mp stepped
      cases done
      exact ⟨inv.guarded, inv.handed, by simp [MainPhase.PastJoin, MainPhase.Granted]⟩

theorem DrainInvariant.stepStop {state next : State} {action : StopAction}
    (inv : DrainInvariant state) (stepped : stepStop state action = some next)
    : DrainInvariant next := by
  obtain ⟨stop, graceful, lock, rfl⟩ := stepStop_frame stepped
  exact ⟨inv.guarded, inv.handed, inv.joined⟩

/-- Past the join no service takes a step, because all of them have ended. -/
theorem DrainInvariant.services_stopped {state : State} (inv : DrainInvariant state)
    (past : state.main.PastJoin) (service : Service) (action : ServiceAction)
    : stepService state service action = none := by
  have joined := inv.joined past service
  obtain ⟨how, ended⟩ := (joined_iff _).mp joined
  exact stepService_ended ended action

/-- A service without a connection in hand may change its phase before the join ends. -/
private theorem DrainInvariant.setService {state : State} {service : Service}
    (inv : DrainInvariant state) (running : ¬ state.main.PastJoin)
    (idle : ∀ conn, state.services service ≠ .accepted conn) (phase : ServicePhase)
    : DrainInvariant (state.setService service phase) where
  guarded := inv.guarded
  handed := fun conn accepted => handed_update phase (idle conn) (inv.handed conn accepted)
  joined := fun past => absurd past running

/-- An accept loop hands over the connection it accepted, and only that one.
Witness: only `accept` and `spawnConn` touch the connections; all other actions change a
service that has no connection in hand.
-/
theorem DrainInvariant.stepService {state next : State} {service : Service}
    {action : ServiceAction} (inv : DrainInvariant state)
    (stepped : stepService state service action = some next)
    : DrainInvariant next := by
  have running : ¬ state.main.PastJoin := by
    intro past
    simp [inv.services_stopped past service action] at stepped
  cases action with
  | accept =>
      obtain ⟨selecting, done⟩ := Option.ite_none_right_eq_some.mp stepped
      cases done
      refine ⟨?_, ?_, fun past => absurd past running⟩
      · intro conn serving
        simp only [State.connPhase, connPhase_append] at serving
        split at serving
        · cases serving
        · exact inv.guarded conn serving
      · intro conn accepted
        simp only [State.connPhase, connPhase_append] at accepted
        split at accepted
        case isTrue new =>
          subst new
          exact ⟨service, Function.update_self ..⟩
        case isFalse old =>
          exact handed_update _ (by simp [selecting]) (inv.handed conn accepted)
  | spawnConn =>
      obtain ⟨conn, holding, rfl⟩ := spawnConn_eq_some.mp stepped
      refine ⟨?_, ?_, fun past => absurd past running⟩
      · intro other serving
        rcases connPhase_setConn_some serving with ⟨-, same⟩ | ⟨-, old⟩
        · cases same
        · exact inv.guarded other old
      · intro other accepted
        rcases connPhase_setConn_some accepted with ⟨-, same⟩ | ⟨different, old⟩
        · cases same
        · refine handed_update _ ?_ (inv.handed other old)
          rw [holding]
          exact fun same => different (ServicePhase.accepted.inj same).symm
  | pollShutdown =>
      obtain ⟨selecting, ⟨lock, -, rfl⟩ | ⟨-, rfl⟩⟩ := pollShutdown_eq_some.mp stepped
      · have moved : DrainInvariant (state.setService service .leaving) :=
          inv.setService running (by simp [selecting]) .leaving
        exact ⟨moved.guarded, moved.handed, moved.joined⟩
      · exact inv
  | leave =>
      obtain ⟨leaving, done⟩ := Option.ite_none_right_eq_some.mp stepped
      cases done
      have moved : DrainInvariant (state.setService service (.ended .shutdown false)) :=
        inv.setService running (by simp [leaving]) _
      exact ⟨moved.guarded, moved.handed, moved.joined⟩
  | panic =>
      obtain ⟨before, done⟩ := Option.ite_none_right_eq_some.mp stepped
      cases done
      refine inv.setService running (fun conn => ?_) _
      rcases before with before | before <;> simp [before]
  | enterLoop =>
      obtain ⟨before, done⟩ := Option.ite_none_right_eq_some.mp stepped
      cases done
      exact inv.setService running (by simp [before]) _
  | setupFailed | listenerClosed =>
      obtain ⟨⟨-, before⟩, done⟩ := Option.ite_none_right_eq_some.mp stepped
      cases done
      exact inv.setService running (by simp [before]) _

/-- A connection task holds its read guard exactly while it serves. -/
theorem DrainInvariant.stepConn {barging : Bool} {state next : State} {conn : ConnId}
    {action : ConnAction} (inv : DrainInvariant state)
    (stepped : stepConn barging state conn action = some next)
    : DrainInvariant next := by
  -- no action of a connection task makes a connection `accepted`
  have handed {phase : ConnPhase} (other : ConnId)
      (accepted : (state.setConn conn phase).connPhase other = some .accepted)
      (moved : phase ≠ .accepted)
      : ∃ service, state.services service = .accepted other := by
    rcases connPhase_setConn_some accepted with ⟨-, same⟩ | ⟨-, old⟩
    · exact absurd same.symm moved
    · exact inv.handed other old
  cases action with
  | start =>
      obtain ⟨-, done⟩ := Option.ite_none_right_eq_some.mp stepped
      cases done
      refine ⟨?_, fun other accepted => handed other accepted (by simp), inv.joined⟩
      intro other serving
      rcases connPhase_setConn_some serving with ⟨-, same⟩ | ⟨-, old⟩
      · cases same
      · exact inv.guarded other old
  | lock =>
      obtain ⟨-, granted⟩ := Option.ite_none_right_eq_some.mp stepped
      obtain ⟨lock, acquired, rfl⟩ := Option.map_eq_some_iff.mp granted
      obtain ⟨-, readers, -, -⟩ := RwLock.acquireRead_eq_some.mp acquired
      refine ⟨?_, fun other accepted => handed other accepted (by simp), inv.joined⟩
      intro other serving
      simp only [readers, List.mem_cons]
      rcases connPhase_setConn_some serving with ⟨same, -⟩ | ⟨-, old⟩
      · exact Or.inl same
      · exact Or.inr (inv.guarded other old)
  | finish =>
      obtain ⟨-, done⟩ := Option.ite_none_right_eq_some.mp stepped
      cases done
      refine ⟨?_, fun other accepted => handed other accepted (by simp), inv.joined⟩
      intro other serving
      rcases connPhase_setConn_some serving with ⟨-, same⟩ | ⟨different, old⟩
      · cases same
      · exact (List.mem_erase_of_ne different).mpr (inv.guarded other old)
  | request =>
      obtain ⟨-, done⟩ := Option.ite_none_right_eq_some.mp stepped
      cases done
      exact ⟨inv.guarded, inv.handed, inv.joined⟩

theorem DrainInvariant.stepRequest {state next : State} {request : RequestId}
    {action : RequestAction} (inv : DrainInvariant state)
    (stepped : stepRequest state request action = some next)
    : DrainInvariant next := by
  obtain ⟨requests, rfl⟩ := stepRequest_frame stepped
  exact ⟨inv.guarded, inv.handed, inv.joined⟩

/-- Every step of the gateway keeps the invariant, by the task that takes it. -/
theorem DrainInvariant.step {barging : Bool} {state next : State} {action : Action}
    (inv : DrainInvariant state) (order : state.SpawnOrder)
    (stepped : step barging state action = some next)
    : DrainInvariant next := by
  cases action with
  | main action => exact inv.stepMain order stepped
  | stop action => exact inv.stepStop stepped
  | service service action => exact inv.stepService stepped
  | conn conn action => exact inv.stepConn stepped
  | request request action => exact inv.stepRequest stepped

theorem State.allFinished_iff (state : State)
    : state.AllFinished
      ↔ ∀ conn phase, state.connPhase conn = some phase → phase = .finished :=
  forall_conns_iff state (· = .finished)

/-- When `srv` is granted the write guard, no connection is accepted or serving any more, so one
is finished exactly if its task is not still to be granted its read guard.
-/
theorem DrainInvariant.finished_iff {state : State} {conn : Conn} (inv : DrainInvariant state)
    (past : state.main.PastJoin) (free : state.connLock.readers = [])
    (member : conn ∈ state.conns)
    : conn.phase = .finished ↔ conn.phase ≠ .spawned ∧ conn.phase ≠ .waiting := by
  obtain ⟨index, at_⟩ := List.mem_iff_getElem?.mp member
  have present : state.connPhase index = some conn.phase := by simp [State.connPhase, at_]
  cases phase : conn.phase with
  | accepted =>
      obtain ⟨service, holding⟩ := inv.handed index (phase ▸ present)
      have joined := inv.joined past service
      simp [holding, ServicePhase.joined] at joined
  | serving =>
      have reader := inv.guarded index (phase ▸ present)
      simp [free] at reader
  | _ => simp

theorem DrainInvariant.allFinished_iff {state : State} (inv : DrainInvariant state)
    (past : state.main.PastJoin) (free : state.connLock.readers = [])
    : state.AllFinished ↔ state.GuardsTaken :=
  forall₂_congr fun _ member => inv.finished_iff past free member

-----------------------------------------------------------------------------------------
-- What is decided when the write guard is granted
-----------------------------------------------------------------------------------------

/-- Once granted, the write guard has been granted before, but for the step that grants it. -/
theorem granted_of_stepMain {state next : State} {action : MainAction}
    (other : action ≠ .lockConns) (stepped : stepMain state action = some next)
    (granted : next.main.Granted)
    : state.main.Granted := by
  cases action with
  | lockConns => exact absurd rfl other
  | unlockConns =>
      obtain ⟨locked, -⟩ := Option.ite_none_right_eq_some.mp stepped
      exact Or.inl locked
  | ret =>
      obtain ⟨unlocked, -⟩ := Option.ite_none_right_eq_some.mp stepped
      exact Or.inr (Or.inl unlocked)
  | _ =>
      have target := stepMain_target stepped
      rcases granted with main | main | main <;> simp [MainAction.targets, main] at target

/-- A property of the connections and the requests that the steps of their tasks keep. -/
structure TasksKeep (barging : Bool) (property : State → Prop) : Prop where
  same
    : ∀ state other,
        property state
        → other.conns = state.conns
        → other.requests = state.requests
        → property other
  conn
    : ∀ state next conn action,
        property state → stepConn barging state conn action = some next → property next
  request
    : ∀ state next request action,
        property state → stepRequest state request action = some next → property next

/-- Whether such a property holds from the grant of the write guard on is decided at the grant,
where no read guard is held. Witness: past the join no service takes a step.
-/
theorem TasksKeep.granted_step_iff {barging : Bool} {property : State → Prop} {taken : Prop}
    {state next : State} {action : Action} (keep : TasksKeep barging property)
    (inv : DrainInvariant state)
    (decided
      : state.main.PastJoin
        → state.connLock.readers = []
        → (property state ↔ taken))
    (holds : state.main.Granted → property state)
    (stepped : step barging state action = some next)
    : (next.main.Granted → property next) ↔ (action = .main .lockConns → taken) := by
  by_cases grant : action = .main .lockConns
  · subst grant
    obtain ⟨draining, granted⟩ := Option.ite_none_right_eq_some.mp stepped
    obtain ⟨lock, acquired, rfl⟩ := Option.map_eq_some_iff.mp granted
    have free := (RwLock.acquireWrite_eq_some.mp acquired).1.2
    have decided := decided (Or.inl draining) free
    constructor
    · exact fun after _ => decided.mp (keep.same _ _ (after (Or.inl rfl)) rfl rfl)
    · exact fun before _ => keep.same _ _ (decided.mpr (before rfl)) rfl rfl
  · refine iff_of_true ?_ fun same => absurd same grant
    cases action with
    | main action =>
        intro granted
        have before := granted_of_stepMain (fun same => grant (same ▸ rfl)) stepped granted
        obtain ⟨_, _, _, _, _, rfl⟩ := stepMain_frame stepped
        exact keep.same _ _ (holds before) rfl rfl
    | stop action =>
        obtain ⟨_, _, _, rfl⟩ := stepStop_frame stepped
        exact fun granted => keep.same _ _ (holds granted) rfl rfl
    | service service action =>
        obtain ⟨_, _, _, rfl⟩ := stepService_frame stepped
        intro granted
        have none := inv.services_stopped (Or.inr granted) service action
        simp [step, none] at stepped
    | conn conn action =>
        intro granted
        have main : next.main = state.main := by
          obtain ⟨_, _, _, rfl⟩ := stepConn_frame stepped
          rfl
        exact keep.conn _ _ _ _ (holds (main ▸ granted)) stepped
    | request request action =>
        intro granted
        have main : next.main = state.main := by
          obtain ⟨_, rfl⟩ := stepRequest_frame stepped
          rfl
        exact keep.request _ _ _ _ (holds (main ▸ granted)) stepped

/-- Finished connections take no steps. -/
theorem stepConn_allFinished {barging : Bool} {state : State} (finished : state.AllFinished)
    (conn : ConnId) (action : ConnAction)
    : stepConn barging state conn action = none := by
  have absent {phase : ConnPhase} (unfinished : phase ≠ .finished)
      : state.connPhase conn ≠ some phase :=
    fun present => unfinished ((state.allFinished_iff.mp finished) conn phase present)
  cases action with
  | request =>
      have serving : state.connPhase conn ≠ some .serving := absent (by simp)
      refine if_neg fun present => serving ?_
      simp [State.connPhase, present]
  | _ => exact if_neg (absent (by simp))

theorem tasksKeep_allFinished (barging : Bool) : TasksKeep barging State.AllFinished where
  same := by
    intro state other finished conns _ conn member
    exact finished conn (conns ▸ member)
  conn := by
    intro state next conn action finished stepped
    simp [stepConn_allFinished finished conn action] at stepped
  request := by
    intro state next request action finished stepped
    obtain ⟨_, rfl⟩ := stepRequest_frame stepped
    exact finished

/-- Only the grant of the write guard decides whether `srv` will return drained: no other
step can unsettle a state.
-/
theorem settled_step_iff {barging : Bool} {state next : State} {action : Action}
    (inv : DrainInvariant state) (settled : Settled state)
    (stepped : step barging state action = some next)
    : Settled next ↔ GuardsTakenFirst state action next :=
  (tasksKeep_allFinished barging).granted_step_iff inv inv.allFinished_iff settled stepped

/-- A run settles exactly if `srv` is never granted the write guard too early. -/
theorem always_settled_iff (barging : Bool) (actions : List Action)
    : (gateway barging).Always Settled .init actions
      ↔ (gateway barging).EachStep GuardsTakenFirst .init actions := by
  exact Machine.always_iff_eachStep
    (fun state => state.SpawnOrder ∧ DrainInvariant state)
    (fun before action after inv settled stepped => settled_step_iff inv.2 settled stepped)
    (fun before action after inv _ stepped _ => ⟨inv.1.step stepped, inv.2.step inv.1 stepped⟩)
    ⟨.init, .init⟩ (by simp [Settled, MainPhase.Granted, State.init])

-----------------------------------------------------------------------------------------
-- What holds when `srv` returns
-----------------------------------------------------------------------------------------

/-- If `srv` is granted `conn_lock.write()` only after every connection task its read guard, it
returns with every accepted connection served to completion; and only then are all of them
served from the grant on.
-/
theorem srv_drained (barging : Bool) (actions : List Action)
    : ((gateway barging).EachStep GuardsTakenFirst .init actions
        → (gateway barging).Always Drained .init actions)
      ∧ ((gateway barging).Always Settled .init actions
        ↔ (gateway barging).EachStep GuardsTakenFirst .init actions) := by
  have decided := always_settled_iff barging actions
  refine ⟨fun each => ?_, decided⟩
  exact (decided.mpr each).mono fun _ settled returned => settled (Or.inr (Or.inr returned))

/-- `srv` starts its services, the stop task being polled first, and `h1` accepts and
spawns one connection.
-/
def acceptOne : List Action :=
  [.main .spawnStop, .stop .poll, .main .bound, .main .spawnService, .main .spawnService,
    .main .spawnService, .service .h1 .enterLoop, .service .h2 .enterLoop,
    .service .h3 .enterLoop, .service .h1 .accept, .service .h1 .spawnConn]

/-- `graceful_shutdown` completes and `srv` joins its services. -/
def stopServices : List Action :=
  [.stop .gracefulComplete, .stop .release, .service .h1 .pollShutdown,
    .service .h2 .pollShutdown, .service .h3 .pollShutdown, .service .h1 .leave,
    .service .h2 .leave, .service .h3 .leave, .main (.joinNext .h1), .main (.joinNext .h2),
    .main (.joinNext .h3), .main .joinEnd]

/-- `srv` takes the write guard, drops it and returns. -/
def returns : List Action :=
  [.main .lockConns, .main .unlockConns, .main .ret]

/-- The connection task is not polled before `srv` returns. -/
def overtakingRun : List Action :=
  acceptOne ++ stopServices ++ returns

/-- The connection task is polled at once and finishes before `srv` is granted its lock. -/
def drainingRun : List Action :=
  acceptOne ++ [.conn 0 .start, .conn 0 .lock] ++ stopServices
    ++ [.conn 0 .finish] ++ returns

/-- `srv` returns `Ok` while an accepted connection still waits for its first poll. -/
theorem srv_returns_before_conn
    : ¬ (gateway false).Always Drained .init overtakingRun
      ∧ ((gateway false).run .init overtakingRun).map
          (fun final => (final.main, final.connPhase 0))
        = some (.returned, some .spawned) := by
  decide

/-- The draining run meets the condition, so it is drained, and it does return. -/
theorem srv_drained_drainingRun
    : (gateway false).Always Drained .init drainingRun
      ∧ (gateway false).Always Settled .init drainingRun
      ∧ ((gateway false).run .init drainingRun).map (·.main) = some .returned := by
  have each : (gateway false).EachStep GuardsTakenFirst .init drainingRun := by decide
  have drained := srv_drained false drainingRun
  exact ⟨drained.1 each, drained.2.mpr each, by decide⟩

end Gway.Srv
