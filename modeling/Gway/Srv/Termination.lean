import Gway.Library.Progress
import Gway.Srv.Propagation
import Gway.Srv.RequestDrain
import Gway.Srv.WorkerThreads

/-! The gateway comes to its end. Between two accepts there is only so much that its tasks can do,
and they can go on until all of them have ended, unless every worker thread is blocked.
-/

namespace Gway.Srv

variable {workers : Nat} {barging : Bool} {state next : State}

-----------------------------------------------------------------------------------------
-- How much there is left to do
-----------------------------------------------------------------------------------------

/-- How many steps `srv` has left at most, the joins of services apart. -/
def MainPhase.rank : MainPhase → Nat
  | .started => 9
  | .binding => 8
  | .spawning .h1 => 7
  | .spawning .h2 => 6
  | .spawning .h3 => 5
  | .joining => 4
  | .draining => 3
  | .locked => 2
  | .unlocked => 1
  | .returned | .failed => 0

def StopPhase.rank : StopPhase → Nat
  | .absent => 5
  | .spawned => 4
  | .queued => 3
  | .holding => 2
  | .releasing => 1
  | .finished | .dropped => 0

/-- The steps that a service has left, with its join, if it accepts no other connection. -/
def ServicePhase.rank : ServicePhase → Nat
  | .absent => 6
  | .spawned => 5
  | .accepted _ => 4
  | .selecting => 3
  | .leaving => 2
  | .ended _ joined => if joined then 0 else 1

def Conn.rank (conn : Conn) : Nat :=
  match conn.phase with
  | .accepted => 4
  | .spawned => 3
  | .waiting => 2
  | .serving => 1
  | .finished => 0

def Request.rank (request : Request) : Nat :=
  match request.phase with
  | .spawned => 2
  | .running => 1
  | .finished => 0

def servicesRank (services : Service → ServicePhase) : Nat :=
  (services .h1).rank + (services .h2).rank + (services .h3).rank

/-- How many steps all tasks together have left without a new connection or request. -/
def State.rank (state : State) : Nat :=
  state.main.rank + state.stop.rank + servicesRank state.services
    + rankAll Conn.rank state.conns + rankAll Request.rank state.requests

/-- A client begins something that the gateway then has to bring to its end. -/
def Action.isNew : Action → Bool
  | .service _ .accept | .conn _ .request => true
  | _ => false

/-- A step that works on what is there already, and is not a poll that finds nothing to do. -/
def Works (before : State) (action : Action) (after : State) : Prop :=
  action.isNew = false ∧ after ≠ before

theorem servicesRank_update (services : Service → ServicePhase) (service : Service)
    (phase : ServicePhase)
    : servicesRank (Function.update services service phase) + (services service).rank
      = servicesRank services + phase.rank := by
  cases service <;> simp [servicesRank] <;> omega

/-- What a connection has left after a change of its phase. -/
theorem rank_setConn {conn : ConnId} {found : Conn} (present : state.conns[conn]? = some found)
    (phase : ConnPhase)
    : rankAll Conn.rank (state.setConn conn phase).conns + found.rank
      = rankAll Conn.rank state.conns + { found with phase }.rank :=
  rankAll_modify present

theorem rank_setRequest {request : RequestId} {found : Request}
    (present : state.requests[request]? = some found) (phase : RequestPhase)
    : rankAll Request.rank (state.setRequest request phase).requests + found.rank
      = rankAll Request.rank state.requests + { found with phase }.rank :=
  rankAll_modify present

-----------------------------------------------------------------------------------------
-- Every step leaves less
-----------------------------------------------------------------------------------------

theorem rank_stepMain {action : MainAction} (order : state.SpawnOrder)
    (begun : state.main = .started → state.stop = .absent)
    (stepped : stepMain state action = some next)
    : next.rank < state.rank := by
  cases action with
  | spawnService =>
      obtain ⟨service, running, rfl⟩ := spawnService_eq_some.mp stepped
      have absent := order.spawning running
      have changed := servicesRank_update state.services service .spawned
      rw [absent] at changed
      simp only [State.rank, State.setService, running]
      cases service <;> simp only [Service.next, MainPhase.rank, ServicePhase.rank] at changed ⊢ <;>
        omega
  | joinNext service =>
      obtain ⟨how, ended, joining, rfl⟩ := joinNext_eq_some.mp stepped
      have changed := servicesRank_update state.services service (.ended how true)
      rw [ended] at changed
      simp only [ServicePhase.rank, if_true, Bool.false_eq_true, if_false] at changed
      simp only [State.rank, State.setService]
      omega
  | lockConns =>
      obtain ⟨draining, granted⟩ := Option.ite_none_right_eq_some.mp stepped
      obtain ⟨lock, -, rfl⟩ := Option.map_eq_some_iff.mp granted
      simp only [State.rank, draining, MainPhase.rank]
      omega
  | spawnStop =>
      obtain ⟨started, done⟩ := Option.ite_none_right_eq_some.mp stepped
      cases done
      simp only [State.rank, started, begun started, MainPhase.rank, StopPhase.rank]
      omega
  | joinEnd =>
      obtain ⟨⟨joining, -⟩, done⟩ := Option.ite_none_right_eq_some.mp stepped
      cases done
      simp only [State.rank, joining, MainPhase.rank]
      omega
  | _ =>
      obtain ⟨before, done⟩ := Option.ite_none_right_eq_some.mp stepped
      cases done
      simp only [State.rank, before, MainPhase.rank]
      omega

theorem rank_stepStop {action : StopAction} (stepped : stepStop state action = some next)
    : next.rank < state.rank := by
  cases action with
  | poll =>
      obtain ⟨spawned, ⟨lock, -, rfl⟩ | ⟨-, rfl⟩⟩ := pollStop_eq_some.mp stepped
      · simp only [State.rank, spawned, StopPhase.rank]
        omega
      · simp only [State.rank, spawned, StopPhase.rank]
        omega
  | granted =>
      obtain ⟨queued, granted⟩ := Option.ite_none_right_eq_some.mp stepped
      obtain ⟨lock, -, rfl⟩ := Option.map_eq_some_iff.mp granted
      simp only [State.rank, queued, StopPhase.rank]
      omega
  | drop =>
      obtain ⟨-, dropped⟩ := Option.ite_none_right_eq_some.mp stepped
      split at dropped
      case h_4 => contradiction
      all_goals
        rename_i phase
        cases dropped
        simp only [State.rank, phase, StopPhase.rank]
        omega
  | _ =>
      obtain ⟨before, done⟩ := Option.ite_none_right_eq_some.mp stepped
      cases done
      simp only [State.rank, before, StopPhase.rank]
      omega

/-- A service that goes on to a later phase has less to do. -/
theorem rank_setService {service : Service} {phase : ServicePhase}
    (lower : phase.rank < (state.services service).rank)
    : (state.setService service phase).rank < state.rank := by
  have changed := servicesRank_update state.services service phase
  simp only [State.rank, State.setService]
  omega

/-- So has a connection. -/
theorem rank_connPhase {conn : ConnId} {before phase : ConnPhase}
    (present : state.connPhase conn = some before)
    (lower : ∀ found : Conn, found.phase = before → { found with phase }.rank < found.rank)
    : (state.setConn conn phase).rank < state.rank := by
  obtain ⟨found, there, same⟩ := Option.map_eq_some_iff.mp present
  have changed := rank_setConn there phase
  have less := lower found same
  simp only [State.rank, State.setConn] at changed ⊢
  omega

theorem rank_stepService {service : Service} {action : ServiceAction}
    (inv : ConnLockInvariant state) (old : action ≠ .accept)
    (stepped : stepService state service action = some next)
    : next = state ∨ next.rank < state.rank := by
  cases action with
  | accept => exact absurd rfl old
  | spawnConn =>
      obtain ⟨conn, holding, rfl⟩ := spawnConn_eq_some.mp stepped
      right
      have first : (state.setService service .selecting).rank < state.rank :=
        rank_setService (by simp [holding, ServicePhase.rank])
      have second
          : ((state.setService service .selecting).setConn conn .spawned).rank
            < (state.setService service .selecting).rank :=
        rank_connPhase (inv.connPhase_inHand holding)
          fun found phase => by simp [Conn.rank, phase]
      exact second.trans first
  | pollShutdown =>
      obtain ⟨selecting, ⟨lock, -, rfl⟩ | ⟨-, rfl⟩⟩ := pollShutdown_eq_some.mp stepped
      · have lower : (state.setService service .leaving).rank < state.rank :=
          rank_setService (by simp [selecting, ServicePhase.rank])
        exact .inr lower
      · exact .inl rfl
  | setupFailed | listenerClosed =>
      obtain ⟨⟨-, before⟩, done⟩ := Option.ite_none_right_eq_some.mp stepped
      cases done
      exact .inr (rank_setService (by simp [before, ServicePhase.rank]))
  | panic =>
      obtain ⟨before | before, done⟩ := Option.ite_none_right_eq_some.mp stepped
      · cases done
        exact .inr (rank_setService (by simp [before, ServicePhase.rank]))
      · cases done
        exact .inr (rank_setService (by simp [before, ServicePhase.rank]))
  | enterLoop =>
      obtain ⟨before, done⟩ := Option.ite_none_right_eq_some.mp stepped
      cases done
      exact .inr (rank_setService (by simp [before, ServicePhase.rank]))
  | leave =>
      obtain ⟨leaving, done⟩ := Option.ite_none_right_eq_some.mp stepped
      cases done
      have lower : (state.setService service (.ended .shutdown false)).rank < state.rank :=
        rank_setService (by simp [leaving, ServicePhase.rank])
      exact .inr lower

theorem rank_stepConn {conn : ConnId} {action : ConnAction} (old : action ≠ .request)
    (stepped : stepConn barging state conn action = some next)
    : next.rank < state.rank := by
  cases action with
  | request => exact absurd rfl old
  | start =>
      obtain ⟨spawned, done⟩ := Option.ite_none_right_eq_some.mp stepped
      cases done
      exact rank_connPhase spawned fun found phase => by simp [Conn.rank, phase]
  | lock =>
      obtain ⟨waiting, granted⟩ := Option.ite_none_right_eq_some.mp stepped
      obtain ⟨lock, -, rfl⟩ := Option.map_eq_some_iff.mp granted
      have lower : (state.setConn conn .serving).rank < state.rank :=
        rank_connPhase waiting fun found phase => by simp [Conn.rank, phase]
      exact lower
  | finish =>
      obtain ⟨serving, done⟩ := Option.ite_none_right_eq_some.mp stepped
      cases done
      have lower : (state.setConn conn .finished).rank < state.rank :=
        rank_connPhase serving fun found phase => by simp [Conn.rank, phase]
      exact lower

theorem rank_stepRequest {request : RequestId} {action : RequestAction}
    (stepped : stepRequest state request action = some next)
    : next.rank < state.rank := by
  have lower {before phase : RequestPhase} (present : state.requestPhase request = some before)
      (less : ∀ found : Request, found.phase = before → { found with phase }.rank < found.rank)
      : (state.setRequest request phase).rank < state.rank := by
    obtain ⟨found, there, same⟩ := Option.map_eq_some_iff.mp present
    have changed := rank_setRequest there phase
    have counted := less found same
    simp only [State.rank, State.setRequest] at changed ⊢
    omega
  cases action with
  | start =>
      obtain ⟨spawned, done⟩ := Option.ite_none_right_eq_some.mp stepped
      cases done
      exact lower spawned fun found phase => by simp [Request.rank, phase]
  | finish =>
      obtain ⟨running, done⟩ := Option.ite_none_right_eq_some.mp stepped
      cases done
      exact lower running fun found phase => by simp [Request.rank, phase]

-----------------------------------------------------------------------------------------
-- What keeps the tasks from waiting for nobody
-----------------------------------------------------------------------------------------

/-- The guards of `shutdown_lock` are those of services on their way out. -/
structure GuardsLeaving (state : State) : Prop where
  leaving : ∀ service ∈ state.shutdownLock.readers, state.services service = .leaving
  distinct : state.shutdownLock.readers.Nodup

/-- `srv` has spawned every service that it is past, and only `srv` waits for `conn_lock`, while
it drains.
-/
structure EndInvariant (state : State) : Prop where
  worker : WorkerInvariant state
  shutdown : ShutdownInvariant state
  stop : StopInvariant state
  spawned
    : ∀ service, state.services service = .absent → service ∈ state.main.unspawned
  guards : GuardsLeaving state
  queue : state.connLock.queue = if state.main = .draining then [()] else []

theorem EndInvariant.init : EndInvariant State.init where
  worker := .init
  shutdown := .init
  stop := .init
  spawned := by
    intro service _
    cases service <;> decide
  guards := ⟨nofun, List.nodup_nil⟩
  queue := rfl

theorem spawned_stepMain {action : MainAction}
    (spawned : ∀ service, state.services service = .absent → service ∈ state.main.unspawned)
    (stepped : stepMain state action = some next)
    : ∀ service, next.services service = .absent → service ∈ next.main.unspawned := by
  intro other absent
  cases action with
  | spawnService =>
      obtain ⟨service, running, rfl⟩ := spawnService_eq_some.mp stepped
      have different : other ≠ service := by
        rintro rfl
        simp [State.setService] at absent
      have before : state.services other = .absent := by
        simpa [State.setService, different] using absent
      have listed := spawned other before
      rw [running] at listed
      cases service <;> cases other <;> simp_all [MainPhase.unspawned, Service.next]
  | joinNext service =>
      obtain ⟨how, ended, joining, rfl⟩ := joinNext_eq_some.mp stepped
      have different : other ≠ service := by
        rintro rfl
        simp [State.setService] at absent
      have before : state.services other = .absent := by
        simpa [State.setService, different] using absent
      exact spawned other before
  | lockConns =>
      obtain ⟨draining, granted⟩ := Option.ite_none_right_eq_some.mp stepped
      obtain ⟨lock, -, rfl⟩ := Option.map_eq_some_iff.mp granted
      have listed := spawned other absent
      simp [draining, MainPhase.unspawned] at listed
  | _ =>
      obtain ⟨before, done⟩ := Option.ite_none_right_eq_some.mp stepped
      cases done
      have listed := spawned other absent
      simp_all [MainPhase.unspawned]

theorem queue_stepMain {action : MainAction}
    (queue : state.connLock.queue = if state.main = .draining then [()] else [])
    (stepped : stepMain state action = some next)
    : next.connLock.queue = if next.main = .draining then [()] else [] := by
  cases action with
  | spawnService =>
      obtain ⟨service, running, rfl⟩ := spawnService_eq_some.mp stepped
      cases service <;> simpa [running, Service.next, State.setService] using queue
  | joinNext service =>
      obtain ⟨how, ended, joining, rfl⟩ := joinNext_eq_some.mp stepped
      exact queue
  | lockConns =>
      obtain ⟨draining, granted⟩ := Option.ite_none_right_eq_some.mp stepped
      obtain ⟨lock, acquired, rfl⟩ := Option.map_eq_some_iff.mp granted
      rw [if_pos draining] at queue
      simp [(RwLock.acquireWrite_eq_some.mp acquired).2.2.2, queue]
  | joinEnd =>
      obtain ⟨⟨joining, -⟩, done⟩ := Option.ite_none_right_eq_some.mp stepped
      cases done
      simp [RwLock.enqueue, queue, joining]
  | _ =>
      obtain ⟨before, done⟩ := Option.ite_none_right_eq_some.mp stepped
      cases done
      simpa [before, RwLock.releaseWrite] using queue

/-- A service that is not on its way out may go to any phase. -/
theorem GuardsLeaving.setService {service : Service} {phase : ServicePhase}
    (guards : GuardsLeaving state) (staying : state.services service ≠ .leaving)
    : GuardsLeaving (state.setService service phase) := by
  refine ⟨fun other reads => ?_, guards.distinct⟩
  have leaves := guards.leaving other reads
  have different : other ≠ service := by
    rintro rfl
    exact staying leaves
  simpa [State.setService, different] using leaves

theorem GuardsLeaving.stepMain {action : MainAction} (guards : GuardsLeaving state)
    (order : state.SpawnOrder) (stepped : stepMain state action = some next)
    : GuardsLeaving next := by
  cases action with
  | spawnService =>
      obtain ⟨service, running, rfl⟩ := spawnService_eq_some.mp stepped
      have absent := order.spawning running
      have kept : GuardsLeaving (state.setService service .spawned) :=
        guards.setService (by simp [absent])
      exact ⟨kept.leaving, kept.distinct⟩
  | joinNext service =>
      obtain ⟨how, ended, joining, rfl⟩ := joinNext_eq_some.mp stepped
      have kept : GuardsLeaving (state.setService service (.ended how true)) :=
        guards.setService (by simp [ended])
      exact ⟨kept.leaving, kept.distinct⟩
  | lockConns =>
      obtain ⟨draining, granted⟩ := Option.ite_none_right_eq_some.mp stepped
      obtain ⟨lock, -, rfl⟩ := Option.map_eq_some_iff.mp granted
      exact ⟨guards.leaving, guards.distinct⟩
  | _ =>
      obtain ⟨before, done⟩ := Option.ite_none_right_eq_some.mp stepped
      cases done
      exact ⟨guards.leaving, guards.distinct⟩

/-- The stop task gets the lock only without readers. -/
theorem GuardsLeaving.stepStop {action : StopAction} (guards : GuardsLeaving state)
    (stepped : stepStop state action = some next)
    : GuardsLeaving next := by
  cases action with
  | poll =>
      obtain ⟨spawned, ⟨lock, acquired, rfl⟩ | ⟨-, rfl⟩⟩ := pollStop_eq_some.mp stepped
      · have none := (RwLock.acquireWrite_eq_some.mp acquired).2.1
        exact ⟨by simp [none], by simp [none]⟩
      · exact ⟨guards.leaving, guards.distinct⟩
  | granted =>
      obtain ⟨queued, granted⟩ := Option.ite_none_right_eq_some.mp stepped
      obtain ⟨lock, acquired, rfl⟩ := Option.map_eq_some_iff.mp granted
      have none := (RwLock.acquireWrite_eq_some.mp acquired).2.1
      exact ⟨by simp [none], by simp [none]⟩
  | drop =>
      obtain ⟨-, dropped⟩ := Option.ite_none_right_eq_some.mp stepped
      split at dropped
      case h_4 => contradiction
      all_goals
        cases dropped
        exact ⟨guards.leaving, guards.distinct⟩
  | _ =>
      obtain ⟨before, done⟩ := Option.ite_none_right_eq_some.mp stepped
      cases done
      exact ⟨guards.leaving, guards.distinct⟩

/-- A service takes its guard when it begins to leave, and drops it when it has left. -/
theorem GuardsLeaving.stepService {service : Service} {action : ServiceAction}
    (guards : GuardsLeaving state) (stepped : stepService state service action = some next)
    : GuardsLeaving next := by
  cases action with
  | pollShutdown =>
      obtain ⟨selecting, ⟨lock, acquired, rfl⟩ | ⟨-, rfl⟩⟩ := pollShutdown_eq_some.mp stepped
      · have staying : state.services service ≠ .leaving := by simp [selecting]
        have kept : GuardsLeaving (state.setService service .leaving) :=
          guards.setService staying
        have readers := (RwLock.acquireRead_eq_some.mp acquired).2.1
        constructor
        · intro other reads
          rw [readers] at reads
          rcases List.mem_cons.mp reads with rfl | reads
          · simp [State.setService]
          · exact kept.leaving other reads
        · rw [readers]
          exact List.nodup_cons.mpr
            ⟨fun reads => staying (guards.leaving service reads), guards.distinct⟩
      · exact guards
  | leave =>
      obtain ⟨leaving, done⟩ := Option.ite_none_right_eq_some.mp stepped
      cases done
      constructor
      · intro other reads
        obtain ⟨different, reads⟩ := (guards.distinct.mem_erase_iff).mp reads
        simpa [State.setService, different] using guards.leaving other reads
      · exact guards.distinct.erase service
  | spawnConn =>
      obtain ⟨conn, holding, rfl⟩ := spawnConn_eq_some.mp stepped
      have kept : GuardsLeaving (state.setService service .selecting) :=
        guards.setService (by simp [holding])
      exact ⟨kept.leaving, kept.distinct⟩
  | accept =>
      obtain ⟨selecting, done⟩ := Option.ite_none_right_eq_some.mp stepped
      cases done
      have kept : GuardsLeaving (state.setService service (.accepted state.conns.length)) :=
        guards.setService (by simp [selecting])
      exact ⟨kept.leaving, kept.distinct⟩
  | setupFailed | listenerClosed =>
      obtain ⟨⟨-, before⟩, done⟩ := Option.ite_none_right_eq_some.mp stepped
      cases done
      exact guards.setService (by simp [before])
  | panic =>
      obtain ⟨before | before, done⟩ := Option.ite_none_right_eq_some.mp stepped
      · cases done
        exact guards.setService (by simp [before])
      · cases done
        exact guards.setService (by simp [before])
  | enterLoop =>
      obtain ⟨before, done⟩ := Option.ite_none_right_eq_some.mp stepped
      cases done
      exact guards.setService (by simp [before])

/-- A service that takes a step exists before and after it. -/
theorem spawned_stepService {service : Service} {action : ServiceAction}
    (stepped : stepService state service action = some next) (other : Service)
    (absent : next.services other = .absent)
    : state.services other = .absent := by
  by_cases same : other = service
  · subst same
    cases action <;> simp only [stepService] at stepped <;> (repeat' split at stepped)
    all_goals first
    | contradiction
    | (cases stepped; simp [State.setService, State.setConn] at absent)
    | (cases stepped; exact absent)
  · rwa [← stepService_others stepped same]

theorem queue_stepConn {conn : ConnId} {action : ConnAction}
    (stepped : stepConn barging state conn action = some next)
    : next.connLock.queue = state.connLock.queue := by
  cases action with
  | lock =>
      obtain ⟨-, granted⟩ := Option.ite_none_right_eq_some.mp stepped
      obtain ⟨lock, acquired, rfl⟩ := Option.map_eq_some_iff.mp granted
      exact (RwLock.acquireRead_eq_some.mp acquired).2.2.2
  | _ =>
      obtain ⟨-, done⟩ := Option.ite_none_right_eq_some.mp stepped
      cases done
      rfl

theorem EndInvariant.step {action : Action} (inv : EndInvariant state)
    (stepped : workerStep workers state action = some next)
    : EndInvariant next := by
  have worker := inv.worker.step stepped
  have stepped := step_of_workerStep stepped
  have shutdown := inv.shutdown.step inv.worker.order stepped
  have event : stepEvent false state (.act action) = some next := stepped
  have stop := inv.stop.step event
  cases action with
  | main action =>
      exact ⟨worker, shutdown, stop, spawned_stepMain inv.spawned stepped,
        inv.guards.stepMain inv.worker.order stepped, queue_stepMain inv.queue stepped⟩
  | stop action =>
      have guards := inv.guards.stepStop stepped
      obtain ⟨_, _, _, rfl⟩ := stepStop_frame stepped
      exact ⟨worker, shutdown, stop, inv.spawned, guards, inv.queue⟩
  | service service action =>
      have spawned := spawned_stepService stepped
      have guards := inv.guards.stepService stepped
      obtain ⟨_, _, _, rfl⟩ := stepService_frame stepped
      exact ⟨worker, shutdown, stop, fun other absent => inv.spawned other (spawned other absent),
        guards, inv.queue⟩
  | conn conn action =>
      have queue := queue_stepConn stepped
      obtain ⟨_, _, _, rfl⟩ := stepConn_frame stepped
      exact ⟨worker, shutdown, stop, inv.spawned, ⟨inv.guards.leaving, inv.guards.distinct⟩,
        queue.trans inv.queue⟩
  | request request action =>
      obtain ⟨_, rfl⟩ := stepRequest_frame stepped
      exact ⟨worker, shutdown, stop, inv.spawned, ⟨inv.guards.leaving, inv.guards.distinct⟩,
        inv.queue⟩

/-- Work on worker threads leaves less to do. -/
theorem workerThreads_progress (workers : Nat)
    : (workerThreads workers).Progress Works EndInvariant State.rank := by
  constructor
  · exact fun _ _ _ inv stepped => inv.step stepped
  · rintro before action after inv stepped ⟨old, changed⟩
    have stepped := step_of_workerStep stepped
    cases action with
    | main action =>
        exact rank_stepMain inv.worker.order (fun started => inv.stop.begun started) stepped
    | stop action => exact rank_stepStop stepped
    | service service action =>
        have known : action ≠ .accept := by
          rintro rfl
          cases old
        exact (rank_stepService inv.worker.lock known stepped).resolve_left changed
    | conn conn action =>
        have known : action ≠ .request := by
          rintro rfl
          cases old
        exact rank_stepConn known stepped
    | request request action => exact rank_stepRequest stepped

-----------------------------------------------------------------------------------------
-- Where there is nothing left to do
-----------------------------------------------------------------------------------------

/-- `srv` has returned, and every task that it or a client has begun has ended. -/
structure Done (state : State) : Prop where
  main : state.main = .returned ∨ state.main = .failed
  stop : state.StopOver
  services
    : ∀ service,
        state.services service = .absent
        ∨ ∃ how joined, state.services service = .ended how joined
  conns : state.AllFinished
  requests : ∀ request ∈ state.requests, request.phase = .finished

/-- Work that leaves a worker thread to the connections that `srv` waits for. -/
def WorksAndKeeps (workers : Nat) (before : State) (action : Action) (after : State) : Prop :=
  Works before action after ∧ KeepsWorker workers before action after

/-- The machine has no work left, except that which would block its last worker thread. -/
def State.Idle (workers : Nat) (state : State) : Prop :=
  (workerThreads workers).Idle (WorksAndKeeps workers) state

/-- An idle machine takes no step that would be work. -/
theorem State.Idle.eq (idle : state.Idle workers) (action : Action) (old : action.isNew = false)
    (worker : action.needsWorker = true → state.blocked < workers)
    (keeps : ∀ after, KeepsWorker workers state action after)
    (stepped : step false state action = some next)
    : next = state := by
  by_contra changed
  have taken : (workerThreads workers).step state action = some next :=
    (if_pos worker).trans stepped
  exact idle action next taken ⟨⟨old, changed⟩, keeps next⟩

theorem State.Idle.stepMain (idle : state.Idle workers) (inv : EndInvariant state)
    (action : MainAction) (keeps : ∀ after, KeepsWorker workers state (.main action) after)
    : stepMain state action = none := by
  cases stepped : Srv.stepMain state action with
  | none => rfl
  | some next =>
      have lower := rank_stepMain inv.worker.order (fun started => inv.stop.begun started) stepped
      rw [idle.eq (.main action) rfl nofun keeps stepped] at lower
      omega

theorem State.Idle.stepStop (idle : state.Idle workers) (worker : state.blocked < workers)
    (action : StopAction)
    : stepStop state action = none := by
  cases stepped : Srv.stepStop state action with
  | none => rfl
  | some next =>
      have lower := rank_stepStop stepped
      rw [idle.eq (.stop action) rfl (fun _ => worker) (fun _ => trivial) stepped] at lower
      omega

theorem State.Idle.stepConn (idle : state.Idle workers) (conn : ConnId) (action : ConnAction)
    (old : action ≠ .request)
    (worker : (Action.conn conn action).needsWorker = true → state.blocked < workers)
    (keeps : ∀ after, KeepsWorker workers state (.conn conn action) after)
    : stepConn false state conn action = none := by
  cases stepped : Srv.stepConn false state conn action with
  | none => rfl
  | some next =>
      have lower := rank_stepConn old stepped
      have known : (Action.conn conn action).isNew = false := by
        cases action with
        | request => exact absurd rfl old
        | _ => rfl
      rw [idle.eq (.conn conn action) known worker keeps stepped] at lower
      omega

theorem State.Idle.stepRequest (idle : state.Idle workers) (worker : state.blocked < workers)
    (request : RequestId) (action : RequestAction)
    : stepRequest state request action = none := by
  cases stepped : Srv.stepRequest state request action with
  | none => rfl
  | some next =>
      have lower := rank_stepRequest stepped
      rw [idle.eq (.request request action) rfl (fun _ => worker) (fun _ => trivial) stepped]
        at lower
      omega

/-- A service can at most look in vain whether it is to shut down. -/
theorem State.Idle.stepService (idle : state.Idle workers) (worker : state.blocked < workers)
    (service : Service) (action : ServiceAction) (old : action ≠ .accept)
    (stepped : stepService state service action = some next)
    : next = state := by
  have known : (Action.service service action).isNew = false := by
    cases action with
    | accept => exact absurd rfl old
    | _ => rfl
  exact idle.eq (.service service action) known (fun _ => worker) (fun _ => trivial) stepped

/-- `srv` has got to the join or to its end, unless it waits for a connection that no worker
thread is left to serve.
-/
theorem State.Idle.main (idle : state.Idle workers) (inv : EndInvariant state)
    (free : ¬ Stuck workers state)
    : state.main = .joining ∨ state.main = .returned ∨ state.main = .failed := by
  have refuses (action : MainAction) (other : action ≠ .joinEnd)
      : Srv.stepMain state action = none := by
    apply idle.stepMain inv action
    intro after
    cases action with
    | joinEnd => exact absurd rfl other
    | _ => trivial
  cases main : state.main with
  | started => simpa [Srv.stepMain, main] using refuses .spawnStop (by simp)
  | binding => simpa [Srv.stepMain, main] using refuses .bound (by simp)
  | spawning service => simpa [Srv.stepMain, main] using refuses .spawnService (by simp)
  | joining => exact .inl rfl
  | draining =>
      have unlocked : state.connLock.writer = none := by
        by_contra held
        cases main.symm.trans (inv.worker.lock.writer held)
      cases readers : state.connLock.readers with
      | nil =>
          have granted := refuses .lockConns (by simp)
          simp [Srv.stepMain, main, RwLock.acquireWrite, unlocked, readers] at granted
      | cons conn rest =>
          have serving := (inv.worker.lock.readers conn).mp (by simp [readers])
          have worker : state.blocked < workers := by
            by_contra none
            exact free ⟨main, by simp [readers], Nat.le_of_not_lt none⟩
          have finishes := idle.stepConn conn .finish (by simp) (fun _ => worker) (fun _ => trivial)
          simp [Srv.stepConn, serving] at finishes
  | locked => simpa [Srv.stepMain, main] using refuses .unlockConns (by simp)
  | unlocked => simpa [Srv.stepMain, main] using refuses .ret (by simp)
  | returned => exact .inr (.inl rfl)
  | failed => exact .inr (.inr rfl)

/-- No task waits for its read guard, so no worker thread is blocked. -/
theorem State.Idle.blocked (idle : state.Idle workers) (inv : EndInvariant state)
    (free : ¬ Stuck workers state)
    : state.blocked = 0 := by
  have main := idle.main inv free
  have readable : state.connLock.Readable false := by
    constructor
    · by_contra held
      have locked := inv.worker.lock.writer held
      simp [locked] at main
    · have settled : state.main ≠ .draining := by
        intro draining
        simp [draining] at main
      exact .inr (by rw [inv.queue, if_neg settled])
  refine List.countP_eq_zero.mpr ?_
  have none_waits : ∀ conn phase, state.connPhase conn = some phase → phase ≠ .waiting := by
    rintro conn phase present rfl
    have granted :=
      idle.stepConn conn .lock (by simp) (by simp [Action.needsWorker]) (fun _ => trivial)
    simp [Srv.stepConn, present, RwLock.acquireRead, readable] at granted
  have all := (forall_conns_iff state (· ≠ .waiting)).mpr none_waits
  intro conn member
  simpa using all conn member

/-- A service has ended or selects, unless `srv` has not spawned it. -/
theorem State.Idle.service (idle : state.Idle workers) (worker : state.blocked < workers)
    (service : Service)
    : state.services service = .absent
      ∨ state.services service = .selecting
      ∨ ∃ how joined, state.services service = .ended how joined := by
  have stays {action : ServiceAction} {next : State} (old : action ≠ .accept)
      (stepped : Srv.stepService state service action = some next)
      : next.services service = state.services service := by
    rw [idle.stepService worker service action old stepped]
  cases phase : state.services service with
  | absent => exact .inl rfl
  | selecting => exact .inr (.inl rfl)
  | ended how joined => exact .inr (.inr ⟨how, joined, rfl⟩)
  | spawned =>
      have enters
          : Srv.stepService state service .enterLoop
            = some (state.setService service .selecting) := by
        simp [Srv.stepService, phase]
      have same := stays (by simp) enters
      simp [State.setService, phase] at same
  | accepted conn =>
      have same := stays (by simp) (spawnConn_eq_some.mpr ⟨conn, phase, rfl⟩)
      simp [State.setService, phase] at same
  | leaving =>
      have leaves
          : Srv.stepService state service .leave
            = some
              { state.setService service (.ended .shutdown false) with
                shutdownLock := state.shutdownLock.releaseRead service } := by
        simp [Srv.stepService, phase]
      have same := stays (by simp) leaves
      simp [State.setService, phase] at same

theorem State.Idle.conns (idle : state.Idle workers) (inv : EndInvariant state)
    (free : ¬ Stuck workers state) (worker : state.blocked < workers)
    : state.AllFinished := by
  have main := idle.main inv free
  refine (forall_conns_iff state (· = .finished)).mpr fun conn phase present => ?_
  cases phase with
  | accepted =>
      obtain ⟨service, holding⟩ := inv.worker.drain.handed conn present
      simpa [holding] using idle.service worker service
  | spawned =>
      have keeps (after : State) : KeepsWorker workers state (.conn conn .start) after := by
        intro draining
        simp [draining] at main
      have starts := idle.stepConn conn .start (by simp) (fun _ => worker) keeps
      simp [Srv.stepConn, present] at starts
  | waiting =>
      have none := List.countP_eq_zero.mp (idle.blocked inv free)
      obtain ⟨found, there, waits⟩ := Option.map_eq_some_iff.mp present
      exact absurd (by simp [waits]) (none found (List.mem_of_getElem? there))
  | serving =>
      have finishes := idle.stepConn conn .finish (by simp) (fun _ => worker) (fun _ => trivial)
      simp [Srv.stepConn, present] at finishes
  | finished => rfl

theorem State.Idle.requests (idle : state.Idle workers) (worker : state.blocked < workers)
    : ∀ request ∈ state.requests, request.phase = .finished := by
  intro found member
  obtain ⟨request, there⟩ := List.getElem?_of_mem member
  have present : state.requestPhase request = some found.phase := by
    rw [State.requestPhase, there, Option.map_some]
  cases phase : found.phase with
  | spawned =>
      have starts := idle.stepRequest worker request .start
      simp [Srv.stepRequest, present, phase] at starts
  | running =>
      have finishes := idle.stepRequest worker request .finish
      simp [Srv.stepRequest, present, phase] at finishes
  | finished => rfl

/-- The stop task is over: it waits only for services on their way out, and these leave. -/
theorem State.Idle.stop (idle : state.Idle workers) (inv : EndInvariant state)
    (free : ¬ Stuck workers state) (worker : state.blocked < workers)
    : state.StopOver := by
  have refuses := idle.stepStop worker
  cases stop : state.stop with
  | absent =>
      have started := inv.shutdown.begun.mp stop
      simpa [started] using idle.main inv free
  | spawned =>
      have polls := refuses .poll
      simp only [Srv.stepStop, stop, if_true] at polls
      cases found : state.shutdownLock.acquireWrite () <;> simp [found] at polls
  | queued =>
      have unread : state.shutdownLock.readers = [] := by
        apply List.eq_nil_iff_forall_not_mem.mpr
        intro service reads
        have leaving := inv.guards.leaving service reads
        simpa [leaving] using idle.service worker service
      have unheld : state.shutdownLock.writer = none := by
        by_contra held
        simpa [stop] using inv.stop.writer held
      have granted := refuses .granted
      simp [Srv.stepStop, stop, RwLock.acquireWrite, unheld, unread] at granted
  | holding => simpa [Srv.stepStop, stop] using refuses .gracefulComplete
  | releasing => simpa [Srv.stepStop, stop] using refuses .release
  | finished => exact .inl stop
  | dropped => exact .inr stop

/-- Where the machine is idle although no connection is stuck, everything is done. -/
theorem State.Idle.done (idle : state.Idle workers) (inv : EndInvariant state)
    (free : ¬ Stuck workers state) (pos : 0 < workers)
    : Done state := by
  have worker : state.blocked < workers := by
    rw [idle.blocked inv free]
    exact pos
  have stop := idle.stop inv free worker
  have services (service : Service)
      : state.services service = .absent
        ∨ ∃ how joined, state.services service = .ended how joined := by
    rcases idle.service worker service with absent | selecting | ended
    · exact .inl absent
    · obtain ⟨next, polls, leaving⟩ := (stop.shuttingDown inv.stop).leaves service selecting
      have same := idle.stepService worker service .pollShutdown nofun polls
      rw [same, selecting] at leaving
      cases leaving
    · exact .inr ended
  refine ⟨?_, stop, services, idle.conns inv free worker, idle.requests worker⟩
  rcases idle.main inv free with joining | ended
  · exfalso
    have ends (service : Service) : ∃ how joined, state.services service = .ended how joined := by
      rcases services service with absent | ended
      · have listed := inv.spawned service absent
        simp [joining, MainPhase.unspawned] at listed
      · exact ended
    by_cases joined : state.AllJoined
    · have keeps (after : State) : KeepsWorker workers state (.main .joinEnd) after :=
        fun _ => worker
      have refuses := idle.stepMain inv .joinEnd keeps
      simp [Srv.stepMain, joining, joined] at refuses
    · obtain ⟨service, open_⟩ := not_forall.mp joined
      obtain ⟨how, reaped, phase⟩ := ends service
      rw [phase, ServicePhase.joined, Bool.not_eq_true] at open_
      subst open_
      have refuses := idle.stepMain inv (.joinNext service) (fun _ => trivial)
      simp [Srv.stepMain, joining, phase] at refuses
  · exact ended

-----------------------------------------------------------------------------------------
-- The end of every run
-----------------------------------------------------------------------------------------

theorem endInvariant_of_reachable (reached : (workerThreads workers).Reachable state)
    : EndInvariant state :=
  reached.invariant .init fun _ _ _ inv stepped => inv.step stepped

/-- Steps that keep a worker thread lead to no stuck state, and from one that is not stuck they
lead to the end of everything.
-/
theorem exists_done (pos : 0 < workers) (inv : EndInvariant state)
    (free : ¬ Stuck workers state)
    : ∃ actions final,
        (workerThreads workers).run state actions = some final
        ∧ (workerThreads workers).EachStep Works state actions
        ∧ Done final := by
  have progress
      : (workerThreads workers).Progress (WorksAndKeeps workers) EndInvariant State.rank :=
    { keeps := (workerThreads_progress workers).keeps
      lowers := fun before action after inv stepped works =>
        (workerThreads_progress workers).lowers before action after inv stepped works.1 }
  obtain ⟨actions, final, ran, works, idle⟩ := progress.exists_idle inv
  have always
      : (workerThreads workers).Always (fun state => EndInvariant state ∧ ¬ Stuck workers state)
          state actions := by
    apply works.always
    · rintro before action after ⟨inv, free⟩ stepped ⟨-, keeps⟩
      have moving := (progress_iff inv.worker).mpr free
      have later := (progress_step_iff inv.worker moving stepped).mpr keeps
      have next := inv.step stepped
      exact ⟨next, (progress_iff next.worker).mp later⟩
    · exact ⟨inv, free⟩
  obtain ⟨inv, free⟩ := always.last ran
  have idle : final.Idle workers := idle
  exact ⟨actions, final, ran, works.mono (fun _ _ _ _ _ both => both.1) always,
    idle.done inv free pos⟩

/-- Without new connections and requests the gateway takes no more steps, polls in vain apart,
than the rank of its state. When no step is left, everything is done or `srv` waits for a
connection that no worker thread is left to serve; and as long as that is not so, there is a
way to go on until everything is done.
-/
theorem srv_finishes (pos : 0 < workers) (reached : (workerThreads workers).Reachable state)
    : (∀ actions final,
        (workerThreads workers).run state actions = some final
        → (workerThreads workers).EachStep Works state actions
        → actions.length ≤ state.rank)
      ∧ ((workerThreads workers).Idle Works state → Stuck workers state ∨ Done state)
      ∧ (¬ Stuck workers state
        → ∃ actions final,
            (workerThreads workers).run state actions = some final
            ∧ (workerThreads workers).EachStep Works state actions
            ∧ Done final) := by
  have inv := endInvariant_of_reachable reached
  refine ⟨?_, ?_, exists_done pos inv⟩
  · intro actions final ran works
    have bounded := (workerThreads_progress workers).length_le inv ran works
    omega
  · intro idle
    by_cases stuck : Stuck workers state
    · exact .inl stuck
    · have idle : state.Idle workers :=
        fun action after stepped works => idle action after stepped works.1
      exact .inr (idle.done inv stuck pos)

/-- A gateway that serves a connection and handles a request of it has at most so many steps
left, and one worker thread can bring it to its end.
-/
theorem srv_finishes_acceptRequest
    : ∃ state,
        (workerThreads 1).run .init acceptRequest = some state
        ∧ state.requestPhase 0 = some .running
        ∧ (∀ actions final,
            (workerThreads 1).run state actions = some final
            → (workerThreads 1).EachStep Works state actions
            → actions.length ≤ state.rank)
        ∧ ∃ actions final,
            (workerThreads 1).run state actions = some final
            ∧ (workerThreads 1).EachStep Works state actions
            ∧ Done final := by
  have reached
      : ((workerThreads 1).run .init acceptRequest).map
          (fun state => (state.main, state.requestPhase 0))
        = some (.joining, some .running) := by
    decide
  obtain ⟨state, ran, phases⟩ := Option.map_eq_some_iff.mp reached
  obtain ⟨main, request⟩ := Prod.mk.inj phases
  have free : ¬ Stuck 1 state := fun stuck => by simp [Stuck, main] at stuck
  have finishes := srv_finishes Nat.one_pos ⟨acceptRequest, ran⟩
  exact ⟨state, ran, request, finishes.1, finishes.2.2 free⟩

end Gway.Srv
