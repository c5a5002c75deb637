import Gway.Library.Machine
import Gway.Library.RwLock
import Mathlib.Data.Fintype.Basic
import Mathlib.Logic.Function.Basic

/-! The life of the gateway from the start of `srv` to its return: the stop task, the three
services and their accept loops, the connection tasks, HTTP/3's request handlers, and the
two locks that tie them together. Tasks run between the points where they can wait, so one
action is what one task does from such a point to the next.
-/

namespace Gway.Srv

/-- The services that `srv` spawns, in this order. -/
inductive Service where
  | h1
  | h2
  | h3
deriving DecidableEq, Repr

instance : Fintype Service where
  elems := {.h1, .h2, .h3}
  complete := by intro service; cases service <;> simp

abbrev ConnId := Nat
abbrev RequestId := Nat

/-- How the future of a service ended: its loop left by the shutdown branch or because the
listener was closed, its set-up returned an error, or it panicked.
-/
inductive Ending where
  | shutdown
  | closed
  | error
  | panicked
deriving DecidableEq, Repr

/-- A service is set up when first polled and then selects between `accept()` and
`shutdown_lock.read()`. After `accept()` it spawns the task of the connection; after
`read()` it holds a read guard until it has left the loop. `joined` records that
`Srv::join` has reaped it.
-/
inductive ServicePhase where
  | absent
  | spawned
  | selecting
  | accepted (conn : ConnId)
  | leaving
  | ended (how : Ending) (joined : Bool)
deriving DecidableEq, Repr

/-- The stop task takes `shutdown_lock.write()` when first polled, or waits for it, awaits
`graceful_shutdown`, and releases the lock by ending. An aborted task is dropped instead.
-/
inductive StopPhase where
  | absent
  | spawned
  | queued
  | holding
  | releasing
  | finished
  | dropped
deriving DecidableEq, Repr

/-- `srv` spawns the stop task, obtains its sockets, spawns the services, joins them, waits
for `conn_lock.write()`, holds it to the end of a block of its own and returns `Ok` after it.
It returns `Err` when a socket cannot be obtained.
-/
inductive MainPhase where
  | started
  | binding
  | spawning (service : Service)
  | joining
  | draining
  | locked
  | unlocked
  | returned
  | failed
deriving DecidableEq, Repr

/-- An accepted connection waits for the spawn of its task, the task for its first poll,
the polled task for `conn_lock.read()`; it serves while it holds the guard.
-/
inductive ConnPhase where
  | accepted
  | spawned
  | waiting
  | serving
  | finished
deriving DecidableEq, Repr

structure Conn where
  service : Service
  phase : ConnPhase
deriving DecidableEq, Repr

/-- A request handler of HTTP/3 is a detached task of its own. -/
inductive RequestPhase where
  | spawned
  | running
  | finished
deriving DecidableEq, Repr

structure Request where
  conn : ConnId
  phase : RequestPhase
deriving DecidableEq, Repr

/-- Connections and requests are numbered in the order in which they come. `aborted` is set
by `stop_handle.abort()`, `graceful` when the `graceful_shutdown` future completes.
-/
structure State where
  main : MainPhase
  stop : StopPhase
  aborted : Bool
  graceful : Bool
  shutdownLock : RwLock Service Unit
  connLock : RwLock ConnId Unit
  services : Service → ServicePhase
  conns : List Conn
  requests : List Request

/-- Nothing has been spawned and both locks are free. -/
def State.init : State where
  main := .started
  stop := .absent
  aborted := false
  graceful := false
  shutdownLock := .unlocked
  connLock := .unlocked
  services := fun _ => .absent
  conns := []
  requests := []

/-- What `srv` does between two points where it can wait. -/
inductive MainAction where
  | spawnStop
  | bound
  | bindFailed
  | spawnService
  | joinNext (service : Service)
  | joinEnd
  | lockConns
  | unlockConns
  | ret
deriving DecidableEq, Repr

/-- What the stop task does, and its drop after an abort. -/
inductive StopAction where
  | poll
  | granted
  | gracefulComplete
  | release
  | drop
deriving DecidableEq, Repr

/-- What a service does. An `accept()` error goes back to the top of the loop and changes
nothing, so it is no action of its own.
-/
inductive ServiceAction where
  | enterLoop
  | setupFailed
  | accept
  | spawnConn
  | listenerClosed
  | pollShutdown
  | leave
  | panic
deriving DecidableEq, Repr

/-- What a connection task does; `request` is the accept of a request by HTTP/3's
`handle_conn`, which spawns its handler.
-/
inductive ConnAction where
  | start
  | lock
  | finish
  | request
deriving DecidableEq, Repr

inductive RequestAction where
  | start
  | finish
deriving DecidableEq, Repr

/-- Any task may take the next step. -/
inductive Action where
  | main (action : MainAction)
  | stop (action : StopAction)
  | service (service : Service) (action : ServiceAction)
  | conn (conn : ConnId) (action : ConnAction)
  | request (request : RequestId) (action : RequestAction)
deriving DecidableEq, Repr

-----------------------------------------------------------------------------------------
-- The steps of each task
-----------------------------------------------------------------------------------------

/-- What `srv` does after spawning a service: the next one, or the join of all three. -/
def Service.next : Service → MainPhase
  | .h1 => .spawning .h2
  | .h2 => .spawning .h3
  | .h3 => .joining

/-- `Srv::join` has reaped the service. -/
def ServicePhase.joined : ServicePhase → Bool
  | .ended _ joined => joined
  | _ => false

/-- The join set is empty: every service has been reaped. -/
def State.AllJoined (state : State) : Prop :=
  ∀ service, (state.services service).joined = true

instance (state : State) : Decidable state.AllJoined :=
  inferInstanceAs (Decidable (∀ service, (state.services service).joined = true))

/-- Sets the phase of one service. -/
def State.setService (state : State) (service : Service) (phase : ServicePhase) : State :=
  { state with services := Function.update state.services service phase }

/-- Sets the phase of one connection. -/
def State.setConn (state : State) (conn : ConnId) (phase : ConnPhase) : State :=
  { state with conns := state.conns.modify conn fun found => { found with phase := phase } }

/-- Sets the phase of one request handler. -/
def State.setRequest (state : State) (request : RequestId) (phase : RequestPhase) : State :=
  { state with
    requests := state.requests.modify request fun found => { found with phase := phase } }

/-- The phase of a connection that exists. -/
def State.connPhase (state : State) (conn : ConnId) : Option ConnPhase :=
  state.conns[conn]?.map Conn.phase

/-- The phase of a request handler that exists. -/
def State.requestPhase (state : State) (request : RequestId) : Option RequestPhase :=
  state.requests[request]?.map Request.phase

/-- `srv`: the stop task, the sockets, the services in order, `Srv::join`, which aborts the
stop task on every result, and at last `conn_lock.write()`, whose guard is dropped before
the return: in between other threads may go on.
-/
def stepMain (state : State) : MainAction → Option State
  | .spawnStop =>
      if state.main = .started then some { state with main := .binding, stop := .spawned }
      else none
  | .bound =>
      if state.main = .binding then some { state with main := .spawning .h1 } else none
  | .bindFailed =>
      if state.main = .binding then some { state with main := .failed } else none
  | .spawnService =>
      match state.main with
      | .spawning service =>
          some { state.setService service .spawned with main := service.next }
      | _ => none
  | .joinNext service =>
      match state.services service with
      | .ended how false =>
          if state.main = .joining then
            some { state.setService service (.ended how true) with aborted := true }
          else none
      | _ => none
  | .joinEnd =>
      if state.main = .joining ∧ state.AllJoined then
        some { state with main := .draining, connLock := state.connLock.enqueue () }
      else none
  | .lockConns =>
      if state.main = .draining then
        (state.connLock.acquireWrite ()).map fun lock =>
          { state with main := .locked, connLock := lock }
      else none
  | .unlockConns =>
      if state.main = .locked then
        some { state with main := .unlocked, connLock := state.connLock.releaseWrite }
      else none
  | .ret =>
      if state.main = .unlocked then some { state with main := .returned } else none

/-- The stop task. Dropping it, which an abort causes at some later moment, also drops its
guard or its place in the lock's queue.
-/
def stepStop (state : State) : StopAction → Option State
  | .poll =>
      if state.stop = .spawned then
        match state.shutdownLock.acquireWrite () with
        | some lock => some { state with stop := .holding, shutdownLock := lock }
        | none =>
            some
              { state with stop := .queued, shutdownLock := state.shutdownLock.enqueue () }
      else none
  | .granted =>
      if state.stop = .queued then
        (state.shutdownLock.acquireWrite ()).map fun lock =>
          { state with stop := .holding, shutdownLock := lock }
      else none
  | .gracefulComplete =>
      if state.stop = .holding then some { state with stop := .releasing, graceful := true }
      else none
  | .release =>
      if state.stop = .releasing then
        some
          { state with
            stop := .finished
            shutdownLock := state.shutdownLock.releaseWrite }
      else none
  | .drop =>
      if state.aborted then
        match state.stop with
        | .spawned => some { state with stop := .dropped }
        | .queued =>
            some
              { state with
                stop := .dropped
                shutdownLock := state.shutdownLock.dequeue () }
        | .holding =>
            some
              { state with
                stop := .dropped
                shutdownLock := state.shutdownLock.releaseWrite }
        | _ => none
      else none

/-- A service. Only HTTP/3 has a set-up that can fail and a listener that can be closed.
`shutdown_lock` is tokio's, whose readers wait behind a waiting writer; a `read()` that is
not granted leaves the service in its `select!`.
-/
def stepService (state : State) (service : Service) : ServiceAction → Option State
  | .enterLoop =>
      if state.services service = .spawned then some (state.setService service .selecting)
      else none
  | .setupFailed =>
      if service = .h3 ∧ state.services service = .spawned then
        some (state.setService service (.ended .error false))
      else none
  | .accept =>
      if state.services service = .selecting then
        some
          { state.setService service (.accepted state.conns.length) with
            conns := state.conns ++ [{ service, phase := .accepted }] }
      else none
  | .spawnConn =>
      match state.services service with
      | .accepted conn => some ((state.setService service .selecting).setConn conn .spawned)
      | _ => none
  | .listenerClosed =>
      if service = .h3 ∧ state.services service = .selecting then
        some (state.setService service (.ended .closed false))
      else none
  | .pollShutdown =>
      if state.services service = .selecting then
        match state.shutdownLock.acquireRead false service with
        | some lock => some { state.setService service .leaving with shutdownLock := lock }
        | none => some state
      else none
  | .leave =>
      if state.services service = .leaving then
        some
          { state.setService service (.ended .shutdown false) with
            shutdownLock := state.shutdownLock.releaseRead service }
      else none
  | .panic =>
      if state.services service = .spawned ∨ state.services service = .selecting then
        some (state.setService service (.ended .panicked false))
      else none

/-- A connection task. `barging` tells whether `conn_lock.read()` may be granted while `srv`
waits for `conn_lock.write()`; parking_lot makes such readers wait.
-/
def stepConn (barging : Bool) (state : State) (conn : ConnId) : ConnAction → Option State
  | .start =>
      if state.connPhase conn = some .spawned then some (state.setConn conn .waiting)
      else none
  | .lock =>
      if state.connPhase conn = some .waiting then
        (state.connLock.acquireRead barging conn).map fun lock =>
          { state.setConn conn .serving with connLock := lock }
      else none
  | .finish =>
      if state.connPhase conn = some .serving then
        some
          { state.setConn conn .finished with
            connLock := state.connLock.releaseRead conn }
      else none
  | .request =>
      if state.conns[conn]? = some { service := .h3, phase := .serving } then
        some { state with requests := state.requests ++ [{ conn, phase := .spawned }] }
      else none

/-- A request handler. -/
def stepRequest (state : State) (request : RequestId) : RequestAction → Option State
  | .start =>
      if state.requestPhase request = some .spawned then
        some (state.setRequest request .running)
      else none
  | .finish =>
      if state.requestPhase request = some .running then
        some (state.setRequest request .finished)
      else none

/-- One step of the gateway. -/
def step (barging : Bool) (state : State) : Action → Option State
  | .main action => stepMain state action
  | .stop action => stepStop state action
  | .service service action => stepService state service action
  | .conn conn action => stepConn barging state conn action
  | .request request action => stepRequest state request action

/-- The gateway from the call of `srv`. -/
def gateway (barging : Bool) : Machine State Action where
  init := .init
  step := step barging

-----------------------------------------------------------------------------------------
-- Steps that depend on what they find
-----------------------------------------------------------------------------------------

theorem spawnService_eq_some {state next : State}
    : stepMain state .spawnService = some next
      ↔ ∃ service,
          state.main = .spawning service
          ∧ { state.setService service .spawned with main := service.next } = next := by
  simp only [stepMain]
  split
  case h_1 service running => simp [running]
  case h_2 other =>
    simp only [reduceCtorEq, false_iff]
    rintro ⟨service, running, -⟩
    exact other service running

theorem joinNext_eq_some {state next : State} {service : Service}
    : stepMain state (.joinNext service) = some next
      ↔ ∃ how,
          state.services service = .ended how false
          ∧ state.main = .joining
          ∧ { state.setService service (.ended how true) with aborted := true } = next := by
  simp only [stepMain]
  split
  case h_1 how ended => simp [ended]
  case h_2 other =>
    simp only [reduceCtorEq, false_iff]
    rintro ⟨how, ended, -⟩
    exact other how ended

theorem spawnConn_eq_some {state next : State} {service : Service}
    : stepService state service .spawnConn = some next
      ↔ ∃ conn,
          state.services service = .accepted conn
          ∧ (state.setService service .selecting).setConn conn .spawned = next := by
  simp only [stepService]
  split
  case h_1 conn holding => simp [holding]
  case h_2 other =>
    simp only [reduceCtorEq, false_iff]
    rintro ⟨conn, holding, -⟩
    exact other conn holding

/-- A poll either gets the lock and leaves, or changes nothing. -/
theorem pollShutdown_eq_some {state next : State} {service : Service}
    : stepService state service .pollShutdown = some next
      ↔ state.services service = .selecting
        ∧ ((∃ lock,
              state.shutdownLock.acquireRead false service = some lock
              ∧ { state.setService service .leaving with shutdownLock := lock } = next)
          ∨ state.shutdownLock.acquireRead false service = none ∧ state = next) := by
  simp only [stepService]
  rw [Option.ite_none_right_eq_some]
  refine and_congr_right fun _ => ?_
  cases state.shutdownLock.acquireRead false service <;> simp

/-- The first poll of the stop task either gets the lock or puts the task into its queue. -/
theorem pollStop_eq_some {state next : State}
    : stepStop state .poll = some next
      ↔ state.stop = .spawned
        ∧ ((∃ lock,
              state.shutdownLock.acquireWrite () = some lock
              ∧ { state with stop := .holding, shutdownLock := lock } = next)
          ∨ state.shutdownLock.acquireWrite () = none
            ∧ { state with stop := .queued, shutdownLock := state.shutdownLock.enqueue () }
              = next) := by
  simp only [stepStop]
  rw [Option.ite_none_right_eq_some]
  refine and_congr_right fun _ => ?_
  cases state.shutdownLock.acquireWrite () <;> simp

-----------------------------------------------------------------------------------------
-- What the steps of each task leave unchanged
-----------------------------------------------------------------------------------------

/-- `srv` touches neither `shutdown_lock`, nor the connections, nor the requests, and it does
not complete `graceful_shutdown`.
-/
theorem stepMain_frame {state next : State} {action : MainAction}
    (stepped : stepMain state action = some next)
    : ∃ main stop aborted lock services,
        next
          = { state with
              main := main
              stop := stop
              aborted := aborted
              connLock := lock
              services := services } := by
  cases action with
  | lockConns =>
      obtain ⟨-, granted⟩ := Option.ite_none_right_eq_some.mp stepped
      obtain ⟨lock, -, rfl⟩ := Option.map_eq_some_iff.mp granted
      exact ⟨_, _, _, _, _, rfl⟩
  | _ =>
      simp only [stepMain] at stepped
      repeat' split at stepped
      all_goals first
      | contradiction
      | (cases stepped; exact ⟨_, _, _, _, _, rfl⟩)

/-- Where `srv` can be after an action. -/
def MainAction.targets : MainAction → List MainPhase
  | .spawnStop => [.binding]
  | .bound => [.spawning .h1]
  | .bindFailed => [.failed]
  | .spawnService => [.spawning .h2, .spawning .h3, .joining]
  | .joinNext _ => [.joining]
  | .joinEnd => [.draining]
  | .lockConns => [.locked]
  | .unlockConns => [.unlocked]
  | .ret => [.returned]

theorem stepMain_target {state next : State} {action : MainAction}
    (stepped : stepMain state action = some next)
    : next.main ∈ action.targets := by
  cases action with
  | spawnService =>
      obtain ⟨service, running, rfl⟩ := spawnService_eq_some.mp stepped
      cases service <;> simp [MainAction.targets, Service.next]
  | joinNext service =>
      obtain ⟨how, ended, joining, rfl⟩ := joinNext_eq_some.mp stepped
      simp [MainAction.targets, State.setService, joining]
  | lockConns =>
      obtain ⟨-, granted⟩ := Option.ite_none_right_eq_some.mp stepped
      obtain ⟨lock, -, rfl⟩ := Option.map_eq_some_iff.mp granted
      exact List.mem_singleton.mpr rfl
  | _ =>
      obtain ⟨-, done⟩ := Option.ite_none_right_eq_some.mp stepped
      cases done
      exact List.mem_singleton.mpr rfl

/-- The stop task touches only its own fields and `shutdown_lock`. -/
theorem stepStop_frame {state next : State} {action : StopAction}
    (stepped : stepStop state action = some next)
    : ∃ stop graceful lock,
        next = { state with stop := stop, graceful := graceful, shutdownLock := lock } := by
  cases action with
  | granted =>
      simp only [stepStop] at stepped
      split at stepped
      · obtain ⟨lock, -, rfl⟩ := Option.map_eq_some_iff.mp stepped
        exact ⟨_, _, _, rfl⟩
      · contradiction
  | _ =>
      simp only [stepStop] at stepped
      repeat' split at stepped
      all_goals first
      | contradiction
      | (cases stepped; exact ⟨_, _, _, rfl⟩)

/-- A request handler touches only the requests. -/
theorem stepRequest_frame {state next : State} {request : RequestId}
    {action : RequestAction} (stepped : stepRequest state request action = some next)
    : ∃ requests, next = { state with requests := requests } := by
  cases action <;> simp only [stepRequest] at stepped <;> split at stepped
  all_goals first
  | contradiction
  | (cases stepped; exact ⟨_, rfl⟩)

/-- A service touches neither `srv`, nor the stop task, nor `conn_lock`. -/
theorem stepService_frame {state next : State} {service : Service}
    {action : ServiceAction} (stepped : stepService state service action = some next)
    : ∃ services lock conns,
        next
          = { state with services := services, shutdownLock := lock, conns := conns } := by
  cases action <;> simp only [stepService] at stepped <;> (repeat' split at stepped)
  all_goals first
  | contradiction
  | (cases stepped; exact ⟨_, _, _, rfl⟩)

/-- A connection task touches only the connections, `conn_lock` and the requests. -/
theorem stepConn_frame {barging : Bool} {state next : State} {conn : ConnId}
    {action : ConnAction} (stepped : stepConn barging state conn action = some next)
    : ∃ conns lock requests,
        next = { state with conns := conns, connLock := lock, requests := requests } := by
  cases action with
  | lock =>
      simp only [stepConn] at stepped
      split at stepped
      · obtain ⟨lock, -, rfl⟩ := Option.map_eq_some_iff.mp stepped
        exact ⟨_, _, _, rfl⟩
      · contradiction
  | _ =>
      simp only [stepConn] at stepped
      split at stepped
      · cases stepped
        exact ⟨_, _, _, rfl⟩
      · contradiction

/-- The services that `srv` has not spawned yet. -/
def MainPhase.unspawned : MainPhase → List Service
  | .started | .binding | .failed | .spawning .h1 => [.h1, .h2, .h3]
  | .spawning .h2 => [.h2, .h3]
  | .spawning .h3 => [.h3]
  | _ => []

/-- A service that `srv` has not spawned yet does not exist. -/
def State.SpawnOrder (state : State) : Prop :=
  ∀ service ∈ state.main.unspawned, state.services service = .absent

theorem State.SpawnOrder.init : State.init.SpawnOrder := by
  intro service _
  rfl

/-- The service that `srv` is about to spawn does not exist yet. -/
theorem State.SpawnOrder.spawning {state : State} {service : Service}
    (order : state.SpawnOrder) (running : state.main = .spawning service)
    : state.services service = .absent := by
  refine order service ?_
  cases service <;> simp [running, MainPhase.unspawned]

/-- A service that does not exist takes no step. -/
theorem stepService_absent {state : State} {service : Service}
    (absent : state.services service = .absent) (action : ServiceAction)
    : stepService state service action = none := by
  cases action <;> simp [stepService, absent]

/-- A service that has ended takes no step. -/
theorem stepService_ended {state : State} {service : Service} {how : Ending} {joined : Bool}
    (ended : state.services service = .ended how joined) (action : ServiceAction)
    : stepService state service action = none := by
  cases action <;> simp [stepService, ended]

/-- A service does not touch the phases of the others. -/
theorem stepService_others {state next : State} {service other : Service}
    {action : ServiceAction} (stepped : stepService state service action = some next)
    (different : other ≠ service)
    : next.services other = state.services other := by
  cases action <;> simp only [stepService] at stepped <;> (repeat' split at stepped)
  all_goals first
  | contradiction
  | (cases stepped
     simp [State.setService, State.setConn, Function.update_of_ne different])

/-- `srv` spawns the services it moves past and no other. -/
theorem State.SpawnOrder.stepMain {state next : State} {action : MainAction}
    (order : state.SpawnOrder) (stepped : stepMain state action = some next)
    : next.SpawnOrder := by
  cases action with
  | spawnService =>
      obtain ⟨spawned, running, rfl⟩ := spawnService_eq_some.mp stepped
      intro other later
      have different : other ≠ spawned := by
        rintro rfl
        cases other <;> simp [Service.next, MainPhase.unspawned] at later
      have earlier : other ∈ state.main.unspawned := by
        cases spawned <;> cases other <;>
          simp_all [Service.next, MainPhase.unspawned]
      exact (Function.update_of_ne different _ _).trans (order other earlier)
  | joinNext service =>
      obtain ⟨how, ended, joining, rfl⟩ := joinNext_eq_some.mp stepped
      intro other later
      simp [State.setService, joining, MainPhase.unspawned] at later
  | lockConns =>
      obtain ⟨draining, granted⟩ := Option.ite_none_right_eq_some.mp stepped
      obtain ⟨lock, -, rfl⟩ := Option.map_eq_some_iff.mp granted
      intro other later
      simp [MainPhase.unspawned] at later
  | _ =>
      obtain ⟨before, done⟩ := Option.ite_none_right_eq_some.mp stepped
      cases done
      intro other later
      refine order other ?_
      simp_all [MainPhase.unspawned]

/-- Every step keeps the order of spawning: `srv` spawns what it moves past, and only
services that exist take steps.
-/
theorem State.SpawnOrder.step {barging : Bool} {state next : State} {action : Action}
    (order : state.SpawnOrder) (stepped : step barging state action = some next)
    : next.SpawnOrder := by
  cases action with
  | main action => exact order.stepMain stepped
  | stop action =>
      obtain ⟨_, _, _, rfl⟩ := stepStop_frame stepped
      exact order
  | service service action =>
      obtain ⟨_, _, _, rfl⟩ := stepService_frame stepped
      intro other pending
      have absent := order other pending
      have different : other ≠ service := by
        rintro rfl
        simp [Srv.step, stepService_absent absent] at stepped
      exact (stepService_others stepped different).trans absent
  | conn conn action =>
      obtain ⟨_, _, _, rfl⟩ := stepConn_frame stepped
      exact order
  | request request action =>
      obtain ⟨_, rfl⟩ := stepRequest_frame stepped
      exact order

@[simp] theorem setConn_main (state : State) (conn : ConnId) (phase : ConnPhase)
    : (state.setConn conn phase).main = state.main :=
  rfl

@[simp] theorem setConn_connLock (state : State) (conn : ConnId) (phase : ConnPhase)
    : (state.setConn conn phase).connLock = state.connLock :=
  rfl

@[simp] theorem setConn_services (state : State) (conn : ConnId) (phase : ConnPhase)
    : (state.setConn conn phase).services = state.services :=
  rfl

@[simp] theorem connPhase_setConn (state : State) (conn other : ConnId) (phase : ConnPhase)
    : (state.setConn conn phase).connPhase other
      = if other = conn then (state.connPhase conn).map fun _ => phase
        else state.connPhase other := by
  by_cases same : other = conn
  · subst same
    simp [State.setConn, State.connPhase, Option.map_map, Function.comp_def]
  · simp [State.setConn, State.connPhase, same, Ne.symm same]

/-- After an update a connection is the updated one or has the phase it had before. -/
theorem connPhase_setConn_some {state : State} {conn other : ConnId}
    {phase found : ConnPhase} (present : (state.setConn conn phase).connPhase other = some found)
    : other = conn ∧ found = phase ∨ other ≠ conn ∧ state.connPhase other = some found := by
  rw [connPhase_setConn] at present
  split at present
  case isTrue same =>
    obtain ⟨_, -, eq⟩ := Option.map_eq_some_iff.mp present
    exact Or.inl ⟨same, eq.symm⟩
  case isFalse different => exact Or.inr ⟨different, present⟩

/-- An accepted connection gets the next number; the earlier ones keep their phases. -/
theorem connPhase_append (conns : List Conn) (added : Conn) (conn : ConnId)
    : (conns ++ [added])[conn]?.map Conn.phase
      = if conn = conns.length then some added.phase else conns[conn]?.map Conn.phase := by
  rcases Nat.lt_trichotomy conn conns.length with before | same | after
  · simp [List.getElem?_append_left before, Nat.ne_of_lt before]
  · simp [same]
  · have outside : (conns ++ [added]).length ≤ conn := by simp; omega
    simp [List.getElem?_eq_none outside, List.getElem?_eq_none (Nat.le_of_lt after),
      Nat.ne_of_gt after]

/-- What holds of all connections holds of every number that has one. -/
theorem forall_conns_iff (state : State) (property : ConnPhase → Prop)
    : (∀ conn ∈ state.conns, property conn.phase)
      ↔ ∀ conn phase, state.connPhase conn = some phase → property phase := by
  constructor
  · intro all conn phase present
    obtain ⟨found, at_, rfl⟩ := Option.map_eq_some_iff.mp present
    exact all found (List.mem_of_getElem? at_)
  · intro all found member
    obtain ⟨conn, at_⟩ := List.mem_iff_getElem?.mp member
    exact all conn found.phase (by simp [State.connPhase, at_])

/-- A joined service has ended. -/
theorem joined_iff (phase : ServicePhase)
    : phase.joined = true ↔ ∃ how, phase = .ended how true := by
  cases phase <;> simp [ServicePhase.joined]

end Gway.Srv
