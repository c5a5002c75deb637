import Gway.Library.Machine
import Gway.Library.Ownership
import Gway.PooledFetch.Error
import Gway.PooledFetch.Pool
import Mathlib.Logic.Function.Basic

/-! The calls of `http`, the bodies they return and the background tasks of connections, in
any interleaving. A step is what one of them does between two points where others can run.
-/

namespace Gway.PooledFetch

abbrev CallId := Nat

/-- Where a call of `http` is: before `cached_conn`, waiting for a send on a cached
connection, for `conn_new`, or for a send on the new connection. A call that got a response
goes on as the body of that response.
-/
inductive Call where
  | absent
  | started (addr : SocketAddr)
  | sendingCached (addr : SocketAddr) (conn : Conn)
  | connecting (addr : SocketAddr)
  | sendingNew (addr : SocketAddr) (conn : Conn)
  | responded (body : Body)
  | finished
deriving DecidableEq, Repr

/-- Where the background task of a connection is: in `conn.await`, past it, past the first
half of its cleanup with the map found empty, at its end, or aborted in `conn.await`.
-/
inductive TaskPhase where
  | running
  | ended
  | removingKey
  | finished
  | aborted
deriving DecidableEq, Repr

/-- `sendFailed` records that a send on the connection ended in an error, `abortRequested`
that `conn.abort()` was called.
-/
structure Task where
  addr : SocketAddr
  peerAddr : SocketAddr
  phase : TaskPhase
  sendFailed : Bool
  abortRequested : Bool
deriving DecidableEq, Repr

/-- The task that `conn_new` spawns. -/
def Task.spawned (addr peerAddr : SocketAddr) : Task where
  addr := addr
  peerAddr := peerAddr
  phase := .running
  sendFailed := false
  abortRequested := false

structure State where
  pool : Pool
  calls : CallId → Call
  tasks : ConnId → Option Task

def State.init : State where
  pool := ∅
  calls := fun _ => .absent
  tasks := fun _ => none

/-- What a call of `http`, or the body that came of it, does next. The future of a call may
be dropped wherever it waits.
-/
inductive CallAction where
  | call (addr : SocketAddr)
  | takeCached
  | connected (conn : ConnId)
  | connectFailed
  | respond
  | fail (err : HyperError)
  | cancel
  | dropBody
deriving DecidableEq, Repr

/-- What the background task of a connection does next. Its `conn.await` may return at any
time, since the peer may close the connection at any time.
-/
inductive TaskAction where
  | connEnded
  | abort
  | removePeer
  | removeKey
deriving DecidableEq, Repr

inductive Action where
  | call (id : CallId) (action : CallAction)
  | task (conn : ConnId) (action : TaskAction)
deriving DecidableEq, Repr

def State.setCall (state : State) (id : CallId) (call : Call) : State :=
  { state with calls := Function.update state.calls id call }

def State.setTask (state : State) (conn : ConnId) (task : Task) : State :=
  { state with tasks := Function.update state.tasks conn (some task) }

@[simp] theorem setTask_tasks (state : State) (conn other : ConnId) (task : Task)
    : (state.setTask conn task).tasks other
      = if other = conn then some task else state.tasks other := by
  simp [State.setTask, Function.update_apply]

/-- A send on the connection ended in an error; `abort` tells whether the call of `http`
aborts its task as well, which it does for a cached connection.
-/
def Task.fail (abort : Bool) (task : Task) : Task :=
  { task with sendFailed := true, abortRequested := task.abortRequested || abort }

def State.failConn (state : State) (conn : ConnId) (abort : Bool) : State :=
  { state with
    tasks := Function.update state.tasks conn ((state.tasks conn).map (.fail abort)) }

/-- A call of `http` takes a cached connection or opens a new one, whose task is spawned
then. After a failed send it goes on to a new connection if the error says that the
request was not sent; it returns the error otherwise and after any failure of its own.
-/
def stepCall (peerAddr : SocketAddr → ConnId → SocketAddr) (state : State) (id : CallId)
    : CallAction → Option State
  | .call addr =>
      if state.calls id = .absent then some (state.setCall id (.started addr)) else none
  | .takeCached =>
      match state.calls id with
      | .started addr =>
          match cachedConn addr state.pool with
          | (some conn, pool) =>
              some { state.setCall id (.sendingCached addr conn) with pool }
          | (none, pool) => some { state.setCall id (.connecting addr) with pool }
      | _ => none
  | .connected conn =>
      match state.calls id with
      | .connecting addr =>
          if state.tasks conn = none then
            let peer := peerAddr addr conn
            let opened := { peerAddr := peer, sender := { conn } }
            some
              ((state.setCall id (.sendingNew addr opened)).setTask conn (.spawned addr peer))
          else none
      | _ => none
  | .connectFailed =>
      match state.calls id with
      | .connecting _ => some (state.setCall id .finished)
      | _ => none
  | .respond =>
      match state.calls id with
      | .sendingCached addr conn => some (state.setCall id (.responded (.new addr conn)))
      | .sendingNew addr conn => some (state.setCall id (.responded (.new addr conn)))
      | _ => none
  | .fail err =>
      match state.calls id with
      | .sendingCached addr conn =>
          let next := if err.isCanceled || err.isClosed then .connecting addr else .finished
          some ((state.setCall id next).failConn conn.sender.conn true)
      | .sendingNew _ conn =>
          some ((state.setCall id .finished).failConn conn.sender.conn false)
      | _ => none
  | .cancel =>
      match state.calls id with
      | .started _ | .sendingCached _ _ | .connecting _ | .sendingNew _ _ =>
          some (state.setCall id .finished)
      | _ => none
  | .dropBody =>
      match state.calls id with
      | .responded body =>
          some { state.setCall id .finished with pool := body.drop state.pool }
      | _ => none

/-- The task of a connection cleans up in two operations on the pool. An abort takes effect
where the task waits, which is only in `conn.await`.
-/
def stepTask (state : State) (conn : ConnId) (action : TaskAction) : Option State :=
  match state.tasks conn with
  | none => none
  | some task =>
      match action with
      | .connEnded =>
          if task.phase = .running then
            some (state.setTask conn { task with phase := .ended })
          else none
      | .abort =>
          if task.phase = .running ∧ task.abortRequested = true then
            some (state.setTask conn { task with phase := .aborted })
          else none
      | .removePeer =>
          if task.phase = .ended then
            let cleaned := removePeer task.addr task.peerAddr state.pool
            let phase := if cleaned.1 then .removingKey else .finished
            some { state.setTask conn { task with phase } with pool := cleaned.2 }
          else none
      | .removeKey =>
          if task.phase = .removingKey then
            some
              { state.setTask conn { task with phase := .finished } with
                pool := removeKey task.addr state.pool }
          else none

def step (peerAddr : SocketAddr → ConnId → SocketAddr) (state : State)
    : Action → Option State
  | .call id action => stepCall peerAddr state id action
  | .task conn action => stepTask state conn action

/-- The pool in use, where the socket of connection `conn` to `addr` has the peer address
`peerAddr addr conn`.
-/
def pooledFetch (peerAddr : SocketAddr → ConnId → SocketAddr) : Machine State Action where
  init := .init
  step := step peerAddr

/-- A call takes a connection out of the pool or, if there is none, leaves the pool as it is
and goes on to open one.
-/
theorem takeCached_cases {peerAddr : SocketAddr → ConnId → SocketAddr} {state next : State}
    {id : CallId} (stepped : stepCall peerAddr state id .takeCached = some next)
    : (∃ addr conn pool,
        cachedConn addr state.pool = (some conn, pool)
        ∧ next = { state.setCall id (.sendingCached addr conn) with pool })
      ∨ ∃ addr, next = state.setCall id (.connecting addr) := by
  simp only [stepCall] at stepped
  split at stepped
  case h_1 addr started =>
    split at stepped
    case h_1 conn pool taken =>
      exact Or.inl ⟨addr, conn, pool, taken, (Option.some.inj stepped).symm⟩
    case h_2 pool missed =>
      obtain ⟨rfl, -⟩ := slot_cachedConn_none missed
      exact Or.inr ⟨addr, (Option.some.inj stepped).symm⟩
  case h_2 => contradiction

/-- What a task's step needs of the task, and what becomes of its phase and of the pool. -/
def TaskEffect (task : Task) (pool : Pool) (phase : TaskPhase) (after : Pool)
    : TaskAction → Prop
  | .connEnded => task.phase = .running ∧ phase = .ended ∧ after = pool
  | .abort =>
      (task.phase = .running ∧ task.abortRequested = true)
      ∧ phase = .aborted
      ∧ after = pool
  | .removePeer =>
      task.phase = .ended
      ∧ (phase = .removingKey ∨ phase = .finished)
      ∧ after = (removePeer task.addr task.peerAddr pool).2
  | .removeKey =>
      task.phase = .removingKey ∧ phase = .finished ∧ after = removeKey task.addr pool

/-- A task's step changes the phase of its task and the pool, and nothing else. -/
theorem stepTask_effect {state next : State} {conn : ConnId} {action : TaskAction}
    (stepped : stepTask state conn action = some next)
    : ∃ task phase pool,
        state.tasks conn = some task
        ∧ next = { state.setTask conn { task with phase } with pool }
        ∧ TaskEffect task state.pool phase pool action := by
  unfold stepTask at stepped
  split at stepped
  case h_1 => contradiction
  case h_2 task present =>
    cases action with
    | removePeer =>
        obtain ⟨ended, done⟩ := Option.ite_none_right_eq_some.mp stepped
        cases done
        refine ⟨task, _, _, present, rfl, ended, ?_, rfl⟩
        split
        · exact Or.inl rfl
        · exact Or.inr rfl
    | _ =>
        obtain ⟨ready, done⟩ := Option.ite_none_right_eq_some.mp stepped
        cases done
        exact ⟨task, _, _, present, rfl, ready, rfl, rfl⟩

/-- A task's step only takes connections out of the pool. -/
theorem TaskEffect.shrinks {task : Task} {pool after : Pool} {phase : TaskPhase}
    {action : TaskAction} (effect : TaskEffect task pool phase after action)
    {addr key : SocketAddr} {sender : Sender} (stored : slot after addr key = some sender)
    : slot pool addr key = some sender := by
  cases action with
  | removePeer =>
      obtain ⟨-, -, rfl⟩ := effect
      rw [slot_removePeer] at stored
      exact (Option.ite_none_left_eq_some.mp stored).2
  | removeKey =>
      obtain ⟨-, -, rfl⟩ := effect
      rw [slot_removeKey] at stored
      exact (Option.ite_none_left_eq_some.mp stored).2
  | _ =>
      obtain ⟨-, -, rfl⟩ := effect
      exact stored

end Gway.PooledFetch
