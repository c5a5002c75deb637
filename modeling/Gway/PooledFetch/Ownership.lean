import Gway.PooledFetch.System

/-! Every connection has at most one owner: an entry of the pool, a running call or a live
body. A step hands one connection on, opens one or marks one as failed, and whatever it
does not hand on it keeps or lets go.
-/

namespace Gway.PooledFetch

/-- A connection in use, with the addresses that its holder knows it by. -/
structure Held where
  addr : SocketAddr
  peerAddr : SocketAddr
  conn : ConnId
deriving DecidableEq, Repr

inductive Place where
  | pooled (addr key : SocketAddr)
  | call (id : CallId)
  | body (id : CallId)
deriving DecidableEq, Repr

/-- The connection that a running call is sending on. -/
def Call.sending : Call → Option Held
  | .sendingCached addr conn | .sendingNew addr conn =>
      some ⟨addr, conn.peerAddr, conn.sender.conn⟩
  | _ => none

/-- The connection of a live body. -/
def Call.body : Call → Option Held
  | .responded body => some ⟨body.addr, body.peerAddr, body.sender.conn⟩
  | _ => none

def State.held (state : State) : Place → Option Held
  | .pooled addr key =>
      (slot state.pool addr key).map fun sender => ⟨addr, key, sender.conn⟩
  | .call id => (state.calls id).sending
  | .body id => (state.calls id).body

/-- The task of a connection knows it by the same addresses, and no send on it failed. -/
def Task.Fits (task : Task) (held : Held) : Prop :=
  task.addr = held.addr ∧ task.peerAddr = held.peerAddr ∧ task.sendFailed = false

/-- Each connection is held in one place at most, and a connection that is held has been
opened and no send on it has failed.
-/
structure Owned (state : State) : Prop where
  linear : Linear Held.conn state.held
  fits
    : ∀ place held,
        state.held place = some held
        → ∃ task, state.tasks held.conn = some task ∧ task.Fits held

-----------------------------------------------------------------------------------------
-- The effect of a call's step on the places
-----------------------------------------------------------------------------------------

/-- What happens at the one place that a call's step may fill: it gets a connection from
another place, possibly none, or a new one with its task, or it lets go of one whose send
failed.
-/
inductive EffectAt (peerAddr : SocketAddr → ConnId → SocketAddr) (before after : State)
    (target : Place)
    : Prop where
  | transfer (source : Place)
      (moved : ∀ held, after.held target = some held → before.held source = some held)
      (emptied : after.held source = none)
      (tasks : after.tasks = before.tasks)
  | opened (held : Held)
      (received : after.held target = some held)
      (peer : held.peerAddr = peerAddr held.addr held.conn)
      (fresh : before.tasks held.conn = none)
      (tasks
        : after.tasks
          = Function.update before.tasks held.conn
              (some (.spawned held.addr held.peerAddr)))
  | failed (held : Held) (abort : Bool)
      (had : before.held target = some held)
      (emptied : after.held target = none)
      (tasks
        : after.tasks
          = Function.update before.tasks held.conn
              ((before.tasks held.conn).map (.fail abort)))

/-- All other places keep what they have or lose it. -/
def Effect (peerAddr : SocketAddr → ConnId → SocketAddr) (before after : State) : Prop :=
  ∃ target,
    (∀ place, place ≠ target → Keeps before.held after.held place)
    ∧ EffectAt peerAddr before after target

variable {peerAddr : SocketAddr → ConnId → SocketAddr} {state next : State} {id : CallId}
  {call : Call}

/-- A call that goes to another phase changes only its own places, and the pool's as far as
the pool changes.
-/
theorem keeps_setCall {pool : Pool} {tasks : ConnId → Option Task} {target : Place}
    (shrinks
      : ∀ addr key sender,
          .pooled addr key ≠ target
          → slot pool addr key = some sender
          → slot state.pool addr key = some sender)
    (sending : .call id ≠ target → call.sending = none)
    (body : .body id ≠ target → call.body = none)
    : ∀ place,
        place ≠ target
        → Keeps state.held { state.setCall id call with pool, tasks }.held place := by
  intro place apart held got
  cases place with
  | pooled addr key =>
      obtain ⟨sender, stored, rfl⟩ := Option.map_eq_some_iff.mp got
      exact Option.map_eq_some_iff.mpr ⟨sender, shrinks addr key sender apart stored, rfl⟩
  | call other =>
      by_cases own : other = id
      case pos =>
        subst own
        simp [State.held, State.setCall, sending apart] at got
      case neg => simpa [State.held, State.setCall, own] using got
  | body other =>
      by_cases own : other = id
      case pos =>
        subst own
        simp [State.held, State.setCall, body apart] at got
      case neg => simpa [State.held, State.setCall, own] using got

/-- A call that goes to a phase without a connection lets go of what it had. -/
theorem effect_quiet (sending : call.sending = none) (body : call.body = none)
    : Effect peerAddr state (state.setCall id call) := by
  refine ⟨.call id, keeps_setCall (fun _ _ _ _ stored => stored) (fun _ => sending)
    (fun _ => body), .transfer (.call id) (fun held got => ?_) ?_ rfl⟩
  · simp [State.held, State.setCall, sending] at got
  · simp [State.held, State.setCall, sending]

/-- A connection that comes out of the pool goes from its slot to the call. -/
theorem effect_takeCached {addr : SocketAddr} {conn : Conn} {pool : Pool}
    (taken : cachedConn addr state.pool = (some conn, pool))
    : Effect peerAddr state { state.setCall id (.sendingCached addr conn) with pool } := by
  obtain ⟨stored, slots⟩ := slot_cachedConn taken
  refine ⟨.call id, keeps_setCall (fun other key sender _ found => ?_) (by simp)
    (fun _ => rfl), .transfer (.pooled addr conn.peerAddr) (fun held got => ?_) ?_ rfl⟩
  · rw [slots] at found
    exact (Option.ite_none_left_eq_some.mp found).2
  · simp only [State.held, State.setCall, Function.update_self, Call.sending,
      Option.some.injEq] at got
    simp [State.held, stored, ← got]
  · simp [State.held, slots]

/-- A new connection goes to the call that opened it. -/
theorem effect_connected {addr : SocketAddr} {conn : Conn}
    (peer : conn.peerAddr = peerAddr addr conn.sender.conn)
    (fresh : state.tasks conn.sender.conn = none)
    : Effect peerAddr state
        ((state.setCall id (.sendingNew addr conn)).setTask conn.sender.conn
          (.spawned addr conn.peerAddr)) := by
  refine ⟨.call id, keeps_setCall (fun _ _ _ _ stored => stored) (by simp) (fun _ => rfl),
    .opened ⟨addr, conn.peerAddr, conn.sender.conn⟩ ?_ peer fresh rfl⟩
  simp [State.held, State.setCall, State.setTask, Call.sending]

/-- A response turns the call into a body of the same connection. -/
theorem effect_respond {addr : SocketAddr} {conn : Conn}
    (sends : (state.calls id).sending = some ⟨addr, conn.peerAddr, conn.sender.conn⟩)
    : Effect peerAddr state (state.setCall id (.responded (.new addr conn))) := by
  refine ⟨.body id, keeps_setCall (fun _ _ _ _ stored => stored) (fun _ => rfl) (by simp),
    .transfer (.call id) (fun held got => ?_) ?_ rfl⟩
  · simpa [State.held, State.setCall, Call.body, Body.new, sends] using got
  · simp [State.held, State.setCall, Call.sending]

/-- A failed send makes the call let go of its connection, whose task is marked. -/
theorem effect_fail {addr : SocketAddr} {conn : Conn} {abort : Bool}
    (sends : (state.calls id).sending = some ⟨addr, conn.peerAddr, conn.sender.conn⟩)
    (sending : call.sending = none) (body : call.body = none)
    : Effect peerAddr state ((state.setCall id call).failConn conn.sender.conn abort) := by
  refine ⟨.call id, keeps_setCall (fun _ _ _ _ stored => stored) (fun _ => sending)
    (fun _ => body), .failed _ abort sends ?_ rfl⟩
  simp [State.held, State.setCall, State.failConn, sending]

/-- A dropped body puts its connection into a slot, whatever that held. -/
theorem effect_dropBody {body : Body} (alive : state.calls id = .responded body)
    : Effect peerAddr state { state.setCall id .finished with pool := body.drop state.pool } := by
  refine ⟨.pooled body.addr body.peerAddr, keeps_setCall
    (fun addr key sender apart found => ?_) (fun _ => rfl) (fun _ => rfl),
    .transfer (.body id) (fun held got => ?_) ?_ rfl⟩
  · have elsewhere : ¬(addr = body.addr ∧ key = body.peerAddr) := by
      rintro ⟨rfl, rfl⟩
      exact apart rfl
    rwa [slot_drop, if_neg elsewhere] at found
  · simpa [State.held, slot_drop, alive, Call.body] using got
  · simp [State.held, State.setCall, Call.body]

/-- Every step of a call has such an effect. Witness: a case for each action. -/
theorem stepCall_effect {action : CallAction}
    (stepped : stepCall peerAddr state id action = some next)
    : Effect peerAddr state next := by
  cases action with
  | call addr =>
      obtain ⟨-, done⟩ := Option.ite_none_right_eq_some.mp stepped
      cases done
      exact effect_quiet rfl rfl
  | takeCached =>
      rcases takeCached_cases stepped with ⟨addr, conn, pool, taken, rfl⟩ | ⟨addr, rfl⟩
      · exact effect_takeCached taken
      · exact effect_quiet rfl rfl
  | connected conn =>
      simp only [stepCall] at stepped
      split at stepped
      case h_1 addr connecting =>
        obtain ⟨fresh, done⟩ := Option.ite_none_right_eq_some.mp stepped
        cases done
        exact effect_connected rfl fresh
      case h_2 => contradiction
  | respond =>
      simp only [stepCall] at stepped
      split at stepped
      case h_1 addr conn sends | h_2 addr conn sends =>
        cases stepped
        exact effect_respond (by rw [sends]; rfl)
      case h_3 => contradiction
  | fail err =>
      simp only [stepCall] at stepped
      split at stepped
      case h_1 addr conn sends =>
        cases stepped
        exact effect_fail (by rw [sends]; rfl) (by split <;> rfl) (by split <;> rfl)
      case h_2 addr conn sends =>
        cases stepped
        exact effect_fail (by rw [sends]; rfl) rfl rfl
      case h_3 => contradiction
  | dropBody =>
      simp only [stepCall] at stepped
      split at stepped
      case h_1 body alive =>
        cases stepped
        exact effect_dropBody alive
      case h_2 => contradiction
  | _ =>
      simp only [stepCall] at stepped
      split at stepped <;> cases stepped <;> exact effect_quiet rfl rfl

/-- A task's step lets go of connections at most. -/
theorem stepTask_keeps {conn : ConnId} {action : TaskAction}
    (stepped : stepTask state conn action = some next)
    : ∀ place, Keeps state.held next.held place := by
  obtain ⟨task, phase, pool, -, rfl, effect⟩ := stepTask_effect stepped
  intro place held got
  cases place with
  | pooled addr key =>
      obtain ⟨sender, stored, rfl⟩ := Option.map_eq_some_iff.mp got
      exact Option.map_eq_some_iff.mpr ⟨sender, effect.shrinks stored, rfl⟩
  | call other => exact got
  | body other => exact got

-----------------------------------------------------------------------------------------
-- The invariant
-----------------------------------------------------------------------------------------

/-- Whatever a call's step does to its one place, connections stay owned: what is handed on
leaves its old place, what is opened was unknown before, and the other holders of a
connection that failed would have shared it.
-/
theorem Owned.effect {next : State} (owned : Owned state) (effect : Effect peerAddr state next)
    : Owned next := by
  obtain ⟨target, keeps, effect⟩ := effect
  cases effect with
  | transfer source moved emptied tasks =>
      refine ⟨owned.linear.transfer keeps moved emptied, fun place held got => ?_⟩
      rw [tasks]
      by_cases here : place = target
      case pos =>
        subst here
        exact owned.fits source held (moved held got)
      case neg => exact owned.fits place held (keeps place here got)
  | opened held received peer fresh tasks =>
      have known {place : Place} {other : Held} (apart : place ≠ target)
          (got : next.held place = some other)
          : other.conn ≠ held.conn := by
        intro same
        obtain ⟨_, present, -⟩ := owned.fits place other (keeps place apart got)
        rw [same, fresh] at present
        cases present
      constructor
      case linear =>
        refine owned.linear.receive keeps fun place one other apart got also => ?_
        obtain rfl := Option.some.inj (received.symm.trans got)
        exact (known apart also).symm
      case fits =>
        intro place other got
        rw [tasks]
        by_cases here : place = target
        case pos =>
          subst here
          obtain rfl := Option.some.inj (received.symm.trans got)
          exact ⟨_, Function.update_self .., rfl, rfl, rfl⟩
        case neg =>
          rw [Function.update_of_ne (known here got)]
          exact owned.fits place other (keeps place here got)
  | failed held abort had emptied tasks =>
      have gone {place : Place} {other : Held} (got : next.held place = some other)
          : place ≠ target := by
        rintro rfl
        rw [emptied] at got
        cases got
      have keeps_all : ∀ place, Keeps state.held next.held place :=
        fun place _ got => keeps place (gone got) got
      refine ⟨owned.linear.shrink keeps_all, fun place other got => ?_⟩
      have different : other.conn ≠ held.conn := fun same =>
        gone got (owned.linear (keeps_all place got) had same)
      rw [tasks, Function.update_of_ne different]
      exact owned.fits place other (keeps_all place got)

/-- Every step of the system keeps connections owned. -/
theorem Owned.step {action : Action} (owned : Owned state)
    (stepped : step peerAddr state action = some next)
    : Owned next := by
  cases action with
  | call id action => exact owned.effect (stepCall_effect stepped)
  | task conn action =>
      have keeps := stepTask_keeps stepped
      refine ⟨owned.linear.shrink keeps, fun place held got => ?_⟩
      obtain ⟨found, known, fits⟩ := owned.fits place held (keeps place got)
      obtain ⟨task, phase, pool, present, rfl, -⟩ := stepTask_effect stepped
      by_cases same : held.conn = conn
      case pos =>
        rw [same, present] at known
        obtain rfl := Option.some.inj known
        exact ⟨{ task with phase }, by simp [same], fits⟩
      case neg => exact ⟨found, by simpa [same] using known, fits⟩

theorem Owned.init : Owned .init := by
  constructor
  case linear =>
    intro left _ _ _ held
    cases left <;> simp [State.held, State.init, Call.sending, Call.body] at held
  case fits =>
    intro place _ held
    cases place <;> simp [State.held, State.init, Call.sending, Call.body] at held

/-- In every reachable state a connection has at most one owner among the entries of the
pool, the running calls and the live bodies, and whatever has an owner is an opened
connection on which no send has failed.
-/
theorem pooledFetch_linear (reached : (pooledFetch peerAddr).Reachable state)
    : (∀ left right one other,
        state.held left = some one
        → state.held right = some other
        → one.conn = other.conn
        → left = right)
      ∧ ∀ place held,
          state.held place = some held
          → ∃ task, state.tasks held.conn = some task ∧ task.sendFailed = false := by
  have owned : Owned state :=
    reached.invariant Owned.init fun _ _ _ owned stepped => owned.step stepped
  constructor
  · exact fun _ _ _ _ held also same => owned.linear held also same
  · intro place held got
    obtain ⟨task, present, -, -, unfailed⟩ := owned.fits place held got
    exact ⟨task, present, unfailed⟩

/-- A connection is opened, returned with its body and taken again by a second call. -/
def reuse : List Action :=
  [.call 0 (.call localUpstream), .call 0 .takeCached, .call 0 (.connected 7),
    .call 0 .respond, .call 0 .dropBody, .call 1 (.call localUpstream),
    .call 1 .takeCached]

/-- After that the second call is the only owner. Witness: it holds the connection, so any
other holder would be the same place.
-/
theorem pooledFetch_linear_reuse
    : ∃ state,
        (pooledFetch fun addr _ => addr).run .init reuse = some state
        ∧ ∀ place held,
            state.held place = some held → held.conn = 7 → place = .call 1 := by
  have taken
      : ((pooledFetch fun addr _ => addr).run .init reuse).bind (·.held (.call 1))
        = some ⟨localUpstream, localUpstream, 7⟩ := by
    decide
  obtain ⟨state, ran, taken⟩ := Option.bind_eq_some_iff.mp taken
  refine ⟨state, ran, fun place held got same => ?_⟩
  exact (pooledFetch_linear ⟨reuse, ran⟩).1 place (.call 1) held _ got taken same

end Gway.PooledFetch
