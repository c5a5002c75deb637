import Gway.Srv.ConnLock
import Gway.Srv.GracefulDrain

/-! What the write guard says about HTTP/3's request handlers. A handler is a task of its own
and holds no guard; the guard that stands for it is that of its connection, which may end
before the handler does, or may be granted only after `srv` has dropped its own.
-/

namespace Gway.Srv

/-- Every request handler that was spawned has finished. -/
def State.Answered (state : State) : Prop :=
  ∀ request ∈ state.requests, request.phase = .finished

/-- When `srv` returns `Ok`, every request handler has finished. -/
def ReturnsAnswered (_before : State) (action : Action) (after : State) : Prop :=
  action = .main .ret → after.Answered

/-- No spawned task of an HTTP/3 connection is still to be granted its read guard. -/
def State.H3GuardsTaken (state : State) : Prop :=
  ∀ conn ∈ state.conns,
    conn.service = .h3 → conn.phase ≠ .spawned ∧ conn.phase ≠ .waiting

/-- No request handler has outlived its connection: if the task of its connection has ended,
it has finished as well.
-/
def State.NoneOutlives (state : State) : Prop :=
  ∀ request ∈ state.requests,
    state.connPhase request.conn = some .finished → request.phase = .finished

/-- When `srv` is granted `conn_lock.write()`, no task of an HTTP/3 connection is still to be
granted its read guard, and no request handler has outlived its connection.
-/
def GuardsCoverRequests (before : State) (action : Action) (_after : State) : Prop :=
  action = .main .lockConns → before.H3GuardsTaken ∧ before.NoneOutlives

instance (state : State) : Decidable state.Answered :=
  inferInstanceAs (Decidable (∀ request ∈ state.requests, request.phase = .finished))

instance (before : State) (action : Action) (after : State)
    : Decidable (ReturnsAnswered before action after) :=
  inferInstanceAs (Decidable (action = .main .ret → after.Answered))

instance (state : State) : Decidable state.H3GuardsTaken :=
  inferInstanceAs
    (Decidable
      (∀ conn ∈ state.conns,
        conn.service = .h3 → conn.phase ≠ .spawned ∧ conn.phase ≠ .waiting))

instance (state : State) : Decidable state.NoneOutlives :=
  inferInstanceAs
    (Decidable
      (∀ request ∈ state.requests,
        state.connPhase request.conn = some .finished → request.phase = .finished))

instance (before : State) (action : Action) (after : State)
    : Decidable (GuardsCoverRequests before action after) :=
  inferInstanceAs
    (Decidable (action = .main .lockConns → before.H3GuardsTaken ∧ before.NoneOutlives))

/-- The connection of a request is being served or has been. -/
def State.RequestsServed (state : State) : Prop :=
  ∀ request ∈ state.requests,
    state.connPhase request.conn = some .serving
    ∨ state.connPhase request.conn = some .finished

/-- HTTP/3 has come to its end: its connections are finished and so are all handlers. -/
structure State.H3Ended (state : State) : Prop where
  conns : ∀ conn ∈ state.conns, conn.service = .h3 → conn.phase = .finished
  answered : state.Answered

/-- HTTP/3 is at its end from the moment on at which `srv` is granted the write guard. -/
def H3EndedWhenGranted (state : State) : Prop :=
  state.main.Granted → state.H3Ended

/-- The invariants of the gateway that the guards rest on, and where the requests are. -/
structure RequestInvariant (state : State) : Prop where
  order : state.SpawnOrder
  drain : DrainInvariant state
  lock : ConnLockInvariant state
  served : state.RequestsServed

variable {barging : Bool} {state next : State}

/-- A request stays with a served connection while another connection changes its phase, and
while its own goes on from being served to its end.
-/
private theorem State.RequestsServed.setConn {conn : ConnId} {before after : ConnPhase}
    (served : state.RequestsServed) (present : state.connPhase conn = some before)
    (forward
      : before = .serving ∨ before = .finished → after = .serving ∨ after = .finished)
    : (state.setConn conn after).RequestsServed := by
  intro request member
  have known := served request member
  rw [connPhase_setConn]
  split
  case isTrue same =>
    rw [same, present] at known
    simpa [present] using forward (by simpa using known)
  case isFalse => exact known

/-- No step of a connection task takes a served connection back to before its service. -/
theorem State.RequestsServed.stepConn {conn : ConnId} {action : ConnAction}
    (served : state.RequestsServed) (stepped : stepConn barging state conn action = some next)
    : next.RequestsServed := by
  cases action with
  | start =>
      obtain ⟨spawned, done⟩ := Option.ite_none_right_eq_some.mp stepped
      cases done
      exact served.setConn spawned (by simp)
  | lock =>
      obtain ⟨waiting, granted⟩ := Option.ite_none_right_eq_some.mp stepped
      obtain ⟨lock, -, rfl⟩ := Option.map_eq_some_iff.mp granted
      exact served.setConn waiting (by simp)
  | finish =>
      obtain ⟨serving, done⟩ := Option.ite_none_right_eq_some.mp stepped
      cases done
      exact served.setConn serving (by simp)
  | request =>
      obtain ⟨serving, done⟩ := Option.ite_none_right_eq_some.mp stepped
      cases done
      intro request member
      rcases List.mem_append.mp member with member | new
      · exact served request member
      · obtain rfl := List.mem_singleton.mp new
        simp [State.connPhase, serving]

/-- A service touches only connections that are new or in its hand. -/
theorem State.RequestsServed.stepService {service : Service} {action : ServiceAction}
    (served : state.RequestsServed) (lock : ConnLockInvariant state)
    (stepped : stepService state service action = some next)
    : next.RequestsServed := by
  cases action with
  | accept =>
      obtain ⟨-, done⟩ := Option.ite_none_right_eq_some.mp stepped
      cases done
      intro request member
      have known := served request member
      have old : request.conn ≠ state.conns.length := by
        intro same
        simp [same, State.connPhase] at known
      simpa only [State.connPhase, connPhase_append, old, if_false] using known
  | spawnConn =>
      obtain ⟨conn, holding, rfl⟩ := spawnConn_eq_some.mp stepped
      have kept : (state.setService service .selecting).RequestsServed := served
      exact kept.setConn (lock.connPhase_inHand holding) (by simp)
  | pollShutdown =>
      rcases (pollShutdown_eq_some.mp stepped).2 with ⟨lock, -, rfl⟩ | ⟨-, rfl⟩
      · exact served
      · exact served
  | _ =>
      obtain ⟨-, done⟩ := Option.ite_none_right_eq_some.mp stepped
      cases done
      exact served

/-- A handler that moves on stays with its connection. -/
theorem State.RequestsServed.stepRequest {request : RequestId} {action : RequestAction}
    (served : state.RequestsServed) (stepped : stepRequest state request action = some next)
    : next.RequestsServed := by
  have moved (phase : RequestPhase) : (state.setRequest request phase).RequestsServed := by
    intro found member
    obtain ⟨index, at_⟩ := List.mem_iff_getElem?.mp member
    rw [State.setRequest, List.getElem?_modify] at at_
    obtain ⟨old, before, changed⟩ := Option.map_eq_some_iff.mp at_
    have same : found.conn = old.conn := by
      rw [← changed]
      split <;> rfl
    rw [same]
    exact served old (List.mem_of_getElem? before)
  cases action <;> obtain ⟨-, done⟩ := Option.ite_none_right_eq_some.mp stepped <;>
    cases done <;> exact moved _

theorem RequestInvariant.init : RequestInvariant State.init :=
  ⟨.init, .init, .init, by simp [State.RequestsServed, State.init]⟩

theorem RequestInvariant.step {action : Action} (inv : RequestInvariant state)
    (stepped : step barging state action = some next)
    : RequestInvariant next := by
  refine ⟨inv.order.step stepped, inv.drain.step inv.order stepped, inv.lock.step stepped, ?_⟩
  cases action with
  | main action =>
      obtain ⟨_, _, _, _, _, rfl⟩ := stepMain_frame stepped
      exact inv.served
  | stop action =>
      obtain ⟨_, _, _, rfl⟩ := stepStop_frame stepped
      exact inv.served
  | service service action => exact inv.served.stepService inv.lock stepped
  | conn conn action => exact inv.served.stepConn stepped
  | request request action => exact inv.served.stepRequest stepped

-----------------------------------------------------------------------------------------
-- From the grant of the write guard to the return
-----------------------------------------------------------------------------------------

/-- When `srv` is granted the write guard, the connections of `h3` have ended exactly if none of
them is still to be granted its own.
-/
theorem DrainInvariant.h3Finished_iff (inv : DrainInvariant state)
    (past : state.main.PastJoin) (free : state.connLock.readers = [])
    : (∀ conn ∈ state.conns, conn.service = .h3 → conn.phase = .finished)
      ↔ state.H3GuardsTaken := by
  exact forall₂_congr fun conn member =>
    imp_congr_right fun _ => inv.finished_iff past free member

/-- The connections of all requests have ended by then too, so every handler has finished
exactly if none outlives its connection.
-/
theorem RequestInvariant.answered_iff (inv : RequestInvariant state)
    (free : state.connLock.readers = [])
    : state.Answered ↔ state.NoneOutlives := by
  constructor
  · exact fun answered request member _ => answered request member
  · intro none request member
    rcases inv.served request member with serving | finished
    · have reader := (inv.lock.readers request.conn).mpr serving
      simp [free] at reader
    · exact none request member finished

theorem RequestInvariant.h3Ended_iff (inv : RequestInvariant state)
    (past : state.main.PastJoin) (free : state.connLock.readers = [])
    : state.H3Ended ↔ state.H3GuardsTaken ∧ state.NoneOutlives := by
  rw [← inv.drain.h3Finished_iff past free, ← inv.answered_iff free]
  exact ⟨fun ended => ⟨ended.conns, ended.answered⟩, fun both => ⟨both.1, both.2⟩⟩

/-- A finished handler takes no step. -/
theorem stepRequest_answered (answered : state.Answered) (request : RequestId)
    (action : RequestAction)
    : stepRequest state request action = none := by
  have absent {phase : RequestPhase} (unfinished : phase ≠ .finished)
      : state.requestPhase request ≠ some phase := by
    intro present
    obtain ⟨found, at_, rfl⟩ := Option.map_eq_some_iff.mp present
    exact unfinished (answered found (List.mem_of_getElem? at_))
  cases action <;> exact if_neg (absent (by simp))

/-- A connection that is not finished is none of `h3` then, so its phase does not matter. -/
theorem State.H3Ended.setConn {conn : ConnId} {before : ConnPhase} (ended : state.H3Ended)
    (present : state.connPhase conn = some before) (unfinished : before ≠ .finished)
    (phase : ConnPhase)
    : (state.setConn conn phase).H3Ended := by
  refine ⟨fun found member h3 => ?_, ended.answered⟩
  obtain ⟨index, at_⟩ := List.mem_iff_getElem?.mp member
  rw [State.setConn, List.getElem?_modify] at at_
  obtain ⟨old, at_old, changed⟩ := Option.map_eq_some_iff.mp at_
  have finished := ended.conns old (List.mem_of_getElem? at_old)
  split at changed
  case isTrue same =>
    subst same changed
    have phase : old.phase = before := by simpa [State.connPhase, at_old] using present
    exact absurd (phase.symm.trans (finished h3)) unfinished
  case isFalse =>
    subst changed
    exact finished h3

/-- Where HTTP/3 is at its end, only connections of the other services take steps, and none of
them accepts a request.
-/
theorem State.H3Ended.stepConn {conn : ConnId} {action : ConnAction} (ended : state.H3Ended)
    (stepped : stepConn barging state conn action = some next)
    : next.H3Ended := by
  cases action with
  | start =>
      obtain ⟨spawned, done⟩ := Option.ite_none_right_eq_some.mp stepped
      cases done
      exact ended.setConn spawned (by simp) _
  | lock =>
      obtain ⟨waiting, granted⟩ := Option.ite_none_right_eq_some.mp stepped
      obtain ⟨lock, -, rfl⟩ := Option.map_eq_some_iff.mp granted
      have moved := ended.setConn waiting (by simp) .serving
      exact ⟨moved.conns, moved.answered⟩
  | finish =>
      obtain ⟨serving, done⟩ := Option.ite_none_right_eq_some.mp stepped
      cases done
      have moved := ended.setConn serving (by simp) .finished
      exact ⟨moved.conns, moved.answered⟩
  | request =>
      obtain ⟨serving, -⟩ := Option.ite_none_right_eq_some.mp stepped
      cases ended.conns _ (List.mem_of_getElem? serving) rfl

theorem tasksKeep_h3Ended (barging : Bool) : TasksKeep barging State.H3Ended where
  same := by
    intro state other ended conns requests
    refine ⟨fun conn member => ?_, fun request member => ?_⟩
    · exact ended.conns conn (conns ▸ member)
    · exact ended.answered request (requests ▸ member)
  conn := fun _ _ _ _ ended stepped => ended.stepConn stepped
  request := by
    intro state next request action ended stepped
    simp [stepRequest_answered ended.answered request action] at stepped

/-- Whether HTTP/3 is at its end from the grant of the write guard on is decided at the grant: a
connection that is granted its guard only after `srv` has dropped its own is none of `h3` then.
-/
theorem h3Ended_step_iff {action : Action} (inv : RequestInvariant state)
    (ended : H3EndedWhenGranted state) (stepped : step barging state action = some next)
    : H3EndedWhenGranted next ↔ GuardsCoverRequests state action next :=
  (tasksKeep_h3Ended barging).granted_step_iff inv.drain inv.h3Ended_iff ended stepped

/-- HTTP/3 is at its end from every grant on exactly if the guards cover the requests then. -/
theorem always_h3Ended_iff (barging : Bool) (actions : List Action)
    : (gateway barging).Always H3EndedWhenGranted .init actions
      ↔ (gateway barging).EachStep GuardsCoverRequests .init actions :=
  Machine.always_iff_eachStep RequestInvariant
    (fun _ _ _ inv ended stepped => h3Ended_step_iff inv ended stepped)
    (fun _ _ _ inv _ stepped _ => inv.step stepped) .init
    (by simp [H3EndedWhenGranted, MainPhase.Granted, State.init])

/-- A return from a state in which HTTP/3 is at its end leaves it so. -/
theorem returnsAnswered_of_granted {action : Action} (ended : H3EndedWhenGranted state)
    (stepped : step barging state action = some next)
    : ReturnsAnswered state action next := by
  rintro rfl
  obtain ⟨unlocked, done⟩ := Option.ite_none_right_eq_some.mp stepped
  cases done
  exact (ended (Or.inr (Or.inl unlocked))).answered

/-- If at the grant of `conn_lock.write()` to `srv` every HTTP/3 connection's task has been
granted its read guard and no request handler outlives its connection, `srv` returns with every
handler finished; and only then are all of them, and the connections that accept requests,
finished from the grant on.
-/
theorem srv_answered (barging : Bool) (actions : List Action)
    : ((gateway barging).EachStep GuardsCoverRequests .init actions
        → (gateway barging).EachStep ReturnsAnswered .init actions)
      ∧ ((gateway barging).Always H3EndedWhenGranted .init actions
        ↔ (gateway barging).EachStep GuardsCoverRequests .init actions) := by
  have decided := always_h3Ended_iff barging actions
  refine ⟨fun each => ?_, decided⟩
  exact (decided.mpr each).eachStep fun _ _ _ ended stepped =>
    returnsAnswered_of_granted ended stepped

/-- `srv` starts its services, and `h3` accepts a connection and spawns its task. -/
def acceptConn : List Action :=
  [.main .spawnStop, .stop .poll, .main .bound, .main .spawnService, .main .spawnService,
    .main .spawnService, .service .h1 .enterLoop, .service .h2 .enterLoop,
    .service .h3 .enterLoop, .service .h3 .accept, .service .h3 .spawnConn]

/-- The connection is served and has accepted a request. -/
def acceptRequest : List Action :=
  acceptConn ++ [.conn 0 .start, .conn 0 .lock, .conn 0 .request, .request 0 .start]

/-- The connection ends while the handler waits for its upstream. -/
def outlivingRun : List Action :=
  acceptRequest ++ [.conn 0 .finish] ++ stopServices ++ returns

/-- The handler finishes before its connection. -/
def answeringRun : List Action :=
  acceptRequest ++ [.request 0 .finish, .conn 0 .finish] ++ stopServices ++ returns

/-- The connection is granted its guard between the release of the write guard and the
return, and accepts a request at once.
-/
def lateRun : List Action :=
  acceptConn ++ stopServices
    ++ [.main .lockConns, .main .unlockConns, .conn 0 .start, .conn 0 .lock, .conn 0 .request,
      .main .ret]

/-- `srv` returns `Ok` while a request handler is running. -/
theorem srv_returns_before_request
    : ¬ (gateway false).EachStep ReturnsAnswered .init outlivingRun
      ∧ ((gateway false).run .init outlivingRun).map
          (fun final => (final.main, final.requestPhase 0))
        = some (.returned, some .running) := by
  decide

/-- No handler has outlived its connection in the late run, and yet one is left. -/
example
    : ¬ (gateway false).EachStep ReturnsAnswered .init lateRun
      ∧ ((gateway false).run .init lateRun).map
          (fun final => (final.main, final.requestPhase 0))
        = some (.returned, some .spawned) := by
  decide

/-- The answering run meets the condition, so `srv` returns with the handler finished. -/
theorem srv_answered_answeringRun
    : (gateway false).EachStep ReturnsAnswered .init answeringRun
      ∧ ((gateway false).run .init answeringRun).map (·.main) = some .returned :=
  ⟨(srv_answered false answeringRun).1 (by decide), by decide⟩

end Gway.Srv
