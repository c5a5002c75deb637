import Gway.PooledFetch.Http
import Gway.PooledFetch.System

/-! A call of `http` among others, and the function `http`. What the others do decides whether
the call finds a connection and how its sends end, and nothing else.
-/

namespace Gway.PooledFetch

/-- How the sends of a call ended, in order, and whether the call returned a response. -/
structure Observed where
  sends : List (Except HyperError Unit)
  answered : Bool
deriving DecidableEq

def Observed.nothing : Observed where
  sends := []
  answered := false

/-- What an action of the call adds to that. -/
def Observed.after (observed : Observed) : CallAction → Observed
  | .respond => { sends := observed.sends ++ [.ok ()], answered := true }
  | .fail err => { observed with sends := observed.sends ++ [.error err] }
  | _ => observed

/-- What is seen of a call that goes on after it has been seen so far. -/
def Observed.followedBy (before later : Observed) : Observed where
  sends := before.sends ++ later.sends
  answered := later.answered

def observedActions (own : List CallAction) : Observed :=
  own.foldl Observed.after .nothing

/-- The same of what the function returns. -/
def observedHttp {ResBody : Type}
    (called : List (Sent ResBody) × Except Error (Response ResBody))
    : Observed where
  sends := called.1.map fun sent => sent.outcome.map fun _ => ()
  answered := called.2.toBool

/-- The function returns this for some outcomes of what it depends on. -/
def Performs (ResBody : Type) (addr : SocketAddr) (req : Request Bytes) (observed : Observed)
    : Prop :=
  ∃ attempt : Attempt ResBody, observedHttp (http attempt addr req) = observed

def Action.ofCall (id : CallId) : Action → Option CallAction
  | .call other action => if other = id then some action else none
  | .task _ _ => none

/-- What one call does among all actions, in order. -/
def ownActions (id : CallId) (actions : List Action) : List CallAction :=
  actions.filterMap (Action.ofCall id)

/-- A call for the address was made, was not dropped while it waited and has come to its end.
A body that it returned may have been dropped.
-/
structure Completed (addr : SocketAddr) (own : List CallAction) (call : Call) : Prop where
  called : own.head? = some (.call addr)
  awaited : .cancel ∉ own
  ended : call = .finished ∨ ∃ body, call = .responded body

/-- Before a call opens a connection it has made no send, or one whose error says that the
request was not sent.
-/
inductive Opening : Observed → Prop where
  | missed : Opening .nothing
  | unsent (err : HyperError) (allowed : (err.isCanceled || err.isClosed) = true)
      : Opening { sends := [.error err], answered := false }

variable {peerAddr : SocketAddr → ConnId → SocketAddr} {state next final : State}
  {ResBody : Type} {addr : SocketAddr} {req : Request Bytes} {id : CallId} {conn : ConnId}
  {opened : Conn} {call : Call} {observed : Observed} {own : List CallAction}

-----------------------------------------------------------------------------------------
-- The function by what it meets
-----------------------------------------------------------------------------------------

/-- After a cached connection that could not be sent on, the function goes on to open one. -/
theorem resent {attempt : Attempt ResBody} {err : HyperError}
    (allowed : (err.isCanceled || err.isClosed) = true)
    : observedHttp (http { attempt with cached := some (.error err) } addr req)
      = { sends := [.error err], answered := false : Observed }.followedBy
          (observedHttp (httpNew attempt addr req)) := by
  simp [http, httpNew, observedHttp, Observed.followedBy, allowed, Except.map]

/-- The function up to the opening, for each way to get there. -/
theorem Opening.exists_cached (opening : Opening observed)
    : ∃ cached : Option (Except HyperError (Response ResBody)),
        ∀ opened fresh,
          observedHttp (http { cached, opened, fresh } addr req)
          = observed.followedBy
              (observedHttp (httpNew { cached, opened, fresh } addr req)) := by
  cases opening with
  | missed => exact ⟨none, fun opened fresh => rfl⟩
  | unsent err allowed =>
      refine ⟨some (.error err), fun opened fresh => ?_⟩
      exact @resent ResBody addr req { cached := some (.error err), opened, fresh } err allowed

/-- A response to the send on a cached connection is what the call returns. -/
theorem performs_cached [Inhabited ResBody]
    : Performs ResBody addr req (Observed.nothing.after .respond) :=
  ⟨{ cached := some (.ok ⟨200, [], default⟩), opened := .ok (), fresh := .error ⟨.other, ""⟩ },
    rfl⟩

/-- An error of that send ends the call, if the request may have been sent. -/
theorem performs_refused {err : HyperError}
    (refused : ¬(err.isCanceled || err.isClosed) = true)
    : Performs ResBody addr req (Observed.nothing.after (.fail err)) := by
  refine ⟨{ cached := some (.error err), opened := .ok (), fresh := .error err }, ?_⟩
  simp [http, refused, observedHttp, Observed.after, Observed.nothing, Except.map,
    Except.toBool]

/-- If no connection can be opened, the call fails with what it has sent so far. -/
theorem Opening.performs (opening : Opening observed) : Performs ResBody addr req observed := by
  obtain ⟨cached, called⟩ := @Opening.exists_cached ResBody addr req observed opening
  refine ⟨{ cached, opened := .error (.io ""), fresh := .error ⟨.other, ""⟩ }, ?_⟩
  rw [called]
  cases opening <;> rfl

/-- A send on the new connection ends the call, with a response or without. -/
theorem Opening.performs_after [Inhabited ResBody] {action : CallAction}
    (opening : Opening observed) (ends : action = .respond ∨ ∃ err, action = .fail err)
    : Performs ResBody addr req (observed.after action) := by
  obtain ⟨cached, called⟩ := @Opening.exists_cached ResBody addr req observed opening
  rcases ends with rfl | ⟨err, rfl⟩
  · refine ⟨{ cached, opened := .ok (), fresh := .ok ⟨200, [], default⟩ }, ?_⟩
    rw [called]
    cases opening <;> rfl
  · refine ⟨{ cached, opened := .ok (), fresh := .error err }, ?_⟩
    rw [called]
    cases opening <;> rfl

-----------------------------------------------------------------------------------------
-- A call among others does what the function does
-----------------------------------------------------------------------------------------

/-- What has been seen of a call for the address at each point where it can be. -/
inductive Stage (ResBody : Type) (addr : SocketAddr) (req : Request Bytes)
    : Call → Observed → Prop where
  | started : Stage ResBody addr req (.started addr) .nothing
  | sendingCached (conn : Conn) : Stage ResBody addr req (.sendingCached addr conn) .nothing
  | connecting {observed : Observed} (opening : Opening observed)
      : Stage ResBody addr req (.connecting addr) observed
  | sendingNew {observed : Observed} (conn : Conn) (opening : Opening observed)
      : Stage ResBody addr req (.sendingNew addr conn) observed
  | responded {observed : Observed} (body : Body)
      (performs : Performs ResBody addr req observed)
      : Stage ResBody addr req (.responded body) observed
  | finished {observed : Observed} (performs : Performs ResBody addr req observed)
      : Stage ResBody addr req .finished observed

/-- A call leaves the other calls alone. -/
theorem stepCall_others {action : CallAction} {other : CallId}
    (stepped : stepCall peerAddr state id action = some next) (apart : other ≠ id)
    : next.calls other = state.calls other := by
  cases action with
  | call addr =>
      obtain ⟨-, done⟩ := Option.ite_none_right_eq_some.mp stepped
      cases done
      exact Function.update_of_ne apart _ _
  | takeCached =>
      rcases takeCached_cases stepped with ⟨addr, conn, pool, -, rfl⟩ | ⟨addr, rfl⟩
      · exact Function.update_of_ne apart _ _
      · exact Function.update_of_ne apart _ _
  | connected conn =>
      simp only [stepCall] at stepped
      split at stepped
      case h_2 => contradiction
      case h_1 =>
        obtain ⟨-, done⟩ := Option.ite_none_right_eq_some.mp stepped
        cases done
        exact Function.update_of_ne apart _ _
  | _ =>
      simp only [stepCall] at stepped
      split at stepped
      all_goals first
        | contradiction
        | (cases stepped; exact Function.update_of_ne apart _ _)

/-- A step that is not a cancellation takes a call from one stage to another. Witness: a case
for each stage, and in it the actions that the call allows there.
-/
theorem Stage.step [Inhabited ResBody] {action : CallAction}
    (stage : Stage ResBody addr req (state.calls id) observed)
    (stepped : stepCall peerAddr state id action = some next) (awaits : action ≠ .cancel)
    : Stage ResBody addr req (next.calls id) (observed.after action) := by
  generalize there : state.calls id = call at stage
  cases stage with
  | started =>
      cases action with
      | takeCached =>
          simp only [stepCall, there] at stepped
          split at stepped
          all_goals
            cases stepped
            simp only [State.setCall, Function.update_self]
          · exact .sendingCached _
          · exact .connecting .missed
      | cancel => exact absurd rfl awaits
      | _ => simp [stepCall, there] at stepped
  | sendingCached conn =>
      cases action with
      | respond =>
          simp only [stepCall, there] at stepped
          cases stepped
          simp only [State.setCall, Function.update_self]
          exact .responded _ performs_cached
      | fail err =>
          simp only [stepCall, there] at stepped
          cases stepped
          simp only [State.failConn, State.setCall, Function.update_self]
          split
          case isTrue allowed => exact .connecting (.unsent err allowed)
          case isFalse refused => exact .finished (performs_refused refused)
      | cancel => exact absurd rfl awaits
      | _ => simp [stepCall, there] at stepped
  | connecting opening =>
      cases action with
      | connected conn =>
          simp only [stepCall, there] at stepped
          obtain ⟨-, done⟩ := Option.ite_none_right_eq_some.mp stepped
          cases done
          simp only [State.setTask, State.setCall, Function.update_self]
          exact .sendingNew _ opening
      | connectFailed =>
          simp only [stepCall, there] at stepped
          cases stepped
          simp only [State.setCall, Function.update_self]
          exact .finished opening.performs
      | cancel => exact absurd rfl awaits
      | _ => simp [stepCall, there] at stepped
  | sendingNew conn opening =>
      cases action with
      | respond =>
          simp only [stepCall, there] at stepped
          cases stepped
          simp only [State.setCall, Function.update_self]
          exact .responded _ (opening.performs_after (.inl rfl))
      | fail err =>
          simp only [stepCall, there] at stepped
          cases stepped
          simp only [State.failConn, State.setCall, Function.update_self]
          exact .finished (opening.performs_after (.inr ⟨err, rfl⟩))
      | cancel => exact absurd rfl awaits
      | _ => simp [stepCall, there] at stepped
  | responded body performs =>
      cases action with
      | dropBody =>
          simp only [stepCall, there] at stepped
          cases stepped
          simp only [State.setCall, Function.update_self]
          exact .finished performs
      | cancel => exact absurd rfl awaits
      | _ => simp [stepCall, there] at stepped
  | finished performs =>
      cases action with
      | cancel => exact absurd rfl awaits
      | _ => simp [stepCall, there] at stepped

/-- A call has not been made, or it was made for some address and has been dropped while it
waited or is at a stage that fits what has been seen of it.
-/
def Followed (ResBody : Type) (req : Request Bytes) (own : List CallAction) (call : Call)
    : Prop :=
  (own = [] ∧ call = .absent)
  ∨ ∃ addr,
      own.head? = some (.call addr)
      ∧ (.cancel ∈ own ∨ Stage ResBody addr req call (observedActions own))

/-- A call's own step keeps to that. -/
theorem Followed.own_step [Inhabited ResBody] {action : CallAction}
    (followed : Followed ResBody req own (state.calls id))
    (stepped : stepCall peerAddr state id action = some next)
    : Followed ResBody req (own ++ [action]) (next.calls id) := by
  rcases followed with ⟨rfl, absent⟩ | ⟨addr, called, cancelled | stage⟩
  · cases action with
    | call addr =>
        simp only [stepCall, absent, if_true] at stepped
        cases stepped
        refine .inr ⟨addr, rfl, .inr ?_⟩
        simp only [State.setCall, Function.update_self]
        exact .started
    | _ => simp [stepCall, absent] at stepped
  · exact .inr ⟨addr, by simp [called], .inl (List.mem_append_left _ cancelled)⟩
  · refine .inr ⟨addr, by simp [called], ?_⟩
    by_cases drops : action = .cancel
    case pos => exact .inl (by simp [drops])
    case neg =>
      rw [observedActions, List.foldl_concat]
      exact .inr (stage.step stepped drops)

theorem ownActions_append (first second : List Action)
    : ownActions id (first ++ second) = ownActions id first ++ ownActions id second :=
  List.filterMap_append

theorem ownActions_map (own : List CallAction) : ownActions id (own.map (.call id)) = own := by
  rw [ownActions, List.filterMap_map]
  exact (List.filterMap_congr fun action _ => if_pos rfl).trans List.filterMap_some

theorem ownActions_concat (past : List Action) (action : Action)
    : ownActions id (past ++ [action])
      = ownActions id past ++ (action.ofCall id).toList := by
  rw [ownActions_append, ownActions, ownActions]
  cases its : action.ofCall id <;> simp [its]

/-- So does every other step, which leaves the call as it is. -/
theorem Followed.step [Inhabited ResBody] {past : List Action} {action : Action}
    (followed : Followed ResBody req (ownActions id past) (state.calls id))
    (stepped : step peerAddr state action = some next)
    : Followed ResBody req (ownActions id (past ++ [action])) (next.calls id) := by
  cases action with
  | task conn action =>
      obtain ⟨task, phase, pool, -, rfl, -⟩ := stepTask_effect stepped
      simpa [ownActions_concat, Action.ofCall, State.setTask] using followed
  | call other action =>
      by_cases its : other = id
      case pos =>
        subst its
        simpa [ownActions_concat, Action.ofCall] using followed.own_step stepped
      case neg =>
        rw [stepCall_others stepped (Ne.symm its)]
        simpa [ownActions_concat, Action.ofCall, its] using followed

/-- What a completed call has done in a run, the function does for some outcomes. -/
theorem Completed.performs [Inhabited ResBody] {actions : List Action}
    (ran : (pooledFetch peerAddr).run .init actions = some final)
    (completed : Completed addr (ownActions id actions) (final.calls id))
    : Performs ResBody addr req (observedActions (ownActions id actions)) := by
  have start : Followed ResBody req (ownActions id []) (State.init.calls id) :=
    .inl ⟨rfl, rfl⟩
  have followed : Followed ResBody req (ownActions id actions) (final.calls id) :=
    Machine.run_records
      (fun past (state : State) => Followed ResBody req (ownActions id past) (state.calls id))
      (fun _ _ _ _ followed stepped => followed.step stepped) start ran
  rcases followed with ⟨uncalled, -⟩ | ⟨other, called, cancelled | stage⟩
  · rw [uncalled] at completed
    cases completed.called
  · exact absurd cancelled completed.awaited
  · cases called.symm.trans completed.called
    rcases completed.ended with finished | ⟨body, responded⟩
    · rw [finished] at stage
      cases stage with
      | finished performs => exact performs
    · rw [responded] at stage
      cases stage with
      | responded _ performs => exact performs

-----------------------------------------------------------------------------------------
-- What the function does, a call among others can do
-----------------------------------------------------------------------------------------

/-- A call can do these actions in a row, none of them a cancellation, and is at its end then. -/
def Ends (peerAddr : SocketAddr → ConnId → SocketAddr) (id : CallId) (state : State)
    (own : List CallAction) : Prop :=
  .cancel ∉ own
  ∧ ∃ final,
      (pooledFetch peerAddr).run state (own.map (.call id)) = some final
      ∧ (final.calls id = .finished ∨ ∃ body, final.calls id = .responded body)

theorem Ends.cons {action : CallAction} (ends : Ends peerAddr id next own)
    (stepped : stepCall peerAddr state id action = some next) (awaits : action ≠ .cancel)
    : Ends peerAddr id state (action :: own) := by
  obtain ⟨awaited, final, ran, ended⟩ := ends
  refine ⟨by simp [awaited, awaits.symm], final, ?_, ended⟩
  exact Machine.run_cons.mpr ⟨next, stepped, ran⟩

theorem Ends.nil (ended : state.calls id = .finished ∨ ∃ body, state.calls id = .responded body)
    : Ends peerAddr id state [] :=
  ⟨by simp, state, rfl, ended⟩

/-- A response to a send ends the call. -/
theorem ends_respond
    (sending
      : state.calls id = .sendingCached addr opened ∨ state.calls id = .sendingNew addr opened)
    : Ends peerAddr id state [.respond] := by
  have responded
      : stepCall peerAddr state id .respond
        = some (state.setCall id (.responded (.new addr opened))) := by
    rcases sending with sending | sending <;> simp only [stepCall, sending]
  exact (Ends.nil (.inr ⟨_, Function.update_self _ _ _⟩)).cons responded (by simp)

/-- From where it opens a connection, a call can do what the function does from there. -/
theorem exists_ends_new (attempt : Attempt ResBody)
    (connecting : state.calls id = .connecting addr) (fresh : state.tasks conn = none)
    (unanswered : observed.answered = false)
    : ∃ own,
        Ends peerAddr id state own
        ∧ own.foldl Observed.after observed
          = observed.followedBy (observedHttp (httpNew attempt addr req)) := by
  obtain ⟨cached, opening, sent⟩ := attempt
  obtain ⟨next, connected, sending⟩
      : ∃ next,
          stepCall peerAddr state id (.connected conn) = some next
          ∧ next.calls id
            = .sendingNew addr { peerAddr := peerAddr addr conn, sender := { conn } } := by
    simp [stepCall, connecting, fresh, State.setCall, State.setTask]
  cases opening with
  | error err =>
      have failed
          : stepCall peerAddr state id .connectFailed = some (state.setCall id .finished) := by
        simp only [stepCall, connecting]
      refine ⟨[.connectFailed], ?_, ?_⟩
      · exact (Ends.nil (.inl (Function.update_self _ _ _))).cons failed (by simp)
      · simp [Observed.after, Observed.followedBy, observedHttp, httpNew, Except.toBool,
          ← unanswered]
  | ok _ =>
      cases sent with
      | ok res =>
          refine ⟨[.connected conn, .respond], ?_, ?_⟩
          · exact (ends_respond (.inr sending)).cons connected (by simp)
          · simp [Observed.after, Observed.followedBy, observedHttp, httpNew, Except.toBool,
              Except.map]
      | error err =>
          obtain ⟨last, failed, finished⟩
              : ∃ last,
                  stepCall peerAddr next id (.fail err) = some last
                  ∧ last.calls id = .finished := by
            simp [stepCall, sending, State.failConn, State.setCall]
          refine ⟨[.connected conn, .fail err], ?_, ?_⟩
          · exact ((Ends.nil (.inl finished)).cons failed (by simp)).cons connected (by simp)
          · simp [Observed.after, Observed.followedBy, observedHttp, httpNew, Except.toBool,
              Except.map, unanswered]

/-- With a cached connection, a call can do what the function does with one. -/
theorem exists_ends_cached (outcome : Except HyperError (Response ResBody))
    (attempt : Attempt ResBody) (sending : state.calls id = .sendingCached addr opened)
    (fresh : state.tasks 1 = none)
    : ∃ own,
        Ends peerAddr id state own
        ∧ observedActions own
          = observedHttp (http { attempt with cached := some outcome } addr req) := by
  cases outcome with
  | ok res => exact ⟨[.respond], ends_respond (.inl sending), rfl⟩
  | error err =>
      by_cases allowed : (err.isCanceled || err.isClosed) = true
      case pos =>
        obtain ⟨next, failed, connecting, fresh⟩
            : ∃ next,
                stepCall peerAddr state id (.fail err) = some next
                ∧ next.calls id = .connecting addr
                ∧ next.tasks 1 = none := by
          by_cases its : 1 = opened.sender.conn
          case pos =>
            simp [stepCall, sending, allowed, State.failConn, State.setCall, ← its, fresh]
          case neg =>
            simp [stepCall, sending, allowed, State.failConn, State.setCall,
              Function.update_of_ne its, fresh]
        obtain ⟨own, ends, seen⟩ :=
          @exists_ends_new peerAddr next ResBody addr req id 1
            { sends := [.error err], answered := false } attempt connecting fresh rfl
        exact ⟨.fail err :: own, ends.cons failed (by simp), seen.trans (resent allowed).symm⟩
      case neg =>
        obtain ⟨next, failed, finished⟩
            : ∃ next,
                stepCall peerAddr state id (.fail err) = some next
                ∧ next.calls id = .finished := by
          simp [stepCall, sending, allowed, State.failConn, State.setCall]
        refine ⟨[.fail err], (Ends.nil (.inl finished)).cons failed (by simp), ?_⟩
        simp [http, observedHttp, observedActions, allowed, Except.map, Except.toBool,
          Observed.after, Observed.nothing]

/-- A call that looks for a connection can do what the function does, if the pool has one
exactly if the function gets one.
-/
theorem exists_ends (attempt : Attempt ResBody) (started : state.calls id = .started addr)
    (fresh : state.tasks 1 = none)
    (pooled : (cachedConn addr state.pool).1.isSome = attempt.cached.isSome)
    : ∃ own,
        Ends peerAddr id state own
        ∧ observedActions own = observedHttp (http attempt addr req) := by
  cases cached : attempt.cached with
  | none =>
      obtain ⟨next, looked, connecting, fresh⟩
          : ∃ next,
              stepCall peerAddr state id .takeCached = some next
              ∧ next.calls id = .connecting addr
              ∧ next.tasks 1 = none := by
        simp only [stepCall, started]
        split
        case h_1 conn pool taken => simp [taken, cached] at pooled
        case h_2 pool missed => simpa [State.setCall] using fresh
      obtain ⟨own, ends, seen⟩ :=
        @exists_ends_new peerAddr next ResBody addr req id 1 .nothing attempt connecting fresh
          rfl
      refine ⟨.takeCached :: own, ends.cons looked (by simp), ?_⟩
      rw [http, cached]
      exact seen
  | some outcome =>
      obtain ⟨next, opened, looked, sending, fresh⟩
          : ∃ next opened,
              stepCall peerAddr state id .takeCached = some next
              ∧ next.calls id = .sendingCached addr opened
              ∧ next.tasks 1 = none := by
        simp only [stepCall, started]
        split
        case h_1 conn pool taken => simpa [State.setCall] using fresh
        case h_2 pool missed => simp [missed, cached] at pooled
      obtain ⟨own, ends, seen⟩ :=
        @exists_ends_cached peerAddr next ResBody addr req id opened outcome attempt sending
          fresh
      refine ⟨.takeCached :: own, ends.cons looked (by simp), ?_⟩
      rw [← cached] at seen
      exact seen

/-- After a body has been dropped there is a cached connection for its upstream. -/
theorem isSome_cachedConn_drop (pool : Pool) (addr : SocketAddr) (conn : Conn)
    : (cachedConn addr ((Body.new addr conn).drop pool)).1.isSome = true := by
  cases looked : cachedConn addr ((Body.new addr conn).drop pool) with
  | mk found rest =>
      cases found with
      | some _ => rfl
      | none =>
          have stored := slot_drop (.new addr conn) pool addr conn.peerAddr
          rw [(slot_cachedConn_none looked).2] at stored
          simp [Body.new] at stored

/-- A call can be made while the pool has a connection for it, or while it has none. Witness:
another call leaves one behind.
-/
theorem exists_started (peerAddr : SocketAddr → ConnId → SocketAddr) (addr : SocketAddr)
    (id : CallId) (cached : Bool)
    : ∃ actions state,
        (pooledFetch peerAddr).run .init actions = some state
        ∧ ownActions id actions = [.call addr]
        ∧ state.calls id = .started addr
        ∧ state.tasks 1 = none
        ∧ (cachedConn addr state.pool).1.isSome = cached := by
  cases cached with
  | false =>
      refine ⟨[.call id (.call addr)], State.init.setCall id (.started addr), rfl, ?_,
        Function.update_self _ _ _, rfl, rfl⟩
      simp [ownActions, Action.ofCall]
  | true =>
      have apart : id ≠ id + 1 := (Nat.succ_ne_self id).symm
      have missed : cachedConn addr ∅ = (none, ∅) := rfl
      have pooled := isSome_cachedConn_drop ∅ addr ⟨peerAddr addr 0, ⟨0⟩⟩
      refine ⟨
        [
          .call (id + 1) (.call addr),
          .call (id + 1) .takeCached,
          .call (id + 1) (.connected 0),
          .call (id + 1) .respond,
          .call (id + 1) .dropBody,
          .call id (.call addr)
        ], ?_⟩
      simpa [Machine.run, pooledFetch, step, stepCall, State.init, State.setCall,
        State.setTask, missed, ownActions, Action.ofCall, apart] using pooled

/-- Whatever the other calls and the tasks do, what can be seen of a call that completes is
what the function returns for some outcomes, and every such thing can be seen.
-/
theorem completed_iff_performs [Inhabited ResBody]
    (peerAddr : SocketAddr → ConnId → SocketAddr) (addr : SocketAddr) (req : Request Bytes)
    (id : CallId) (observed : Observed)
    : (∃ actions final,
        (pooledFetch peerAddr).run .init actions = some final
        ∧ Completed addr (ownActions id actions) (final.calls id)
        ∧ observedActions (ownActions id actions) = observed)
      ↔ Performs ResBody addr req observed := by
  constructor
  · rintro ⟨actions, final, ran, completed, rfl⟩
    exact completed.performs ran
  · rintro ⟨attempt, rfl⟩
    obtain ⟨actions, state, ran, called, started, fresh, pooled⟩ :=
      exists_started peerAddr addr id attempt.cached.isSome
    obtain ⟨own, ⟨awaited, final, later, ended⟩, seen⟩ :=
      @exists_ends peerAddr state ResBody addr req id attempt started fresh pooled
    have its : ownActions id (actions ++ own.map (.call id)) = .call addr :: own := by
      rw [ownActions_append, called, ownActions_map]
      rfl
    refine ⟨actions ++ own.map (.call id), final, Machine.run_append ran later, ?_, ?_⟩
    · rw [its]
      exact ⟨rfl, by simp [awaited], ended⟩
    · rw [its]
      exact seen

end Gway.PooledFetch
