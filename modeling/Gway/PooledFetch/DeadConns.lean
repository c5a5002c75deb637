import Gway.PooledFetch.Cleanup

/-! Connections whose task is over. A dropped body returns its connection to the pool without
asking whether it still works, and a task that is over will not take it out again.
-/

namespace Gway.PooledFetch

variable {peerAddr : SocketAddr → ConnId → SocketAddr} {state next : State}

/-- The task has run its cleanup, or was aborted and never will. -/
def TaskPhase.Over (phase : TaskPhase) : Prop :=
  phase = .finished ∨ phase = .aborted

/-- The connection has a task that has not yet run its cleanup. -/
def State.Alive (state : State) (conn : ConnId) : Prop :=
  ∃ task, state.tasks conn = some task ∧ ¬ task.phase.Over

/-- Every connection in the pool has a task that has not yet run its cleanup. -/
def NoDead (state : State) : Prop :=
  ∀ addr key sender, slot state.pool addr key = some sender → state.Alive sender.conn

/-- If the step drops a body, the task of its connection has not yet run its cleanup. -/
def DropsAlive (before : State) (action : Action) (_ : State) : Prop :=
  ∀ id body,
    action = .call id .dropBody
    → before.calls id = .responded body
    → before.Alive body.sender.conn

theorem NoDead.init : NoDead .init := by
  intro addr key sender stored
  simp [State.init] at stored

/-- A call's step leaves every task in its phase. -/
theorem Effect.alive (effect : Effect peerAddr state next) {conn : ConnId}
    (alive : state.Alive conn)
    : next.Alive conn := by
  obtain ⟨target, -, effect⟩ := effect
  obtain ⟨task, present, running⟩ := alive
  cases effect with
  | transfer source moved emptied tasks => exact ⟨task, by rw [tasks, present], running⟩
  | opened held received peer fresh tasks =>
      have known : conn ≠ held.conn := by
        rintro rfl
        rw [fresh] at present
        cases present
      exact ⟨task, by rw [tasks, Function.update_of_ne known, present], running⟩
  | failed held abort had emptied tasks =>
      by_cases same : conn = held.conn
      case pos =>
        subst same
        exact ⟨task.fail abort, by simp [tasks, present], running⟩
      case neg => exact ⟨task, by rw [tasks, Function.update_of_ne same, present], running⟩

/-- Only a dropped body puts a connection into the pool. -/
theorem stepCall_shrinks {id : CallId} {action : CallAction}
    (stepped : stepCall peerAddr state id action = some next) (other : action ≠ .dropBody)
    {addr key : SocketAddr} {sender : Sender}
    (stored : slot next.pool addr key = some sender)
    : slot state.pool addr key = some sender := by
  cases action with
  | dropBody => exact absurd rfl other
  | call addr =>
      obtain ⟨-, done⟩ := Option.ite_none_right_eq_some.mp stepped
      cases done
      exact stored
  | takeCached =>
      rcases takeCached_cases stepped with ⟨addr, conn, pool, taken, rfl⟩ | ⟨addr, rfl⟩
      · rw [(slot_cachedConn taken).2] at stored
        exact (Option.ite_none_left_eq_some.mp stored).2
      · exact stored
  | connected conn =>
      simp only [stepCall] at stepped
      split at stepped
      case h_1 addr connecting =>
        obtain ⟨-, done⟩ := Option.ite_none_right_eq_some.mp stepped
        cases done
        exact stored
      case h_2 => contradiction
  | _ =>
      simp only [stepCall] at stepped
      split at stepped <;> cases stepped <;> exact stored

/-- A task's step never leaves a connection in the pool that it makes a dead one: a cleanup
empties the connection's own slot, and an aborted connection is held by nobody.
-/
theorem NoDead.stepTask {conn : ConnId} {action : TaskAction} (sound : Sound peerAddr state)
    (clean : NoDead state) (stepped : stepTask state conn action = some next)
    : NoDead next := by
  obtain ⟨task, phase, pool, present, rfl, effect⟩ := stepTask_effect stepped
  intro addr key sender stored
  have before := effect.shrinks stored
  by_cases same : sender.conn = conn
  case neg =>
    obtain ⟨found, known, running⟩ := clean addr key sender before
    exact ⟨found, by simpa [same] using known, running⟩
  case pos =>
    refine ⟨{ task with phase }, by simp [same], ?_⟩
    obtain ⟨found, known, rfl, rfl, unfailed⟩ := sound.pooled before
    rw [same, present] at known
    obtain rfl := Option.some.inj known
    cases action with
    | connEnded =>
        obtain ⟨-, rfl, -⟩ := effect
        simp [TaskPhase.Over]
    | abort =>
        have failed := (sound.recorded conn task present).2 (Or.inr effect.1.2)
        rw [unfailed] at failed
        cases failed
    | removePeer =>
        obtain ⟨-, -, rfl⟩ := effect
        simp [slot_removePeer] at stored
    | removeKey =>
        obtain ⟨-, -, rfl⟩ := effect
        simp [slot_removeKey] at stored

/-- A step keeps the pool free of dead connections exactly if it drops no body of one.
Witness: what a dropped body puts into the pool is there afterwards, and nothing else is
new in it.
-/
theorem noDead_step_iff {action : Action} (sound : Sound peerAddr state)
    (clean : NoDead state) (stepped : step peerAddr state action = some next)
    : NoDead next ↔ DropsAlive state action next := by
  cases action with
  | task conn action =>
      refine iff_of_true (clean.stepTask sound stepped) ?_
      intro id body same
      cases same
  | call id action =>
      have alive {conn : ConnId} : state.Alive conn → next.Alive conn :=
        (stepCall_effect stepped).alive
      by_cases drops : action = .dropBody
      case neg =>
        refine iff_of_true ?_ ?_
        · intro addr key sender stored
          exact alive (clean addr key sender (stepCall_shrinks stepped drops stored))
        · intro other body same
          cases same
          exact absurd rfl drops
      case pos =>
        subst drops
        simp only [step, stepCall] at stepped
        split at stepped
        case h_2 => contradiction
        case h_1 body responded =>
          cases stepped
          constructor
          · intro clean_after other found same known
            cases same
            obtain rfl := Call.responded.inj (responded.symm.trans known)
            exact clean_after body.addr body.peerAddr body.sender (by simp [slot_drop])
          · intro drops addr key sender stored
            rw [slot_drop] at stored
            split at stored
            case isTrue =>
              obtain rfl := Option.some.inj stored
              exact drops id body rfl responded
            case isFalse => exact clean addr key sender stored

/-- In every run the pool never holds a connection whose task is over exactly if each body
is dropped before the task of its connection is over.
-/
theorem noDead_iff (peerAddr : SocketAddr → ConnId → SocketAddr) (actions : List Action)
    : (pooledFetch peerAddr).Always NoDead .init actions
      ↔ (pooledFetch peerAddr).EachStep DropsAlive .init actions :=
  Machine.always_iff_eachStep (Sound peerAddr)
    (fun _ _ _ sound clean stepped => noDead_step_iff sound clean stepped)
    (fun _ _ _ sound _ stepped _ => sound.step stepped)
    Sound.init NoDead.init

/-- The peer closes a connection after its response, and the body is dropped later. -/
def dropAfterClose : List Action :=
  [.call 0 (.call localUpstream), .call 0 .takeCached, .call 0 (.connected 0),
    .call 0 .respond, .task 0 .connEnded, .task 0 .removePeer, .call 0 .dropBody]

/-- The finished connection is in the pool then. Witness: its slot and the phase of its task
by evaluation; the one task it has is over.
-/
theorem dead_conn_returned
    : ∃ state,
        (pooledFetch fun addr _ => addr).run .init dropAfterClose = some state
        ∧ slot state.pool localUpstream localUpstream = some { conn := 0 }
        ∧ ¬ NoDead state := by
  have returned
      : ((pooledFetch fun addr _ => addr).run .init dropAfterClose).map (fun state =>
          (slot state.pool localUpstream localUpstream, (state.tasks 0).map (·.phase)))
        = some (some { conn := 0 }, some .finished) := by
    decide
  obtain ⟨state, ran, returned⟩ := Option.map_eq_some_iff.mp returned
  obtain ⟨stored, finished⟩ := Prod.mk.inj returned
  refine ⟨state, ran, stored, fun clean => ?_⟩
  obtain ⟨task, present, running⟩ := clean _ _ _ stored
  rw [present] at finished
  exact running (Or.inl (Option.some.inj finished))

end Gway.PooledFetch
