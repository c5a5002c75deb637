import Gway.PooledFetch.Ownership

/-! What the cleanup of a connection's task removes from the pool. The task identifies its
connection by the peer address, which all connections to one upstream have in common.
-/

namespace Gway.PooledFetch

variable {peerAddr : SocketAddr → ConnId → SocketAddr} {state next : State}

/-- A task has the peer address of its connection's socket, and it is only aborted after a
send on the connection has failed.
-/
def State.Recorded (peerAddr : SocketAddr → ConnId → SocketAddr) (state : State) : Prop :=
  ∀ conn task,
    state.tasks conn = some task
    → task.peerAddr = peerAddr task.addr conn
      ∧ (task.phase = .aborted ∨ task.abortRequested = true → task.sendFailed = true)

theorem State.Recorded.init : State.init.Recorded peerAddr := by
  intro conn task present
  cases present

/-- A call's step spawns a task with the right address or marks one as failed. -/
theorem State.Recorded.effect (recorded : state.Recorded peerAddr)
    (effect : Effect peerAddr state next)
    : next.Recorded peerAddr := by
  obtain ⟨target, -, effect⟩ := effect
  cases effect with
  | transfer source moved emptied tasks =>
      unfold State.Recorded
      rwa [tasks]
  | opened held received peer fresh tasks =>
      intro conn task present
      rw [tasks, Function.update_apply] at present
      split at present
      case isTrue same =>
        obtain rfl := Option.some.inj present
        exact ⟨by rw [same]; exact peer, by simp [Task.spawned]⟩
      case isFalse => exact recorded conn task present
  | failed held abort had emptied tasks =>
      intro conn task present
      rw [tasks, Function.update_apply] at present
      split at present
      case isTrue same =>
        obtain ⟨old, known, rfl⟩ := Option.map_eq_some_iff.mp present
        subst same
        exact ⟨(recorded held.conn old known).1, fun _ => rfl⟩
      case isFalse => exact recorded conn task present

/-- A task's step keeps its address and its marks; only a requested abort takes effect. -/
theorem State.Recorded.stepTask {conn : ConnId} {action : TaskAction}
    (recorded : state.Recorded peerAddr) (stepped : stepTask state conn action = some next)
    : next.Recorded peerAddr := by
  obtain ⟨task, phase, pool, present, rfl, effect⟩ := stepTask_effect stepped
  obtain ⟨peer, marked⟩ := recorded conn task present
  intro other found known
  rw [setTask_tasks] at known
  split at known
  case isTrue same =>
    obtain rfl := Option.some.inj known
    subst same
    refine ⟨peer, fun why => marked ?_⟩
    cases action with
    | abort => exact Or.inr effect.1.2
    | removePeer =>
        refine why.imp_left fun aborted => ?_
        rcases effect with ⟨-, rfl | rfl, -⟩ <;> cases aborted
    | _ =>
        refine why.imp_left fun aborted => ?_
        obtain ⟨-, rfl, -⟩ := effect
        cases aborted
  case isFalse => exact recorded other found known

/-- Connections are owned and tasks recorded in every state that a run visits. -/
structure Sound (peerAddr : SocketAddr → ConnId → SocketAddr) (state : State) : Prop where
  owned : Owned state
  recorded : state.Recorded peerAddr

theorem Sound.init : Sound peerAddr .init :=
  ⟨Owned.init, State.Recorded.init⟩

theorem Sound.step {action : Action} (sound : Sound peerAddr state)
    (stepped : step peerAddr state action = some next)
    : Sound peerAddr next := by
  refine ⟨sound.owned.step stepped, ?_⟩
  cases action with
  | call id action => exact sound.recorded.effect (stepCall_effect stepped)
  | task conn action => exact sound.recorded.stepTask stepped

/-- A connection in the pool is stored under the addresses that its task knows. -/
theorem Sound.pooled (sound : Sound peerAddr state) {addr key : SocketAddr}
    {sender : Sender} (stored : slot state.pool addr key = some sender)
    : ∃ task,
        state.tasks sender.conn = some task
        ∧ task.addr = addr
        ∧ task.peerAddr = key
        ∧ task.sendFailed = false :=
  sound.owned.fits (.pooled addr key) ⟨addr, key, sender.conn⟩ (by simp [State.held, stored])

-----------------------------------------------------------------------------------------
-- Cleanups with one peer address for each upstream
-----------------------------------------------------------------------------------------

/-- The two operations of a cleanup that change the pool. -/
def TaskAction.CleansUp (action : TaskAction) : Prop :=
  action = .removePeer ∨ action = .removeKey

/-- If the step is one of connection `conn`'s cleanup, every other connection that was in
the pool is still in its place, where `cached_conn` finds it.
-/
def SparesOthers (before : State) (action : Action) (after : State) : Prop :=
  ∀ conn op,
    action = .task conn op
    → op.CleansUp
    → ∀ addr key sender,
        slot before.pool addr key = some sender
        → sender.conn ≠ conn
        → slot after.pool addr key = some sender

/-- If the step is one of connection `conn`'s cleanup, no other connection to the upstream
of `conn` is in the pool.
-/
def NoOtherPooled (before : State) (action : Action) (_ : State) : Prop :=
  ∀ conn op task,
    action = .task conn op
    → op.CleansUp
    → before.tasks conn = some task
    → ∀ key sender, slot before.pool task.addr key = some sender → sender.conn = conn

/-- With one peer address for each upstream, either operation of a cleanup empties all slots
of the upstream. Witness: the first one empties the only slot that can be in use.
-/
theorem slot_cleanup {remote : SocketAddr → SocketAddr}
    (sound : Sound (fun addr _ => remote addr) state) {conn : ConnId} {task : Task}
    {phase : TaskPhase} {pool : Pool} {op : TaskAction} (cleans : op.CleansUp)
    (present : state.tasks conn = some task)
    (effect : TaskEffect task state.pool phase pool op) (addr key : SocketAddr)
    : slot pool addr key = if addr = task.addr then none else slot state.pool addr key := by
  rcases cleans with rfl | rfl
  · obtain ⟨-, -, rfl⟩ := effect
    rw [slot_removePeer]
    by_cases here : addr = task.addr
    case neg => simp [here]
    case pos =>
      subst here
      by_cases same : key = task.peerAddr
      case pos => simp [same]
      case neg =>
        simp only [same, and_false, if_false, if_true]
        refine Option.eq_none_iff_forall_ne_some.mpr fun sender stored => same ?_
        obtain ⟨other, known, at_addr, at_key, -⟩ := sound.pooled stored
        calc
          key = other.peerAddr := at_key.symm
          _ = remote other.addr := (sound.recorded _ _ known).1
          _ = remote task.addr := congrArg remote at_addr
          _ = task.peerAddr := (sound.recorded _ _ present).1.symm
  · obtain ⟨-, -, rfl⟩ := effect
    exact slot_removeKey task.addr state.pool addr key

/-- A cleanup's step spares the others exactly if there are none at its upstream. -/
theorem sparesOthers_iff_noOtherPooled {remote : SocketAddr → SocketAddr} {action : Action}
    (sound : Sound (fun addr _ => remote addr) state)
    (stepped : step (fun addr _ => remote addr) state action = some next)
    : SparesOthers state action next ↔ NoOtherPooled state action next := by
  constructor
  · rintro spares conn op task rfl cleans present key sender stored
    obtain ⟨found, phase, pool, known, rfl, effect⟩ := stepTask_effect stepped
    obtain rfl := Option.some.inj (known.symm.trans present)
    by_contra different
    have kept := spares conn op rfl cleans found.addr key sender stored different
    rw [show slot _ found.addr key = none by
      simpa using slot_cleanup sound cleans present effect found.addr key] at kept
    cases kept
  · rintro alone conn op rfl cleans addr key sender stored different
    obtain ⟨task, phase, pool, present, rfl, effect⟩ := stepTask_effect stepped
    have elsewhere : addr ≠ task.addr := by
      rintro rfl
      exact different (alone conn op task rfl cleans present key sender stored)
    rw [show slot _ addr key = slot state.pool addr key by
      simpa [elsewhere] using slot_cleanup sound cleans present effect addr key]
    exact stored

/-- In every run, each cleanup removes no connection but its own from the pool exactly if
each runs at moments when no other connection to its upstream is in the pool. All sockets
connected to one upstream have the peer address `remote` gives.
-/
theorem cleanup_spares_iff (remote : SocketAddr → SocketAddr) (actions : List Action)
    : (pooledFetch fun addr _ => remote addr).EachStep SparesOthers .init actions
      ↔ (pooledFetch fun addr _ => remote addr).EachStep NoOtherPooled .init actions :=
  Machine.eachStep_congr
    (fun _ _ _ sound stepped => sparesOthers_iff_noOtherPooled sound stepped)
    (fun _ _ _ sound stepped => sound.step stepped)
    Sound.init

/-- Two calls open a connection each. The body on connection 1 is dropped, then the peer
closes connection 0, whose body is still being read.
-/
def closeInFlight : List Action :=
  [.call 0 (.call localUpstream), .call 1 (.call localUpstream),
    .call 0 .takeCached, .call 1 .takeCached,
    .call 0 (.connected 0), .call 1 (.connected 1),
    .call 0 .respond, .call 1 .respond,
    .call 1 .dropBody, .task 0 .connEnded]

/-- The cleanup of connection 0 then takes connection 1 out of the pool. Witness: the slot
of the upstream, before and after, by evaluation.
-/
theorem cleanup_evicts_other
    : ∃ before after,
        (pooledFetch fun addr _ => addr).run .init closeInFlight = some before
        ∧ (pooledFetch fun addr _ => addr).step before (.task 0 .removePeer) = some after
        ∧ slot before.pool localUpstream localUpstream = some { conn := 1 }
        ∧ slot after.pool localUpstream localUpstream = none
        ∧ ¬ SparesOthers before (.task 0 .removePeer) after := by
  have evicted
      : ((pooledFetch fun addr _ => addr).run .init closeInFlight).bind (fun before =>
          ((pooledFetch fun addr _ => addr).step before (.task 0 .removePeer)).map
            (fun after =>
              (slot before.pool localUpstream localUpstream,
                slot after.pool localUpstream localUpstream)))
        = some (some { conn := 1 }, none) := by
    decide
  obtain ⟨before, ran, evicted⟩ := Option.bind_eq_some_iff.mp evicted
  obtain ⟨after, stepped, evicted⟩ := Option.map_eq_some_iff.mp evicted
  obtain ⟨stored, gone⟩ := Prod.mk.inj evicted
  refine ⟨before, after, ran, stepped, stored, gone, fun spares => ?_⟩
  have kept := spares 0 .removePeer rfl (Or.inl rfl) _ _ _ stored (by decide)
  rw [gone] at kept
  cases kept

end Gway.PooledFetch
