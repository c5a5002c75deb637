import Gway.Srv.System

/-! Who holds `conn_lock` and who waits for it. A connection holds a read guard exactly while
it is served, and only `srv` ever asks for the write guard.
-/

namespace Gway.Srv

/-- The readers of the lock are the connections being served, `srv` is its only writer and
waits for it while it drains, and a connection in the hands of an accept loop is one that
the loop itself has accepted and not yet spawned.
-/
structure ConnLockInvariant (state : State) : Prop where
  readers : ∀ conn, conn ∈ state.connLock.readers ↔ state.connPhase conn = some .serving
  distinct : state.connLock.readers.Nodup
  writer : state.connLock.writer ≠ none → state.main = .locked
  queue : state.main = .draining → state.connLock.queue ≠ []
  inHand
    : ∀ service conn,
        state.services service = .accepted conn
        → state.conns[conn]? = some { service, phase := .accepted }

theorem ConnLockInvariant.init : ConnLockInvariant State.init where
  readers := by simp [State.init, RwLock.unlocked, State.connPhase]
  distinct := List.nodup_nil
  writer := by simp [State.init]
  queue := by simp [State.init]
  inHand := by simp [State.init]

variable {state next : State}

/-- A connection in the hands of an accept loop is in the phase `accepted`. -/
theorem ConnLockInvariant.connPhase_inHand (inv : ConnLockInvariant state)
    {service : Service} {conn : ConnId} (holding : state.services service = .accepted conn)
    : state.connPhase conn = some .accepted := by
  simp [State.connPhase, inv.inHand service conn holding]

/-- Giving a service a phase without a connection takes no connection out of other hands. -/
private theorem ConnLockInvariant.inHand_update (inv : ConnLockInvariant state)
    {service : Service} {phase : ServicePhase} (idle : ∀ conn, phase ≠ .accepted conn)
    : ∀ other conn,
        Function.update state.services service phase other = .accepted conn
        → state.conns[conn]? = some { service := other, phase := .accepted } := by
  intro other conn holding
  by_cases same : other = service
  · subst same
    rw [Function.update_self] at holding
    exact absurd holding (idle conn)
  · rw [Function.update_of_ne same] at holding
    exact inv.inHand other conn holding

/-- Only the wait for the write guard, its grant and its release touch the lock. -/
theorem ConnLockInvariant.stepMain {action : MainAction} (inv : ConnLockInvariant state)
    (stepped : stepMain state action = some next)
    : ConnLockInvariant next := by
  -- before `srv` is locked nobody holds the write guard
  have free (unlocked : state.main ≠ .locked) {main : MainPhase}
      (held : state.connLock.writer ≠ none)
      : main = .locked :=
    absurd (inv.writer held) unlocked
  cases action with
  | spawnService =>
      obtain ⟨spawned, running, rfl⟩ := spawnService_eq_some.mp stepped
      refine ⟨inv.readers, inv.distinct, free (by simp [running]), ?_,
        inv.inHand_update (by simp)⟩
      intro draining
      cases spawned <;> cases draining
  | joinNext service =>
      obtain ⟨how, ended, joining, rfl⟩ := joinNext_eq_some.mp stepped
      exact ⟨inv.readers, inv.distinct, inv.writer, inv.queue, inv.inHand_update (by simp)⟩
  | joinEnd =>
      obtain ⟨⟨joining, -⟩, done⟩ := Option.ite_none_right_eq_some.mp stepped
      cases done
      exact ⟨inv.readers, inv.distinct, free (by simp [joining]),
        fun _ => by simp [RwLock.enqueue], inv.inHand⟩
  | lockConns =>
      obtain ⟨draining, granted⟩ := Option.ite_none_right_eq_some.mp stepped
      obtain ⟨lock, acquired, rfl⟩ := Option.map_eq_some_iff.mp granted
      obtain ⟨⟨-, none⟩, readers, -, -⟩ := RwLock.acquireWrite_eq_some.mp acquired
      have same : lock.readers = state.connLock.readers := readers.trans none.symm
      refine ⟨fun conn => ?_, ?_, fun _ => rfl, by simp, inv.inHand⟩
      · rw [same]
        exact inv.readers conn
      · rw [same]
        exact inv.distinct
  | unlockConns =>
      obtain ⟨locked, done⟩ := Option.ite_none_right_eq_some.mp stepped
      cases done
      exact ⟨inv.readers, inv.distinct, by simp [RwLock.releaseWrite], by simp, inv.inHand⟩
  | _ =>
      obtain ⟨before, done⟩ := Option.ite_none_right_eq_some.mp stepped
      cases done
      exact ⟨inv.readers, inv.distinct, free (by simp [before]), by simp, inv.inHand⟩

/-- The service that accepts gets a new connection in hand, and spawning hands it over. -/
theorem ConnLockInvariant.stepService {service : Service} {action : ServiceAction}
    (inv : ConnLockInvariant state)
    (stepped : stepService state service action = some next)
    : ConnLockInvariant next := by
  cases action with
  | accept =>
      obtain ⟨selecting, done⟩ := Option.ite_none_right_eq_some.mp stepped
      cases done
      refine ⟨fun conn => ?_, inv.distinct, inv.writer, inv.queue, ?_⟩
      · simp only [State.connPhase, connPhase_append, State.setService]
        rw [inv.readers conn, State.connPhase]
        split
        case isTrue new => simp [new]
        case isFalse => rfl
      · intro other conn holding
        by_cases same : other = service
        · subst same
          simp only [State.setService, Function.update_self] at holding
          cases holding
          simp
        · simp only [State.setService, Function.update_of_ne same] at holding
          have present := inv.inHand other conn holding
          obtain ⟨before, -⟩ := List.getElem?_eq_some_iff.mp present
          simpa [List.getElem?_append_left before] using present
  | spawnConn =>
      obtain ⟨conn, holding, rfl⟩ := spawnConn_eq_some.mp stepped
      have accepted := inv.connPhase_inHand holding
      refine ⟨fun other => ?_, inv.distinct, inv.writer, inv.queue, ?_⟩
      · rw [connPhase_setConn]
        split
        case isTrue same =>
          subst same
          have idle : other ∉ state.connLock.readers := by simp [inv.readers, accepted]
          simpa [State.setService, State.connPhase] using idle
        case isFalse => exact inv.readers other
      · intro other held keeps
        have different : other ≠ service := by
          rintro rfl
          simp [State.setService] at keeps
        have before : state.services other = .accepted held := by
          simpa [State.setService, different] using keeps
        have apart : conn ≠ held := by
          rintro rfl
          have own := inv.inHand other conn before
          rw [inv.inHand service conn holding] at own
          exact different (Conn.mk.inj (Option.some.inj own)).1.symm
        simpa [State.setConn, State.setService, apart] using inv.inHand other held before
  | pollShutdown =>
      rcases (pollShutdown_eq_some.mp stepped).2 with ⟨lock, -, rfl⟩ | ⟨-, rfl⟩
      · exact ⟨inv.readers, inv.distinct, inv.writer, inv.queue, inv.inHand_update (by simp)⟩
      · exact inv
  | _ =>
      obtain ⟨-, done⟩ := Option.ite_none_right_eq_some.mp stepped
      cases done
      exact ⟨inv.readers, inv.distinct, inv.writer, inv.queue, inv.inHand_update (by simp)⟩

/-- A connection whose task runs is in no accept loop's hands any more. -/
private theorem ConnLockInvariant.inHand_setConn (inv : ConnLockInvariant state)
    {conn : ConnId} {before after : ConnPhase} (running : state.connPhase conn = some before)
    (handed : before ≠ .accepted)
    : ∀ service other,
        state.services service = .accepted other
        → (state.setConn conn after).conns[other]?
          = some { service, phase := .accepted } := by
  intro service other holding
  have apart : conn ≠ other := by
    rintro rfl
    have accepted := inv.connPhase_inHand holding
    rw [running] at accepted
    exact handed (Option.some.inj accepted)
  simpa [State.setConn, apart] using inv.inHand service other holding

/-- A connection task adds its guard when it begins to serve and drops it at the end. -/
theorem ConnLockInvariant.stepConn {barging : Bool} {conn : ConnId} {action : ConnAction}
    (inv : ConnLockInvariant state) (stepped : stepConn barging state conn action = some next)
    : ConnLockInvariant next := by
  cases action with
  | start =>
      obtain ⟨spawned, done⟩ := Option.ite_none_right_eq_some.mp stepped
      cases done
      refine ⟨fun other => ?_, inv.distinct, inv.writer, inv.queue,
        inv.inHand_setConn spawned (by simp)⟩
      rw [connPhase_setConn]
      split
      case isTrue same =>
        subst same
        have idle : other ∉ state.connLock.readers := by simp [inv.readers, spawned]
        simp [idle]
      case isFalse => exact inv.readers other
  | lock =>
      obtain ⟨waiting, granted⟩ := Option.ite_none_right_eq_some.mp stepped
      obtain ⟨lock, acquired, rfl⟩ := Option.map_eq_some_iff.mp granted
      obtain ⟨free, readers, writer, queue⟩ := RwLock.acquireRead_eq_some.mp acquired
      have idle : conn ∉ state.connLock.readers := by simp [inv.readers, waiting]
      refine ⟨fun other => ?_, ?_, by simp [writer], ?_,
        inv.inHand_setConn waiting (by simp)⟩
      · have phase := connPhase_setConn state conn other .serving
        simp only [State.connPhase] at phase ⊢
        rw [phase, readers, List.mem_cons, inv.readers other, State.connPhase]
        split
        case isTrue same =>
          obtain ⟨found, present, -⟩ := Option.map_eq_some_iff.mp waiting
          simp [same, present]
        case isFalse different => simp [different]
      · rw [readers]
        exact List.nodup_cons.mpr ⟨idle, inv.distinct⟩
      · simpa only [queue, setConn_main] using inv.queue
  | finish =>
      obtain ⟨serving, done⟩ := Option.ite_none_right_eq_some.mp stepped
      cases done
      refine ⟨fun other => ?_, inv.distinct.erase conn, inv.writer, inv.queue,
        inv.inHand_setConn serving (by simp)⟩
      have phase := connPhase_setConn state conn other .finished
      simp only [State.connPhase] at phase ⊢
      rw [phase, RwLock.releaseRead, inv.distinct.mem_erase_iff, inv.readers other,
        State.connPhase]
      split
      case isTrue same => simp [same]
      case isFalse different => simp [different]
  | request =>
      obtain ⟨-, done⟩ := Option.ite_none_right_eq_some.mp stepped
      cases done
      exact ⟨inv.readers, inv.distinct, inv.writer, inv.queue, inv.inHand⟩

theorem ConnLockInvariant.step {barging : Bool} {action : Action}
    (inv : ConnLockInvariant state) (stepped : step barging state action = some next)
    : ConnLockInvariant next := by
  cases action with
  | main action => exact inv.stepMain stepped
  | stop action =>
      obtain ⟨_, _, _, rfl⟩ := stepStop_frame stepped
      exact ⟨inv.readers, inv.distinct, inv.writer, inv.queue, inv.inHand⟩
  | service service action => exact inv.stepService stepped
  | conn conn action => exact inv.stepConn stepped
  | request request action =>
      obtain ⟨_, rfl⟩ := stepRequest_frame stepped
      exact ⟨inv.readers, inv.distinct, inv.writer, inv.queue, inv.inHand⟩

end Gway.Srv
