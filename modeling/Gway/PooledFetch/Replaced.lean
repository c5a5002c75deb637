import Gway.PooledFetch.Cleanup

/-! Connections that the pool loses. A dropped body puts its connection in the place of the one
that is in the pool, which from then on no call can get and no one closes.
-/

namespace Gway.PooledFetch

/-- The connection is in the pool, or a call or a live body has it. -/
def State.Owns (state : State) (conn : ConnId) : Prop :=
  ∃ place held, state.held place = some held ∧ held.conn = conn

/-- The connection works as far as anyone knows, but has no owner. -/
structure Abandoned (state : State) (conn : ConnId) : Prop where
  unowned : ¬ state.Owns conn
  opened : ∃ task, state.tasks conn = some task ∧ task.sendFailed = false

/-- Whatever follows, no call sends on the connection, and its task is not aborted. -/
def LostFrom (peerAddr : SocketAddr → ConnId → SocketAddr) (state : State) (conn : ConnId)
    : Prop :=
  ∀ actions final,
    (pooledFetch peerAddr).run state actions = some final
    → ¬ final.Owns conn
      ∧ ∃ task, final.tasks conn = some task ∧ task.phase ≠ .aborted

variable {peerAddr : SocketAddr → ConnId → SocketAddr} {remote : SocketAddr → SocketAddr}
  {state next : State} {id : CallId} {conn : ConnId} {body : Body}

/-- What a step of a call hands on was owned before, or is a new connection. -/
theorem Abandoned.effect (abandoned : Abandoned state conn)
    (effect : Effect peerAddr state next)
    : Abandoned next conn := by
  obtain ⟨unowned, task, present, unfailed⟩ := abandoned
  obtain ⟨target, keeps, effect⟩ := effect
  cases effect with
  | transfer source moved emptied tasks =>
      refine ⟨?_, task, by rw [tasks, present], unfailed⟩
      rintro ⟨place, held, got, its⟩
      by_cases here : place = target
      case pos =>
        subst here
        exact unowned ⟨source, held, moved held got, its⟩
      case neg => exact unowned ⟨place, held, keeps place here got, its⟩
  | opened held received peer fresh tasks =>
      have known : conn ≠ held.conn := by
        rintro rfl
        rw [fresh] at present
        cases present
      refine ⟨?_, task, by rw [tasks, Function.update_of_ne known, present], unfailed⟩
      rintro ⟨place, other, got, its⟩
      by_cases here : place = target
      case pos =>
        subst here
        obtain rfl := Option.some.inj (received.symm.trans got)
        exact known its.symm
      case neg => exact unowned ⟨place, other, keeps place here got, its⟩
  | failed held abort had emptied tasks =>
      have apart : conn ≠ held.conn := by
        rintro rfl
        exact unowned ⟨target, held, had, rfl⟩
      refine ⟨?_, task, by rw [tasks, Function.update_of_ne apart, present], unfailed⟩
      rintro ⟨place, other, got, its⟩
      by_cases here : place = target
      case pos =>
        subst here
        rw [emptied] at got
        cases got
      case neg => exact unowned ⟨place, other, keeps place here got, its⟩

/-- A connection without an owner stays without one. -/
theorem Abandoned.step {action : Action} (abandoned : Abandoned state conn)
    (stepped : step peerAddr state action = some next)
    : Abandoned next conn := by
  cases action with
  | call id action => exact abandoned.effect (stepCall_effect stepped)
  | task other action =>
      obtain ⟨unowned, task, present, unfailed⟩ := abandoned
      have keeps := stepTask_keeps stepped
      constructor
      case unowned =>
        rintro ⟨place, held, got, its⟩
        exact unowned ⟨place, held, keeps place got, its⟩
      case opened =>
        obtain ⟨found, phase, pool, known, rfl, -⟩ := stepTask_effect stepped
        by_cases same : conn = other
        case pos =>
          subst same
          obtain rfl := Option.some.inj (known.symm.trans present)
          exact ⟨{ found with phase }, by simp, unfailed⟩
        case neg => exact ⟨task, by simpa [same] using present, unfailed⟩

/-- So it is lost: it is only aborted after a send on it has failed. -/
theorem Abandoned.lostFrom (sound : Sound peerAddr state) (abandoned : Abandoned state conn)
    : LostFrom peerAddr state conn := by
  intro actions final ran
  have kept (before : State) (action : Action) (after : State)
      (both : Sound peerAddr before ∧ Abandoned before conn)
      (stepped : (pooledFetch peerAddr).step before action = some after)
      : Sound peerAddr after ∧ Abandoned after conn :=
    ⟨both.1.step stepped, both.2.step stepped⟩
  obtain ⟨recorded, unowned, task, present, unfailed⟩ :=
    Machine.run_invariant kept ⟨sound, abandoned⟩ ran
  refine ⟨unowned, task, present, fun aborted => ?_⟩
  have failed := (recorded.recorded conn task present).2 (.inl aborted)
  rw [unfailed] at failed
  cases failed

-----------------------------------------------------------------------------------------
-- The drop of a body
-----------------------------------------------------------------------------------------

theorem held_of_slot {addr key : SocketAddr} {sender : Sender}
    (stored : slot state.pool addr key = some sender)
    : state.held (.pooled addr key) = some ⟨addr, key, sender.conn⟩ := by
  simp [State.held, stored]

theorem held_of_responded (alive : state.calls id = .responded body)
    : state.held (.body id) = some ⟨body.addr, body.peerAddr, body.sender.conn⟩ := by
  simp [State.held, alive, Call.body]

theorem dropBody_eq_some (alive : state.calls id = .responded body)
    (dropped : (pooledFetch peerAddr).step state (.call id .dropBody) = some next)
    : next = { state.setCall id .finished with pool := body.drop state.pool } := by
  simp only [pooledFetch, step, stepCall, alive] at dropped
  exact (Option.some.inj dropped).symm

/-- What a place other than the slot of the body and the body itself holds, it still holds
after the drop.
-/
theorem held_dropBody {place : Place} (alive : state.calls id = .responded body)
    (slot_apart : place ≠ .pooled body.addr body.peerAddr) (body_apart : place ≠ .body id)
    : { state.setCall id .finished with pool := body.drop state.pool }.held place
      = state.held place := by
  cases place with
  | pooled addr key =>
      have elsewhere : ¬ (addr = body.addr ∧ key = body.peerAddr) := by
        rintro ⟨rfl, rfl⟩
        exact slot_apart rfl
      simp [State.held, slot_drop, elsewhere]
  | call other =>
      by_cases own : other = id
      case pos => simp [State.held, State.setCall, own, alive, Call.sending]
      case neg => simp [State.held, State.setCall, own]
  | body other =>
      have own : other ≠ id := by
        rintro rfl
        exact body_apart rfl
      simp [State.held, State.setCall, own]

/-- After the drop the slot of the body holds its connection. -/
theorem held_slot_dropBody
    : { state.setCall id .finished with pool := body.drop state.pool }.held
          (.pooled body.addr body.peerAddr)
      = some ⟨body.addr, body.peerAddr, body.sender.conn⟩ := by
  simp [State.held, slot_drop]

/-- The connection that was in the slot has no owner afterwards, since it had no other one. -/
theorem Owned.abandons_replaced {sender : Sender} (owned : Owned state)
    (alive : state.calls id = .responded body)
    (occupied : slot state.pool body.addr body.peerAddr = some sender)
    : Abandoned { state.setCall id .finished with pool := body.drop state.pool }
        sender.conn := by
  have stored := held_of_slot occupied
  constructor
  case opened =>
    obtain ⟨task, present, -, -, unfailed⟩ := owned.fits _ _ stored
    exact ⟨task, present, unfailed⟩
  case unowned =>
    rintro ⟨place, held, got, its⟩
    by_cases at_slot : place = .pooled body.addr body.peerAddr
    case pos =>
      subst at_slot
      rw [held_slot_dropBody] at got
      obtain rfl := Option.some.inj got
      cases owned.linear (held_of_responded alive) stored its
    case neg =>
      by_cases at_body : place = .body id
      case pos =>
        subst at_body
        simp [State.held, State.setCall, Call.body] at got
      case neg =>
        rw [held_dropBody alive at_slot at_body] at got
        exact at_slot (owned.linear got stored its)

/-- Only the connection in the slot of the body can lose its owner by the drop. -/
theorem replaced_of_unowned (alive : state.calls id = .responded body)
    (had : state.Owns conn)
    (unowned
      : ¬ { state.setCall id .finished with pool := body.drop state.pool }.Owns conn)
    : ∃ sender, slot state.pool body.addr body.peerAddr = some sender := by
  obtain ⟨place, held, got, rfl⟩ := had
  by_cases at_slot : place = .pooled body.addr body.peerAddr
  case pos =>
    subst at_slot
    obtain ⟨sender, stored, -⟩ := Option.map_eq_some_iff.mp got
    exact ⟨sender, stored⟩
  case neg =>
    refine absurd ?_ unowned
    by_cases at_body : place = .body id
    case pos =>
      subst at_body
      rw [held_of_responded alive] at got
      exact ⟨_, _, held_slot_dropBody, by rw [← Option.some.inj got]⟩
    case neg => exact ⟨place, held, (held_dropBody alive at_slot at_body).trans got, rfl⟩

/-- With one peer address for each upstream, all its connections in the pool are in the slot of
any of its bodies.
-/
theorem Sound.slot_of_body {key : SocketAddr} {sender : Sender}
    (sound : Sound (fun addr _ => remote addr) state)
    (alive : state.calls id = .responded body)
    (stored : slot state.pool body.addr key = some sender)
    : key = body.peerAddr := by
  obtain ⟨task, present, addressed, rfl, -⟩ := sound.pooled stored
  obtain ⟨other, known, same, peer, -⟩ := sound.owned.fits _ _ (held_of_responded alive)
  have its : other.addr = body.addr := same
  have peers : other.peerAddr = body.peerAddr := peer
  rw [← peers, (sound.recorded _ other known).1, (sound.recorded _ task present).1, its,
    addressed]

/-- Where all connections to an upstream have the same peer address, a body that is dropped
makes the pool lose a connection for good exactly if the pool has one for the same upstream:
one that had an owner before, that no call ever gets again and that is never aborted.
-/
theorem dropBody_loses_iff
    (reached : (pooledFetch fun addr _ => remote addr).Reachable state)
    (alive : state.calls id = .responded body)
    (dropped
      : (pooledFetch fun addr _ => remote addr).step state (.call id .dropBody) = some next)
    : (∃ conn, state.Owns conn ∧ LostFrom (fun addr _ => remote addr) next conn)
      ↔ ∃ key sender, slot state.pool body.addr key = some sender := by
  have sound : Sound (fun addr _ => remote addr) state :=
    reached.invariant Sound.init fun _ _ _ sound stepped => sound.step stepped
  have stepped : step (fun addr _ => remote addr) state (.call id .dropBody) = some next :=
    dropped
  have after : Sound (fun addr _ => remote addr) next := sound.step stepped
  obtain rfl := dropBody_eq_some alive dropped
  constructor
  · rintro ⟨conn, had, lost⟩
    obtain ⟨sender, stored⟩ := replaced_of_unowned alive had (lost [] _ rfl).1
    exact ⟨_, sender, stored⟩
  · rintro ⟨key, sender, stored⟩
    obtain rfl := sound.slot_of_body alive stored
    exact ⟨sender.conn, ⟨_, _, held_of_slot stored, rfl⟩,
      (sound.owned.abandons_replaced alive stored).lostFrom after⟩

/-- Two calls have opened a connection each, and the first body has been dropped. -/
def firstDropped : List Action :=
  [.call 0 (.call localUpstream), .call 1 (.call localUpstream), .call 0 .takeCached,
    .call 1 .takeCached, .call 0 (.connected 0), .call 1 (.connected 1), .call 0 .respond,
    .call 1 .respond, .call 0 .dropBody]

/-- The drop of the second body loses the first connection. -/
theorem dropBody_loses_firstDropped
    : ∃ state next,
        (pooledFetch fun addr _ => addr).run .init firstDropped = some state
        ∧ (pooledFetch fun addr _ => addr).step state (.call 1 .dropBody) = some next
        ∧ ∃ conn, state.Owns conn ∧ LostFrom (fun addr _ => addr) next conn := by
  have found
      : ((pooledFetch fun addr _ => addr).run .init firstDropped).map (fun state =>
          (slot state.pool localUpstream localUpstream, state.calls 1))
        = some
            (some { conn := 0 },
              .responded
                { sender := { conn := 1 }, addr := localUpstream, peerAddr := localUpstream }) := by
    decide
  obtain ⟨state, ran, found⟩ := Option.map_eq_some_iff.mp found
  obtain ⟨stored, alive⟩ := Prod.mk.inj found
  obtain ⟨next, dropped⟩
      : ∃ next, (pooledFetch fun addr _ => addr).step state (.call 1 .dropBody) = some next := by
    simp [pooledFetch, step, stepCall, alive]
  exact ⟨state, next, ran, dropped,
    (dropBody_loses_iff ⟨firstDropped, ran⟩ alive dropped).mpr ⟨_, _, stored⟩⟩

end Gway.PooledFetch
