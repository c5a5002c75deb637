import Gway.PooledFetch.Ownership
import Mathlib.Data.Set.Card

/-! How many connections there are for an upstream. Nothing limits the pool, but a call opens a
connection only when it finds none in the pool, so there are never more than there have been
calls at once.
-/

namespace Gway.PooledFetch

/-- The address that a call is for until it ends or its body is dropped. -/
def Call.addr : Call → Option SocketAddr
  | .absent | .finished => none
  | .started addr | .sendingCached addr _ | .connecting addr | .sendingNew addr _ => some addr
  | .responded body => some body.addr

/-- The address to which a call has a connection or is opening one. -/
def Call.engaged : Call → Option SocketAddr
  | .absent | .started _ | .finished => none
  | .sendingCached addr _ | .connecting addr | .sendingNew addr _ => some addr
  | .responded body => some body.addr

/-- The calls for an address that are in progress, those with a live body included. -/
def State.inProgress (state : State) (addr : SocketAddr) : Set CallId :=
  {id | (state.calls id).addr = some addr}

def State.engaged (state : State) (addr : SocketAddr) : Set CallId :=
  {id | (state.calls id).engaged = some addr}

/-- The keys under which the pool has a connection to the address. -/
def State.pooledKeys (state : State) (addr : SocketAddr) : Set SocketAddr :=
  {key | (slot state.pool addr key).isSome}

/-- The number of connections to the address that are in the pool, in use or being opened. -/
noncomputable def State.claimed (state : State) (addr : SocketAddr) : ℕ∞ :=
  (state.engaged addr).encard + (state.pooledKeys addr).encard

variable {peerAddr : SocketAddr → ConnId → SocketAddr} {state next final : State}
  {id : CallId} {call : Call} {addr : SocketAddr}

-----------------------------------------------------------------------------------------
-- What a step does to the sets
-----------------------------------------------------------------------------------------

theorem Call.addr_of_engaged (engaged : call.engaged = some addr) : call.addr = some addr := by
  cases call with
  | absent | started _ | finished => cases engaged
  | _ => exact engaged

/-- A call that has or opens a connection is in progress. -/
theorem engaged_subset_inProgress (state : State) (addr : SocketAddr)
    : state.engaged addr ⊆ state.inProgress addr :=
  fun _ engaged => Call.addr_of_engaged engaged

/-- Without a new engagement and a new entry of the pool no connection is added. -/
theorem claimed_le (engaged : next.engaged addr ⊆ state.engaged addr)
    (pooled : next.pooledKeys addr ⊆ state.pooledKeys addr)
    : next.claimed addr ≤ state.claimed addr :=
  add_le_add (Set.encard_le_encard engaged) (Set.encard_le_encard pooled)

/-- A call that is not engaged anew adds no engagement. -/
theorem engaged_setCall_subset {pool : Pool} {tasks : ConnId → Option Task}
    (kept : call.engaged = some addr → (state.calls id).engaged = some addr)
    : { state.setCall id call with pool, tasks }.engaged addr ⊆ state.engaged addr := by
  intro other engaged
  by_cases own : other = id
  case pos =>
    subst own
    exact kept (by simpa [State.engaged, State.setCall] using engaged)
  case neg => simpa [State.engaged, State.setCall, own] using engaged

/-- Then it adds no connection either, as long as the pool stays as it is. -/
theorem claimed_setCall_le {tasks : ConnId → Option Task}
    (kept : call.engaged = some addr → (state.calls id).engaged = some addr)
    : { state.setCall id call with tasks }.claimed addr ≤ state.claimed addr :=
  claimed_le (engaged_setCall_subset kept) subset_rfl

/-- A connection that a call takes out of the pool is counted for the call instead. -/
theorem claimed_taken {source : SocketAddr} {conn : Conn} {pool : Pool}
    (taken : cachedConn source state.pool = (some conn, pool))
    : { state.setCall id (.sendingCached source conn) with pool }.claimed addr
      ≤ state.claimed addr := by
  obtain ⟨stored, slots⟩ := slot_cachedConn taken
  by_cases own : addr = source
  case pos =>
    subst own
    have engaged
        : { state.setCall id (.sendingCached addr conn) with pool }.engaged addr
          ⊆ insert id (state.engaged addr) := by
      intro other engaged
      by_cases caller : other = id
      case pos => exact .inl caller
      case neg => exact .inr (by simpa [State.engaged, State.setCall, caller] using engaged)
    have pooled
        : state.pooledKeys addr
          = insert conn.peerAddr
              ({ state.setCall id (.sendingCached addr conn) with pool }.pooledKeys addr) := by
      ext key
      by_cases its : key = conn.peerAddr
      case pos => simp [State.pooledKeys, its, stored]
      case neg => simp [State.pooledKeys, slots, its]
    have gone
        : conn.peerAddr
          ∉ { state.setCall id (.sendingCached addr conn) with pool }.pooledKeys addr := by
      simp [State.pooledKeys, slots]
    rw [State.claimed, State.claimed, pooled, Set.encard_insert_of_notMem gone, add_comm _ 1,
      ← add_assoc]
    exact add_le_add_left
      ((Set.encard_le_encard engaged).trans (Set.encard_insert_le _ _)) _
  case neg =>
    refine claimed_le (engaged_setCall_subset ?_) ?_
    · intro engaged
      exact absurd (Option.some.inj engaged).symm own
    · intro key
      simp [State.pooledKeys, slots, own]

/-- A connection that a dropped body puts into the pool was counted for the body before, and
may take the place of another one.
-/
theorem claimed_dropped {body : Body} (alive : state.calls id = .responded body)
    : { state.setCall id .finished with pool := body.drop state.pool }.claimed addr
      ≤ state.claimed addr := by
  by_cases own : addr = body.addr
  case pos =>
    subst own
    have engaged
        : state.engaged body.addr
          = insert id
              ({ state.setCall id .finished with
                  pool := body.drop state.pool }.engaged body.addr) := by
      ext other
      by_cases caller : other = id
      case pos => simp [State.engaged, caller, alive, Call.engaged]
      case neg => simp [State.engaged, State.setCall, caller]
    have ended
        : id
          ∉ { state.setCall id .finished with
                pool := body.drop state.pool }.engaged body.addr := by
      simp [State.engaged, State.setCall, Call.engaged]
    have pooled
        : { state.setCall id .finished with
              pool := body.drop state.pool }.pooledKeys body.addr
          ⊆ insert body.peerAddr (state.pooledKeys body.addr) := by
      intro key stored
      by_cases its : key = body.peerAddr
      case pos => exact .inl its
      case neg => exact .inr (by simpa [State.pooledKeys, slot_drop, its] using stored)
    rw [State.claimed, State.claimed, engaged, Set.encard_insert_of_notMem ended, add_assoc,
      add_comm 1]
    exact add_le_add_right
      ((Set.encard_le_encard pooled).trans (Set.encard_insert_le _ _)) _
  case neg =>
    refine claimed_le (engaged_setCall_subset (by simp [Call.engaged])) ?_
    intro key
    simp [State.pooledKeys, slot_drop, own]

/-- Without a connection in the pool all connections are counted for calls in progress. -/
theorem claimed_le_inProgress (empty : ∀ key, slot state.pool addr key = none)
    : state.claimed addr ≤ (state.inProgress addr).encard := by
  have pooled : state.pooledKeys addr = ∅ := by
    ext key
    simp [State.pooledKeys, empty]
  rw [State.claimed, pooled, Set.encard_empty, add_zero]
  exact Set.encard_le_encard (engaged_subset_inProgress state addr)

-----------------------------------------------------------------------------------------
-- Runs
-----------------------------------------------------------------------------------------

/-- A call that looks for a connection takes one, or finds none and goes on to open one. -/
theorem claimed_takeCached (stepped : stepCall peerAddr state id .takeCached = some next)
    : next.claimed addr ≤ state.claimed addr
      ∨ next.claimed addr ≤ (next.inProgress addr).encard := by
  simp only [stepCall] at stepped
  split at stepped
  case h_2 => contradiction
  case h_1 source started =>
    split at stepped
    case h_1 conn pool taken =>
      cases stepped
      exact .inl (claimed_taken taken)
    case h_2 pool missed =>
      cases stepped
      obtain ⟨rfl, empty⟩ := slot_cachedConn_none missed
      by_cases own : addr = source
      case pos =>
        subst own
        exact .inr (claimed_le_inProgress empty)
      case neg =>
        refine .inl (claimed_setCall_le fun engaged => ?_)
        exact absurd (Option.some.inj engaged).symm own

/-- Any other step of a call adds no connection. Witness: a case for each action; the call goes
on with the connection it has, or ends.
-/
theorem claimed_stepCall {action : CallAction} (other : action ≠ .takeCached)
    (stepped : stepCall peerAddr state id action = some next)
    : next.claimed addr ≤ state.claimed addr := by
  cases action with
  | takeCached => exact absurd rfl other
  | call source =>
      obtain ⟨-, begun⟩ := Option.ite_none_right_eq_some.mp stepped
      cases begun
      exact claimed_setCall_le (by simp [Call.engaged])
  | connected conn =>
      simp only [stepCall] at stepped
      split at stepped
      case h_2 => contradiction
      case h_1 source connecting =>
        obtain ⟨-, opened⟩ := Option.ite_none_right_eq_some.mp stepped
        cases opened
        apply claimed_setCall_le
        intro engaged
        rwa [connecting]
  | connectFailed =>
      simp only [stepCall] at stepped
      split at stepped
      case h_2 => contradiction
      case h_1 =>
        cases stepped
        exact claimed_setCall_le (by simp [Call.engaged])
  | respond =>
      simp only [stepCall] at stepped
      split at stepped
      case h_3 => contradiction
      case h_1 source conn sending | h_2 source conn sending =>
        cases stepped
        apply claimed_setCall_le
        intro engaged
        rwa [sending]
  | fail err =>
      simp only [stepCall] at stepped
      split at stepped
      case h_3 => contradiction
      case h_1 source conn sending =>
        cases stepped
        apply claimed_setCall_le
        intro engaged
        split at engaged
        case isTrue => rwa [sending]
        case isFalse => cases engaged
      case h_2 =>
        cases stepped
        exact claimed_setCall_le (by simp [Call.engaged])
  | cancel =>
      simp only [stepCall] at stepped
      split at stepped
      case h_5 => contradiction
      all_goals
        cases stepped
        exact claimed_setCall_le (by simp [Call.engaged])
  | dropBody =>
      simp only [stepCall] at stepped
      split at stepped
      case h_2 => contradiction
      case h_1 body alive =>
        cases stepped
        exact claimed_dropped alive

/-- The task of a connection takes connections out of the pool at most. -/
theorem claimed_stepTask {conn : ConnId} {action : TaskAction}
    (stepped : stepTask state conn action = some next)
    : next.claimed addr ≤ state.claimed addr := by
  obtain ⟨task, phase, pool, -, rfl, effect⟩ := stepTask_effect stepped
  refine claimed_le subset_rfl fun key stored => ?_
  obtain ⟨sender, found⟩ := Option.isSome_iff_exists.mp stored
  exact Option.isSome_iff_exists.mpr ⟨sender, effect.shrinks found⟩

/-- One step brings the connections to an address at most to the calls for it. -/
theorem claimed_step {action : Action} (stepped : step peerAddr state action = some next)
    : next.claimed addr ≤ state.claimed addr
      ∨ next.claimed addr ≤ (next.inProgress addr).encard := by
  cases action with
  | task conn action => exact .inl (claimed_stepTask stepped)
  | call id action =>
      by_cases looks : action = .takeCached
      case pos =>
        subst looks
        exact @claimed_takeCached peerAddr _ _ _ _ stepped
      case neg => exact .inl (claimed_stepCall looks stepped)

theorem claimed_init : State.init.claimed addr = 0 := by
  have engaged : State.init.engaged addr = ∅ := by
    ext id
    simp [State.engaged, State.init, Call.engaged]
  have pooled : State.init.pooledKeys addr = ∅ := by
    ext key
    simp [State.pooledKeys, State.init]
  rw [State.claimed, engaged, pooled, Set.encard_empty, Set.encard_empty, add_zero]

/-- In every run and for every address, the connections in the pool, in use or being opened are
no more than the calls for the address that were in progress at some moment of the run.
-/
theorem claimed_le_peak {actions : List Action}
    (ran : (pooledFetch peerAddr).run .init actions = some final) (addr : SocketAddr)
    : ∃ before after middle,
        actions = before ++ after
        ∧ (pooledFetch peerAddr).run .init before = some middle
        ∧ final.claimed addr ≤ (middle.inProgress addr).encard := by
  have raises (before : State) (action : Action) (after : State)
      (stepped : (pooledFetch peerAddr).step before action = some after)
      : after.claimed addr ≤ before.claimed addr
        ∨ after.claimed addr ≤ (after.inProgress addr).encard :=
    claimed_step stepped
  rcases Machine.le_or_demanded raises ran with unraised | demanded
  · rw [claimed_init] at unraised
    exact ⟨[], actions, .init, rfl, rfl, unraised.trans zero_le⟩
  · exact demanded

/-- A second call takes the connection of the first, after which there is one call at a time. -/
theorem claimed_le_peak_reuse
    : ∃ final,
        (pooledFetch fun addr _ => addr).run .init reuse = some final
        ∧ ∃ before after middle,
            reuse = before ++ after
            ∧ (pooledFetch fun addr _ => addr).run .init before = some middle
            ∧ final.claimed localUpstream ≤ (middle.inProgress localUpstream).encard :=
  ⟨_, rfl, claimed_le_peak rfl localUpstream⟩

end Gway.PooledFetch
