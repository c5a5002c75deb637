import Gway.Library.Ownership
import Gway.PooledFetch.MapOps

/-! The pool as its callers may think of it: each piece of code that touches it takes effect at
one moment. Every connection that is handed out was put in by a drop of its own.
-/

namespace Gway.PooledFetch.Atomic

open MapOps (Action)

/-- Where the cleanup of a connection's task is: before it, between its two halves, or past. -/
inductive CleanupPhase where
  | waiting
  | removingKey
  | finished
deriving DecidableEq, Repr

/-- A piece of code, with what has come of it. -/
inductive Process where
  | cleanup (addr peerAddr : SocketAddr) (phase : CleanupPhase)
  | drop (body : Body) (done : Bool)
  | take (addr : SocketAddr) (result : Option (Option Conn))
deriving DecidableEq, Repr

structure State where
  pool : Pool
  processes : List Process

def State.init : State where
  pool := ∅
  processes := []

/-- A piece of code takes effect, with what becomes of it and of the pool. -/
def stepProcess (pool : Pool) : Process → Option (Process × Pool)
  | .cleanup addr peerAddr .waiting =>
      let (empty, pool) := removePeer addr peerAddr pool
      some (.cleanup addr peerAddr (if empty then .removingKey else .finished), pool)
  | .cleanup addr peerAddr .removingKey =>
      some (.cleanup addr peerAddr .finished, removeKey addr pool)
  | .drop body false => some (.drop body true, body.drop pool)
  | .take addr none =>
      let (conn, pool) := cachedConn addr pool
      some (.take addr (some conn), pool)
  | .cleanup _ _ .finished | .drop _ true | .take _ (some _) => none

def State.begin (state : State) (process : Process) : State :=
  { state with processes := state.processes ++ [process] }

def State.advance (state : State) (id : Nat) (process : Process) (pool : Pool) : State :=
  { pool, processes := state.processes.set id process }

def step (state : State) : Action → Option State
  | .cleanup addr peerAddr => some (state.begin (.cleanup addr peerAddr .waiting))
  | .drop body => some (state.begin (.drop body false))
  | .take addr => some (state.begin (.take addr none))
  | .op id =>
      state.processes[id]?.bind fun process =>
        (stepProcess state.pool process).map fun (process, pool) =>
          state.advance id process pool

/-- The pool under any number of cleanups, dropped bodies and calls of `cached_conn`, each half
of a cleanup and all other code being one operation.
-/
def atomicOps : Machine State Action where
  init := .init
  step := step

-----------------------------------------------------------------------------------------
-- What an operation does
-----------------------------------------------------------------------------------------

/-- The operations, each with what it did to the pool. -/
inductive ProcessStep (pool : Pool) : Process → Process → Pool → Prop where
  | removePeer {addr peerAddr : SocketAddr} {phase : CleanupPhase}
      : ProcessStep pool (.cleanup addr peerAddr .waiting) (.cleanup addr peerAddr phase)
          (removePeer addr peerAddr pool).2
  | removeKey {addr peerAddr : SocketAddr}
      : ProcessStep pool (.cleanup addr peerAddr .removingKey)
          (.cleanup addr peerAddr .finished) (removeKey addr pool)
  | drop {body : Body}
      : ProcessStep pool (.drop body false) (.drop body true) (body.drop pool)
  | take {addr : SocketAddr} {conn : Option Conn} {after : Pool}
      (taken : cachedConn addr pool = (conn, after))
      : ProcessStep pool (.take addr none) (.take addr (some conn)) after

variable {state next : State} {before after : Process} {pool : Pool}

theorem processStep_of_stepProcess
    (stepped : stepProcess state.pool before = some (after, pool))
    : ProcessStep state.pool before after pool := by
  cases before with
  | cleanup addr peerAddr phase =>
      cases phase with
      | waiting =>
          cases stepped
          exact .removePeer
      | removingKey =>
          cases stepped
          exact .removeKey
      | finished => cases stepped
  | drop body done =>
      cases done with
      | false =>
          cases stepped
          exact .drop
      | true => cases stepped
  | take addr result =>
      cases result with
      | none =>
          cases stepped
          exact .take rfl
      | some conn => cases stepped

/-- A process that has not taken effect. -/
def Process.Waiting : Process → Prop
  | .cleanup _ _ .waiting | .drop _ false | .take _ none => True
  | _ => False

/-- A step begins a process or is the operation of one. -/
theorem step_eq_some {action : Action} (stepped : step state action = some next)
    : (∃ process, process.Waiting ∧ next = state.begin process)
      ∨ ∃ id before after pool,
          state.processes[id]? = some before
          ∧ ProcessStep state.pool before after pool
          ∧ next = state.advance id after pool := by
  cases action with
  | op id =>
      obtain ⟨before, present, stepped⟩ := Option.bind_eq_some_iff.mp stepped
      obtain ⟨⟨after, pool⟩, done, rfl⟩ := Option.map_eq_some_iff.mp stepped
      exact Or.inr ⟨id, before, after, pool, present, processStep_of_stepProcess done, rfl⟩
  | cleanup addr peerAddr =>
      exact Or.inl ⟨.cleanup addr peerAddr .waiting, trivial, (Option.some.inj stepped).symm⟩
  | drop body => exact Or.inl ⟨.drop body false, trivial, (Option.some.inj stepped).symm⟩
  | take addr => exact Or.inl ⟨.take addr none, trivial, (Option.some.inj stepped).symm⟩

/-- A process that begins leaves the others as they are. -/
theorem begin_getElem? {process : Process} {id : Nat} (different : before ≠ process)
    : (state.begin before).processes[id]? = some process
      ↔ state.processes[id]? = some process := by
  unfold State.begin
  rcases Nat.lt_trichotomy id state.processes.length with inside | rfl | beyond
  · rw [List.getElem?_append_left inside]
  · simp [different]
  · rw [List.getElem?_eq_none (by simp; omega), List.getElem?_eq_none (by omega)]

/-- An operation leaves the other processes as they are. -/
theorem advance_getElem? {id other : Nat} {process : Process}
    (present : state.processes[id]? = some before)
    (found : state.processes[other]? = some process) (different : before ≠ process)
    : (state.advance id after pool).processes[other]? = some process := by
  have apart : id ≠ other := by
    rintro rfl
    exact different (Option.some.inj (present.symm.trans found))
  rw [State.advance, List.getElem?_set, if_neg apart, found]

/-- After an operation the process that took it is in its new phase. -/
theorem getElem?_advance {id other : Nat} {process : Process}
    (found : (state.advance id after pool).processes[other]? = some process)
    : id = other ∧ process = after ∨ id ≠ other ∧ state.processes[other]? = some process := by
  rw [State.advance, List.getElem?_set] at found
  split at found
  case isTrue same =>
    exact .inl ⟨same, (Option.some.inj (Option.ite_none_right_eq_some.mp found).2).symm⟩
  case isFalse apart => exact .inr ⟨apart, found⟩

-----------------------------------------------------------------------------------------
-- Where connections come from
-----------------------------------------------------------------------------------------

/-- Where a connection can be that was put into the pool. -/
inductive Place where
  | slot (addr key : SocketAddr)
  | taken (id : Nat)
deriving DecidableEq, Repr

/-- `origin` tells which drop each connection comes from that is stored or was handed out. No
two of them come from one drop.
-/
structure Originates (state : State) (origin : Place → Option Nat) : Prop where
  linear : Linear id origin
  dropped
    : ∀ place drop,
        origin place = some drop → ∃ body, state.processes[drop]? = some (.drop body true)
  stored
    : ∀ addr key sender,
        slot state.pool addr key = some sender
        → ∃ drop,
            origin (.slot addr key) = some drop
            ∧ state.processes[drop]? = some (.drop { sender, addr, peerAddr := key } true)
  taken
    : ∀ id addr conn,
        state.processes[id]? = some (.take addr (some (some conn)))
        → ∃ drop,
            origin (.taken id) = some drop
            ∧ state.processes[drop]? = some (.drop (Body.new addr conn) true)

theorem Originates.init : Originates .init fun _ => none := by
  constructor
  · intro left right one other held
    cases held
  · intro place drop comes
    cases comes
  · intro addr key sender stored
    simp [State.init] at stored
  · intro id addr conn present
    cases present

variable {origin : Place → Option Nat}

theorem Originates.begin (originates : Originates state origin) (waiting : before.Waiting)
    : Originates (state.begin before) origin := by
  have not_drop (body : Body) : before ≠ .drop body true := by
    rintro rfl
    exact waiting
  have not_taken (addr : SocketAddr) (conn : Option Conn) : before ≠ .take addr (some conn) := by
    rintro rfl
    exact waiting
  constructor
  · exact originates.linear
  · intro place drop comes
    obtain ⟨body, done⟩ := originates.dropped place drop comes
    exact ⟨body, (begin_getElem? (not_drop _)).mpr done⟩
  · intro addr key sender stored
    obtain ⟨drop, comes, done⟩ := originates.stored addr key sender stored
    exact ⟨drop, comes, (begin_getElem? (not_drop _)).mpr done⟩
  · intro id addr conn took
    rw [begin_getElem? (not_taken _ _)] at took
    obtain ⟨drop, comes, done⟩ := originates.taken id addr conn took
    exact ⟨drop, comes, (begin_getElem? (not_drop _)).mpr done⟩

/-- A process that only takes connections out of the pool, and has none afterwards. -/
theorem Originates.shrink {id : Nat} (originates : Originates state origin)
    (present : state.processes[id]? = some before)
    (not_drop : ∀ body, before ≠ .drop body true)
    (not_taken : ∀ addr conn, after ≠ .take addr (some (some conn)))
    (shrinks
      : ∀ addr key sender,
          slot pool addr key = some sender → slot state.pool addr key = some sender)
    : Originates (state.advance id after pool) origin := by
  constructor
  · exact originates.linear
  · intro place drop comes
    obtain ⟨body, done⟩ := originates.dropped place drop comes
    exact ⟨body, advance_getElem? present done (not_drop body)⟩
  · intro addr key sender stored
    obtain ⟨drop, comes, done⟩
      := originates.stored addr key sender (shrinks addr key sender stored)
    exact ⟨drop, comes, advance_getElem? present done (not_drop _)⟩
  · intro other addr conn took
    rcases getElem?_advance took with ⟨rfl, is_after⟩ | ⟨_, took⟩
    · exact absurd is_after.symm (not_taken addr conn)
    · obtain ⟨drop, comes, done⟩ := originates.taken other addr conn took
      exact ⟨drop, comes, advance_getElem? present done (not_drop _)⟩

/-- A connection that is put in comes from the drop that does so, and no other one does. -/
theorem Originates.drop {id : Nat} {body : Body} (originates : Originates state origin)
    (present : state.processes[id]? = some (.drop body false))
    : Originates (state.advance id (.drop body true) (body.drop state.pool))
        (Function.update origin (.slot body.addr body.peerAddr) (some id)) := by
  have own
      : (state.advance id (.drop body true) (body.drop state.pool)).processes[id]?
        = some (.drop body true) := by
    obtain ⟨inside, _⟩ := List.getElem?_eq_some_iff.mp present
    simp [State.advance, inside]
  have fresh (place : Place) : origin place ≠ some id := by
    intro comes
    obtain ⟨other, done⟩ := originates.dropped place id comes
    rw [present] at done
    cases done
  have kept {place : Place} {found : Nat} (apart : place ≠ .slot body.addr body.peerAddr)
      (comes : origin place = some found)
      : Function.update origin (.slot body.addr body.peerAddr) (some id) place = some found := by
    rw [Function.update_of_ne apart, comes]
  have keeps (place : Place) (apart : place ≠ .slot body.addr body.peerAddr)
      : Keeps origin (Function.update origin (.slot body.addr body.peerAddr) (some id)) place := by
    intro found comes
    rwa [Function.update_of_ne apart] at comes
  constructor
  · apply originates.linear.receive keeps
    intro place received held apart got comes
    rw [Function.update_self] at got
    rw [Function.update_of_ne apart] at comes
    cases got
    rintro rfl
    exact fresh place comes
  · intro place found comes
    by_cases same : place = .slot body.addr body.peerAddr
    · subst same
      rw [Function.update_self] at comes
      cases comes
      exact ⟨body, own⟩
    · rw [Function.update_of_ne same] at comes
      obtain ⟨other, done⟩ := originates.dropped place found comes
      exact ⟨other, advance_getElem? present done nofun⟩
  · intro addr key sender stored
    rw [State.advance, slot_drop] at stored
    by_cases same : addr = body.addr ∧ key = body.peerAddr
    · obtain ⟨rfl, rfl⟩ := same
      simp only [and_self, if_true, Option.some.injEq] at stored
      subst stored
      exact ⟨id, Function.update_self .., own⟩
    · rw [if_neg same] at stored
      obtain ⟨found, comes, done⟩ := originates.stored addr key sender stored
      have apart : Place.slot addr key ≠ .slot body.addr body.peerAddr := by
        intro equal
        cases equal
        exact same ⟨rfl, rfl⟩
      exact ⟨found, kept apart comes, advance_getElem? present done nofun⟩
  · intro take addr conn took
    rcases getElem?_advance took with ⟨_, is_after⟩ | ⟨_, took⟩
    · cases is_after
    · obtain ⟨found, comes, done⟩ := originates.taken take addr conn took
      exact ⟨found, kept nofun comes, advance_getElem? present done nofun⟩

/-- The origins after the connection of a slot has been handed out. -/
def moveOrigin (origin : Place → Option Nat) (addr key : SocketAddr) (id : Nat)
    : Place → Option Nat :=
  Function.update (Function.update origin (.slot addr key) none) (.taken id)
    (origin (.slot addr key))

theorem moveOrigin_slot {addr key : SocketAddr} {id : Nat} (other otherKey : SocketAddr)
    : moveOrigin origin addr key id (.slot other otherKey)
      = if other = addr ∧ otherKey = key then none else origin (.slot other otherKey) := by
  simp [moveOrigin, Function.update_apply]

theorem moveOrigin_taken {addr key : SocketAddr} {id : Nat} (other : Nat)
    : moveOrigin origin addr key id (.taken other)
      = if other = id then origin (.slot addr key) else origin (.taken other) := by
  simp [moveOrigin, Function.update_apply]

/-- A connection that is handed out leaves its place in the pool, and its origin goes along. -/
theorem Originates.take {id : Nat} {addr : SocketAddr} {conn : Conn}
    (originates : Originates state origin)
    (present : state.processes[id]? = some (.take addr none))
    (taken : cachedConn addr state.pool = (some conn, pool))
    : Originates (state.advance id (.take addr (some (some conn))) pool)
        (moveOrigin origin addr conn.peerAddr id) := by
  obtain ⟨was_stored, slots⟩ := slot_cachedConn taken
  have keeps (place : Place) (apart : place ≠ .taken id)
      : Keeps origin (moveOrigin origin addr conn.peerAddr id) place := by
    intro found comes
    cases place with
    | slot other key =>
        rw [moveOrigin_slot] at comes
        exact (Option.ite_none_left_eq_some.mp comes).2
    | taken other =>
        have different : other ≠ id := fun same => apart (same ▸ rfl)
        rwa [moveOrigin_taken, if_neg different] at comes
  constructor
  · apply originates.linear.transfer keeps
    · intro found comes
      rwa [moveOrigin_taken, if_pos rfl] at comes
    · simp [moveOrigin_slot]
  · intro place found comes
    have came : ∃ before, origin before = some found := by
      by_cases here : place = .taken id
      · subst here
        rw [moveOrigin_taken, if_pos rfl] at comes
        exact ⟨_, comes⟩
      · exact ⟨place, keeps place here comes⟩
    obtain ⟨before, comes⟩ := came
    obtain ⟨body, done⟩ := originates.dropped before found comes
    exact ⟨body, advance_getElem? present done nofun⟩
  · intro other key sender stored
    rw [State.advance, slots] at stored
    obtain ⟨elsewhere, stored⟩ := Option.ite_none_left_eq_some.mp stored
    obtain ⟨found, comes, done⟩ := originates.stored other key sender stored
    refine ⟨found, ?_, advance_getElem? present done nofun⟩
    rw [moveOrigin_slot, if_neg elsewhere, comes]
  · intro other otherAddr otherConn took
    rcases getElem?_advance took with ⟨rfl, is_after⟩ | ⟨different, took⟩
    · cases is_after
      obtain ⟨found, comes, done⟩ := originates.stored addr conn.peerAddr conn.sender was_stored
      refine ⟨found, ?_, advance_getElem? present done nofun⟩
      rw [moveOrigin_taken, if_pos rfl, comes]
    · obtain ⟨found, comes, done⟩ := originates.taken other otherAddr otherConn took
      refine ⟨found, ?_, advance_getElem? present done nofun⟩
      rw [moveOrigin_taken, if_neg (Ne.symm different), comes]

/-- Every step keeps track of the origins. -/
theorem Originates.step {action : Action} (originates : Originates state origin)
    (stepped : step state action = some next)
    : ∃ origin, Originates next origin := by
  rcases step_eq_some stepped with
    ⟨process, waiting, rfl⟩ | ⟨id, before, after, pool, present, done, rfl⟩
  · exact ⟨origin, originates.begin waiting⟩
  · cases done with
    | @removePeer addr peerAddr phase =>
        refine ⟨origin, originates.shrink present nofun nofun fun other key sender stored => ?_⟩
        rw [slot_removePeer] at stored
        exact (Option.ite_none_left_eq_some.mp stored).2
    | @removeKey addr peerAddr =>
        refine ⟨origin, originates.shrink present nofun nofun fun other key sender stored => ?_⟩
        rw [slot_removeKey] at stored
        exact (Option.ite_none_left_eq_some.mp stored).2
    | drop => exact ⟨_, originates.drop present⟩
    | @take addr conn pool taken =>
        cases conn with
        | some conn => exact ⟨_, originates.take present taken⟩
        | none =>
            refine ⟨origin, originates.shrink present nofun nofun fun other key sender stored => ?_⟩
            rwa [(slot_cachedConn_none taken).1] at stored

/-- In every reachable state the connections have origins, by induction on the actions. -/
theorem originates_of_reachable (reached : atomicOps.Reachable state)
    : ∃ origin, Originates state origin := by
  apply reached.invariant ⟨_, Originates.init⟩
  rintro before action after ⟨origin, originates⟩ stepped
  exact originates.step stepped

end Gway.PooledFetch.Atomic
