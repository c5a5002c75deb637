import Gway.Library.Guards
import Gway.Library.Machine
import Gway.PooledFetch.Pool

/-! The code that touches the pool, one operation on a map at a time. The outer map locks the
shard of an address while a guard for that address is alive; the inner maps lock nothing.
-/

namespace Gway.PooledFetch.MapOps

open Guards (heldBy)

/-- Where the cleanup of a connection's task is: before `POOL.get_mut`, with the guard from it
and its key still to be removed, past that, past the test whether the map is empty, without
the guard and about to call `POOL.remove`, or at its end.
-/
inductive CleanupPhase where
  | started
  | found
  | removed
  | tested (empty : Bool)
  | removingKey
  | finished
deriving DecidableEq, Repr

/-- Where a dropped body is: before `POOL.entry`, with the guard from it, past `or_default`,
past the insertion, or at its end, without the guard.
-/
inductive DropPhase where
  | started
  | entered
  | defaulted
  | inserted
  | finished
deriving DecidableEq, Repr

/-- Where `cached_conn` is: before `POOL.get`, with the guard from it, past `pop_back`, or at
its end, without the guard.
-/
inductive TakePhase where
  | started
  | found
  | popped (conn : Option Conn)
  | finished (conn : Option Conn)
deriving DecidableEq, Repr

inductive Process where
  | cleanup (addr peerAddr : SocketAddr) (phase : CleanupPhase)
  | drop (body : Body) (phase : DropPhase)
  | take (addr : SocketAddr) (phase : TakePhase)
deriving DecidableEq, Repr

inductive Access where
  | shared
  | exclusive
deriving DecidableEq, Repr

/-- A guard of the outer map, for the shard of an address. -/
structure Guard where
  access : Access
  addr : SocketAddr
deriving DecidableEq, Repr

/-- Two guards conflict if they lock one shard, unless they share it. -/
def Guard.Conflicts {Shard : Type} (shard : SocketAddr → Shard) (held wanted : Guard)
    : Prop :=
  shard held.addr = shard wanted.addr
  ∧ (held.access = .exclusive ∨ wanted.access = .exclusive)

/-- The guard that a process holds. -/
def Process.guard : Process → Option Guard
  | .cleanup addr _ .found | .cleanup addr _ .removed | .cleanup addr _ (.tested _) =>
      some { access := .exclusive, addr }
  | .drop body .entered | .drop body .defaulted | .drop body .inserted =>
      some { access := .exclusive, addr := body.addr }
  | .take addr .found | .take addr (.popped _) => some { access := .shared, addr }
  | _ => none

/-- The address whose inner map a process has access to. -/
def Process.borrowed : Process → Option SocketAddr
  | .drop _ .entered => none
  | process => process.guard.map Guard.addr

/-- A process that has not done an operation yet. -/
def Process.Started : Process → Prop
  | .cleanup _ _ .started | .drop _ .started | .take _ .started => True
  | _ => False

structure State where
  pool : Pool
  processes : List Process

def State.init : State where
  pool := ∅
  processes := []

section Steps

variable {Shard : Type} (shard : SocketAddr → Shard)

instance [DecidableEq Shard] (held wanted : Guard)
    : Decidable (held.Conflicts shard wanted) :=
  inferInstanceAs (Decidable (_ ∧ _))

/-- The outer map grants a guard when no other one keeps it from doing so. -/
def State.Free (state : State) (wanted : Guard) : Prop :=
  Guards.Free Process.guard (Guard.Conflicts shard) state.processes wanted

instance [DecidableEq Shard] (state : State) (wanted : Guard)
    : Decidable (state.Free shard wanted) :=
  inferInstanceAs (Decidable (Guards.Free _ _ _ _))

/-- The next operation of a process, with what becomes of the process and of the pool. The
process has to wait while the guard that it needs is not free.
-/
def stepProcess [DecidableEq Shard] (state : State) : Process → Option (Process × Pool)
  | .cleanup addr peerAddr .started =>
      if state.Free shard { access := .exclusive, addr } then
        match state.pool.lookup addr with
        | some _ => some (.cleanup addr peerAddr .found, state.pool)
        | none => some (.cleanup addr peerAddr .finished, state.pool)
      else none
  | .cleanup addr peerAddr .found =>
      some (.cleanup addr peerAddr .removed, (removePeer addr peerAddr state.pool).2)
  | .cleanup addr peerAddr .removed =>
      let empty := ((state.pool.lookup addr).getD ∅).isEmpty
      some (.cleanup addr peerAddr (.tested empty), state.pool)
  | .cleanup addr peerAddr (.tested empty) =>
      some (.cleanup addr peerAddr (if empty then .removingKey else .finished), state.pool)
  | .cleanup addr peerAddr .removingKey =>
      if state.Free shard { access := .exclusive, addr } then
        some (.cleanup addr peerAddr .finished, removeKey addr state.pool)
      else none
  | .drop body .started =>
      if state.Free shard { access := .exclusive, addr := body.addr } then
        some (.drop body .entered, state.pool)
      else none
  | .drop body .entered =>
      some
        (.drop body .defaulted,
          state.pool.insert body.addr ((state.pool.lookup body.addr).getD ∅))
  | .drop body .defaulted => some (.drop body .inserted, body.drop state.pool)
  | .drop body .inserted => some (.drop body .finished, state.pool)
  | .take addr .started =>
      if state.Free shard { access := .shared, addr } then
        match state.pool.lookup addr with
        | some _ => some (.take addr .found, state.pool)
        | none => some (.take addr (.finished none), state.pool)
      else none
  | .take addr .found =>
      let (conn, pool) := cachedConn addr state.pool
      some (.take addr (.popped conn), pool)
  | .take addr (.popped conn) => some (.take addr (.finished conn), state.pool)
  | .cleanup _ _ .finished | .drop _ .finished | .take _ (.finished _) => none

/-- A process begins, or the one with this number does its next operation. -/
inductive Action where
  | cleanup (addr peerAddr : SocketAddr)
  | drop (body : Body)
  | take (addr : SocketAddr)
  | op (id : Nat)
deriving DecidableEq, Repr

def State.begin (state : State) (process : Process) : State :=
  { state with processes := state.processes ++ [process] }

/-- The state after an operation of a process, with what has become of the process. -/
def State.advance (state : State) (id : Nat) (process : Process) (pool : Pool) : State :=
  { pool, processes := state.processes.set id process }

def step [DecidableEq Shard] (state : State) : Action → Option State
  | .cleanup addr peerAddr => some (state.begin (.cleanup addr peerAddr .started))
  | .drop body => some (state.begin (.drop body .started))
  | .take addr => some (state.begin (.take addr .started))
  | .op id =>
      state.processes[id]?.bind fun process =>
        (stepProcess shard state process).map fun (process, pool) =>
          state.advance id process pool

/-- The pool under any number of cleanups, dropped bodies and calls of `cached_conn`. -/
def mapOps [DecidableEq Shard] : Machine State Action where
  init := .init
  step := step shard

-----------------------------------------------------------------------------------------
-- What an operation does
-----------------------------------------------------------------------------------------

/-- The operations, each with what it found and did. -/
inductive ProcessStep (state : State) : Process → Process → Pool → Prop where
  | cleanupFound {addr peerAddr : SocketAddr} {connMap : SkipMap SocketAddr Sender}
      (free : state.Free shard { access := .exclusive, addr })
      (found : state.pool.lookup addr = some connMap)
      : ProcessStep state (.cleanup addr peerAddr .started) (.cleanup addr peerAddr .found)
          state.pool
  | cleanupMissed {addr peerAddr : SocketAddr}
      : ProcessStep state (.cleanup addr peerAddr .started) (.cleanup addr peerAddr .finished)
          state.pool
  | removePeer {addr peerAddr : SocketAddr}
      : ProcessStep state (.cleanup addr peerAddr .found) (.cleanup addr peerAddr .removed)
          (removePeer addr peerAddr state.pool).2
  | isEmpty {addr peerAddr : SocketAddr} {empty : Bool}
      (result : ((state.pool.lookup addr).getD ∅).isEmpty = empty)
      : ProcessStep state (.cleanup addr peerAddr .removed)
          (.cleanup addr peerAddr (.tested empty)) state.pool
  | releaseEmpty {addr peerAddr : SocketAddr}
      : ProcessStep state (.cleanup addr peerAddr (.tested true))
          (.cleanup addr peerAddr .removingKey) state.pool
  | releaseOther {addr peerAddr : SocketAddr}
      : ProcessStep state (.cleanup addr peerAddr (.tested false))
          (.cleanup addr peerAddr .finished) state.pool
  | removeKey {addr peerAddr : SocketAddr}
      (free : state.Free shard { access := .exclusive, addr })
      : ProcessStep state (.cleanup addr peerAddr .removingKey)
          (.cleanup addr peerAddr .finished) (removeKey addr state.pool)
  | entry {body : Body} (free : state.Free shard { access := .exclusive, addr := body.addr })
      : ProcessStep state (.drop body .started) (.drop body .entered) state.pool
  | orDefault {body : Body}
      : ProcessStep state (.drop body .entered) (.drop body .defaulted)
          (state.pool.insert body.addr ((state.pool.lookup body.addr).getD ∅))
  | insert {body : Body}
      : ProcessStep state (.drop body .defaulted) (.drop body .inserted)
          (body.drop state.pool)
  | dropped {body : Body}
      : ProcessStep state (.drop body .inserted) (.drop body .finished) state.pool
  | takeFound {addr : SocketAddr} {senderMap : SkipMap SocketAddr Sender}
      (free : state.Free shard { access := .shared, addr })
      (found : state.pool.lookup addr = some senderMap)
      : ProcessStep state (.take addr .started) (.take addr .found) state.pool
  | takeMissed {addr : SocketAddr}
      : ProcessStep state (.take addr .started) (.take addr (.finished none)) state.pool
  | popBack {addr : SocketAddr} {conn : Option Conn} {pool : Pool}
      (popped : cachedConn addr state.pool = (conn, pool))
      : ProcessStep state (.take addr .found) (.take addr (.popped conn)) pool
  | taken {addr : SocketAddr} {conn : Option Conn}
      : ProcessStep state (.take addr (.popped conn)) (.take addr (.finished conn)) state.pool

variable {shard} {state next : State} {before after : Process} {pool : Pool}

theorem processStep_of_stepProcess [DecidableEq Shard]
    (stepped : stepProcess shard state before = some (after, pool))
    : ProcessStep shard state before after pool := by
  cases before with
  | cleanup addr peerAddr phase =>
      cases phase with
      | started =>
          obtain ⟨free, found⟩ := Option.ite_none_right_eq_some.mp stepped
          split at found
          case h_1 connMap present =>
            cases found
            exact .cleanupFound free present
          case h_2 =>
            cases found
            exact .cleanupMissed
      | found =>
          cases stepped
          exact .removePeer
      | removed =>
          cases stepped
          exact .isEmpty rfl
      | tested empty =>
          cases empty <;> cases stepped
          · exact .releaseOther
          · exact .releaseEmpty
      | removingKey =>
          obtain ⟨free, done⟩ := Option.ite_none_right_eq_some.mp stepped
          cases done
          exact .removeKey free
      | finished => cases stepped
  | drop body phase =>
      cases phase with
      | started =>
          obtain ⟨free, done⟩ := Option.ite_none_right_eq_some.mp stepped
          cases done
          exact .entry free
      | entered =>
          cases stepped
          exact .orDefault
      | defaulted =>
          cases stepped
          exact .insert
      | inserted =>
          cases stepped
          exact .dropped
      | finished => cases stepped
  | take addr phase =>
      cases phase with
      | started =>
          obtain ⟨free, found⟩ := Option.ite_none_right_eq_some.mp stepped
          split at found
          case h_1 senderMap present =>
            cases found
            exact .takeFound free present
          case h_2 =>
            cases found
            exact .takeMissed
      | found =>
          cases stepped
          exact .popBack rfl
      | popped conn =>
          cases stepped
          exact .taken
      | finished conn => cases stepped

theorem step_op_eq_some [DecidableEq Shard] {id : Nat}
    (stepped : step shard state (.op id) = some next)
    : ∃ before after pool,
        state.processes[id]? = some before
        ∧ ProcessStep shard state before after pool
        ∧ next = state.advance id after pool := by
  obtain ⟨before, present, stepped⟩ := Option.bind_eq_some_iff.mp stepped
  obtain ⟨⟨after, pool⟩, done, rfl⟩ := Option.map_eq_some_iff.mp stepped
  exact ⟨before, after, pool, present, processStep_of_stepProcess done, rfl⟩

/-- A step begins a process or is an operation of one. -/
theorem step_eq_some [DecidableEq Shard] {action : Action}
    (stepped : step shard state action = some next)
    : (∃ process, process.Started ∧ next = state.begin process)
      ∨ ∃ id before after pool,
          action = .op id
          ∧ state.processes[id]? = some before
          ∧ ProcessStep shard state before after pool
          ∧ next = state.advance id after pool := by
  cases action with
  | op id =>
      obtain ⟨before, after, pool, done⟩ := step_op_eq_some stepped
      exact Or.inr ⟨id, before, after, pool, rfl, done⟩
  | cleanup addr peerAddr =>
      exact Or.inl ⟨.cleanup addr peerAddr .started, trivial, (Option.some.inj stepped).symm⟩
  | drop body => exact Or.inl ⟨.drop body .started, trivial, (Option.some.inj stepped).symm⟩
  | take addr => exact Or.inl ⟨.take addr .started, trivial, (Option.some.inj stepped).symm⟩

-----------------------------------------------------------------------------------------
-- Guards
-----------------------------------------------------------------------------------------

theorem Process.Started.guard (started : before.Started) : before.guard = none := by
  cases before with
  | cleanup addr peerAddr phase => cases phase <;> first | rfl | contradiction
  | drop body phase => cases phase <;> first | rfl | contradiction
  | take addr phase => cases phase <;> first | rfl | contradiction

theorem Guard.Conflicts.symm {held wanted : Guard} (conflict : held.Conflicts shard wanted)
    : wanted.Conflicts shard held :=
  ⟨conflict.1.symm, conflict.2.symm⟩

/-- A guard is taken only when it is free, and dropped at the end. -/
theorem ProcessStep.change (stepped : ProcessStep shard state before after pool)
    : Guards.Change Process.guard (Guard.Conflicts shard) state.processes before after := by
  cases stepped with
  | cleanupFound free | entry free | takeFound free => exact .taken _ rfl free
  | removePeer | isEmpty | orDefault | insert | popBack => exact .kept rfl
  | cleanupMissed | releaseEmpty | releaseOther | removeKey | dropped | takeMissed
  | taken => exact .dropped rfl

/-- Guards of different processes never conflict. -/
def State.Exclusive (shard : SocketAddr → Shard) (state : State) : Prop :=
  Guards.Exclusive Process.guard (Guard.Conflicts shard) state.processes

/-- `or_default` puts in an empty map at most. -/
theorem slot_orDefault (pool : Pool) (own addr key : SocketAddr)
    : slot (pool.insert own ((pool.lookup own).getD ∅)) addr key = slot pool addr key := by
  rw [slot_insert]
  split
  case isTrue same =>
    subst same
    cases found : pool.lookup addr <;> simp [slot, found]
  case isFalse => rfl

/-- The slots of an address whose map somebody else has the exclusive guard for stay as they
are. Witness: an operation that would change them needs a guard for that shard as well.
-/
theorem ProcessStep.slot_guarded {id other : Nat} {addr : SocketAddr}
    (stepped : ProcessStep shard state before after pool)
    (exclusive : state.Exclusive shard) (present : state.processes[id]? = some before)
    (different : id ≠ other)
    (holds : heldBy Process.guard state.processes other = some { access := .exclusive, addr })
    (key : SocketAddr)
    : slot pool addr key = slot state.pool addr key := by
  -- neither a guard of the process itself nor one that is free is for the same address
  have held {access : Access} {own : SocketAddr}
      (guards : before.guard = some { access, addr := own })
      : addr ≠ own := by
    rintro rfl
    exact exclusive id other _ _ different (Guards.heldBy_eq present guards) holds
      ⟨rfl, Or.inr rfl⟩
  have free {access : Access} {own : SocketAddr}
      (free : state.Free shard { access, addr := own })
      : addr ≠ own := by
    rintro rfl
    obtain ⟨process, member, guards⟩ := Guards.mem_of_heldBy holds
    exact free process member _ guards ⟨rfl, Or.inl rfl⟩
  cases stepped with
  | @removePeer own peerAddr => simp [slot_removePeer, held rfl]
  | @removeKey own peerAddr unlocked => rw [slot_removeKey, if_neg (free unlocked)]
  | @orDefault body => exact slot_orDefault state.pool body.addr addr key
  | @insert body => simp [slot_drop, held rfl]
  | @popBack own conn pool popped =>
      cases conn with
      | none => rw [(slot_cachedConn_none popped).1]
      | some conn => simp [(slot_cachedConn popped).2, held rfl]
  | _ => rfl

-----------------------------------------------------------------------------------------
-- What holds while guards are alive
-----------------------------------------------------------------------------------------

/-- No connection is stored for the address. -/
def Vacant (pool : Pool) (addr : SocketAddr) : Prop :=
  ∀ key, slot pool addr key = none

theorem vacant_of_isEmpty {addr : SocketAddr}
    (empty : ((pool.lookup addr).getD ∅).isEmpty = true)
    : Vacant pool addr := by
  intro key
  unfold slot
  cases found : pool.lookup addr with
  | none => rfl
  | some connMap =>
      rw [found, Option.getD_some, Std.ExtTreeMap.isEmpty_iff] at empty
      simp [empty]

/-- Guards exclude each other, whoever has access to an inner map still finds it in the outer
one, and a map that was found empty stays so as long as its guard is held.
-/
structure Guarded (shard : SocketAddr → Shard) (state : State) : Prop where
  exclusive : state.Exclusive shard
  present
    : ∀ process ∈ state.processes,
        ∀ addr ∈ process.borrowed, (state.pool.lookup addr).isSome
  tested
    : ∀ addr peerAddr,
        .cleanup addr peerAddr (.tested true) ∈ state.processes → Vacant state.pool addr

theorem Guarded.init : Guarded shard .init := by
  refine ⟨Guards.Exclusive.nil, ?_, ?_⟩
  · intro process member
    cases member
  · intro addr peerAddr member
    cases member

theorem isSome_lookup_insert {addr : SocketAddr} (own : SocketAddr)
    (connMap : SkipMap SocketAddr Sender) (present : (pool.lookup addr).isSome)
    : ((pool.insert own connMap).lookup addr).isSome := by
  rw [Finmap.lookup_insert_eq]
  split
  case isTrue => rfl
  case isFalse => exact present

theorem guard_of_borrowed {addr : SocketAddr} (borrows : before.borrowed = some addr)
    : ∃ access, before.guard = some { access, addr } := by
  unfold Process.borrowed at borrows
  split at borrows
  case h_1 => contradiction
  case h_2 =>
    obtain ⟨⟨access, own⟩, guards, rfl⟩ := Option.map_eq_some_iff.mp borrows
    exact ⟨access, guards⟩

/-- No operation takes a map out of the outer one while some process has access to it. -/
theorem ProcessStep.lookup_borrowed {rival : Process} {addr : SocketAddr}
    (stepped : ProcessStep shard state before after pool) (member : rival ∈ state.processes)
    (borrows : rival.borrowed = some addr) (present : (state.pool.lookup addr).isSome)
    : (pool.lookup addr).isSome := by
  cases stepped with
  | @removePeer own peerAddr =>
      unfold PooledFetch.removePeer
      split
      case h_1 => exact present
      case h_2 => exact isSome_lookup_insert own _ present
  | @removeKey own peerAddr free =>
      obtain ⟨access, guards⟩ := guard_of_borrowed borrows
      have elsewhere : addr ≠ own := by
        rintro rfl
        exact free rival member _ guards ⟨rfl, Or.inr rfl⟩
      rwa [PooledFetch.removeKey, Finmap.lookup_erase_eq, if_neg elsewhere]
  | @orDefault body => exact isSome_lookup_insert body.addr _ present
  | @insert body => exact isSome_lookup_insert body.addr _ present
  | @popBack own conn pool popped =>
      unfold cachedConn at popped
      split at popped
      case h_1 =>
        cases popped
        exact present
      case h_2 =>
        split at popped
        case h_1 =>
          cases popped
          exact present
        case h_2 =>
          cases popped
          exact isSome_lookup_insert own _ present
  | _ => exact present

/-- A process gets access to an inner map only where there is one. -/
theorem ProcessStep.borrowed {addr : SocketAddr}
    (stepped : ProcessStep shard state before after pool) (borrows : after.borrowed = some addr)
    : before.borrowed = some addr ∨ (pool.lookup addr).isSome := by
  cases stepped with
  | cleanupFound free found | takeFound free found =>
      obtain rfl := Option.some.inj borrows
      exact Or.inr (by rw [found]; rfl)
  | @orDefault body =>
      obtain rfl := Option.some.inj borrows
      exact Or.inr (by rw [Finmap.lookup_insert]; rfl)
  | _ => first | exact Or.inl borrows | cases borrows

theorem ProcessStep.tested {addr peerAddr : SocketAddr}
    (stepped : ProcessStep shard state before (.cleanup addr peerAddr (.tested true)) pool)
    : Vacant pool addr := by
  cases stepped with
  | isEmpty result => exact vacant_of_isEmpty result

/-- A process that begins holds nothing. -/
theorem Guarded.begin (guarded : Guarded shard state) (started : before.Started)
    : Guarded shard (state.begin before) := by
  refine ⟨Guards.Exclusive.append guarded.exclusive started.guard, ?_, ?_⟩
  · intro process member addr borrows
    rcases List.mem_append.mp member with member | new
    · exact guarded.present process member addr borrows
    · obtain rfl := List.mem_singleton.mp new
      obtain ⟨access, guards⟩ := guard_of_borrowed borrows
      rw [started.guard] at guards
      cases guards
  · intro addr peerAddr member
    rcases List.mem_append.mp member with member | new
    · exact guarded.tested addr peerAddr member
    · obtain rfl := List.mem_singleton.mp new
      cases started

/-- What a process finds empty is empty, and nobody fills it as long as the guard is held. -/
theorem Guarded.advance {id : Nat} (guarded : Guarded shard state)
    (there : state.processes[id]? = some before)
    (stepped : ProcessStep shard state before after pool)
    : Guarded shard (state.advance id after pool) := by
  refine ⟨Guards.Exclusive.set (fun _ _ => Guard.Conflicts.symm) guarded.exclusive there
    stepped.change, ?_, ?_⟩
  · intro process member addr borrows
    have kept {rival : Process} (member : rival ∈ state.processes)
        (borrows : rival.borrowed = some addr)
        : (pool.lookup addr).isSome :=
      stepped.lookup_borrowed member borrows (guarded.present rival member addr borrows)
    rcases List.mem_or_eq_of_mem_set member with member | rfl
    · exact kept member borrows
    · rcases stepped.borrowed borrows with borrows | present
      · exact kept (List.mem_of_getElem? there) borrows
      · exact present
  · intro addr peerAddr member
    obtain ⟨other, found⟩ := List.getElem?_of_mem member
    rw [State.advance, List.getElem?_set] at found
    split at found
    case isTrue =>
      obtain rfl := Option.some.inj (Option.ite_none_right_eq_some.mp found).2
      exact stepped.tested
    case isFalse different =>
      have holds
          : heldBy Process.guard state.processes other = some { access := .exclusive, addr } :=
        Guards.heldBy_eq found rfl
      intro key
      exact (stepped.slot_guarded guarded.exclusive there different holds key).trans
        (guarded.tested addr peerAddr (List.mem_of_getElem? found) key)

theorem Guarded.step [DecidableEq Shard] {action : Action} (guarded : Guarded shard state)
    (stepped : step shard state action = some next)
    : Guarded shard next := by
  rcases step_eq_some stepped with
    ⟨process, started, rfl⟩ | ⟨id, before, after, pool, -, there, done, rfl⟩
  · exact guarded.begin started
  · exact guarded.advance there done

-----------------------------------------------------------------------------------------
-- Operations that nothing comes between
-----------------------------------------------------------------------------------------

theorem there_advance {id : Nat} (present : state.processes[id]? = some before)
    : (state.advance id after pool).processes[id]? = some after := by
  obtain ⟨inside, -⟩ := List.getElem?_eq_some_iff.mp present
  simp [State.advance, inside]

theorem advance_advance {id : Nat} (other : Process) (between : Pool)
    : (state.advance id other between).advance id after pool = state.advance id after pool := by
  simp [State.advance]

/-- An operation of a process comes before the rest of a run. -/
theorem run_op [DecidableEq Shard] {id : Nat} {rest : List Action}
    (present : state.processes[id]? = some before)
    (stepped : stepProcess shard state before = some (after, pool))
    : (mapOps shard).run state (.op id :: rest)
      = (mapOps shard).run (state.advance id after pool) rest := by
  simp [Machine.run, mapOps, step, present, stepped, State.advance]

/-- When nothing comes between the operations of a cleanup until it drops its guard, they do
what `removePeer` does, and the cleanup goes on to remove the key if that says so.
-/
theorem cleanup_run [DecidableEq Shard] {id : Nat} {addr peerAddr : SocketAddr}
    (present : state.processes[id]? = some (.cleanup addr peerAddr .started))
    (free : state.Free shard { access := .exclusive, addr })
    (found : (state.pool.lookup addr).isSome)
    : (mapOps shard).run state [.op id, .op id, .op id, .op id]
      = some
        (state.advance id
          (.cleanup addr peerAddr
            (if (removePeer addr peerAddr state.pool).1 then .removingKey else .finished))
          (removePeer addr peerAddr state.pool).2) := by
  obtain ⟨connMap, known⟩ := Option.isSome_iff_exists.mp found
  have cleaned
      : removePeer addr peerAddr state.pool
        = ((connMap.erase peerAddr).isEmpty, state.pool.insert addr (connMap.erase peerAddr)) := by
    simp only [removePeer, known]
  have locked
      : stepProcess shard state (.cleanup addr peerAddr .started)
        = some (.cleanup addr peerAddr .found, state.pool) := by
    simp only [stepProcess, free, known, if_true]
  rw [run_op present locked, run_op (there_advance present) rfl, advance_advance,
    run_op (there_advance present) rfl, advance_advance,
    run_op (there_advance present) rfl, advance_advance]
  simp [State.advance, cleaned, Machine.run]

/-- So does a dropped body what `Body.drop` does. -/
theorem drop_run [DecidableEq Shard] {id : Nat} {body : Body}
    (present : state.processes[id]? = some (.drop body .started))
    (free : state.Free shard { access := .exclusive, addr := body.addr })
    : (mapOps shard).run state [.op id, .op id, .op id, .op id]
      = some (state.advance id (.drop body .finished) (body.drop state.pool)) := by
  have locked
      : stepProcess shard state (.drop body .started)
        = some (.drop body .entered, state.pool) := by
    simp only [stepProcess, free, if_true]
  rw [run_op present locked, run_op (there_advance present) rfl, advance_advance,
    run_op (there_advance present) rfl, advance_advance,
    run_op (there_advance present) rfl, advance_advance]
  simp [State.advance, Body.drop, Machine.run, Finmap.insert_insert]

/-- And a call of `cached_conn` what `cachedConn` does. -/
theorem take_run [DecidableEq Shard] {id : Nat} {addr : SocketAddr}
    (present : state.processes[id]? = some (.take addr .started))
    (free : state.Free shard { access := .shared, addr })
    (found : (state.pool.lookup addr).isSome)
    : (mapOps shard).run state [.op id, .op id, .op id]
      = some
        (state.advance id (.take addr (.finished (cachedConn addr state.pool).1))
          (cachedConn addr state.pool).2) := by
  obtain ⟨senderMap, known⟩ := Option.isSome_iff_exists.mp found
  have locked
      : stepProcess shard state (.take addr .started)
        = some (.take addr .found, state.pool) := by
    simp only [stepProcess, free, known, if_true]
  rw [run_op present locked, run_op (there_advance present) rfl, advance_advance,
    run_op (there_advance present) rfl, advance_advance]
  rfl

end Steps

end Gway.PooledFetch.MapOps
