import Gway.Library.Simulation
import Gway.PooledFetch.Atomic

/-! The operations on the maps against the atomic pool. Each piece of code takes effect in one of
its operations, and the guards of the outer map keep the others from seeing what is between.
-/

namespace Gway.PooledFetch.MapOps

variable {Shard : Type} {shard : SocketAddr → Shard} {state next : State}
  {before after : Process} {pool : Pool} {atomic : Atomic.State} {atomicPool : Pool}

-----------------------------------------------------------------------------------------
-- When a piece of code takes effect
-----------------------------------------------------------------------------------------

/-- What a process has achieved so far. Between the removal of its key and the test, what a
cleanup will find is already certain.
-/
def Process.effect (pool : Pool) : Process → Atomic.Process
  | .cleanup addr peerAddr .started | .cleanup addr peerAddr .found =>
      .cleanup addr peerAddr .waiting
  | .cleanup addr peerAddr .removed =>
      let empty := ((pool.lookup addr).getD ∅).isEmpty
      .cleanup addr peerAddr (if empty then .removingKey else .finished)
  | .cleanup addr peerAddr (.tested empty) =>
      .cleanup addr peerAddr (if empty then .removingKey else .finished)
  | .cleanup addr peerAddr .removingKey => .cleanup addr peerAddr .removingKey
  | .cleanup addr peerAddr .finished => .cleanup addr peerAddr .finished
  | .drop body .started | .drop body .entered | .drop body .defaulted => .drop body false
  | .drop body .inserted | .drop body .finished => .drop body true
  | .take addr .started | .take addr .found => .take addr none
  | .take addr (.popped conn) | .take addr (.finished conn) => .take addr (some conn)

/-- The next operation of the process is the one in which it takes effect. -/
def Process.takesEffect (pool : Pool) : Process → Bool
  | .cleanup addr _ .started | .take addr .started => (pool.lookup addr).isNone
  | .cleanup _ _ .found | .cleanup _ _ .removingKey | .drop _ .defaulted | .take _ .found => true
  | _ => false

/-- What an action does to the atomic pool. -/
def effects (state : State) : Action → List Action
  | .op id =>
      match state.processes[id]? with
      | none => []
      | some process => if process.takesEffect state.pool then [.op id] else []
  | action => [action]

/-- A dropped body has put an empty map in for the address, or is about to fill the one there.
-/
def Defaulted (state : State) (addr : SocketAddr) : Prop :=
  ∃ (id : Nat) (body : Body),
    state.processes[id]? = some (.drop body .defaulted) ∧ body.addr = addr

/-- The maps are those of the atomic pool, but for an empty one from `or_default`. -/
structure PoolsAgree (state : State) (atomicPool : Pool) : Prop where
  plain
    : ∀ addr, ¬ Defaulted state addr → state.pool.lookup addr = atomicPool.lookup addr
  defaulted
    : ∀ addr,
        Defaulted state addr
        → state.pool.lookup addr = some ((atomicPool.lookup addr).getD ∅)

/-- Each process has achieved the same on the atomic pool. -/
structure Linearized (state : State) (atomic : Atomic.State) : Prop where
  processes : atomic.processes = state.processes.map (Process.effect state.pool)
  pools : PoolsAgree state atomic.pool

-----------------------------------------------------------------------------------------
-- Nobody else is at the address
-----------------------------------------------------------------------------------------

/-- The address whose map a process works on. -/
def Process.addr : Process → SocketAddr
  | .cleanup addr _ _ => addr
  | .drop body _ => body.addr
  | .take addr _ => addr

/-- No process but this one has the exclusive guard for the address. -/
def Alone (state : State) (id : Nat) (addr : SocketAddr) : Prop :=
  ∀ other rival,
    id ≠ other
    → state.processes[other]? = some rival
    → rival.guard ≠ some { access := .exclusive, addr }

theorem alone_of_held {id : Nat} {access : Access} {addr : SocketAddr}
    (exclusive : state.Exclusive shard) (present : state.processes[id]? = some before)
    (holds : before.guard = some { access, addr })
    : Alone state id addr := by
  intro other rival apart there rivals
  exact exclusive id other _ _ apart (Guards.heldBy_eq present holds)
    (Guards.heldBy_eq there rivals) ⟨rfl, Or.inr rfl⟩

theorem alone_of_free {id : Nat} {access : Access} {addr : SocketAddr}
    (free : state.Free shard { access, addr })
    : Alone state id addr := by
  intro other rival apart there rivals
  exact free rival (List.mem_of_getElem? there) _ rivals ⟨rfl, Or.inl rfl⟩

theorem Alone.not_defaulted {id : Nat} {addr : SocketAddr} (alone : Alone state id addr)
    (present : state.processes[id]? = some before)
    (other : ∀ body, before ≠ .drop body .defaulted)
    : ¬ Defaulted state addr := by
  rintro ⟨rival, body, there, rfl⟩
  by_cases same : id = rival
  · subst same
    exact other body (Option.some.inj (present.symm.trans there))
  · exact alone rival _ same there rfl

-----------------------------------------------------------------------------------------
-- What each operation does to the maps
-----------------------------------------------------------------------------------------

theorem removePeer_fst (addr peerAddr : SocketAddr) (pool : Pool)
    : (removePeer addr peerAddr pool).1
      = ((pool.lookup addr).map fun connMap => (connMap.erase peerAddr).isEmpty).getD false := by
  unfold removePeer
  cases pool.lookup addr <;> rfl

theorem lookup_removePeer (addr peerAddr : SocketAddr) (pool : Pool) (other : SocketAddr)
    : (removePeer addr peerAddr pool).2.lookup other
      = if other = addr then (pool.lookup addr).map (·.erase peerAddr)
        else pool.lookup other := by
  unfold removePeer
  cases found : pool.lookup addr with
  | none =>
      by_cases same : other = addr
      · subst same
        simp [found]
      · simp [same]
  | some connMap => exact Finmap.lookup_insert_eq pool addr other _

theorem cachedConn_fst (addr : SocketAddr) (pool : Pool)
    : (cachedConn addr pool).1
      = (pool.lookup addr).bind fun senderMap =>
          senderMap.popBack.map fun popped =>
            { peerAddr := popped.1.1, sender := popped.1.2 } := by
  unfold cachedConn
  cases pool.lookup addr with
  | none => rfl
  | some senderMap =>
      simp only [Option.bind_some]
      cases senderMap.popBack <;> rfl

theorem lookup_cachedConn (addr : SocketAddr) (pool : Pool) (other : SocketAddr)
    : (cachedConn addr pool).2.lookup other
      = if other = addr then
          (pool.lookup addr).map fun senderMap =>
            (senderMap.popBack.map Prod.snd).getD senderMap
        else pool.lookup other := by
  unfold cachedConn
  by_cases same : other = addr
  · subst same
    cases found : pool.lookup other with
    | none => simp [found]
    | some senderMap => cases popped : senderMap.popBack <;> simp [popped, found]
  · cases pool.lookup addr with
    | none => simp [same]
    | some senderMap =>
        cases popped : senderMap.popBack <;> simp [popped, same, Finmap.lookup_insert_of_ne]

theorem lookup_drop (body : Body) (pool : Pool) (other : SocketAddr)
    : (body.drop pool).lookup other
      = if other = body.addr then
          some (((pool.lookup body.addr).getD ∅).insert body.peerAddr body.sender)
        else pool.lookup other :=
  Finmap.lookup_insert_eq pool body.addr other _

/-- An operation changes no map but that of its own address. -/
theorem ProcessStep.lookup_other {addr : SocketAddr}
    (stepped : ProcessStep shard state before after pool) (other : addr ≠ before.addr)
    : pool.lookup addr = state.pool.lookup addr := by
  cases stepped with
  | @removePeer own peerAddr => exact (lookup_removePeer ..).trans (if_neg other)
  | @removeKey own peerAddr => exact Finmap.lookup_erase_ne other
  | @orDefault body => exact Finmap.lookup_insert_of_ne _ other
  | @insert body => exact (lookup_drop ..).trans (if_neg other)
  | @popBack own conn pool popped =>
      obtain rfl : (cachedConn own state.pool).2 = pool := congrArg Prod.snd popped
      exact (lookup_cachedConn ..).trans (if_neg other)
  | _ => rfl

-----------------------------------------------------------------------------------------
-- The pools after an operation
-----------------------------------------------------------------------------------------

/-- Whether an empty map was put in for an address depends on the processes that are there. -/
theorem defaulted_advance {id : Nat} {addr : SocketAddr}
    (present : state.processes[id]? = some before)
    (before_not : ∀ body, before = .drop body .defaulted → body.addr ≠ addr)
    (after_not : ∀ body, after = .drop body .defaulted → body.addr ≠ addr)
    : Defaulted (state.advance id after pool) addr ↔ Defaulted state addr := by
  constructor
  · rintro ⟨other, body, there, rfl⟩
    rw [State.advance, List.getElem?_set] at there
    split at there
    case isTrue =>
      have is_after := (Option.ite_none_right_eq_some.mp there).2
      exact absurd rfl (after_not body (Option.some.inj is_after))
    case isFalse => exact ⟨other, body, there, rfl⟩
  · rintro ⟨other, body, there, rfl⟩
    refine ⟨other, body, ?_, rfl⟩
    have apart : id ≠ other := by
      rintro rfl
      exact before_not body (Option.some.inj (present.symm.trans there)) rfl
    rw [State.advance, List.getElem?_set, if_neg apart, there]

theorem Alone.not_defaulted_advance {id : Nat} {addr : SocketAddr}
    (alone : Alone state id addr) (after_not : ∀ body, after ≠ .drop body .defaulted)
    : ¬ Defaulted (state.advance id after pool) addr := by
  rintro ⟨other, body, there, rfl⟩
  rw [State.advance, List.getElem?_set] at there
  split at there
  case isTrue =>
    have is_after := (Option.ite_none_right_eq_some.mp there).2
    exact after_not body (Option.some.inj is_after)
  case isFalse apart => exact alone other _ apart there rfl

/-- An operation that leaves the maps alone. -/
theorem PoolsAgree.silent {id : Nat} (agree : PoolsAgree state atomicPool)
    (present : state.processes[id]? = some before)
    (before_not : ∀ body, before ≠ .drop body .defaulted)
    (after_not : ∀ body, after ≠ .drop body .defaulted)
    : PoolsAgree (state.advance id after state.pool) atomicPool := by
  have same (addr : SocketAddr)
      : Defaulted (state.advance id after state.pool) addr ↔ Defaulted state addr :=
    defaulted_advance present (fun body is => absurd is (before_not body))
      (fun body is => absurd is (after_not body))
  constructor
  · intro addr plain
    exact agree.plain addr ((same addr).not.mp plain)
  · intro addr defaulted
    exact agree.defaulted addr ((same addr).mp defaulted)

/-- An operation that does the same to the map of its address in both pools, while nobody else
is at the address.
-/
theorem PoolsAgree.effect {id : Nat} {pool' : Pool} (agree : PoolsAgree state atomicPool)
    (present : state.processes[id]? = some before) (alone : Alone state id before.addr)
    (after_not : ∀ body, after ≠ .drop body .defaulted)
    (frame : ∀ addr, addr ≠ before.addr → pool.lookup addr = state.pool.lookup addr)
    (frame' : ∀ addr, addr ≠ before.addr → pool'.lookup addr = atomicPool.lookup addr)
    (here : pool.lookup before.addr = pool'.lookup before.addr)
    : PoolsAgree (state.advance id after pool) pool' := by
  have same {addr : SocketAddr} (elsewhere : addr ≠ before.addr)
      : Defaulted (state.advance id after pool) addr ↔ Defaulted state addr := by
    refine defaulted_advance present ?_ (fun body is => absurd is (after_not body))
    rintro body rfl
    exact elsewhere.symm
  constructor
  · intro addr plain
    by_cases own : addr = before.addr
    · rw [own]
      exact here
    · rw [frame' addr own, ← agree.plain addr ((same own).not.mp plain)]
      exact frame addr own
  · intro addr defaulted
    by_cases own : addr = before.addr
    · rw [own] at defaulted
      exact absurd defaulted (alone.not_defaulted_advance after_not)
    · rw [frame' addr own, ← agree.defaulted addr ((same own).mp defaulted)]
      exact frame addr own

/-- `or_default` puts an empty map in where the atomic pool has none yet. -/
theorem PoolsAgree.orDefault {id : Nat} {body : Body} (agree : PoolsAgree state atomicPool)
    (present : state.processes[id]? = some (.drop body .entered))
    (alone : Alone state id body.addr)
    : PoolsAgree
        (state.advance id (.drop body .defaulted)
          (state.pool.insert body.addr ((state.pool.lookup body.addr).getD ∅)))
        atomicPool := by
  have same {addr : SocketAddr} (elsewhere : addr ≠ body.addr)
      : Defaulted
            (state.advance id (.drop body .defaulted)
              (state.pool.insert body.addr ((state.pool.lookup body.addr).getD ∅))) addr
          ↔ Defaulted state addr := by
    refine defaulted_advance present (by simp) ?_
    rintro other is
    cases is
    exact elsewhere.symm
  obtain ⟨inside, _⟩ := List.getElem?_eq_some_iff.mp present
  constructor
  · intro addr plain
    have own : addr ≠ body.addr := by
      rintro rfl
      exact plain ⟨id, body, by simp [State.advance, inside], rfl⟩
    rw [State.advance, Finmap.lookup_insert_of_ne _ own]
    exact agree.plain addr ((same own).not.mp plain)
  · intro addr defaulted
    by_cases own : addr = body.addr
    · subst own
      have before := agree.plain body.addr (alone.not_defaulted present (by simp))
      rw [State.advance, Finmap.lookup_insert, before]
    · rw [State.advance, Finmap.lookup_insert_of_ne _ own]
      exact agree.defaulted addr ((same own).mp defaulted)

-----------------------------------------------------------------------------------------
-- Each operation is matched
-----------------------------------------------------------------------------------------

/-- An operation of a process against the atomic pool: either nothing happens there, or the
process takes effect.
-/
inductive Matched (state : State) (id : Nat) (before after : Process) (pool atomicPool : Pool)
    : Prop where
  | silent (waits : before.takesEffect state.pool = false)
      (same : after.effect pool = before.effect state.pool)
      (agree : PoolsAgree (state.advance id after pool) atomicPool)
  | effect (takes : before.takesEffect state.pool = true) (pool' : Pool)
      (stepped
        : Atomic.stepProcess atomicPool (before.effect state.pool)
          = some (after.effect pool, pool'))
      (agree : PoolsAgree (state.advance id after pool) pool')

/-- Where nobody else is at the address, both pools have the same map for it, unless the
process has put in an empty one itself.
-/
theorem PoolsAgree.lookup_eq {id : Nat} (agree : PoolsAgree state atomicPool)
    (present : state.processes[id]? = some before) (alone : Alone state id before.addr)
    (before_not : ∀ body, before ≠ .drop body .defaulted)
    : state.pool.lookup before.addr = atomicPool.lookup before.addr :=
  agree.plain before.addr (alone.not_defaulted present before_not)

theorem matched_cleanupMissed {id : Nat} {addr peerAddr : SocketAddr}
    (agree : PoolsAgree state atomicPool)
    (present : state.processes[id]? = some (.cleanup addr peerAddr .started))
    (free : state.Free shard { access := .exclusive, addr })
    (missed : state.pool.lookup addr = none)
    : Matched state id (.cleanup addr peerAddr .started) (.cleanup addr peerAddr .finished)
        state.pool atomicPool := by
  have same : state.pool.lookup addr = atomicPool.lookup addr :=
    agree.lookup_eq present (alone_of_free free) nofun
  refine .effect (by simp [Process.takesEffect, missed]) atomicPool ?_
    (agree.silent present nofun nofun)
  rw [missed] at same
  simp [Atomic.stepProcess, Process.effect, removePeer, ← same]

theorem matched_takeMissed {id : Nat} {addr : SocketAddr}
    (agree : PoolsAgree state atomicPool)
    (present : state.processes[id]? = some (.take addr .started))
    (free : state.Free shard { access := .shared, addr })
    (missed : state.pool.lookup addr = none)
    : Matched state id (.take addr .started) (.take addr (.finished none)) state.pool
        atomicPool := by
  have same : state.pool.lookup addr = atomicPool.lookup addr :=
    agree.lookup_eq present (alone_of_free free) nofun
  refine .effect (by simp [Process.takesEffect, missed]) atomicPool ?_
    (agree.silent present nofun nofun)
  rw [missed] at same
  simp [Atomic.stepProcess, Process.effect, cachedConn, ← same]

theorem matched_removePeer {id : Nat} {addr peerAddr : SocketAddr}
    (agree : PoolsAgree state atomicPool) (exclusive : state.Exclusive shard)
    (present : state.processes[id]? = some (.cleanup addr peerAddr .found))
    (found : (state.pool.lookup addr).isSome)
    : Matched state id (.cleanup addr peerAddr .found) (.cleanup addr peerAddr .removed)
        (removePeer addr peerAddr state.pool).2 atomicPool := by
  have alone : Alone state id addr := alone_of_held exclusive present rfl
  have same : state.pool.lookup addr = atomicPool.lookup addr :=
    agree.lookup_eq present alone nofun
  obtain ⟨connMap, known⟩ := Option.isSome_iff_exists.mp found
  refine .effect rfl (removePeer addr peerAddr atomicPool).2 ?_ ?_
  · simp [Atomic.stepProcess, Process.effect, removePeer_fst, lookup_removePeer, ← same, known]
  · refine agree.effect present alone nofun ?_ ?_ ?_
    · intro other elsewhere
      exact (lookup_removePeer ..).trans (if_neg elsewhere)
    · intro other elsewhere
      exact (lookup_removePeer ..).trans (if_neg elsewhere)
    · simp only [Process.addr, lookup_removePeer, same]

theorem matched_removeKey {id : Nat} {addr peerAddr : SocketAddr}
    (agree : PoolsAgree state atomicPool)
    (present : state.processes[id]? = some (.cleanup addr peerAddr .removingKey))
    (free : state.Free shard { access := .exclusive, addr })
    : Matched state id (.cleanup addr peerAddr .removingKey)
        (.cleanup addr peerAddr .finished) (removeKey addr state.pool) atomicPool := by
  refine .effect rfl (removeKey addr atomicPool) rfl
    (agree.effect present (alone_of_free free) nofun ?_ ?_ ?_)
  · intro other elsewhere
    exact Finmap.lookup_erase_ne elsewhere
  · intro other elsewhere
    exact Finmap.lookup_erase_ne elsewhere
  · simp only [Process.addr, removeKey, Finmap.lookup_erase]

theorem matched_insert {id : Nat} {body : Body} (agree : PoolsAgree state atomicPool)
    (exclusive : state.Exclusive shard)
    (present : state.processes[id]? = some (.drop body .defaulted))
    : Matched state id (.drop body .defaulted) (.drop body .inserted) (body.drop state.pool)
        atomicPool := by
  refine .effect rfl (body.drop atomicPool) rfl
    (agree.effect present (alone_of_held exclusive present rfl) nofun ?_ ?_ ?_)
  · intro other elsewhere
    exact (lookup_drop ..).trans (if_neg elsewhere)
  · intro other elsewhere
    exact (lookup_drop ..).trans (if_neg elsewhere)
  · have known := agree.defaulted body.addr ⟨id, body, present, rfl⟩
    simp only [Process.addr, lookup_drop, known, Option.getD_some, if_true]

theorem matched_popBack {id : Nat} {addr : SocketAddr} (agree : PoolsAgree state atomicPool)
    (exclusive : state.Exclusive shard)
    (present : state.processes[id]? = some (.take addr .found))
    : Matched state id (.take addr .found) (.take addr (.popped (cachedConn addr state.pool).1))
        (cachedConn addr state.pool).2 atomicPool := by
  have alone : Alone state id addr := alone_of_held exclusive present rfl
  have same : state.pool.lookup addr = atomicPool.lookup addr :=
    agree.lookup_eq present alone nofun
  refine .effect rfl (cachedConn addr atomicPool).2 ?_ (agree.effect present alone nofun ?_ ?_ ?_)
  · simp only [Atomic.stepProcess, Process.effect, cachedConn_fst, same]
  · intro other elsewhere
    exact (lookup_cachedConn ..).trans (if_neg elsewhere)
  · intro other elsewhere
    exact (lookup_cachedConn ..).trans (if_neg elsewhere)
  · simp only [Process.addr, lookup_cachedConn, same]

/-- Every operation is matched. Witness: cases on what the operation found. -/
theorem matched_of_step [DecidableEq Shard] {id : Nat} (guarded : Guarded shard state)
    (agree : PoolsAgree state atomicPool) (present : state.processes[id]? = some before)
    (stepped : stepProcess shard state before = some (after, pool))
    : Matched state id before after pool atomicPool := by
  have member := List.mem_of_getElem? present
  cases processStep_of_stepProcess stepped with
  | cleanupFound free found =>
      exact .silent (by simp [Process.takesEffect, found]) rfl (agree.silent present nofun nofun)
  | @cleanupMissed addr peerAddr =>
      obtain ⟨free, done⟩ := Option.ite_none_right_eq_some.mp stepped
      cases missed : state.pool.lookup addr with
      | none => exact matched_cleanupMissed agree present free missed
      | some connMap => simp [missed] at done
  | removePeer =>
      exact matched_removePeer agree guarded.exclusive present
        (guarded.present _ member _ rfl)
  | isEmpty result =>
      refine .silent rfl ?_ (agree.silent present nofun nofun)
      simp only [Process.effect, result]
  | releaseEmpty => exact .silent rfl rfl (agree.silent present nofun nofun)
  | releaseOther => exact .silent rfl rfl (agree.silent present nofun nofun)
  | removeKey free => exact matched_removeKey agree present free
  | entry free => exact .silent rfl rfl (agree.silent present nofun nofun)
  | orDefault =>
      exact .silent rfl rfl
        (agree.orDefault present (alone_of_held guarded.exclusive present rfl))
  | insert => exact matched_insert agree guarded.exclusive present
  | dropped => exact .silent rfl rfl (agree.silent present nofun nofun)
  | takeFound free found =>
      exact .silent (by simp [Process.takesEffect, found]) rfl (agree.silent present nofun nofun)
  | @takeMissed addr =>
      obtain ⟨free, done⟩ := Option.ite_none_right_eq_some.mp stepped
      cases missed : state.pool.lookup addr with
      | none => exact matched_takeMissed agree present free missed
      | some senderMap => simp [missed] at done
  | @popBack addr conn pool popped =>
      obtain rfl : (cachedConn addr state.pool).1 = conn := congrArg Prod.fst popped
      obtain rfl : (cachedConn addr state.pool).2 = pool := congrArg Prod.snd popped
      exact matched_popBack agree guarded.exclusive present
  | taken => exact .silent rfl rfl (agree.silent present nofun nofun)

/-- An operation that changes a map does so while nobody else is at the address. -/
theorem ProcessStep.alone {id : Nat} (stepped : ProcessStep shard state before after pool)
    (exclusive : state.Exclusive shard) (present : state.processes[id]? = some before)
    : pool = state.pool ∨ Alone state id before.addr := by
  cases stepped with
  | removePeer | orDefault | insert | popBack =>
      exact Or.inr (alone_of_held exclusive present rfl)
  | removeKey free => exact Or.inr (alone_of_free free)
  | _ => exact Or.inl rfl

/-- What the other processes have achieved stays certain: a cleanup that has removed its key
has the exclusive guard for the map that it is going to test.
-/
theorem ProcessStep.effect_other {id other : Nat} {rival : Process}
    (stepped : ProcessStep shard state before after pool)
    (exclusive : state.Exclusive shard) (present : state.processes[id]? = some before)
    (apart : id ≠ other) (there : state.processes[other]? = some rival)
    : rival.effect pool = rival.effect state.pool := by
  cases rival with
  | cleanup addr peerAddr phase =>
      cases phase with
      | removed =>
          rcases stepped.alone exclusive present with rfl | alone
          · rfl
          · have elsewhere : addr ≠ before.addr := by
              rintro rfl
              exact alone other _ apart there rfl
            simp only [Process.effect, stepped.lookup_other elsewhere]
      | _ => rfl
  | drop body phase => cases phase <;> rfl
  | take addr phase => cases phase <;> rfl

/-- What all processes have achieved after an operation of one of them. -/
theorem map_effect_advance {id : Nat} (stepped : ProcessStep shard state before after pool)
    (exclusive : state.Exclusive shard) (present : state.processes[id]? = some before)
    : (state.advance id after pool).processes.map (Process.effect pool)
      = (state.processes.map (Process.effect state.pool)).set id (after.effect pool) := by
  apply List.ext_getElem?
  intro other
  rw [State.advance, List.getElem?_map, List.getElem?_set, List.getElem?_set,
    List.getElem?_map]
  by_cases same : id = other
  · subst same
    obtain ⟨inside, _⟩ := List.getElem?_eq_some_iff.mp present
    simp [inside]
  · rw [if_neg same, if_neg same]
    cases there : state.processes[other]? with
    | none => rfl
    | some rival =>
        rw [Option.map_some, Option.map_some, stepped.effect_other exclusive present same there]

theorem defaulted_begin {process : Process} {addr : SocketAddr} (started : process.Started)
    : Defaulted (state.begin process) addr ↔ Defaulted state addr := by
  constructor
  · rintro ⟨id, body, there, rfl⟩
    rw [State.begin, List.getElem?_append] at there
    split at there
    case isTrue => exact ⟨id, body, there, rfl⟩
    case isFalse =>
      have is_new := List.mem_of_getElem? there
      rw [List.mem_singleton] at is_new
      subst is_new
      cases started
  · rintro ⟨id, body, there, rfl⟩
    obtain ⟨inside, _⟩ := List.getElem?_eq_some_iff.mp there
    exact ⟨id, body, by rw [State.begin, List.getElem?_append_left inside, there], rfl⟩

/-- A process that begins has achieved nothing, here as there. -/
theorem Linearized.begin (linearized : Linearized state atomic) (process : Process)
    (started : process.Started)
    : Linearized (state.begin process) (atomic.begin (process.effect state.pool)) := by
  constructor
  · simp [State.begin, Atomic.State.begin, linearized.processes]
  · constructor
    · intro addr plain
      exact linearized.pools.plain addr ((defaulted_begin started).not.mp plain)
    · intro addr defaulted
      exact linearized.pools.defaulted addr ((defaulted_begin started).mp defaulted)

/-- An operation of a process is no step on the atomic pool, or one of the same process. -/
theorem Linearized.op [DecidableEq Shard] {id : Nat} (linearized : Linearized state atomic)
    (guarded : Guarded shard state) (present : state.processes[id]? = some before)
    (stepped : stepProcess shard state before = some (after, pool))
    : ∃ next,
        Atomic.atomicOps.run atomic (effects state (.op id)) = some next
        ∧ Linearized (state.advance id after pool) next := by
  have processes := map_effect_advance (processStep_of_stepProcess stepped) guarded.exclusive
    present
  have there : atomic.processes[id]? = some (before.effect state.pool) := by
    rw [linearized.processes, List.getElem?_map, present, Option.map_some]
  rw [← linearized.processes] at processes
  cases matched_of_step guarded linearized.pools present stepped with
  | silent waits same agree =>
      refine ⟨atomic, by simp [effects, present, waits, Machine.run], ⟨?_, agree⟩⟩
      obtain ⟨inside, found⟩ := List.getElem?_eq_some_iff.mp there
      refine (processes.trans ?_).symm
      rw [same, ← found, List.set_getElem_self]
  | effect takes pool' stepped agree =>
      refine ⟨atomic.advance id (after.effect pool) pool', ?_, ⟨processes.symm, agree⟩⟩
      simp [effects, present, takes, Machine.run, Atomic.atomicOps, Atomic.step, there, stepped]

/-- The operations on the maps simulate the atomic ones. -/
theorem mapOps_simulates_atomicOps [DecidableEq Shard] (shard : SocketAddr → Shard)
    : (mapOps shard).Simulation Atomic.atomicOps effects
        fun state atomic => Guarded shard state ∧ Linearized state atomic := by
  constructor
  · refine ⟨Guarded.init, rfl, fun _ _ => rfl, ?_⟩
    rintro addr ⟨id, body, there, _⟩
    cases there
  · rintro before action after spec ⟨guarded, linearized⟩ stepped
    have kept := guarded.step stepped
    cases action with
    | op id =>
        obtain ⟨process, present, stepped⟩ := Option.bind_eq_some_iff.mp stepped
        obtain ⟨⟨process', pool⟩, done, rfl⟩ := Option.map_eq_some_iff.mp stepped
        obtain ⟨next, ran, linear⟩ := linearized.op guarded present done
        exact ⟨next, ran, kept, linear⟩
    | cleanup addr peerAddr =>
        cases Option.some.inj stepped
        exact ⟨_, rfl, kept, linearized.begin (.cleanup addr peerAddr .started) trivial⟩
    | drop body =>
        cases Option.some.inj stepped
        exact ⟨_, rfl, kept, linearized.begin (.drop body .started) trivial⟩
    | take addr =>
        cases Option.some.inj stepped
        exact ⟨_, rfl, kept, linearized.begin (.take addr .started) trivial⟩

-----------------------------------------------------------------------------------------
-- Runs
-----------------------------------------------------------------------------------------

/-- Unless a body is just being dropped, the pools are the same. -/
theorem PoolsAgree.eq (agree : PoolsAgree state atomicPool)
    (settled : ∀ body, .drop body .defaulted ∉ state.processes)
    : state.pool = atomicPool := by
  apply Finmap.ext_lookup
  intro addr
  apply agree.plain
  rintro ⟨id, body, there, _⟩
  exact settled body (List.mem_of_getElem? there)

/-- Every run is one of the atomic pool in which each piece of code takes effect at once, while
it runs. All processes have achieved the same there, with the same results, and unless a body
is just being dropped the pool is the same.
-/
theorem mapOps_linearizable [DecidableEq Shard] (shard : SocketAddr → Shard)
    {actions : List Action} {final : State}
    (ran : (mapOps shard).run .init actions = some final)
    : ∃ atomic,
        Atomic.atomicOps.run .init ((mapOps shard).trace effects .init actions) = some atomic
        ∧ atomic.processes = final.processes.map (Process.effect final.pool)
        ∧ ((∀ body, .drop body .defaulted ∉ final.processes) → final.pool = atomic.pool) := by
  obtain ⟨atomic, matched, _, linearized⟩ := (mapOps_simulates_atomicOps shard).run ran
  exact ⟨atomic, matched, linearized.processes, linearized.pools.eq⟩

/-- A body of the local upstream is dropped, and a call takes its connection at once. -/
def dropAndTake : List Action :=
  [.drop (.new localUpstream { peerAddr := localUpstream, sender := { conn := 0 } }),
    .take localUpstream, .op 0, .op 0, .op 0, .op 0, .op 1, .op 1, .op 1]

/-- Nothing is being dropped at the end, so the pools are the same. -/
theorem mapOps_linearizable_dropAndTake
    : ∃ final atomic,
        (mapOps id).run .init dropAndTake = some final
        ∧ Atomic.atomicOps.run .init ((mapOps id).trace effects .init dropAndTake)
          = some atomic
        ∧ final.pool = atomic.pool := by
  have ends
      : ((mapOps id).run .init dropAndTake).map State.processes
        = some
          [.drop (.new localUpstream { peerAddr := localUpstream, sender := { conn := 0 } })
              .finished,
            .take localUpstream
              (.finished (some { peerAddr := localUpstream, sender := { conn := 0 } }))] := by
    decide
  obtain ⟨final, ran, processes⟩ := Option.map_eq_some_iff.mp ends
  obtain ⟨atomic, matched, _, settled⟩ := mapOps_linearizable id ran
  exact ⟨final, atomic, ran, matched, settled (by simp [processes])⟩

/-- The call of `cached_conn` has got this connection out of the pool. -/
def Got (state : State) (id : Nat) (addr : SocketAddr) (conn : Conn) : Prop :=
  state.processes[id]? = some (.take addr (.popped (some conn)))
  ∨ state.processes[id]? = some (.take addr (.finished (some conn)))

/-- The drop of this body has put its connection into the pool. -/
def PutIn (state : State) (id : Nat) (body : Body) : Prop :=
  state.processes[id]? = some (.drop body .inserted)
  ∨ state.processes[id]? = some (.drop body .finished)

theorem Linearized.got {id : Nat} {addr : SocketAddr} {conn : Conn}
    (linearized : Linearized state atomic) (got : Got state id addr conn)
    : atomic.processes[id]? = some (.take addr (some (some conn))) := by
  rw [linearized.processes, List.getElem?_map]
  rcases got with there | there
  · rw [there]
    rfl
  · rw [there]
    rfl

theorem Linearized.putIn {id : Nat} {body : Body} (linearized : Linearized state atomic)
    (done : atomic.processes[id]? = some (.drop body true))
    : PutIn state id body := by
  rw [linearized.processes, List.getElem?_map] at done
  obtain ⟨process, there, effect⟩ := Option.map_eq_some_iff.mp done
  unfold PutIn
  rw [there]
  cases process with
  | cleanup addr peerAddr phase => cases phase <;> simp [Process.effect] at effect
  | drop other phase =>
      cases phase with
      | inserted =>
          cases effect
          exact Or.inl rfl
      | finished =>
          cases effect
          exact Or.inr rfl
      | _ => simp [Process.effect] at effect
  | take addr phase => cases phase <;> simp [Process.effect] at effect

/-- Whatever is interleaved, each connection that a call gets out of the pool was put in by the
drop of a body of the same connection, for the same address and peer address, and no two
calls get what one drop put in. Witness: the origins in the atomic pool.
-/
theorem got_from_drops [DecidableEq Shard] (shard : SocketAddr → Shard) {state : State}
    (reached : (mapOps shard).Reachable state)
    : ∃ origin : Nat → Nat,
        (∀ id addr conn,
          Got state id addr conn → PutIn state (origin id) (.new addr conn))
        ∧ ∀ id other addr otherAddr conn otherConn,
            Got state id addr conn
            → Got state other otherAddr otherConn
            → origin id = origin other
            → id = other := by
  obtain ⟨atomic, reachable, _, linearized⟩
    := (mapOps_simulates_atomicOps shard).reachable reached
  obtain ⟨origin, originates⟩ := Atomic.originates_of_reachable reachable
  have known {id : Nat} {addr : SocketAddr} {conn : Conn} (got : Got state id addr conn)
      : origin (.taken id) = some ((origin (.taken id)).getD 0)
        ∧ PutIn state ((origin (.taken id)).getD 0) (.new addr conn) := by
    obtain ⟨drop, comes, done⟩ := originates.taken id addr conn (linearized.got got)
    rw [comes]
    exact ⟨rfl, linearized.putIn done⟩
  refine ⟨fun id => (origin (.taken id)).getD 0, fun id addr conn got => (known got).2, ?_⟩
  intro id other addr otherAddr conn otherConn got also same
  have one := (known got).1
  have two := (known also).1
  cases originates.linear one two same
  rfl

/-- The call gets what the one drop put in. -/
theorem got_from_drops_dropAndTake
    : ∃ final origin,
        (mapOps id).run .init dropAndTake = some final
        ∧ PutIn final origin
          (.new localUpstream { peerAddr := localUpstream, sender := { conn := 0 } }) := by
  have ends
      : ((mapOps id).run .init dropAndTake).map (·.processes[1]?)
        = some
          (some
            (.take localUpstream
              (.finished (some { peerAddr := localUpstream, sender := { conn := 0 } })))) := by
    decide
  obtain ⟨final, ran, there⟩ := Option.map_eq_some_iff.mp ends
  obtain ⟨origin, put, _⟩ := got_from_drops id ⟨_, ran⟩
  exact ⟨final, origin 1, ran, put 1 localUpstream _ (Or.inr there)⟩

end Gway.PooledFetch.MapOps
