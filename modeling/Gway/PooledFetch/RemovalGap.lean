import Gway.PooledFetch.MapOps

/-! What a cleanup throws away with `POOL.remove`. It has dropped the guard under which it found
the map empty, so by then there may be a connection in it.
-/

namespace Gway.PooledFetch.MapOps

variable {Shard : Type} {shard : SocketAddr → Shard}
  {state next : State} {action : Action}

/-- If the step is the `POOL.remove` of a cleanup, no connection is stored for its address. -/
def RemovesEmpty (before : State) (action : Action) (_ : State) : Prop :=
  ∀ id addr peerAddr,
    action = .op id
    → before.processes[id]? = some (.cleanup addr peerAddr .removingKey)
    → Vacant before.pool addr

/-- No connection is stored for the address of any cleanup that is about to remove the key. -/
def PendingEmpty (state : State) : Prop :=
  ∀ addr peerAddr,
    .cleanup addr peerAddr .removingKey ∈ state.processes → Vacant state.pool addr

/-- If the step puts the connection of a dropped body into its map, no cleanup of the address
is between its test of that map and its `POOL.remove`. During the test itself the guard of the
cleanup keeps the body away.
-/
def InsertsOutsideGap (before : State) (action : Action) (_ : State) : Prop :=
  ∀ id body,
    action = .op id
    → before.processes[id]? = some (.drop body .defaulted)
    → ∀ peerAddr, .cleanup body.addr peerAddr .removingKey ∉ before.processes

theorem PendingEmpty.init : PendingEmpty .init := by
  intro addr peerAddr member
  cases member

theorem PendingEmpty.removesEmpty (pending : PendingEmpty state)
    : RemovesEmpty state action next := by
  rintro id addr peerAddr - present
  exact pending addr peerAddr (List.mem_of_getElem? present)

/-- Only the insertion of a dropped body fills a slot. -/
theorem ProcessStep.vacant {before after : Process} {pool : Pool} {addr : SocketAddr}
    (stepped : ProcessStep shard state before after pool)
    (other : ∀ body, before = .drop body .defaulted → body.addr ≠ addr)
    (vacant : Vacant state.pool addr)
    : Vacant pool addr := by
  intro key
  have empty := vacant key
  cases stepped with
  | removePeer => simp [slot_removePeer, empty]
  | removeKey => simp [slot_removeKey, empty]
  | @orDefault body => rw [slot_orDefault, empty]
  | @insert body => simp [slot_drop, (other body rfl).symm, empty]
  | @popBack own conn pool popped =>
      cases conn with
      | none => rw [(slot_cachedConn_none popped).1, empty]
      | some conn => simp [(slot_cachedConn popped).2, empty]
  | _ => exact empty

/-- A cleanup goes on to remove the key after it has found the map empty. -/
theorem ProcessStep.removingKey {before : Process} {pool : Pool} {addr peerAddr : SocketAddr}
    (stepped : ProcessStep shard state before (.cleanup addr peerAddr .removingKey) pool)
    : before = .cleanup addr peerAddr (.tested true) ∧ pool = state.pool := by
  cases stepped with
  | releaseEmpty => exact ⟨rfl, rfl⟩

/-- A connection that is inserted for the address of a pending removal is in the map that will
be removed.
-/
theorem insertsOutsideGap_of_pendingEmpty [DecidableEq Shard]
    (kept : PendingEmpty next) (stepped : step shard state action = some next)
    : InsertsOutsideGap state action next := by
  rintro id body rfl present peerAddr member
  obtain ⟨before, after, pool, there, done, rfl⟩ := step_op_eq_some stepped
  obtain rfl := Option.some.inj (there.symm.trans present)
  cases done with
  | insert =>
      obtain ⟨other, pending⟩ := List.getElem?_of_mem member
      have different : id ≠ other := by
        rintro rfl
        rw [present] at pending
        cases pending
      have still
          : (state.advance id (.drop body .inserted) (body.drop state.pool)).processes[other]?
            = some (.cleanup body.addr peerAddr .removingKey) := by
        rw [State.advance, List.getElem?_set_ne different, pending]
      have empty := kept body.addr peerAddr (List.mem_of_getElem? still) body.peerAddr
      simp [State.advance, slot_drop] at empty

/-- Any other step leaves the maps of the pending removals empty, and a removal that becomes
pending is of a map that has just been found empty.
-/
theorem PendingEmpty.step [DecidableEq Shard] (guarded : Guarded shard state)
    (pending : PendingEmpty state) (stepped : step shard state action = some next)
    (outside : InsertsOutsideGap state action next)
    : PendingEmpty next := by
  intro addr peerAddr member
  rcases step_eq_some stepped with
    ⟨process, started, rfl⟩ | ⟨id, before, after, pool, rfl, there, done, rfl⟩
  · rcases List.mem_append.mp member with member | new
    · exact pending addr peerAddr member
    · obtain rfl := List.mem_singleton.mp new
      cases started
  · rcases List.mem_or_eq_of_mem_set member with member | rfl
    · refine done.vacant ?_ (pending addr peerAddr member)
      rintro body rfl rfl
      exact outside id body rfl there peerAddr member
    · obtain ⟨rfl, rfl⟩ := done.removingKey
      exact guarded.tested addr peerAddr (List.mem_of_getElem? there)

/-- In every run, whatever its interleaving, each map that is about to be removed is empty at
all times exactly if no connection is inserted between the test and the removal. In such a run
`POOL.remove` removes no connection.
-/
theorem removal_empty_iff [DecidableEq Shard] (shard : SocketAddr → Shard)
    (actions : List Action)
    : ((mapOps shard).Always PendingEmpty .init actions
        ↔ (mapOps shard).EachStep InsertsOutsideGap .init actions)
      ∧ ((mapOps shard).EachStep InsertsOutsideGap .init actions
        → (mapOps shard).EachStep RemovesEmpty .init actions) := by
  have exact_condition
      : (mapOps shard).Always PendingEmpty .init actions
        ↔ (mapOps shard).EachStep InsertsOutsideGap .init actions :=
    Machine.always_iff_eachStep (Guarded shard)
      (fun _ _ _ guarded pending stepped =>
        ⟨fun kept => insertsOutsideGap_of_pendingEmpty kept stepped,
          pending.step guarded stepped⟩)
      (fun _ _ _ guarded _ stepped _ => guarded.step stepped)
      Guarded.init PendingEmpty.init
  refine ⟨exact_condition, fun outside => ?_⟩
  exact (exact_condition.mpr outside).eachStep fun _ _ _ pending _ => pending.removesEmpty

/-- The body of a response that came on this connection to the local upstream. -/
def localBody (conn : ConnId) (peerAddr : SocketAddr) : Body where
  sender := { conn }
  addr := localUpstream
  peerAddr := peerAddr

/-- The body on connection 0 is dropped, the cleanup of the connection finds the map empty after
it has removed that, and then the body on connection 1 is dropped.
-/
def insertInGap (key other : SocketAddr) : List Action :=
  [.drop (localBody 0 key), .op 0, .op 0, .op 0, .op 0,
    .cleanup localUpstream key, .op 1, .op 1, .op 1, .op 1,
    .drop (localBody 1 other), .op 2, .op 2, .op 2, .op 2]

/-- A peer address that is not the one of the local upstream. -/
def otherPeer : SocketAddr := ipv4 127 0 0 1 8081

/-- The cleanup of connection 0 then discards connection 1, though its key is another one.
Witness: its slot before the removal, by evaluation.
-/
theorem removal_discards_other
    : ∃ before after,
        (mapOps id).run .init (insertInGap otherPeer localUpstream) = some before
        ∧ (mapOps id).step before (.op 1) = some after
        ∧ slot before.pool localUpstream localUpstream = some { conn := 1 }
        ∧ slot after.pool localUpstream localUpstream = none
        ∧ ¬ RemovesEmpty before (.op 1) after := by
  have discarded
      : ((mapOps id).run .init (insertInGap otherPeer localUpstream)).bind (fun before =>
          ((mapOps id).step before (.op 1)).map fun after =>
            (slot before.pool localUpstream localUpstream,
              slot after.pool localUpstream localUpstream,
              before.processes[1]?))
        = some
          (some { conn := 1 }, none,
            some (.cleanup localUpstream otherPeer .removingKey)) := by
    decide
  obtain ⟨before, ran, discarded⟩ := Option.bind_eq_some_iff.mp discarded
  obtain ⟨after, stepped, discarded⟩ := Option.map_eq_some_iff.mp discarded
  obtain ⟨stored, gone, pending⟩ := by simpa only [Prod.mk.injEq] using discarded
  refine ⟨before, after, ran, stepped, stored, gone, fun empty => ?_⟩
  have vacant := empty 1 localUpstream otherPeer rfl pending localUpstream
  rw [stored] at vacant
  cases vacant

-- connections to one upstream share its address as their key, with the same outcome
example
    : (((mapOps id).run .init (insertInGap localUpstream localUpstream)).bind fun before =>
        ((mapOps id).step before (.op 1)).map fun after =>
          (slot before.pool localUpstream localUpstream,
            slot after.pool localUpstream localUpstream))
      = some (some { conn := 1 }, none) := by
  decide

end Gway.PooledFetch.MapOps
