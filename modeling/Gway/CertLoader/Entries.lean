import Gway.CertLoader.System

/-! How many entries the buckets have. A host that is pushed again while it is cached is listed
once more, and nothing takes an entry out before its bucket is due.
-/

namespace Gway.CertLoader

/-- The number of entries of all buckets together. -/
def entries (certs : CertLoader) : Nat :=
  (certs.expire.toList.flatMap Prod.snd).length

/-- A state of the cache, and how often a host has been evicted from it so far. -/
structure Counted where
  state : State
  evicted : Nat

/-- The cache in use, with an account of what leaves it. -/
def counting (subHost : String → Option String) : Machine Counted Action where
  init := { state := .init, evicted := 0 }
  step counted action :=
    (step subHost counted.state action).map fun next =>
      {
        state := next
        evicted :=
          counted.evicted
          + (counted.state.certs.hostCert.keys \ next.certs.hostCert.keys).card
      }

/-- The host under which the action caches a certificate, if it is an insertion. -/
def State.insertedHost (state : State) : Action → Option String
  | .get id .insert =>
      match state.gets[id]? with
      | some { phase := .inserting cachedHost _ _, .. } => some cachedHost
      | _ => none
  | _ => none

/-- A certificate is cached only under a host that is not cached. -/
def InsertsNew (before : Counted) (action : Action) (_ : Counted) : Prop :=
  ∀ host ∈ before.state.insertedHost action,
    before.state.certs.hostCert.lookup host = none

instance (before : Counted) (action : Action) (after : Counted)
    : Decidable (InsertsNew before action after) :=
  inferInstanceAs (Decidable (∀ host ∈ before.state.insertedHost action, _))

/-- There are no more entries than hosts that are cached or have been evicted. -/
def EntriesBounded (counted : Counted) : Prop :=
  counted.state.certs.entries
  ≤ counted.state.certs.hostCert.keys.card + counted.evicted

def GetPhase.isPushing : GetPhase → Bool
  | .pushing _ _ _ => true
  | _ => false

/-- The number of calls that have yet to list the host that they have cached. -/
def State.pushes (state : State) : Nat :=
  state.gets.countP fun call => call.phase.isPushing

/-- Each entry, and each that is still to come, has a host that is cached or was evicted. -/
def EntriesInvariant (counted : Counted) : Prop :=
  counted.state.certs.entries + counted.state.pushes
  ≤ counted.state.certs.hostCert.keys.card + counted.evicted

variable {subHost : String → Option String} {certs : CertLoader} {host : String} {day : Int}

-----------------------------------------------------------------------------------------
-- Counting entries and hosts
-----------------------------------------------------------------------------------------

/-- The entries of a day and those of all other days are all entries. -/
theorem entries_eq (certs : CertLoader) (day : Int)
    : certs.entries
      = (certs.bucket day).length
        + ((certs.expire.toList.filter fun bucket => bucket.1 ≠ day).flatMap
            Prod.snd).length := by
  cases found : certs.expire[day]? with
  | some hosts =>
      have same : certs.expire.insert day hosts = certs.expire := by
        refine Std.ExtTreeMap.ext_getElem? fun other => ?_
        rw [Std.ExtTreeMap.lookup_insert_eq]
        split
        case isTrue equal => rw [equal, found]
        case isFalse => rfl
      have perm := Std.ExtTreeMap.toList_insert_perm certs.expire day hosts
      rw [same] at perm
      rw [entries, (perm.flatMap_right _).length_eq]
      simp [bucket, found]
  | none =>
      have all
          : (certs.expire.toList.filter fun bucket => bucket.1 ≠ day)
            = certs.expire.toList := by
        refine List.filter_eq_self.mpr fun entry member => ?_
        have known := Std.ExtTreeMap.mem_toList_iff_getElem?_eq_some.mp member
        refine decide_eq_true fun equal => ?_
        rw [equal, found] at known
        cases known
      rw [all, entries]
      simp [bucket, found]

/-- A push adds one entry. -/
theorem entries_pushExpire : (certs.pushExpire day host).entries = certs.entries + 1 := by
  have perm := Std.ExtTreeMap.toList_insert_perm certs.expire day (certs.bucket day ++ [host])
  rw [entries_eq certs day, entries, pushExpire, (perm.flatMap_right _).length_eq]
  simp
  omega

/-- Removing buckets adds no entry, by induction on the buckets. -/
theorem entries_removeBuckets (toRmExpire : List Int)
    : (certs.removeBuckets toRmExpire).entries ≤ certs.entries := by
  induction toRmExpire generalizing certs with
  | nil => exact Nat.le_refl _
  | cons day rest ih =>
      have perm := Std.ExtTreeMap.toList_erase_perm certs.expire day
      have one : (certs.removeBuckets [day]).entries ≤ certs.entries := by
        rw [entries_eq certs day, entries, removeBuckets, List.foldl_cons, List.foldl_nil,
          (perm.flatMap_right _).length_eq]
        exact Nat.le_add_left _ _
      exact (@ih (certs.removeBuckets [day])).trans one

/-- A host that is not cached yet adds one to the cached hosts. -/
theorem card_insertHost (cert : Arc Cert) (missing : certs.hostCert.lookup host = none)
    : (certs.insertHost host cert).hostCert.keys.card = certs.hostCert.keys.card + 1 := by
  have keys : (certs.insertHost host cert).hostCert.keys = insert host certs.hostCert.keys := by
    ext other
    simp [insertHost, Finmap.mem_keys, Finmap.mem_insert]
  have fresh : host ∉ certs.hostCert.keys := by
    rw [Finmap.mem_keys, Finmap.mem_iff, missing]
    simp
  rw [keys, Finset.card_insert_of_notMem fresh]

-----------------------------------------------------------------------------------------
-- The steps
-----------------------------------------------------------------------------------------

variable {state next : State} {counted after : Counted} {id : GetId} {old call : Get}

/-- Only the phase of the call at hand decides how many pushes are to come. -/
theorem pushes_setGet (call : Get) (present : state.gets[id]? = some old)
    : (state.setGet id call).pushes + (if old.phase.isPushing then 1 else 0)
      = state.pushes + (if call.phase.isPushing then 1 else 0) := by
  obtain ⟨inside, rfl⟩ := List.getElem?_eq_some_iff.mp present
  have some_push : (if state.gets[id].phase.isPushing then 1 else 0) ≤ state.pushes :=
    List.boole_getElem_le_countP (p := fun call => call.phase.isPushing) inside
  simp only [State.pushes, State.setGet, List.countP_set inside] at some_push ⊢
  omega

/-- A call that need not push does not add to the pushes that are to come. -/
theorem pushes_setGet_le (present : state.gets[id]? = some old)
    (idle : call.phase.isPushing = false)
    : (state.setGet id call).pushes ≤ state.pushes := by
  have count := pushes_setGet call present
  rw [idle, if_neg Bool.false_ne_true] at count
  omega

theorem isPushing_afterLoad (host : String) (attempt : Attempt)
    (result : Except Error (Option (Arc Cert)))
    : (afterLoad subHost host attempt result).isPushing = false := by
  unfold afterLoad
  split
  case h_1 => rfl
  case h_2 =>
    rcases afterNone_cases subHost host attempt with ⟨sub, -, next⟩ | next
    all_goals
      rw [next]
      rfl
  case h_3 => split <;> rfl

/-- A step that adds neither entries nor pushes keeps the account, whatever it evicts. -/
theorem EntriesInvariant.of_le (inv : EntriesInvariant counted)
    (le : next.certs.entries + next.pushes
      ≤ counted.state.certs.entries + counted.state.pushes)
    : EntriesInvariant
        {
          state := next
          evicted :=
            counted.evicted
            + (counted.state.certs.hostCert.keys \ next.certs.hostCert.keys).card
        } := by
  have hosts := Finset.card_le_card_sdiff_add_card (s := counted.state.certs.hostCert.keys)
    (t := next.certs.hostCert.keys)
  unfold EntriesInvariant at inv ⊢
  dsimp only
  omega

/-- The operations of `get` keep the account, if what is inserted is new. Witness: an insertion
adds a host and a push to come, and the push that it makes to come adds the entry.
-/
theorem EntriesInvariant.stepGet {action : GetAction} (inv : EntriesInvariant counted)
    (stepped : CertLoader.stepGet subHost counted.state id action = some next)
    (new : InsertsNew counted (.get id action) after)
    : EntriesInvariant
        {
          state := next
          evicted :=
            counted.evicted
            + (counted.state.certs.hostCert.keys \ next.certs.hostCert.keys).card
        } := by
  cases getStep_of_stepGet stepped with
  | look looking =>
      refine inv.of_le (Nat.add_le_add_left (pushes_setGet_le looking ?_) _)
      dsimp only
      split <;> rfl
  | loaded loading =>
      refine inv.of_le (Nat.add_le_add_left (pushes_setGet_le loading ?_) _)
      exact isPushing_afterLoad _ _ _
  | @insert host cachedHost cert day inserting =>
      have missing : counted.state.certs.hostCert.lookup cachedHost = none :=
        new cachedHost (by simp [State.insertedHost, inserting])
      have hosts := card_insertHost cert missing
      have count := pushes_setGet { host, phase := .pushing cachedHost cert day } inserting
      simp only [GetPhase.isPushing, Bool.false_eq_true, if_false, if_true] at count
      unfold EntriesInvariant at inv ⊢
      dsimp only [State.pushes, State.setGet, insertHost, entries] at *
      omega
  | @push host cachedHost cert day pushing =>
      have count := pushes_setGet { host, phase := .returned (.ok cert) } pushing
      simp only [GetPhase.isPushing, Bool.false_eq_true, if_false, if_true] at count
      refine inv.of_le ?_
      dsimp only [State.pushes] at count ⊢
      rw [entries_pushExpire]
      omega

/-- A step keeps the account, if what it inserts is new. -/
theorem EntriesInvariant.step (action : Action) (inv : EntriesInvariant counted)
    (stepped : (counting subHost).step counted action = some after)
    (new : InsertsNew counted action after)
    : EntriesInvariant after := by
  obtain ⟨next, moved, rfl⟩ := Option.map_eq_some_iff.mp stepped
  cases action with
  | call host =>
      cases moved
      refine inv.of_le (Nat.add_le_add_left ?_ _)
      simp [State.pushes, stepCall, GetPhase.isPushing]
  | get id action => exact inv.stepGet moved new
  | pass now days =>
      cases moved
      exact inv.of_le (Nat.le_refl _)
  | remove id =>
      obtain ⟨toRmExpire, -, rfl⟩ := stepRemove_eq_some.mp moved
      exact inv.of_le (Nat.add_le_add_right (entries_removeBuckets toRmExpire) _)

/-- In every run that caches certificates only under hosts that are not cached, the entries
stay bounded.
-/
theorem entriesBounded_of_insertsNew {actions : List Action}
    (new
      : (counting subHost).EachStep InsertsNew (counting subHost).init actions)
    : (counting subHost).Always EntriesBounded (counting subHost).init actions := by
  have start : EntriesInvariant (counting subHost).init := Nat.le_refl _
  refine Machine.Always.mono (fun counted inv => ?_)
    (new.always (fun before action after inv stepped met => inv.step action stepped met) start)
  exact (Nat.le_add_right _ _).trans inv

end Gway.CertLoader
