import Gway.CertLoader.System

/-! Whether a cached certificate can still expire. A call of `rm_expired` removes the buckets
it has visited even if a host has been pushed to one of them since its pass.
-/

namespace Gway.CertLoader

def GetPhase.hasReturned : GetPhase → Bool
  | .returned _ => true
  | _ => false

/-- No call is in progress. -/
def State.Quiescent (state : State) : Prop :=
  (∀ call ∈ state.gets, call.phase.hasReturned = true) ∧ ∀ rm ∈ state.rms, rm = .finished

instance (state : State) : Decidable state.Quiescent :=
  inferInstanceAs (Decidable (_ ∧ _))

/-- Every cached host is listed for the day on which its certificate expires. -/
def Indexed (certs : CertLoader) : Prop :=
  ∀ host cert,
    certs.hostCert.lookup host = some cert
    → ∃ day, cert.val.expireDay = some day ∧ host ∈ certs.bucket day

/-- The day to which the action pushes a host, if it is a push. -/
def State.pushDay (state : State) : Action → Option Int
  | .get id .push =>
      match state.gets[id]? with
      | some { phase := .pushing _ _ day, .. } => some day
      | _ => none
  | _ => none

/-- If the step pushes a host to a day, no call of `rm_expired` is about to remove the bucket
of that day.
-/
def PushesApart (before : State) (action : Action) (_ : State) : Prop :=
  ∀ day ∈ before.pushDay action, ∀ rm ∈ before.rms, day ∉ rm.toRmExpire

instance (before : State) (action : Action) (after : State)
    : Decidable (PushesApart before action after) :=
  inferInstanceAs (Decidable (∀ day ∈ before.pushDay action, _))

/-- The host is listed for the day of its certificate, and the bucket of that day is going
to stay.
-/
def State.Listed (state : State) (host : String) (cert : Arc Cert) : Prop :=
  ∃ day,
    cert.val.expireDay = some day
    ∧ host ∈ state.certs.bucket day
    ∧ ∀ rm ∈ state.rms, day ∉ rm.toRmExpire

/-- Some call is about to push the host with this certificate. -/
def State.Pushing (state : State) (cachedHost : String) (cert : Arc Cert) : Prop :=
  ∃ (id : GetId) (host : String) (day : Int),
    state.gets[id]? = some { host, phase := .pushing cachedHost cert day }

/-- A call that has yet to insert or push a host has its name and day from the certificate. -/
def GetPhase.Sound : GetPhase → Prop
  | .inserting cachedHost cert day | .pushing cachedHost cert day =>
      cacheEntry cert.val = .ok (some (cachedHost, day))
  | _ => True

/-- A cached host is listed, or a call that cached it is about to list it. -/
structure IndexInvariant (state : State) : Prop where
  cached
    : ∀ host cert,
        state.certs.hostCert.lookup host = some cert
        → state.Pushing host cert ∨ state.Listed host cert
  sound : ∀ call ∈ state.gets, call.phase.Sound

theorem IndexInvariant.init : IndexInvariant .init := by
  constructor
  case cached =>
    intro host cert found
    simp [State.init, new] at found
  case sound =>
    intro call member
    cases member

-----------------------------------------------------------------------------------------
-- The steps of a call of get
-----------------------------------------------------------------------------------------

variable {subHost : String → Option String} {state next : State} {id : GetId}

/-- A push that is due stays due while another call moves. -/
theorem State.Pushing.setGet {cachedHost : String} {cert : Arc Cert} {call : Get}
    {certs : CertLoader} (due : state.Pushing cachedHost cert)
    (other
      : ∀ host day, state.gets[id]? ≠ some { host, phase := .pushing cachedHost cert day })
    : { state.setGet id call with certs }.Pushing cachedHost cert := by
  obtain ⟨owner, host, day, due⟩ := due
  refine ⟨owner, host, day, ?_⟩
  have apart : id ≠ owner := by
    rintro rfl
    exact other host day due
  simpa [State.setGet, apart] using due

/-- The step of a call that touches neither map keeps the invariant. -/
theorem IndexInvariant.setGet {call : Get} (inv : IndexInvariant state)
    (other
      : ∀ cachedHost cert host day,
          state.gets[id]? ≠ some { host, phase := .pushing cachedHost cert day })
    (sound : call.phase.Sound)
    : IndexInvariant (state.setGet id call) :=
  ⟨fun host cert found =>
    (inv.cached host cert found).imp_left fun due => due.setGet (other host cert),
    forall_gets_setGet inv.sound sound⟩

/-- A new call touches neither map. -/
theorem IndexInvariant.stepCall (inv : IndexInvariant state) (host : String)
    : IndexInvariant (stepCall state host) := by
  constructor
  case cached =>
    intro other cert found
    refine (inv.cached other cert found).imp_left ?_
    intro ⟨owner, wanted, day, due⟩
    obtain ⟨present, -⟩ := List.getElem?_eq_some_iff.mp due
    exact ⟨owner, wanted, day, (List.getElem?_append_left present).trans due⟩
  case sound =>
    intro call member
    rcases List.mem_append.mp member with member | new
    · exact inv.sound call member
    · obtain rfl := List.mem_singleton.mp new
      trivial

/-- Whatever the loader answers, the phase after it is sound: a name and a day that go on
to the cache come from the certificate.
-/
theorem afterLoad_sound (host : String) (attempt : Attempt)
    (result : Except Error (Option (Arc Cert)))
    : (afterLoad subHost host attempt result).Sound := by
  unfold afterLoad
  split
  case h_1 => trivial
  case h_2 =>
    rcases afterNone_cases subHost host attempt with ⟨sub, -, next⟩ | next
    all_goals
      rw [next]
      trivial
  case h_3 cert =>
    split
    case h_1 | h_2 => trivial
    case h_3 cachedHost day found => exact found

/-- An inserted certificate is the one that its call is about to list. -/
theorem IndexInvariant.insertHost {host cachedHost : String} {cert : Arc Cert} {day : Int}
    (inv : IndexInvariant state)
    (inserting : state.gets[id]? = some { host, phase := .inserting cachedHost cert day })
    : IndexInvariant
        { state.setGet id { host, phase := .pushing cachedHost cert day } with
          certs := state.certs.insertHost cachedHost cert } := by
  have sound : (GetPhase.inserting cachedHost cert day).Sound :=
    inv.sound _ (List.mem_of_getElem? inserting)
  refine ⟨fun other found known => ?_, forall_gets_setGet inv.sound sound⟩
  simp only [CertLoader.insertHost, Finmap.lookup_insert_eq] at known
  split at known
  case isTrue same =>
    obtain rfl := Option.some.inj known
    subst same
    exact Or.inl ⟨id, host, day, by simp [State.setGet, List.getElem?_set_self' , inserting]⟩
  case isFalse =>
    exact (inv.cached other found known).imp_left fun due =>
      due.setGet fun _ _ pushing => by simp [inserting] at pushing

/-- A pushed host is listed for the day of its certificate, and apart from removals it stays
so. Hosts listed before stay listed.
-/
theorem IndexInvariant.pushExpire {host cachedHost : String} {cert : Arc Cert} {day : Int}
    (inv : IndexInvariant state)
    (pushing : state.gets[id]? = some { host, phase := .pushing cachedHost cert day })
    (stays : ∀ rm ∈ state.rms, day ∉ rm.toRmExpire)
    : IndexInvariant
        { state.setGet id { host, phase := .returned (.ok cert) } with
          certs := state.certs.pushExpire day cachedHost } := by
  have grows {other : Int} {listed : String} (member : listed ∈ state.certs.bucket other)
      : listed ∈ (state.certs.pushExpire day cachedHost).bucket other := by
    rw [bucket_pushExpire]
    split
    case isTrue same => exact List.mem_append_left _ (same ▸ member)
    case isFalse => exact member
  refine ⟨fun other found known => ?_, forall_gets_setGet inv.sound trivial⟩
  rcases inv.cached other found known with due | ⟨listedDay, expires, member, safe⟩
  case inr => exact Or.inr ⟨listedDay, expires, grows member, safe⟩
  case inl =>
    by_cases own : other = cachedHost ∧ found = cert
    case pos =>
      obtain ⟨rfl, rfl⟩ := own
      have sound : (GetPhase.pushing other found day).Sound :=
        inv.sound _ (List.mem_of_getElem? pushing)
      exact Or.inr ⟨day, cacheEntry_day sound, by simp [bucket_pushExpire], stays⟩
    case neg =>
      refine Or.inl (due.setGet fun _ _ also => own ?_)
      obtain ⟨-, same⟩ := Get.mk.inj (Option.some.inj (also.symm.trans pushing))
      cases same
      exact ⟨rfl, rfl⟩

/-- A call of `get` keeps the invariant, if its push is apart from all removals. -/
theorem IndexInvariant.stepGet {action : GetAction} (inv : IndexInvariant state)
    (stepped : stepGet subHost state id action = some next)
    (apart : PushesApart state (.get id action) next)
    : IndexInvariant next := by
  cases getStep_of_stepGet stepped with
  | insert inserting => exact inv.insertHost inserting
  | push pushing => exact inv.pushExpire pushing (apart _ (by simp [State.pushDay, pushing]))
  | look looking =>
      refine inv.setGet (by simp [looking]) ?_
      dsimp only
      split <;> trivial
  | loaded loading => exact inv.setGet (by simp [loading]) (afterLoad_sound _ _ _)

-----------------------------------------------------------------------------------------
-- The steps of a call of rm_expired
-----------------------------------------------------------------------------------------

/-- A pass keeps the invariant: what it leaves in the cache is listed, if at all, in buckets
that it did not visit.
-/
theorem IndexInvariant.stepPass (inv : IndexInvariant state) (now days : Int)
    : IndexInvariant (stepPass state now days) := by
  refine ⟨fun host cert known => ?_, inv.sound⟩
  simp only [CertLoader.stepPass, lookup_evict] at known
  obtain ⟨kept, known⟩ := Option.ite_none_left_eq_some.mp known
  refine (inv.cached host cert known).imp_right ?_
  intro ⟨day, expires, member, safe⟩
  refine ⟨day, expires, member, fun rm running => ?_⟩
  rcases List.mem_append.mp running with running | running
  case inl => exact safe rm running
  case inr =>
    obtain rfl := List.mem_singleton.mp running
    split
    case isTrue => simp [RmPhase.toRmExpire]
    case isFalse =>
      intro visited
      obtain ⟨⟨_, visitedHosts⟩, entered, rfl⟩ := List.mem_map.mp visited
      obtain ⟨hosts, listed, member⟩ := mem_bucket.mp member
      obtain ⟨found, -⟩ := mem_expired.mp entered
      obtain rfl := Option.some.inj (found.symm.trans listed)
      exact kept ⟨_, entered, member⟩

/-- A removal keeps the invariant: it removes buckets that its call has announced. -/
theorem IndexInvariant.stepRemove {id : RmId} (inv : IndexInvariant state)
    (stepped : stepRemove state id = some next)
    : IndexInvariant next := by
  obtain ⟨toRmExpire, running, rfl⟩ := stepRemove_eq_some.mp stepped
  refine ⟨fun host cert known => ?_, inv.sound⟩
  refine (inv.cached host cert known).imp_right ?_
  intro ⟨day, expires, member, safe⟩
  refine ⟨day, expires, ?_, fun rm still => ?_⟩
  · have stays : day ∉ toRmExpire := safe _ (List.mem_of_getElem? running)
    rwa [bucket_removeBuckets, if_neg stays]
  · rcases List.mem_or_eq_of_mem_set still with still | rfl
    · exact safe rm still
    · simp [RmPhase.toRmExpire]

theorem IndexInvariant.step {action : Action} (inv : IndexInvariant state)
    (stepped : step subHost state action = some next)
    (apart : PushesApart state action next)
    : IndexInvariant next := by
  cases action with
  | call host =>
      cases stepped
      exact inv.stepCall host
  | get id action => exact inv.stepGet stepped apart
  | pass now days =>
      cases stepped
      exact inv.stepPass now days
  | remove id => exact inv.stepRemove stepped

/-- Without a call in progress every cached host is listed. -/
theorem IndexInvariant.indexed (inv : IndexInvariant state) (quiescent : state.Quiescent)
    : Indexed state.certs := by
  intro host cert found
  rcases inv.cached host cert found with ⟨id, wanted, day, due⟩ | ⟨day, expires, member, -⟩
  · cases quiescent.1 _ (List.mem_of_getElem? due)
  · exact ⟨day, expires, member⟩

/-- In every run in which no call pushes a host to a day while a call of `rm_expired` is
about to remove the bucket of that day, each cached host is listed for the day of its
certificate in every state without a call in progress.
-/
theorem certLoader_indexed {actions : List Action}
    (apart : (certLoader subHost).EachStep PushesApart .init actions)
    : (certLoader subHost).Always (fun state => state.Quiescent → Indexed state.certs)
        .init actions :=
  (apart.always (fun _ _ _ inv stepped apart => inv.step stepped apart)
    IndexInvariant.init).mono fun _ inv => inv.indexed

-----------------------------------------------------------------------------------------
-- A push between the pass and the removal
-----------------------------------------------------------------------------------------

/-- A chain whose leaf names one host and expires at a time. -/
def certFor (ptr : Nat) (host : String) (notAfter : Int) : Arc Cert where
  ptr := ptr
  val :=
    {
      fullchain :=
        [.ok { notAfter, subjectAlternativeName := .ok (some [.dnsName host]) }]
    }

/-- A call of `get` until it has inserted the loaded certificate. -/
def getUntilInserted (id : GetId) (host : String) (notAfter : Int) : List Action :=
  [.call host, .get id .look, .get id (.loaded (.ok (some (certFor id host notAfter)))),
    .get id .insert]

/-- Two hosts are loaded, whose certificates expire on one day and on another. The second is
pushed while a call of `rm_expired` is between its pass and its removal.
-/
def pushAfterPass (one other : Int) : List Action :=
  getUntilInserted 0 "a.example" one ++ [.get 0 .push]
    ++ getUntilInserted 1 "b.example" other
    ++ [.pass 1700000000 2, .get 1 .push, .remove 0]

/-- When both expire on the same day, the removal takes the second host out of the index as
well, and its certificate is cached for good. Witness: the end of the run by evaluation.
-/
theorem certLoader_loses_index
    : ∃ state,
        (certLoader fun _ => none).run .init (pushAfterPass 4102444800 4102444800)
          = some state
        ∧ state.Quiescent
        ∧ ¬ Indexed state.certs := by
  have ended
      : ((certLoader fun _ => none).run .init (pushAfterPass 4102444800 4102444800)).map
          (fun state =>
            (decide state.Quiescent, state.certs.hostCert.lookup "b.example",
              state.certs.bucket 47482))
        = some (true, some (certFor 1 "b.example" 4102444800), []) := by
    decide
  obtain ⟨state, ran, ended⟩ := Option.map_eq_some_iff.mp ended
  obtain ⟨quiescent, ended⟩ := Prod.mk.inj ended
  obtain ⟨cached, empty⟩ := Prod.mk.inj ended
  refine ⟨state, ran, of_decide_eq_true quiescent, fun indexed => ?_⟩
  obtain ⟨day, expires, member⟩ := indexed _ _ cached
  obtain rfl : (47482 : Int) = day := Option.some.inj expires
  rw [empty] at member
  cases member

/-- When they expire on different days, the second host is still listed at the end. -/
theorem certLoader_indexed_apart
    : ∃ state,
        (certLoader fun _ => none).run .init (pushAfterPass 4102444800 4102531200)
          = some state
        ∧ state.certs.hostCert.lookup "b.example"
          = some (certFor 1 "b.example" 4102531200)
        ∧ Indexed state.certs := by
  have ended
      : ((certLoader fun _ => none).run .init (pushAfterPass 4102444800 4102531200)).map
          (fun state =>
            (decide state.Quiescent, state.certs.hostCert.lookup "b.example"))
        = some (true, some (certFor 1 "b.example" 4102531200)) := by
    decide
  obtain ⟨state, ran, ended⟩ := Option.map_eq_some_iff.mp ended
  obtain ⟨quiescent, cached⟩ := Prod.mk.inj ended
  have indexed := (certLoader_indexed (by decide)).last ran
  exact ⟨state, ran, cached, indexed (of_decide_eq_true quiescent)⟩

end Gway.CertLoader
