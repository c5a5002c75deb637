import Gway.CertLoader.Index

/-! How long a certificate stays in use after the loader has got a new one. The task that `new`
spawns makes a pass over the cache once a day, and nothing that a pass evicts comes back but
through the loader.
-/

namespace Gway.CertLoader

/-- The pass of one round of the background task, which begins at the time `now`. -/
def tick (now : Int) : Action :=
  .pass now 2

/-- The certificate of a call that has loaded it and has yet to insert or push its host. -/
def GetPhase.inHand : GetPhase → Option (Arc Cert)
  | .inserting _ cert _ | .pushing _ cert _ => some cert
  | _ => none

/-- The certificate that the action brings from the loader. -/
def Action.loads : Action → Option (Arc Cert)
  | .get _ (.loaded (.ok loaded)) => loaded
  | _ => none

/-- The certificate comes from the loader after the pass, or a call has it in hand during the
pass, or its day, taken as a number of seconds, is not before the threshold.
-/
inductive Renewed (atPass : State) (now days : Int) (later : List Action) (cert : Arc Cert)
    : Prop where
  | loaded (action : Action) (member : action ∈ later) (brings : action.loads = some cert)
  | inHand (call : Get) (member : call ∈ atPass.gets) (holds : call.phase.inHand = some cert)
  | late (day : Int) (expires : cert.val.expireDay = some day)
      (spared : now + days * 24 * 60 * 60 ≤ day)

/-- All certificates that are cached, in hand or have been returned since a state are of some
kind.
-/
structure Since (start : State) (kind : Arc Cert → Prop) (state : State) : Prop where
  cached : ∀ host cert, state.certs.hostCert.lookup host = some cert → kind cert
  inHand : ∀ call ∈ state.gets, ∀ cert, call.phase.inHand = some cert → kind cert
  returned
    : ∀ (id : GetId) (call : Get) (cert : Arc Cert),
        state.gets[id]? = some call
        → call.phase = .returned (.ok cert)
        → start.gets[id]? = some call ∨ kind cert

variable {subHost : String → Option String} {start state next atPass final : State}
  {kind : Arc Cert → Prop} {id : GetId} {now days : Int} {earlier later : List Action}

/-- A kind may be replaced by a wider one. -/
theorem Since.mono {wider : Arc Cert → Prop} (since : Since start kind state)
    (implied : ∀ cert, kind cert → wider cert)
    : Since start wider state where
  cached := fun host cert known => implied cert (since.cached host cert known)
  inHand := fun call member cert holds => implied cert (since.inHand call member cert holds)
  returned := fun id call cert there done =>
    (since.returned id call cert there done).imp_right (implied cert)

-----------------------------------------------------------------------------------------
-- After the pass
-----------------------------------------------------------------------------------------

/-- A call that moves on with certificates of the kind at most keeps the rest as it is. -/
theorem Since.setGet {call : Get} {certs : CertLoader} (since : Since start kind state)
    (cached : ∀ host cert, certs.hostCert.lookup host = some cert → kind cert)
    (inHand : ∀ cert, call.phase.inHand = some cert → kind cert)
    (returned : ∀ cert, call.phase = .returned (.ok cert) → kind cert)
    : Since start kind { state.setGet id call with certs } := by
  refine ⟨cached, forall_gets_setGet since.inHand inHand, fun other found cert there done => ?_⟩
  by_cases own : id = other
  case pos =>
    subst own
    obtain ⟨inside, -⟩ := List.getElem?_eq_some_iff.mp there
    rw [State.setGet, List.length_set] at inside
    simp only [State.setGet, List.getElem?_set_self inside, Option.some.injEq] at there
    subst there
    exact .inr (returned cert done)
  case neg =>
    rw [State.setGet, List.getElem?_set_ne own] at there
    exact since.returned other found cert there done

/-- Whatever the loader answers, the call goes on with the certificate of the answer. -/
theorem afterLoad_brings (host : String) (attempt : Attempt)
    (result : Except Error (Option (Arc Cert)))
    : (∀ cert,
        (afterLoad subHost host attempt result).inHand = some cert → result = .ok (some cert))
      ∧ ∀ cert,
          afterLoad subHost host attempt result = .returned (.ok cert)
          → result = .ok (some cert) := by
  unfold afterLoad
  split
  case h_1 => exact ⟨nofun, nofun⟩
  case h_2 =>
    rcases afterNone_cases subHost host attempt with ⟨sub, -, next⟩ | next
    all_goals
      rw [next]
      exact ⟨nofun, nofun⟩
  case h_3 cert =>
    split
    case h_1 => exact ⟨nofun, nofun⟩
    case h_2 =>
      refine ⟨nofun, fun other returned => ?_⟩
      cases returned
      rfl
    case h_3 =>
      refine ⟨fun other inHand => ?_, nofun⟩
      cases inHand
      rfl

/-- A call of `get` caches and returns only what is cached, in hand or loaded. -/
theorem Since.stepGet {action : GetAction} (since : Since start kind state)
    (stepped : stepGet subHost state id action = some next)
    (brings : ∀ cert, (Action.get id action).loads = some cert → kind cert)
    : Since start kind next := by
  cases getStep_of_stepGet stepped with
  | @look host wanted attempt looking =>
      cases found : state.certs.hostCert.lookup wanted with
      | none => exact since.setGet since.cached (by simp [GetPhase.inHand]) (by simp)
      | some cert =>
          refine since.setGet since.cached (by simp [GetPhase.inHand]) fun other done => ?_
          cases done
          exact since.cached wanted cert found
  | @loaded host wanted attempt result loading =>
      obtain ⟨inHand, returned⟩ := @afterLoad_brings subHost host attempt result
      refine since.setGet since.cached ?_ ?_
      · intro cert holds
        obtain rfl := inHand cert holds
        exact brings cert rfl
      · intro cert done
        obtain rfl := returned cert done
        exact brings cert rfl
  | @insert host cachedHost cert day inserting =>
      have its : kind cert := since.inHand _ (List.mem_of_getElem? inserting) cert rfl
      refine since.setGet (fun other found known => ?_) (fun other holds => ?_) (by simp)
      · simp only [insertHost, Finmap.lookup_insert_eq] at known
        split at known
        case isTrue => exact Option.some.inj known ▸ its
        case isFalse => exact since.cached other found known
      · cases holds
        exact its
  | @push host cachedHost cert day pushing =>
      have its : kind cert := since.inHand _ (List.mem_of_getElem? pushing) cert rfl
      refine since.setGet since.cached (by simp [GetPhase.inHand]) fun other done => ?_
      cases done
      exact its

/-- Every step keeps to certificates of the kind, if it brings no other from the loader. -/
theorem Since.step {action : Action} (since : Since start kind state)
    (stepped : step subHost state action = some next)
    (brings : ∀ cert, action.loads = some cert → kind cert)
    : Since start kind next := by
  cases action with
  | get id action => exact since.stepGet stepped brings
  | call host =>
      cases stepped
      refine ⟨since.cached, fun call member => ?_, fun id call cert there done => ?_⟩
      · rcases List.mem_append.mp member with member | new
        · exact since.inHand call member
        · obtain rfl := List.mem_singleton.mp new
          exact nofun
      · rcases Nat.lt_or_ge id state.gets.length with old | new
        · rw [stepCall, List.getElem?_append_left old] at there
          exact since.returned id call cert there done
        · rw [stepCall, List.getElem?_append_right new] at there
          obtain rfl := List.mem_singleton.mp (List.mem_of_getElem? there)
          cases done
  | pass now days =>
      cases stepped
      refine ⟨fun host cert known => ?_, since.inHand, since.returned⟩
      -- an eviction only takes entries out of the cache
      simp only [stepPass, lookup_evict] at known
      exact since.cached host cert (Option.ite_none_left_eq_some.mp known).2
  | remove id =>
      obtain ⟨toRmExpire, -, rfl⟩ := stepRemove_eq_some.mp stepped
      exact ⟨since.cached, since.inHand, since.returned⟩

-----------------------------------------------------------------------------------------
-- The pass
-----------------------------------------------------------------------------------------

/-- What a pass leaves in the cache is about to be listed, or is listed for a day that is not
before the threshold. Witness: it was listed for the day of its certificate, or about to be.
-/
theorem Since.stepPass (inv : IndexInvariant atPass) (now days : Int) (later : List Action)
    : Since atPass (Renewed atPass now days later) (stepPass atPass now days) := by
  constructor
  case cached =>
    intro host cert known
    simp only [CertLoader.stepPass, lookup_evict] at known
    obtain ⟨kept, known⟩ := Option.ite_none_left_eq_some.mp known
    rcases inv.cached host cert known with ⟨id, wanted, day, due⟩ | ⟨day, expires, listed, -⟩
    case inl => exact .inHand _ (List.mem_of_getElem? due) rfl
    case inr =>
      refine .late day expires (Int.not_lt.mp fun below => kept ?_)
      obtain ⟨hosts, found, member⟩ := mem_bucket.mp listed
      exact ⟨(day, hosts), mem_expired.mpr ⟨found, below⟩, member⟩
  case inHand => exact fun call member cert holds => .inHand call member holds
  case returned => exact fun id call cert there _ => .inl there

/-- In every run, whatever a call returns after a pass and whatever is cached after it has come
from the loader after the pass as well, or was in hand during the pass, unless its day as a
number of seconds spared it. Before the pass no call may have pushed a host to a day that
another pass was about to remove.
-/
theorem renewed_after_pass (subHost : String → Option String)
    (apart : (certLoader subHost).EachStep PushesApart .init earlier)
    (ran : (certLoader subHost).run .init earlier = some atPass)
    (passed : (certLoader subHost).step atPass (.pass now days) = some next)
    (continued : (certLoader subHost).run next later = some final)
    : (∀ host cert,
        final.certs.hostCert.lookup host = some cert → Renewed atPass now days later cert)
      ∧ ∀ (id : GetId) (call : Get) (cert : Arc Cert),
          final.gets[id]? = some call
          → call.phase = .returned (.ok cert)
          → atPass.gets[id]? ≠ some call
          → Renewed atPass now days later cert := by
  have inv : IndexInvariant atPass :=
    (apart.always (fun _ _ _ inv stepped apart => inv.step stepped apart)
      IndexInvariant.init).last ran
  cases passed
  have brings
      : (certLoader subHost).EachStep
          (fun _ action _ =>
            ∀ cert, action.loads = some cert → Renewed atPass now days later cert)
          (stepPass atPass now days) later :=
    Machine.eachStep_of_actions fun action member _ _ cert loads => .loaded action member loads
  have since : Since atPass (Renewed atPass now days later) final :=
    (brings.always (fun _ _ _ since stepped brings => since.step stepped brings)
      (Since.stepPass inv now days later)).last continued
  refine ⟨since.cached, fun id call cert there done new => ?_⟩
  exact (since.returned id call cert there done).resolve_left new

/-- A host is loaded, its certificate is renewed, and after the next tick a client asks again.
-/
def askAfterTick : List Action :=
  [.remove 0, .call "a.example", .get 1 .look,
    .get 1 (.loaded (.ok (some (certFor 1 "a.example" 1707776000)))), .get 1 .insert,
    .get 1 .push]

/-- The client is given the new certificate. -/
theorem renewed_after_pass_askAfterTick
    : ∃ atPass next final,
        (certLoader fun _ => none).run .init
            (getUntilInserted 0 "a.example" 1700086400 ++ [.get 0 .push])
          = some atPass
        ∧ (certLoader fun _ => none).step atPass (tick 1700000000) = some next
        ∧ (certLoader fun _ => none).run next askAfterTick = some final
        ∧ final.gets[1]?.map (·.phase)
          = some (.returned (.ok (certFor 1 "a.example" 1707776000)))
        ∧ Renewed atPass 1700000000 2 askAfterTick (certFor 1 "a.example" 1707776000) := by
  have ended
      : (((certLoader fun _ => none).run .init
              (getUntilInserted 0 "a.example" 1700086400 ++ [.get 0 .push])).bind fun atPass =>
          ((certLoader fun _ => none).step atPass (tick 1700000000)).bind fun next =>
            ((certLoader fun _ => none).run next askAfterTick).map fun final =>
              (atPass.gets.length, final.gets[1]?))
        = some
          (1,
            some
              {
                host := "a.example"
                phase := .returned (.ok (certFor 1 "a.example" 1707776000))
              }) := by
    decide
  obtain ⟨atPass, ran, ended⟩ := Option.bind_eq_some_iff.mp ended
  obtain ⟨next, passed, ended⟩ := Option.bind_eq_some_iff.mp ended
  obtain ⟨final, continued, ended⟩ := Option.map_eq_some_iff.mp ended
  obtain ⟨one_call, answer⟩ := Prod.mk.inj ended
  refine ⟨atPass, next, final, ran, passed, continued, by simp [answer], ?_⟩
  have renewed := renewed_after_pass (fun _ => none) (by decide) ran passed continued
  refine renewed.2 1 _ _ answer rfl ?_
  simp [List.getElem?_eq_none one_call.le]

end Gway.CertLoader
