import Gway.CertLoader
import Gway.Library.Machine

/-! Calls of `get` and `rm_expired` on one certificate cache, interleaved between their
operations on the two maps.
-/

namespace Gway.CertLoader

abbrev GetId := Nat
abbrev RmId := Nat

/-- `get` looks up the certificate of its host and then that of the parent domain. -/
inductive Attempt where
  | host
  | parent
deriving DecidableEq, Repr

/-- Where a call of `get` is in `cert_by_host`: before the look-up in `host_cert`, waiting
for the loader, before the insertion of a loaded certificate, or before the push of its host
to the day of its expiry.
-/
inductive GetPhase where
  | looking (attempt : Attempt) (host : String)
  | loading (attempt : Attempt) (host : String)
  | inserting (cachedHost : String) (cert : Arc Cert) (day : Int)
  | pushing (cachedHost : String) (cert : Arc Cert) (day : Int)
  | returned (result : Except Failure (Arc Cert))
deriving DecidableEq

/-- A call of `get` for a host, in some phase. -/
structure Get where
  host : String
  phase : GetPhase
deriving DecidableEq

/-- A call of `rm_expired` has made its pass and not yet removed the buckets it visited, or
it has finished.
-/
inductive RmPhase where
  | collected (toRmExpire : List Int)
  | finished
deriving DecidableEq, Repr

/-- The buckets that the call is going to remove. -/
def RmPhase.toRmExpire : RmPhase → List Int
  | .collected toRmExpire => toRmExpire
  | .finished => []

/-- Calls are numbered in the order in which they begin. -/
structure State where
  certs : CertLoader
  gets : List Get
  rms : List RmPhase

def State.init : State where
  certs := .new
  gets := []
  rms := []

inductive GetAction where
  | look
  | loaded (result : Except Error (Option (Arc Cert)))
  | insert
  | push
deriving DecidableEq

/-- A call of `rm_expired` begins with its pass, at the time `now`. -/
inductive Action where
  | call (host : String)
  | get (id : GetId) (action : GetAction)
  | pass (now days : Int)
  | remove (id : RmId)
deriving DecidableEq

/-- What `get` does when there is no certificate for a host: it tries the parent domain, if
there is one and it has not been tried.
-/
def afterNone (subHost : String → Option String) (host : String) : Attempt → GetPhase
  | .host =>
      match subHost host with
      | some sub => .looking .parent sub
      | none => .returned (.error (.err (.certNotFound host)))
  | .parent => .returned (.error (.err (.certNotFound host)))

/-- What `get` does with the loader's answer: a certificate with a name is cached. -/
def afterLoad (subHost : String → Option String) (host : String) (attempt : Attempt)
    : Except Error (Option (Arc Cert)) → GetPhase
  | .error error => .returned (.error (.err error))
  | .ok none => afterNone subHost host attempt
  | .ok (some cert) =>
      match cacheEntry cert.val with
      | .error failure => .returned (.error failure)
      | .ok none => .returned (.ok cert)
      | .ok (some (cachedHost, day)) => .inserting cachedHost cert day

def State.setGet (state : State) (id : GetId) (call : Get) : State :=
  { state with gets := state.gets.set id call }

/-- One operation of a call of `get`. The answer of the loader may be any. -/
def stepGet (subHost : String → Option String) (state : State) (id : GetId)
    : GetAction → Option State
  | .look =>
      match state.gets[id]? with
      | some { host, phase := .looking attempt wanted } =>
          let phase :=
            match state.certs.hostCert.lookup wanted with
            | some cert => .returned (.ok cert)
            | none => .loading attempt wanted
          some (state.setGet id { host, phase })
      | _ => none
  | .loaded result =>
      match state.gets[id]? with
      | some { host, phase := .loading attempt _ } =>
          some (state.setGet id { host, phase := afterLoad subHost host attempt result })
      | _ => none
  | .insert =>
      match state.gets[id]? with
      | some { host, phase := .inserting cachedHost cert day } =>
          some
            { state.setGet id { host, phase := .pushing cachedHost cert day } with
              certs := state.certs.insertHost cachedHost cert }
      | _ => none
  | .push =>
      match state.gets[id]? with
      | some { host, phase := .pushing cachedHost cert day } =>
          some
            { state.setGet id { host, phase := .returned (.ok cert) } with
              certs := state.certs.pushExpire day cachedHost }
      | _ => none

/-- The pass of `rm_expired` under the read lock. Without a bucket to remove the call ends
with it.
-/
def stepPass (state : State) (now days : Int) : State :=
  let buckets := state.certs.expired now days
  let phase := if buckets = [] then .finished else .collected (buckets.map Prod.fst)
  { state with certs := state.certs.evict buckets, rms := state.rms ++ [phase] }

/-- The removal of `rm_expired` under the write lock. -/
def stepRemove (state : State) (id : RmId) : Option State :=
  match state.rms[id]? with
  | some (.collected toRmExpire) =>
      some
        { state with
          certs := state.certs.removeBuckets toRmExpire
          rms := state.rms.set id .finished }
  | _ => none

/-- A call of `get` begins with its own host. -/
def stepCall (state : State) (host : String) : State :=
  { state with gets := state.gets ++ [{ host, phase := .looking .host host }] }

def step (subHost : String → Option String) (state : State) : Action → Option State
  | .call host => some (stepCall state host)
  | .get id action => stepGet subHost state id action
  | .pass now days => some (stepPass state now days)
  | .remove id => stepRemove state id

/-- The cache in use. -/
def certLoader (subHost : String → Option String) : Machine State Action where
  init := .init
  step := step subHost

-----------------------------------------------------------------------------------------
-- What a step does
-----------------------------------------------------------------------------------------

theorem afterNone_cases (subHost : String → Option String) (host : String)
    (attempt : Attempt)
    : (∃ sub, subHost host = some sub ∧ afterNone subHost host attempt = .looking .parent sub)
      ∨ afterNone subHost host attempt = .returned (.error (.err (.certNotFound host))) := by
  cases attempt with
  | parent => exact Or.inr rfl
  | host =>
      cases parent : subHost host with
      | none => exact Or.inr (by simp only [afterNone, parent])
      | some sub => exact Or.inl ⟨sub, rfl, by simp only [afterNone, parent]⟩

/-- The operations of a call of `get`, each with the phase that the call has to be in. -/
inductive GetStep (subHost : String → Option String) (state : State) (id : GetId)
    : GetAction → State → Prop where
  | look {host wanted : String} {attempt : Attempt}
      (looking : state.gets[id]? = some { host, phase := .looking attempt wanted })
      : GetStep subHost state id .look
          (state.setGet id
            {
              host
              phase :=
                match state.certs.hostCert.lookup wanted with
                | some cert => .returned (.ok cert)
                | none => .loading attempt wanted
            })
  | loaded {host wanted : String} {attempt : Attempt}
      {result : Except Error (Option (Arc Cert))}
      (loading : state.gets[id]? = some { host, phase := .loading attempt wanted })
      : GetStep subHost state id (.loaded result)
          (state.setGet id { host, phase := afterLoad subHost host attempt result })
  | insert {host cachedHost : String} {cert : Arc Cert} {day : Int}
      (inserting : state.gets[id]? = some { host, phase := .inserting cachedHost cert day })
      : GetStep subHost state id .insert
          { state.setGet id { host, phase := .pushing cachedHost cert day } with
            certs := state.certs.insertHost cachedHost cert }
  | push {host cachedHost : String} {cert : Arc Cert} {day : Int}
      (pushing : state.gets[id]? = some { host, phase := .pushing cachedHost cert day })
      : GetStep subHost state id .push
          { state.setGet id { host, phase := .returned (.ok cert) } with
            certs := state.certs.pushExpire day cachedHost }

theorem getStep_of_stepGet {subHost : String → Option String} {state next : State}
    {id : GetId} {action : GetAction} (stepped : stepGet subHost state id action = some next)
    : GetStep subHost state id action next := by
  cases action with
  | look =>
      simp only [stepGet] at stepped
      split at stepped
      case h_1 looking =>
        cases stepped
        exact .look looking
      case h_2 => contradiction
  | loaded result =>
      simp only [stepGet] at stepped
      split at stepped
      case h_1 loading =>
        cases stepped
        exact .loaded loading
      case h_2 => contradiction
  | insert =>
      simp only [stepGet] at stepped
      split at stepped
      case h_1 inserting =>
        cases stepped
        exact .insert inserting
      case h_2 => contradiction
  | push =>
      simp only [stepGet] at stepped
      split at stepped
      case h_1 pushing =>
        cases stepped
        exact .push pushing
      case h_2 => contradiction

/-- What holds of all calls holds after one of them is set to a call of which it holds. -/
theorem forall_gets_setGet {property : Get → Prop} {state : State} {id : GetId} {call : Get}
    (all : ∀ found ∈ state.gets, property found) (holds : property call)
    : ∀ found ∈ (state.setGet id call).gets, property found := by
  intro found member
  rcases List.mem_or_eq_of_mem_set member with member | rfl
  · exact all found member
  · exact holds

theorem stepRemove_eq_some {state next : State} {id : RmId}
    : stepRemove state id = some next
      ↔ ∃ toRmExpire,
          state.rms[id]? = some (.collected toRmExpire)
          ∧ { state with
              certs := state.certs.removeBuckets toRmExpire
              rms := state.rms.set id .finished } = next := by
  unfold stepRemove
  split
  case h_1 toRmExpire collected => simp [collected]
  case h_2 other =>
    simp only [reduceCtorEq, false_iff]
    rintro ⟨toRmExpire, collected, -⟩
    exact other toRmExpire collected

end Gway.CertLoader
