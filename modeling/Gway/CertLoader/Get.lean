import Gway.CertLoader.System

/-! `get` as one call that nothing comes between, and as a run of the interleaved calls. -/

namespace Gway.CertLoader

/-- A loader that answers by the host alone. -/
abbrev Load := String → Except Error (Option (Arc Cert))

/-- `cert_by_host`. -/
def certByHost (load : Load) (certs : CertLoader) (host : String)
    : Except Failure (Option (Arc Cert)) × CertLoader :=
  match certs.hostCert.lookup host with
  | some cert => (.ok (some cert), certs)
  | none =>
      match load host with
      | .error error => (.error (.err error), certs)
      | .ok none => (.ok none, certs)
      | .ok (some cert) =>
          match cacheEntry cert.val with
          | .error failure => (.error failure, certs)
          | .ok none => (.ok (some cert), certs)
          | .ok (some (shortestHost, certExpire)) =>
              (.ok (some cert),
                (certs.insertHost shortestHost cert).pushExpire certExpire shortestHost)

/-- `get`: the certificate of the host, or else of its parent domain. -/
def get (subHost : String → Option String) (load : Load) (certs : CertLoader)
    (host : String)
    : Except Failure (Arc Cert) × CertLoader :=
  match certs.certByHost load host with
  | (.error failure, certs) => (.error failure, certs)
  | (.ok (some cert), certs) => (.ok cert, certs)
  | (.ok none, certs) =>
      match subHost host with
      | none => (.error (.err (.certNotFound host)), certs)
      | some sub =>
          match certs.certByHost load sub with
          | (.error failure, certs) => (.error failure, certs)
          | (.ok (some cert), certs) => (.ok cert, certs)
          | (.ok none, certs) => (.error (.err (.certNotFound host)), certs)

variable {subHost : String → Option String}

/-- Where a call is after `cert_by_host` for one of its two hosts. -/
def afterCertByHost (subHost : String → Option String) (host : String) (attempt : Attempt)
    : Except Failure (Option (Arc Cert)) → GetPhase
  | .error failure => .returned (.error failure)
  | .ok (some cert) => .returned (.ok cert)
  | .ok none => afterNone subHost host attempt

/-- The state after a call has done what `cert_by_host` does for the host that it looks for. -/
def State.callCertByHost (subHost : String → Option String) (load : Load) (state : State)
    (id : GetId) (host : String) (attempt : Attempt) (wanted : String) : State :=
  let (result, certs) := state.certs.certByHost load wanted
  { state.setGet id { host, phase := afterCertByHost subHost host attempt result } with certs }

section Steps

variable {state : State} {id : GetId} {call : Get}

theorem gets_setGet (present : id < state.gets.length)
    : (state.setGet id call).gets[id]? = some call := by
  simp [State.setGet, present]

theorem setGet_setGet (other : Get)
    : (state.setGet id other).setGet id call = state.setGet id call := by
  simp [State.setGet]

variable {host wanted : String} {attempt : Attempt}

/-- The look-up of a host that is cached ends the call. -/
theorem run_look_hit {cert : Arc Cert}
    (looking : state.gets[id]? = some { host, phase := .looking attempt wanted })
    (found : state.certs.hostCert.lookup wanted = some cert)
    : (certLoader subHost).run state [.get id .look]
      = some (state.setGet id { host, phase := .returned (.ok cert) }) := by
  refine Machine.run_cons.mpr ⟨_, ?_, rfl⟩
  simp [certLoader, step, stepGet, looking, found]

/-- A host that is not cached is looked up and then loaded. -/
theorem run_look_miss {result : Except Error (Option (Arc Cert))} {rest : List Action}
    (looking : state.gets[id]? = some { host, phase := .looking attempt wanted })
    (missing : state.certs.hostCert.lookup wanted = none)
    : (certLoader subHost).run state (.get id .look :: .get id (.loaded result) :: rest)
      = (certLoader subHost).run
          (state.setGet id { host, phase := afterLoad subHost host attempt result }) rest := by
  obtain ⟨present, -⟩ := List.getElem?_eq_some_iff.mp looking
  have looked
      : (certLoader subHost).step state (.get id .look)
        = some (state.setGet id { host, phase := .loading attempt wanted }) := by
    simp [certLoader, step, stepGet, looking, missing]
  have loaded
      : (certLoader subHost).step
            (state.setGet id { host, phase := .loading attempt wanted })
            (.get id (.loaded result))
        = some (state.setGet id { host, phase := afterLoad subHost host attempt result }) := by
    simp [certLoader, step, stepGet, gets_setGet present, setGet_setGet]
  simp only [Machine.run, looked, loaded, Option.bind_some]

/-- A loaded certificate with a name is inserted and then listed. -/
theorem run_insert_push {cachedHost : String} {cert : Arc Cert} {day : Int}
    (inserting : state.gets[id]? = some { host, phase := .inserting cachedHost cert day })
    : (certLoader subHost).run state [.get id .insert, .get id .push]
      = some
        { state.setGet id { host, phase := .returned (.ok cert) } with
          certs := (state.certs.insertHost cachedHost cert).pushExpire day cachedHost } := by
  obtain ⟨present, -⟩ := List.getElem?_eq_some_iff.mp inserting
  have inserted
      : (certLoader subHost).step state (.get id .insert)
        = some
          { state.setGet id { host, phase := .pushing cachedHost cert day } with
            certs := state.certs.insertHost cachedHost cert } := by
    simp [certLoader, step, stepGet, inserting]
  refine Machine.run_cons.mpr ⟨_, inserted, Machine.run_cons.mpr ⟨_, ?_, rfl⟩⟩
  simp only [certLoader, step, stepGet, gets_setGet present]
  simp only [State.setGet, List.set_set]

/-- A call that looks for a host can do what `cert_by_host` does. Witness: the operations on
the two maps, in the order of the branch that is taken.
-/
theorem certByHost_run (load : Load)
    (looking : state.gets[id]? = some { host, phase := .looking attempt wanted })
    : ∃ actions,
        (certLoader subHost).run state actions
        = some (state.callCertByHost subHost load id host attempt wanted) := by
  obtain ⟨present, -⟩ := List.getElem?_eq_some_iff.mp looking
  cases found : state.certs.hostCert.lookup wanted with
  | some cert =>
      refine ⟨[.get id .look], (run_look_hit looking found).trans ?_⟩
      simp only [State.callCertByHost, certByHost, found, afterCertByHost, State.setGet]
  | none =>
      -- without an insertion the call is where the loader's answer takes it
      have plain (result : Except Failure (Option (Arc Cert)))
          (own : state.certs.certByHost load wanted = (result, state.certs))
          (same
            : afterLoad subHost host attempt (load wanted)
              = afterCertByHost subHost host attempt result)
          : (certLoader subHost).run state [.get id .look, .get id (.loaded (load wanted))]
            = some (state.callCertByHost subHost load id host attempt wanted) := by
        rw [run_look_miss looking found, same, State.callCertByHost, own]
        rfl
      cases answer : load wanted with
      | error error =>
          exact ⟨_, plain (.error (.err error)) (by simp only [certByHost, found, answer])
            (by rw [answer]; rfl)⟩
      | ok loaded =>
          cases loaded with
          | none =>
              exact ⟨_, plain (.ok none) (by simp only [certByHost, found, answer])
                (by rw [answer]; rfl)⟩
          | some cert =>
              cases entry : cacheEntry cert.val with
              | error failure =>
                  exact ⟨_, plain (.error failure)
                    (by simp only [certByHost, found, answer, entry])
                    (by simp only [answer, afterLoad, entry, afterCertByHost])⟩
              | ok named =>
                  cases named with
                  | none =>
                      exact ⟨_, plain (.ok (some cert))
                        (by simp only [certByHost, found, answer, entry])
                        (by simp only [answer, afterLoad, entry, afterCertByHost])⟩
                  | some named =>
                      obtain ⟨name, day⟩ := named
                      have inserting
                          : (state.setGet id { host, phase := .inserting name cert day }).gets[id]?
                            = some { host, phase := .inserting name cert day } :=
                        gets_setGet present
                      refine ⟨[.get id .look, .get id (.loaded (load wanted)),
                        .get id .insert, .get id .push], ?_⟩
                      rw [run_look_miss looking found, answer]
                      simp only [afterLoad, entry, run_insert_push inserting, setGet_setGet,
                        State.callCertByHost, certByHost, found, answer, afterCertByHost]
                      rfl

end Steps

/-- A call of `get` that nothing comes between answers and leaves the two maps as `get` says.
Witness: what `cert_by_host` does for the host and, if need be, for the parent domain.
-/
theorem get_run (load : Load) (state : State) (host : String)
    : ∃ actions,
        (certLoader subHost).run state actions
        = some
          { state with
            certs := (state.certs.get subHost load host).2
            gets :=
              state.gets
                ++ [{ host, phase := .returned (state.certs.get subHost load host).1 }] } := by
  have looking
      : (stepCall state host).gets[state.gets.length]?
        = some { host, phase := .looking .host host } := by
    simp [stepCall]
  obtain ⟨first, ran⟩ := certByHost_run load looking
  have called : (certLoader subHost).run state (.call host :: first) = some _ :=
    Machine.run_cons.mpr ⟨_, rfl, ran⟩
  rcases own : state.certs.certByHost load host with ⟨failure | _ | cert, certs⟩
  case error =>
    refine ⟨.call host :: first, called.trans ?_⟩
    simp [State.callCertByHost, stepCall, own, get, afterCertByHost, State.setGet]
  case ok.some =>
    refine ⟨.call host :: first, called.trans ?_⟩
    simp [State.callCertByHost, stepCall, own, get, afterCertByHost, State.setGet]
  case ok.none =>
    cases parent : subHost host with
    | none =>
        refine ⟨.call host :: first, called.trans ?_⟩
        simp [State.callCertByHost, stepCall, own, get, afterCertByHost, State.setGet, parent,
          afterNone]
    | some sub =>
        have middle
            : (stepCall state host).callCertByHost subHost load state.gets.length host .host
                host
              = { state with
                  certs
                  gets := state.gets ++ [{ host, phase := .looking .parent sub }] } := by
          simp [State.callCertByHost, stepCall, own, afterCertByHost, State.setGet, parent,
            afterNone]
        have looking
            : { state with
                certs
                gets := state.gets ++ [{ host, phase := .looking .parent sub }]
                : State }.gets[state.gets.length]?
              = some { host, phase := .looking .parent sub } := by
          simp
        obtain ⟨second, later⟩ := certByHost_run load looking
        refine ⟨_, (Machine.run_append (middle ▸ called) later).trans ?_⟩
        rcases other : certs.certByHost load sub with ⟨failure | _ | cert, certs⟩ <;>
          simp [State.callCertByHost, other, get, own, parent, afterCertByHost, afterNone,
            State.setGet]

end Gway.CertLoader
