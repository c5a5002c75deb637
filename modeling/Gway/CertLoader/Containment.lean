import Gway.CertLoader.CertDir

/-! Whether the loader keeps to its directory. Neither `get` nor the loader looks at what the
host is made of, so a host can lead out of the base by `..` or as an absolute path.
-/

namespace Gway.CertLoader

open UnixPath

/-- The loader is the directory: it answers as `load` does with the files as they are then. -/
def AnswersFrom (certDir : CertDir) (newCert : NewCert) (before : State) (action : Action)
    (_ : State) : Prop :=
  ∀ id result host attempt wanted,
    action = .get id (.loaded result)
    → before.gets[id]? = some { host, phase := .loading attempt wanted }
    → ∃ fs, (certDir.load fs newCert wanted).1 = result

/-- When a call of `get` for the host is at the loader, whatever files there are, each path
that the load probes or reads is inside the base.
-/
def PathsInside (certDir : CertDir) (newCert : NewCert) (host : String) (state : State)
    : Prop :=
  ∀ call ∈ state.gets,
    ∀ attempt wanted,
      call.host = host
      → call.phase = .loading attempt wanted
      → ∀ fs, ∀ path ∈ (certDir.load fs newCert wanted).2, Inside certDir.base path

/-- What a call looks up or loads is its own host or the parent domain of that. -/
def Get.AsksOwn (subHost : String → Option String) (call : Get) : Prop :=
  match call.phase with
  | .looking _ wanted | .loading _ wanted =>
      wanted = call.host ∨ subHost call.host = some wanted
  | _ => True

def State.AsksOwn (subHost : String → Option String) (state : State) : Prop :=
  ∀ call ∈ state.gets, call.AsksOwn subHost

variable {subHost : String → Option String} {state next : State}

/-- Whatever the loader answers, a call goes on to its parent domain or looks no further. -/
theorem afterLoad_asksOwn (host : String) (attempt : Attempt)
    (result : Except Error (Option (Arc Cert)))
    : Get.AsksOwn subHost { host, phase := afterLoad subHost host attempt result } := by
  unfold afterLoad
  split
  case h_1 => trivial
  case h_2 =>
    rcases afterNone_cases subHost host attempt with ⟨sub, parent, next⟩ | next
    · rw [next]
      exact Or.inr parent
    · rw [next]
      trivial
  case h_3 => split <;> trivial

theorem State.AsksOwn.step {action : Action} (own : state.AsksOwn subHost)
    (stepped : step subHost state action = some next)
    : next.AsksOwn subHost := by
  cases action with
  | call host =>
      cases stepped
      intro call member
      rcases List.mem_append.mp member with member | new
      · exact own call member
      · obtain rfl := List.mem_singleton.mp new
        exact Or.inl rfl
  | get id action =>
      cases getStep_of_stepGet stepped with
      | @look host wanted attempt looking =>
          have asks : wanted = host ∨ subHost host = some wanted :=
            own _ (List.mem_of_getElem? looking)
          refine forall_gets_setGet own ?_
          cases state.certs.hostCert.lookup wanted with
          | some cert => trivial
          | none => exact asks
      | @loaded host wanted attempt result loading =>
          exact forall_gets_setGet own (afterLoad_asksOwn host attempt result)
      | insert inserting => exact forall_gets_setGet own trivial
      | push pushing => exact forall_gets_setGet own trivial
  | pass now days =>
      cases stepped
      exact own
  | remove id =>
      obtain ⟨toRmExpire, -, rfl⟩ := stepRemove_eq_some.mp stepped
      exact own

/-- The paths of a load are inside the base, if the host that it is for leads nowhere else. -/
theorem load_inside {certDir : CertDir} {fs : FileSystem} {newCert : NewCert}
    {wanted : String} {path : UnixPath} (stays : StaysInStore wanted)
    (touched : path ∈ (certDir.load fs newCert wanted).2)
    : Inside certDir.base path := by
  rcases CertDir.mem_load touched with rfl | rfl
  · exact (confined_cert.mpr stays).inside_join certDir.base
  · exact (confined_key stays).inside_join certDir.base

/-- A host whose certificate's path is inside every base leads nowhere else. -/
theorem staysInStore_of_inside {wanted : String}
    (inside : ∀ certDir : CertDir, Inside certDir.base (certDir.certPath wanted))
    : StaysInStore wanted :=
  confined_cert.mp (confined_iff_inside.mpr fun base => inside { base })

/-- The first call of all is at the loader after its look-up. -/
theorem run_first (subHost : String → Option String) (host : String)
    : (certLoader subHost).run .init [.call host, .get 0 .look]
      = some
        { State.init with gets := [{ host, phase := .loading .host host }] } := by
  simp [Machine.run, certLoader, step, stepCall, stepGet, State.init, State.setGet, new]

/-- If it finds nothing for the host, it comes back to the loader with the parent domain. -/
theorem run_parent {host sub : String} (parent : subHost host = some sub)
    : (certLoader subHost).run .init
          [.call host, .get 0 .look, .get 0 (.loaded (.ok none)), .get 0 .look]
      = some
        { State.init with gets := [{ host, phase := .loading .parent sub }] } := by
  simp [Machine.run, certLoader, step, stepCall, stepGet, State.init, State.setGet, new,
    afterLoad, afterNone, parent]

/-- For every host, all paths that the loads of its calls probe or read are inside the base,
in every run with a directory as the loader, exactly if neither the host nor its parent
domain leads out of the place that it begins in. Witness: to the right, the first call of a
run, which finds nothing for the host.
-/
theorem paths_inside_iff (subHost : String → Option String) (host : String)
    : (∀ certDir newCert actions,
        (certLoader subHost).EachStep (AnswersFrom certDir newCert) .init actions
        → (certLoader subHost).Always (PathsInside certDir newCert host) .init actions)
      ↔ StaysInStore host ∧ ∀ sub, subHost host = some sub → StaysInStore sub := by
  constructor
  case mp =>
    intro inside
    have visited {actions : List Action} {state : State}
        (ran : (certLoader subHost).run .init actions = some state)
        (nothing : ∀ id result, .get id (.loaded result) ∈ actions → result = .ok none)
        (certDir : CertDir)
        : PathsInside certDir (fun _ _ => .error .privateKeyNotFound) host state := by
      refine (inside certDir _ actions (Machine.eachStep_of_actions ?_)).last ran
      rintro action member before after id result host attempt wanted rfl -
      exact ⟨.empty, by rw [CertDir.load_empty, nothing id result member]⟩
    constructor
    case left =>
      apply staysInStore_of_inside
      intro certDir
      exact visited (run_first subHost host) (by simp) certDir _ List.mem_cons_self
        .host host rfl rfl .empty _ CertDir.certPath_mem_load
    case right =>
      intro sub parent
      apply staysInStore_of_inside
      intro certDir
      exact visited (run_parent parent) (by simp) certDir _ List.mem_cons_self
        .parent sub rfl rfl .empty _ CertDir.certPath_mem_load
  case mpr =>
    rintro ⟨stays, parents⟩ certDir newCert actions answers
    have own
        : (certLoader subHost).Always (State.AsksOwn subHost) .init actions :=
      answers.always (fun _ _ _ own stepped _ => own.step stepped) (by
        intro call member
        cases member)
    refine own.mono fun state own call member attempt wanted same loading fs path touched => ?_
    have asks := own call member
    rw [Get.AsksOwn, loading, same] at asks
    rcases asks with rfl | parent
    · exact load_inside stays touched
    · exact load_inside (parents wanted parent) touched

/-- A client sends a server name that leads out of the directory: the first probe is for a
file elsewhere. Witness: where the path leads, by evaluation.
-/
theorem sni_leads_outside
    : ∃ state,
        (certLoader fun _ => none).run .init [.call "../../etc/ssl/x", .get 0 .look]
          = some state
        ∧ (certLoader fun _ => none).EachStep
            (AnswersFrom { base := "/srv/ssl".toList }
              fun _ _ => .error .privateKeyNotFound)
            .init [.call "../../etc/ssl/x", .get 0 .look]
        ∧ ¬ PathsInside { base := "/srv/ssl".toList }
            (fun _ _ => .error .privateKeyNotFound) "../../etc/ssl/x" state := by
  refine ⟨_, run_first _ "../../etc/ssl/x", ?_, fun inside => ?_⟩
  case refine_1 =>
    apply Machine.eachStep_of_actions
    rintro action member before after id result host attempt wanted rfl
    simp at member
  case refine_2 =>
    have probed :=
      inside _ List.mem_cons_self .host "../../etc/ssl/x" rfl rfl .empty _
        CertDir.certPath_mem_load
    have outside
        : ¬ Inside "/srv/ssl".toList
            (join "/srv/ssl".toList ("../../etc/ssl/x" ++ "_ecc/fullchain.cer").toList) := by
      decide
    exact outside probed

example : ¬ StaysInStore "/etc/ssl/x" := by decide

end Gway.CertLoader
