import Gway.CertLoader.Containment
import Gway.CertLoader.Renewal

/-! What `Cert::new` makes of the two files of a host, and that no other certificate is ever
given to a client: both halves of one, that of HTTP/2 and that of HTTP/3, are built from the same
two texts.
-/

namespace Gway

/-- The libraries that read certificates and keys. Errors are represented by their texts. -/
structure TlsLibraries (Config PrivateKeyDer : Type) where
  buildServer (fullchain key : String) : Except String Config
  certs (fullchain : String) : Except String (List CertificateDer)
  privateKey (key : String) : Except String (Option PrivateKeyDer)

/-- The chain and the key that a connection over HTTP/2 is given. -/
structure Rusttls (PrivateKeyDer : Type) where
  fullchain : List CertificateDer
  key : PrivateKeyDer

/-- A certificate with all its parts: `s2n` is the configuration for HTTP/3. -/
structure FullCert (Config PrivateKeyDer : Type) where
  s2n : Config
  rustls : Rusttls PrivateKeyDer

variable {Config PrivateKeyDer : Type}

/-- `Cert::new`. -/
def FullCert.new (libraries : TlsLibraries Config PrivateKeyDer) (fullchain key : String)
    : Except Error (FullCert Config PrivateKeyDer) :=
  match libraries.buildServer fullchain key with
  | .error err => .error (.s2nQuicTls err)
  | .ok tlsConfig =>
      match libraries.certs fullchain with
      | .error e => .error (.certParse ("证书解析失败: " ++ e))
      | .ok chain =>
          match libraries.privateKey key with
          | .error e => .error (.certParse ("私钥解析失败: " ++ e))
          | .ok none => .error .privateKeyNotFound
          | .ok (some key) => .ok { s2n := tlsConfig, rustls := { fullchain := chain, key } }

/-- The allocation of a certificate, of which the cache reads the chain. -/
def FullCert.arc (ptr : FullCert Config PrivateKeyDer → Nat)
    (cert : FullCert Config PrivateKeyDer) : Arc Cert where
  ptr := ptr cert
  val := { fullchain := cert.rustls.fullchain }

/-- What `load` does with the texts of the two files. -/
def FullCert.load (libraries : TlsLibraries Config PrivateKeyDer)
    (ptr : FullCert Config PrivateKeyDer → Nat) : NewCert :=
  fun fullchain key => (FullCert.new libraries fullchain key).map (arc ptr)

/-- `Cert::new` succeeds exactly if both libraries take the texts and there is a key. -/
theorem FullCert.new_eq_ok {libraries : TlsLibraries Config PrivateKeyDer}
    {fullchain key : String} {cert : FullCert Config PrivateKeyDer}
    : FullCert.new libraries fullchain key = .ok cert
      ↔ libraries.buildServer fullchain key = .ok cert.s2n
        ∧ libraries.certs fullchain = .ok cert.rustls.fullchain
        ∧ libraries.privateKey key = .ok (some cert.rustls.key) := by
  unfold FullCert.new
  cases libraries.buildServer fullchain key with
  | error err => simp
  | ok tlsConfig =>
      cases libraries.certs fullchain with
      | error err => simp
      | ok chain =>
          rcases libraries.privateKey key with err | _ | found
          case error => simp
          case ok.none => simp
          case ok.some =>
            obtain ⟨s2n, rustls⟩ := cert
            obtain ⟨fullchain, key⟩ := rustls
            simp

namespace CertLoader

-----------------------------------------------------------------------------------------
-- The cache with the directory as its loader
-----------------------------------------------------------------------------------------

/-- What happens to the cache and its calls. A load carries the files as they are while it is
under way.
-/
inductive DirAction where
  | call (host : String)
  | look (id : GetId)
  | load (id : GetId) (fs : FileSystem)
  | insert (id : GetId)
  | push (id : GetId)
  | pass (now days : Int)
  | remove (id : RmId)

/-- What that is for the cache: a load gives what the directory makes of the files of the host
that the call is loading.
-/
def DirAction.onCache (certDir : CertDir) (newCert : NewCert) (state : State)
    : DirAction → Option Action
  | .call host => some (.call host)
  | .look id => some (.get id .look)
  | .load id fs =>
      match state.gets[id]? with
      | some { host := _, phase := .loading _ wanted } =>
          some (.get id (.loaded (certDir.load fs newCert wanted).1))
      | _ => none
  | .insert id => some (.get id .insert)
  | .push id => some (.get id .push)
  | .pass now days => some (.pass now days)
  | .remove id => some (.remove id)

/-- The cache in use with the directory as its loader. -/
def fromDirectory (subHost : String → Option String) (certDir : CertDir) (newCert : NewCert)
    : Machine State DirAction where
  init := .init
  step state action := (action.onCache certDir newCert state).bind (step subHost state)

variable {subHost : String → Option String} {certDir : CertDir} {newCert : NewCert}
  {state next final : State}

theorem load_eq_some {id : GetId} {fs : FileSystem} {action : Action}
    : DirAction.onCache certDir newCert state (.load id fs) = some action
      ↔ ∃ host attempt wanted,
          state.gets[id]? = some { host, phase := .loading attempt wanted }
          ∧ .get id (.loaded (certDir.load fs newCert wanted).1) = action := by
  simp only [DirAction.onCache]
  split
  case h_1 host attempt wanted loading => simp [loading]
  case h_2 other =>
    simp only [reduceCtorEq, false_iff]
    rintro ⟨host, attempt, wanted, loading, -⟩
    exact other host attempt wanted loading

/-- Its steps are those of the cache in which the loader answers from the directory. -/
theorem fromDirectory_step_iff
    : (∃ action, (fromDirectory subHost certDir newCert).step state action = some next)
      ↔ ∃ action,
          step subHost state action = some next
          ∧ AnswersFrom certDir newCert state action next := by
  constructor
  · rintro ⟨action, stepped⟩
    obtain ⟨onCache, moves, stepped⟩ := Option.bind_eq_some_iff.mp stepped
    refine ⟨onCache, stepped, fun id result host attempt wanted loaded loading => ?_⟩
    subst loaded
    cases action with
    | load other fs =>
        obtain ⟨_, _, _, there, same⟩ := load_eq_some.mp moves
        cases same
        cases there.symm.trans loading
        exact ⟨fs, rfl⟩
    | _ => cases moves
  · rintro ⟨action, stepped, answers⟩
    have moves (own : DirAction) (moves : own.onCache certDir newCert state = some action)
        : ∃ own, (fromDirectory subHost certDir newCert).step state own = some next :=
      ⟨own, Option.bind_eq_some_iff.mpr ⟨action, moves, stepped⟩⟩
    cases action with
    | call host => exact moves (.call host) rfl
    | pass now days => exact moves (.pass now days) rfl
    | remove id => exact moves (.remove id) rfl
    | get id action =>
        cases getStep_of_stepGet stepped with
        | look => exact moves (.look id) rfl
        | insert => exact moves (.insert id) rfl
        | push => exact moves (.push id) rfl
        | @loaded host wanted attempt result loading =>
            obtain ⟨fs, rfl⟩ := answers id result host attempt wanted rfl loading
            exact moves (.load id fs) (load_eq_some.mpr ⟨_, _, _, loading, rfl⟩)

/-- So its runs are those in which all answers are from the directory, by induction on them. -/
theorem fromDirectory_run_iff
    : (∃ actions, (fromDirectory subHost certDir newCert).run state actions = some final)
      ↔ ∃ actions,
          (certLoader subHost).run state actions = some final
          ∧ (certLoader subHost).EachStep (AnswersFrom certDir newCert) state actions := by
  constructor
  · rintro ⟨actions, ran⟩
    induction actions generalizing state with
    | nil => exact ⟨[], ran, trivial⟩
    | cons action rest ih =>
        obtain ⟨next, stepped, later⟩ := Machine.run_cons.mp ran
        obtain ⟨onCache, moved, answers⟩ := fromDirectory_step_iff.mp ⟨action, stepped⟩
        obtain ⟨others, ran, each⟩ := ih later
        refine ⟨onCache :: others, Machine.run_cons.mpr ⟨next, moved, ran⟩, ?_⟩
        intro other also
        cases moved.symm.trans also
        exact ⟨answers, each⟩
  · rintro ⟨actions, ran, each⟩
    induction actions generalizing state with
    | nil => exact ⟨[], ran⟩
    | cons onCache others ih =>
        obtain ⟨next, moved, later⟩ := Machine.run_cons.mp ran
        obtain ⟨answers, each⟩ := each next moved
        obtain ⟨action, stepped⟩ := fromDirectory_step_iff.mpr ⟨onCache, moved, answers⟩
        obtain ⟨rest, ran⟩ := ih later each
        exact ⟨action :: rest, Machine.run_cons.mpr ⟨next, stepped, ran⟩⟩

-----------------------------------------------------------------------------------------
-- Where the certificates come from
-----------------------------------------------------------------------------------------

/-- The certificate was built from the texts of the two files of the host among these files: the
configuration for HTTP/3 and the chain for HTTP/2 from the same one.
-/
def BuiltFrom (certDir : CertDir) (fs : FileSystem)
    (libraries : TlsLibraries Config PrivateKeyDer)
    (ptr : FullCert Config PrivateKeyDer → Nat) (host : String) (cert : Arc Cert) : Prop :=
  ∃ (fullchain key : String) (built : FullCert Config PrivateKeyDer),
    fs.readToString (certDir.certPath host) = .ok fullchain
    ∧ fs.readToString (certDir.keyPath host) = .ok key
    ∧ libraries.buildServer fullchain key = .ok built.s2n
    ∧ libraries.certs fullchain = .ok built.rustls.fullchain
    ∧ libraries.privateKey key = .ok (some built.rustls.key)
    ∧ cert = built.arc ptr

/-- The certificate was built at a load of the run, from the files of that load: `before` are the
actions up to it, after which the call `id` of a client who asked for `asked` was loading
`host`, which is what was asked for or its parent domain.
-/
structure LoadedFor (subHost : String → Option String) (certDir : CertDir)
    (libraries : TlsLibraries Config PrivateKeyDer)
    (ptr : FullCert Config PrivateKeyDer → Nat) (before : List DirAction) (id : GetId)
    (fs : FileSystem) (asked host : String) (cert : Arc Cert) : Prop where
  called : .call asked ∈ before
  wanted : host = asked ∨ subHost asked = some host
  loading
    : ∃ state attempt,
        (fromDirectory subHost certDir (FullCert.load libraries ptr)).run .init before
          = some state
        ∧ state.gets[id]? = some { host := asked, phase := .loading attempt host }
  built : BuiltFrom certDir fs libraries ptr host cert

/-- The certificate was built from the files of a host that a client has asked for, or of the
parent domain of one, as they were at a load for that host.
-/
def FromFiles (subHost : String → Option String) (certDir : CertDir)
    (libraries : TlsLibraries Config PrivateKeyDer)
    (ptr : FullCert Config PrivateKeyDer → Nat) (actions : List DirAction) (cert : Arc Cert)
    : Prop :=
  ∃ before after id fs asked host,
    actions = before ++ .load id fs :: after
    ∧ LoadedFor subHost certDir libraries ptr before id fs asked host cert

variable {fs : FileSystem} {libraries : TlsLibraries Config PrivateKeyDer}
  {ptr : FullCert Config PrivateKeyDer → Nat} {host : String} {cert : Arc Cert}
  {past actions : List DirAction}

/-- A load that gives a certificate has read both files of the host. -/
theorem builtFrom_of_load
    (loaded : (certDir.load fs (FullCert.load libraries ptr) host).1 = .ok (some cert))
    : BuiltFrom certDir fs libraries ptr host cert := by
  simp only [CertDir.load] at loaded
  split at loaded
  case isTrue => cases loaded
  case isFalse =>
    split at loaded
    case isTrue => cases loaded
    case isFalse =>
      split at loaded
      case h_1 => cases loaded
      case h_2 fullchain read_cert =>
        split at loaded
        case h_1 => cases loaded
        case h_2 key read_key =>
          cases new : FullCert.new libraries fullchain key with
          | error err =>
              simp [FullCert.load, new, Except.map] at loaded
          | ok built =>
              simp only [FullCert.load, new, Except.map, Except.ok.injEq,
                Option.some.injEq] at loaded
              obtain ⟨server, chain, private_key⟩ := FullCert.new_eq_ok.mp new
              exact ⟨fullchain, key, built, read_cert, read_key, server, chain, private_key,
                loaded.symm⟩

/-- What was loaded in a run has been loaded in every run that goes on from it. -/
theorem FromFiles.append (loaded : FromFiles subHost certDir libraries ptr past cert)
    (action : DirAction)
    : FromFiles subHost certDir libraries ptr (past ++ [action]) cert := by
  obtain ⟨before, after, id, fs, asked, host, rfl, load⟩ := loaded
  exact ⟨before, after ++ [action], id, fs, asked, host, by simp, load⟩

/-- Every call is for a host that a client has asked for. -/
def Requested (past : List DirAction) (state : State) : Prop :=
  ∀ call ∈ state.gets, .call call.host ∈ past

theorem Requested.step {action : DirAction} {onCache : Action} (requested : Requested past state)
    (moves : action.onCache certDir newCert state = some onCache)
    (stepped : step subHost state onCache = some next)
    : Requested (past ++ [action]) next := by
  have before : Requested (past ++ [action]) state :=
    fun call member => List.mem_append_left _ (requested call member)
  cases onCache with
  | call host =>
      cases stepped
      intro call present
      rcases List.mem_append.mp present with old | new
      · exact before call old
      · obtain rfl := List.mem_singleton.mp new
        cases action with
        | call => cases moves; simp
        | load id fs =>
            obtain ⟨_, _, _, -, other⟩ := load_eq_some.mp moves
            cases other
        | _ => cases moves
  | get id action =>
      cases getStep_of_stepGet stepped with
      | look there | loaded there | insert there | push there =>
          have asked := before _ (List.mem_of_getElem? there)
          exact forall_gets_setGet before asked
  | pass now days =>
      cases stepped
      exact before
  | remove id =>
      obtain ⟨toRmExpire, -, rfl⟩ := stepRemove_eq_some.mp stepped
      exact before

/-- Calls ask for what clients asked for, and all certificates come from the files of that. -/
structure ProvenanceInvariant (subHost : String → Option String) (certDir : CertDir)
    (libraries : TlsLibraries Config PrivateKeyDer)
    (ptr : FullCert Config PrivateKeyDer → Nat) (past : List DirAction) (state : State)
    : Prop where
  ran
    : (fromDirectory subHost certDir (FullCert.load libraries ptr)).run .init past = some state
  own : state.AsksOwn subHost
  requested : Requested past state
  since : Since .init (FromFiles subHost certDir libraries ptr past) state

theorem ProvenanceInvariant.init
    : ProvenanceInvariant subHost certDir libraries ptr [] .init where
  ran := rfl
  own := by rintro call ⟨⟩
  requested := by rintro call ⟨⟩
  since :=
    {
      cached := fun host cert found => by simp [State.init, new] at found
      inHand := by rintro call ⟨⟩
      returned := by rintro id call cert ⟨⟩
    }

/-- What a load brings is built from the files of the host that its call asks for. -/
theorem ProvenanceInvariant.brings {action : DirAction} {onCache : Action}
    (inv : ProvenanceInvariant subHost certDir libraries ptr past state)
    (moves : action.onCache certDir (FullCert.load libraries ptr) state = some onCache)
    (brings : onCache.loads = some cert)
    : FromFiles subHost certDir libraries ptr (past ++ [action]) cert := by
  cases action with
  | load id fs =>
      obtain ⟨asked, attempt, host, loading, rfl⟩ := load_eq_some.mp moves
      have member := List.mem_of_getElem? loading
      have asks : host = asked ∨ subHost asked = some host := inv.own _ member
      have given : (certDir.load fs (FullCert.load libraries ptr) host).1 = .ok (some cert) := by
        cases result : (certDir.load fs (FullCert.load libraries ptr) host).1 with
        | error => simp [Action.loads, result] at brings
        | ok found => simpa [Action.loads, result] using brings
      exact ⟨past, [], id, fs, asked, host, rfl, inv.requested _ member, asks,
        ⟨state, attempt, inv.ran, loading⟩, builtFrom_of_load given⟩
  | _ =>
      cases moves
      cases brings

theorem ProvenanceInvariant.step {action : DirAction}
    (inv : ProvenanceInvariant subHost certDir libraries ptr past state)
    (stepped
      : (fromDirectory subHost certDir (FullCert.load libraries ptr)).step state action
        = some next)
    : ProvenanceInvariant subHost certDir libraries ptr (past ++ [action]) next := by
  obtain ⟨onCache, moves, on_cache⟩ := Option.bind_eq_some_iff.mp stepped
  have since := inv.since.mono fun cert loaded => loaded.append action
  exact
    {
      ran := Machine.run_append inv.ran (Machine.run_cons.mpr ⟨next, stepped, rfl⟩)
      own := inv.own.step on_cache
      requested := inv.requested.step moves on_cache
      since := since.step on_cache fun _ brings => inv.brings moves brings
    }

/-- In every run with the directory as the loader, whatever is cached or returned to a client was
built by `Cert::new` from the two files of a host that a client asked for, or of the parent
domain of one, as they were at a load of the run for that host.
-/
theorem served_fromFiles (libraries : TlsLibraries Config PrivateKeyDer)
    (ptr : FullCert Config PrivateKeyDer → Nat)
    (ran
      : (fromDirectory subHost certDir (FullCert.load libraries ptr)).run .init actions
        = some final)
    : (∀ host cert,
        final.certs.hostCert.lookup host = some cert
        → FromFiles subHost certDir libraries ptr actions cert)
      ∧ ∀ call ∈ final.gets,
          ∀ cert,
            call.phase = .returned (.ok cert)
            → FromFiles subHost certDir libraries ptr actions cert := by
  have inv : ProvenanceInvariant subHost certDir libraries ptr actions final :=
    Machine.run_records (ProvenanceInvariant subHost certDir libraries ptr)
      (fun _ _ _ _ inv stepped => inv.step stepped) .init ran
  refine ⟨inv.since.cached, fun call member cert done => ?_⟩
  obtain ⟨id, there⟩ := List.getElem?_of_mem member
  rcases inv.since.returned id call cert there done with before | built
  · cases before
  · exact built

/-- Libraries that read one text, of a certificate and its key. -/
def combinedPem : TlsLibraries Unit String where
  buildServer _ _ := .ok ()
  certs _ :=
    .ok
      [.ok
        {
          notAfter := 4102444800
          subjectAlternativeName := .ok (some [.dnsName "a.example"])
        }]
  privateKey _ := .ok (some "key")

/-- Both files of the host have this text, and there are no others. -/
def combinedFiles (certDir : CertDir) (host : String) : FileSystem where
  tryExists path := .ok (decide (path = certDir.certPath host ∨ path = certDir.keyPath host))
  readToString path :=
    if path = certDir.certPath host ∨ path = certDir.keyPath host then
      .ok "certificate and key"
    else .error "entity not found"

def sslDir : CertDir where
  base := "/srv/ssl".toList

/-- A client asks for the host. -/
def askDirectory : List DirAction :=
  [.call "a.example", .look 0, .load 0 (combinedFiles sslDir "a.example"), .insert 0, .push 0]

/-- The client is given the certificate from the files. -/
theorem served_fromFiles_askDirectory
    : ∃ state,
        (fromDirectory (fun _ => none) sslDir (FullCert.load combinedPem fun _ => 0)).run .init
            askDirectory
          = some state
        ∧ state.gets[0]?.map (·.phase)
          = some (.returned (.ok (certFor 0 "a.example" 4102444800)))
        ∧ FromFiles (fun _ => none) sslDir combinedPem (fun _ => 0) askDirectory
            (certFor 0 "a.example" 4102444800) := by
  have ended
      : ((fromDirectory (fun _ => none) sslDir (FullCert.load combinedPem fun _ => 0)).run .init
          askDirectory).map (fun state => state.gets[0]?)
        = some
          (some
            {
              host := "a.example"
              phase := .returned (.ok (certFor 0 "a.example" 4102444800))
            }) := by
    decide
  obtain ⟨state, ran, answer⟩ := Option.map_eq_some_iff.mp ended
  have served := served_fromFiles combinedPem (fun _ => 0) ran
  exact ⟨state, ran, by simp [answer], served.2 _ (List.mem_of_getElem? answer) _ rfl⟩

end CertLoader

end Gway
