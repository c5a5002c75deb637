import Gway.CertLoader.Index

/-! Whose certificate a client is given. A certificate is cached under one of its own names,
so what the cache holds for a host is a certificate for that host.
-/

namespace Gway

/-- The DNS names of the leaf. -/
def Cert.names (cert : Cert) : List String :=
  match cert.leaf with
  | some { subjectAlternativeName := .ok san, .. } => dnsNames san
  | _ => []

/-- A certificate is cached under one of the names of its leaf. -/
theorem cacheEntry_names {cert : Cert} {host : String} {day : Int}
    (cached : cacheEntry cert = .ok (some (host, day)))
    : host ∈ cert.names := by
  unfold cacheEntry at cached
  split at cached
  case h_1 | h_2 => cases cached
  case h_3 certPem rest chain =>
    split at cached
    case h_1 => cases cached
    case h_2 san found =>
      obtain ⟨shortest, least, same⟩ := Option.map_eq_some_iff.mp (Except.ok.inj cached)
      obtain ⟨rfl, -⟩ := Prod.mk.inj same
      have leaf : cert.leaf = some certPem := by
        simp [Cert.leaf, chain, Except.toOption]
      obtain ⟨notAfter, alternatives⟩ := certPem
      obtain rfl : alternatives = .ok san := found
      simpa only [Cert.names, leaf] using List.argmin_mem least

namespace CertLoader

/-- The certificate names the host itself or its parent domain. -/
def Serves (subHost : String → Option String) (host : String) (cert : Cert) : Prop :=
  host ∈ cert.names ∨ ∃ sub, subHost host = some sub ∧ sub ∈ cert.names

/-- The host that a call asked the loader for and the certificate that it is given. -/
def State.loadedFor (state : State) : Action → Option (String × Arc Cert)
  | .get id (.loaded (.ok (some cert))) =>
      match state.gets[id]? with
      | some { phase := .loading _ wanted, .. } => some (wanted, cert)
      | _ => none
  | _ => none

/-- The loader returns only certificates that name the host it was asked for. -/
def LoadsOwn (before : State) (action : Action) (_ : State) : Prop :=
  ∀ loaded ∈ before.loadedFor action, loaded.1 ∈ loaded.2.val.names

instance (before : State) (action : Action) (after : State)
    : Decidable (LoadsOwn before action after) :=
  inferInstanceAs (Decidable (∀ loaded ∈ before.loadedFor action, _))

/-- What a call has in hand is for its own client: it looks up its host or the parent domain,
and a certificate that it caches or returns names one of these.
-/
def Get.Isolated (subHost : String → Option String) (call : Get) : Prop :=
  match call.phase with
  | .looking _ wanted | .loading _ wanted =>
      wanted = call.host ∨ subHost call.host = some wanted
  | .inserting cachedHost cert _ =>
      Serves subHost call.host cert.val ∧ cachedHost ∈ cert.val.names
  | .pushing _ cert _ | .returned (.ok cert) => Serves subHost call.host cert.val
  | .returned (.error _) => True

/-- Every cached certificate names the host under which it is cached. -/
structure IsolationInvariant (subHost : String → Option String) (state : State) : Prop where
  cached
    : ∀ host cert, state.certs.hostCert.lookup host = some cert → host ∈ cert.val.names
  calls : ∀ call ∈ state.gets, call.Isolated subHost

variable {subHost : String → Option String} {state next : State} {id : GetId}

theorem IsolationInvariant.init : IsolationInvariant subHost .init := by
  constructor
  case cached =>
    intro host cert found
    simp [State.init, new] at found
  case calls =>
    intro call member
    cases member

/-- A certificate that names what a call has looked for serves its client. -/
theorem serves_of_wanted {host wanted : String} {cert : Cert}
    (own : wanted = host ∨ subHost host = some wanted) (named : wanted ∈ cert.names)
    : Serves subHost host cert := by
  rcases own with rfl | parent
  · exact Or.inl named
  · exact Or.inr ⟨wanted, parent, named⟩

/-- Whatever the loader answers, the call goes on with what is for its client. -/
theorem afterLoad_isolated {host wanted : String} {attempt : Attempt}
    {result : Except Error (Option (Arc Cert))}
    (own : wanted = host ∨ subHost host = some wanted)
    (loads : ∀ cert, result = .ok (some cert) → wanted ∈ cert.val.names)
    : Get.Isolated subHost { host, phase := afterLoad subHost host attempt result } := by
  unfold afterLoad
  split
  case h_1 => trivial
  case h_2 =>
    rcases afterNone_cases subHost host attempt with ⟨sub, parent, next⟩ | next
    · rw [next]
      exact Or.inr parent
    · rw [next]
      trivial
  case h_3 cert =>
    have serves := serves_of_wanted own (loads cert rfl)
    split
    case h_1 => trivial
    case h_2 => exact serves
    case h_3 cachedHost day entry => exact ⟨serves, cacheEntry_names entry⟩

theorem IsolationInvariant.stepGet {action : GetAction}
    (inv : IsolationInvariant subHost state)
    (stepped : stepGet subHost state id action = some next)
    (loads : LoadsOwn state (.get id action) next)
    : IsolationInvariant subHost next := by
  cases getStep_of_stepGet stepped with
  | @look host wanted attempt looking =>
      have own : wanted = host ∨ subHost host = some wanted :=
        inv.calls _ (List.mem_of_getElem? looking)
      refine ⟨inv.cached, forall_gets_setGet inv.calls ?_⟩
      cases found : state.certs.hostCert.lookup wanted with
      | some cert => exact serves_of_wanted own (inv.cached wanted cert found)
      | none => exact own
  | @loaded host wanted attempt result loading =>
      have own : wanted = host ∨ subHost host = some wanted :=
        inv.calls _ (List.mem_of_getElem? loading)
      refine ⟨inv.cached, forall_gets_setGet inv.calls (afterLoad_isolated own ?_)⟩
      rintro cert rfl
      exact loads (wanted, cert) (by simp [State.loadedFor, loading])
  | @insert host cachedHost cert day inserting =>
      obtain ⟨serves, named⟩
          : Serves subHost host cert.val ∧ cachedHost ∈ cert.val.names :=
        inv.calls _ (List.mem_of_getElem? inserting)
      refine ⟨fun other found known => ?_, forall_gets_setGet inv.calls serves⟩
      simp only [insertHost, Finmap.lookup_insert_eq] at known
      split at known
      case isTrue same =>
        obtain rfl := Option.some.inj known
        exact same ▸ named
      case isFalse => exact inv.cached other found known
  | @push host cachedHost cert day pushing =>
      have serves : Serves subHost host cert.val :=
        inv.calls _ (List.mem_of_getElem? pushing)
      exact ⟨inv.cached, forall_gets_setGet inv.calls serves⟩

theorem IsolationInvariant.step {action : Action} (inv : IsolationInvariant subHost state)
    (stepped : step subHost state action = some next) (loads : LoadsOwn state action next)
    : IsolationInvariant subHost next := by
  cases action with
  | get id action => exact inv.stepGet stepped loads
  | call host =>
      cases stepped
      refine ⟨inv.cached, fun call member => ?_⟩
      rcases List.mem_append.mp member with member | new
      · exact inv.calls call member
      · obtain rfl := List.mem_singleton.mp new
        exact Or.inl rfl
  | pass now days =>
      cases stepped
      refine ⟨fun host cert known => ?_, inv.calls⟩
      -- an eviction only takes entries out of the cache
      simp only [stepPass, lookup_evict] at known
      exact inv.cached host cert (Option.ite_none_left_eq_some.mp known).2
  | remove id =>
      obtain ⟨toRmExpire, -, rfl⟩ := stepRemove_eq_some.mp stepped
      exact ⟨inv.cached, inv.calls⟩

/-- With a loader that returns only certificates for what it was asked, every certificate
that a call of `get` returns names the host of the call or its parent domain, in every state
of every run.
-/
theorem get_isolated {actions : List Action}
    (loads : (certLoader subHost).EachStep LoadsOwn .init actions)
    : (certLoader subHost).Always
        (fun state =>
          ∀ call ∈ state.gets,
            ∀ cert, call.phase = .returned (.ok cert) → Serves subHost call.host cert.val)
        .init actions := by
  refine (loads.always (fun _ _ _ inv stepped loads => inv.step stepped loads)
    IsolationInvariant.init).mono fun state inv call member cert returned => ?_
  have isolated := inv.calls call member
  rwa [Get.Isolated, returned] at isolated

/-- The certificate of a domain is loaded and cached, and then a client asks for a subdomain
that has none of its own.
-/
def askSubdomain : List Action :=
  getUntilInserted 0 "a.example" 4102444800
    ++ [.get 0 .push, .call "www.a.example", .get 1 .look, .get 1 (.loaded (.ok none)),
      .get 1 .look]

/-- The client of the subdomain is given the cached certificate of its parent domain. -/
theorem get_isolated_askSubdomain
    : ∃ state,
        (certLoader fun _ => some "a.example").run .init askSubdomain = some state
        ∧ state.gets[1]?.map (·.phase)
          = some (.returned (.ok (certFor 0 "a.example" 4102444800)))
        ∧ Serves (fun _ => some "a.example") "www.a.example"
          (certFor 0 "a.example" 4102444800).val := by
  have ended
      : ((certLoader fun _ => some "a.example").run .init askSubdomain).map
          (fun state => state.gets[1]?)
        = some
          (some
            {
              host := "www.a.example"
              phase := .returned (.ok (certFor 0 "a.example" 4102444800))
            }) := by
    decide
  obtain ⟨state, ran, answer⟩ := Option.map_eq_some_iff.mp ended
  have isolated := (get_isolated (by decide)).last ran
  refine ⟨state, ran, by simp [answer], ?_⟩
  exact isolated _ (List.mem_of_getElem? answer) _ rfl

end CertLoader

end Gway
