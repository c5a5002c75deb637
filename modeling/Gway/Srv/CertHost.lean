import Gway.CertLoader.Lookup
import Gway.CertLoader.Transparency
import Gway.Route.Agreement
import Gway.Srv.H2
import Gway.Srv.H3

/-! Whether the certificate that a host is configured with is the one that its clients see. The
handshakes look for the server name and never for the `cert_host` of its configuration.
-/

namespace Gway.Srv

open CertLoader (Load)

/-- The tables that a sequence of `add_upstream` and `set` builds. -/
def routeOf (ops : List Route.Op) : Route :=
  (ops.foldl Route.step Route.routes.init).route

/-- From an empty cache, the handshakes on both listeners for this server name are answered
with the certificate.
-/
def AnsweredWith (subHost : String → Option String) (load : Load)
    (withSingleCert : Arc Cert → Except String Unit) (serverName : String)
    (cert : Arc Cert) : Prop :=
  (H2.tlsConfig subHost load withSingleCert .new (some serverName)).1
      = .ok { cert, alpnProtocols := ["h2"] }
  ∧ (H3.onClientHello subHost load .new (some serverName)).1 = .ok cert

/-- What the loader has for the `cert_host` of the host is what its clients see. -/
def CertHostHonoured (subHost : String → Option String) (load : Load)
    (withSingleCert : Arc Cert → Except String Unit) (route : Route) (host : String) : Prop :=
  ∀ conf cert,
    route.confByHost host = some conf
    → load conf.certHost = .ok (some cert)
    → AnsweredWith subHost load withSingleCert host cert

/-- The loader has the certificate for the host, or else for its parent domain if it has none
for the host.
-/
def LoadedFor (subHost : String → Option String) (load : Load) (host : String)
    (cert : Arc Cert) : Prop :=
  load host = .ok (some cert)
  ∨ load host = .ok none ∧ ∃ sub, subHost host = some sub ∧ load sub = .ok (some cert)

variable {subHost : String → Option String} {load : Load}
  {withSingleCert : Arc Cert → Except String Unit} {host : String} {cert : Arc Cert}

/-- On an empty cache `get` answers with what is loaded for the host, if it can be read. -/
theorem get_new_eq_ok
    : (CertLoader.new.get subHost load host).1 = .ok cert
      ↔ LoadedFor subHost load host cert ∧ ∃ entry, cacheEntry cert.val = .ok entry := by
  have empty (name : String) : CertLoader.new.hostCert.lookup name = none :=
    Finmap.lookup_empty name
  have loads
      : CertLoader.new.search subHost load host = .loaded cert
        ↔ LoadedFor subHost load host cert := by
    simp only [CertLoader.search_eq_loaded, empty, true_and, LoadedFor]
  rw [CertLoader.get_eq, ← loads]
  cases found : CertLoader.new.search subHost load host with
  | cached name other =>
      have cached := (CertLoader.search_eq_cached.mp found).1
      rw [empty] at cached
      cases cached
  | failed error => simp [CertLoader.give]
  | loaded other =>
      rcases entry : cacheEntry other.val with failure | _ | ⟨name, day⟩
      case error =>
        simp only [CertLoader.give, entry, reduceCtorEq, CertLoader.Found.loaded.injEq,
          false_iff, not_and]
        rintro rfl ⟨_, read⟩
        rw [entry] at read
        cases read
      case ok.none =>
        simp only [CertLoader.give, entry, Except.ok.injEq, CertLoader.Found.loaded.injEq]
        exact ⟨fun same => ⟨same, none, same ▸ entry⟩, fun both => both.1⟩
      case ok.some =>
        simp only [CertLoader.give, entry, Except.ok.injEq, CertLoader.Found.loaded.injEq]
        exact ⟨fun same => ⟨same, some (name, day), same ▸ entry⟩, fun both => both.1⟩

/-- The answer on HTTP/3 is that of `get`. -/
theorem onClientHello_eq_ok {certs : CertLoader}
    : (H3.onClientHello subHost load certs (some host)).1 = .ok cert
      ↔ (certs.get subHost load host).1 = .ok cert := by
  unfold H3.onClientHello
  rcases called : certs.get subHost load host with ⟨(error | _) | other, after⟩ <;>
    simp [called]

/-- The answer on HTTP/2 is that of `get` as well, for a server name that is not empty and with
a certificate that rustls takes.
-/
theorem tlsConfig_eq_ok {certs : CertLoader} {alpnProtocols : List String}
    : (H2.tlsConfig subHost load withSingleCert certs (some host)).1
        = .ok { cert, alpnProtocols }
      ↔ host ≠ ""
        ∧ (certs.get subHost load host).1 = .ok cert
        ∧ withSingleCert cert = .ok ()
        ∧ alpnProtocols = ["h2"] := by
  unfold H2.tlsConfig
  by_cases empty : host = ""
  case pos => simp [empty]
  case neg =>
    rcases called : certs.get subHost load host with ⟨(error | _) | other, after⟩
    case error.err => simp [empty, called]
    case error.panic => simp [empty, called]
    case ok =>
      cases taken : withSingleCert other with
      | error err =>
          simp only [empty, if_false, called, taken, reduceCtorEq, false_iff]
          rintro ⟨-, same, ok, -⟩
          rw [← Except.ok.inj same, taken] at ok
          cases ok
      | ok _ =>
          simp only [empty, if_false, called, taken, Except.ok.injEq, H2.ServerConfig.mk.injEq]
          constructor
          · rintro ⟨rfl, rfl⟩
            exact ⟨empty, rfl, taken, rfl⟩
          · rintro ⟨-, rfl, -, rfl⟩
            exact ⟨rfl, rfl⟩

/-- For all tables that `add_upstream` and `set` build, every loader and every host, the
certificate for the host's `cert_host` is what its clients see exactly if it is also the one
that is loaded for the host or its parent domain, and can be used.
-/
theorem certHostHonoured_iff (subHost : String → Option String) (load : Load)
    (withSingleCert : Arc Cert → Except String Unit) (ops : List Route.Op) (host : String)
    : CertHostHonoured subHost load withSingleCert (routeOf ops) host
      ↔ ∀ conf cert,
          (routeOf ops).confByHost host = some conf
          → load conf.certHost = .ok (some cert)
          → LoadedFor subHost load host cert
            ∧ (∃ entry, cacheEntry cert.val = .ok entry)
            ∧ host ≠ ""
            ∧ withSingleCert cert = .ok () := by
  refine forall₄_congr fun conf cert _ _ => ?_
  rw [AnsweredWith, tlsConfig_eq_ok, onClientHello_eq_ok, get_new_eq_ok]
  constructor
  · rintro ⟨⟨named, -, taken, -⟩, loaded, read⟩
    exact ⟨loaded, read, named, taken⟩
  · rintro ⟨loaded, read, named, taken⟩
    exact ⟨⟨named, ⟨loaded, read⟩, taken, rfl⟩, loaded, read⟩

/-- A site that is to be served with the certificate of another name. -/
def sharedCert : List Route.Op :=
  [.addUpstream "upstream" { addrLi := [], maxRetry := 0, protocol := .h1 },
    .set "a.example" "cdn.example" "upstream"]

/-- The loader has a certificate for the site as well, or only the one that is configured. -/
def siteCerts (own : Bool) : Load
  | "cdn.example" => .ok (some (CertLoader.certNaming 1 ["cdn.example", "*.example"]))
  | "a.example" => .ok (if own then some (CertLoader.certNaming 0 ["a.example"]) else none)
  | _ => .ok none

/-- Then the site is served with its own certificate, or with none. -/
theorem certHost_ignored
    : (H3.onClientHello (fun _ => none) (siteCerts true) .new (some "a.example")).1
        = .ok (CertLoader.certNaming 0 ["a.example"])
      ∧ (H2.tlsConfig (fun _ => none) (siteCerts false) (fun _ => .ok ()) .new
            (some "a.example")).1
        = .error (.warn "h2 tls: cert get error: CertNotFound")
      ∧ ¬ CertHostHonoured (fun _ => none) (siteCerts true) (fun _ => .ok ())
            (routeOf sharedCert) "a.example"
      ∧ ¬ CertHostHonoured (fun _ => none) (siteCerts false) (fun _ => .ok ())
            (routeOf sharedCert) "a.example" := by
  have fails {own : Bool}
      (other
        : (H3.onClientHello (fun _ => none) (siteCerts own) .new (some "a.example")).1
          ≠ .ok (CertLoader.certNaming 1 ["cdn.example", "*.example"]))
      : ¬ CertHostHonoured (fun _ => none) (siteCerts own) (fun _ => .ok ())
          (routeOf sharedCert) "a.example" :=
    fun honoured => other (honoured _ _ (by rfl) (by rfl)).2
  exact ⟨by decide, by decide, fails (by decide), fails (by decide)⟩

end Gway.Srv
