import Gway.CertLoader.Get

/-! Where a call of `get` finds its certificate, and what it does with it. -/

namespace Gway.CertLoader

/-- A certificate was in the cache under a name, or came from the loader, or there was none. -/
inductive Found where
  | cached (name : String) (cert : Arc Cert)
  | loaded (cert : Arc Cert)
  | failed (error : Error)

/-- The cache and then the loader are asked for the host, and then for its parent domain. -/
def search (subHost : String → Option String) (load : Load) (certs : CertLoader)
    (host : String) : Found :=
  match certs.hostCert.lookup host with
  | some cert => .cached host cert
  | none =>
      match load host with
      | .error error => .failed error
      | .ok (some cert) => .loaded cert
      | .ok none =>
          match subHost host with
          | none => .failed (.certNotFound host)
          | some sub =>
              match certs.hostCert.lookup sub with
              | some cert => .cached sub cert
              | none =>
                  match load sub with
                  | .error error => .failed error
                  | .ok (some cert) => .loaded cert
                  | .ok none => .failed (.certNotFound host)

/-- The answer to what was found, and the maps after it: a loaded certificate with a name is
cached and listed.
-/
def give (certs : CertLoader) : Found → Except Failure (Arc Cert) × CertLoader
  | .cached _ cert => (.ok cert, certs)
  | .loaded cert =>
      match cacheEntry cert.val with
      | .error failure => (.error failure, certs)
      | .ok none => (.ok cert, certs)
      | .ok (some (name, day)) => (.ok cert, (certs.insertHost name cert).pushExpire day name)
  | .failed error => (.error (.err error), certs)

/-- The name under which a loaded certificate is cached. -/
def cachedUnder (cert : Cert) : Option String :=
  match cacheEntry cert with
  | .ok entry => entry.map Prod.fst
  | .error _ => none

variable {subHost : String → Option String} {load : Load} {certs : CertLoader}
  {host name : String} {cert : Arc Cert}

/-- A call of `get` gives what it finds. -/
theorem get_eq (subHost : String → Option String) (load : Load) (certs : CertLoader)
    (host : String)
    : certs.get subHost load host = certs.give (certs.search subHost load host) := by
  cases own : certs.hostCert.lookup host with
  | some cert => simp [get, certByHost, search, give, own]
  | none =>
      rcases first : load host with error | _ | cert
      case error => simp [get, certByHost, search, give, own, first]
      case ok.some =>
        rcases entry : cacheEntry cert.val with failure | _ | ⟨name, day⟩ <;>
          simp [get, certByHost, search, give, own, first, entry]
      case ok.none =>
        cases parent : subHost host with
        | none => simp [get, certByHost, search, give, own, first, parent]
        | some sub =>
            cases other : certs.hostCert.lookup sub with
            | some cert => simp [get, certByHost, search, give, own, first, parent, other]
            | none =>
                rcases second : load sub with error | _ | cert
                case error =>
                  simp [get, certByHost, search, give, own, first, parent, other, second]
                case ok.none =>
                  simp [get, certByHost, search, give, own, first, parent, other, second]
                case ok.some =>
                  rcases entry : cacheEntry cert.val with failure | _ | ⟨name, day⟩ <;>
                    simp [get, certByHost, search, give, own, first, parent, other, second,
                      entry]

/-- What is found in the cache is there under the host, or under its parent domain when the
loader has nothing for the host.
-/
theorem search_eq_cached
    : certs.search subHost load host = .cached name cert
      ↔ certs.hostCert.lookup name = some cert
        ∧ (name = host
          ∨ certs.hostCert.lookup host = none
            ∧ load host = .ok none
            ∧ subHost host = some name) := by
  unfold search
  grind

/-- A certificate is loaded for the host, or for its parent domain when the loader has nothing
for the host, if that is not cached.
-/
theorem search_eq_loaded
    : certs.search subHost load host = .loaded cert
      ↔ certs.hostCert.lookup host = none
        ∧ (load host = .ok (some cert)
          ∨ load host = .ok none
            ∧ ∃ sub,
                subHost host = some sub
                ∧ certs.hostCert.lookup sub = none
                ∧ load sub = .ok (some cert)) := by
  unfold search
  grind

end Gway.CertLoader
