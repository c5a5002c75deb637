import Gway.CertLoader.Get

/-! What a certificate cache may change. A certificate is cached under its shortest name, and
from then on the hosts that find this name are given it, whatever the loader has for them.
-/

namespace Gway.CertLoader

/-- What the loader has for a host, if the certificate can be read. -/
def loaded (find : String → Option (Arc Cert)) (host : String)
    : Except Failure (Option (Arc Cert)) :=
  match find host with
  | none => .ok none
  | some cert => (cacheEntry cert.val).map fun _ => some cert

/-- The answer without a cache: the loader's certificate for the host, else that for the
parent domain, else `CertNotFound`. A certificate that cannot be read is an error.
-/
def answer (subHost : String → Option String) (find : String → Option (Arc Cert))
    (host : String) : Except Failure (Arc Cert) :=
  match loaded find host with
  | .error failure => .error failure
  | .ok (some cert) => .ok cert
  | .ok none =>
      match subHost host with
      | none => .error (.err (.certNotFound host))
      | some sub =>
          match loaded find sub with
          | .error failure => .error failure
          | .ok (some cert) => .ok cert
          | .ok none => .error (.err (.certNotFound host))

/-- The cache after calls of `get` for the hosts in order. -/
def afterGets (subHost : String → Option String) (find : String → Option (Arc Cert))
    (hosts : List String) : CertLoader :=
  hosts.foldl (fun certs host => (certs.get subHost (fun host => .ok (find host)) host).2) .new

/-- The certificate may be given to everyone who finds this name: the loader has it for the
name itself, or for the parent domain of the name, which then has no certificate of its own
and is not the parent domain that another host without a certificate falls back to.
-/
def Stands (subHost : String → Option String) (find : String → Option (Arc Cert))
    (name : String) (cert : Arc Cert) : Prop :=
  find name = some cert
  ∨ find name = none
    ∧ (∃ sub, subHost name = some sub ∧ find sub = some cert)
    ∧ ∀ host, host ≠ name → find host = none → subHost host ≠ some name

/-- Every certificate of the loader may be given to all who find its shortest name. -/
def NamesStand (subHost : String → Option String) (find : String → Option (Arc Cert))
    : Prop :=
  ∀ asked cert name day,
    find asked = some cert
    → cacheEntry cert.val = .ok (some (name, day))
    → Stands subHost find name cert

variable {subHost : String → Option String} {find : String → Option (Arc Cert)}
  {certs : CertLoader} {host name : String} {cert : Arc Cert}

/-- Every cached certificate can be read, and stands for the name that it is cached under. -/
def CacheStands (subHost : String → Option String) (find : String → Option (Arc Cert))
    (certs : CertLoader) : Prop :=
  ∀ name cert,
    certs.hostCert.lookup name = some cert
    → (∃ entry, cacheEntry cert.val = .ok entry) ∧ Stands subHost find name cert

theorem loaded_of_readable (found : find host = some cert)
    (readable : ∃ entry, cacheEntry cert.val = .ok entry)
    : loaded find host = .ok (some cert) := by
  obtain ⟨entry, read⟩ := readable
  simp [loaded, found, read, Except.map]

theorem loaded_of_missing (missing : find host = none) : loaded find host = .ok none := by
  simp [loaded, missing]

/-- What the loader has for a host and can be read is what it returns. -/
theorem find_of_loaded {found : Option (Arc Cert)} (has : loaded find host = .ok found)
    : find host = found := by
  unfold loaded at has
  cases own : find host with
  | none =>
      rw [own] at has
      exact Except.ok.inj has
  | some cert =>
      rcases entry : cacheEntry cert.val with failure | named <;>
        simp [own, entry, Except.map] at has
      exact has

/-- `cert_by_host` answers from the cache or as the loader does. -/
theorem certByHost_fst (certs : CertLoader) (host : String)
    : (certs.certByHost (fun host => .ok (find host)) host).1
      = match certs.hostCert.lookup host with
        | some cert => .ok (some cert)
        | none => loaded find host := by
  cases cached : certs.hostCert.lookup host with
  | some cert => simp [certByHost, cached]
  | none =>
      cases has : find host with
      | none => simp [certByHost, loaded, cached, has]
      | some cert =>
          rcases entry : cacheEntry cert.val with failure | _ | ⟨name, day⟩ <;>
            simp [certByHost, loaded, cached, has, entry, Except.map]

/-- It changes the cache only to put a loaded certificate under its shortest name. -/
theorem lookup_certByHost
    (found
      : (certs.certByHost (fun host => .ok (find host)) host).2.hostCert.lookup name
        = some cert)
    : certs.hostCert.lookup name = some cert
      ∨ find host = some cert ∧ ∃ day, cacheEntry cert.val = .ok (some (name, day)) := by
  cases cached : certs.hostCert.lookup host with
  | some _ => exact Or.inl (by simpa [certByHost, cached] using found)
  | none =>
      cases has : find host with
      | none => exact Or.inl (by simpa [certByHost, cached, has] using found)
      | some loaded =>
          rcases entry : cacheEntry loaded.val with failure | _ | ⟨shortest, day⟩
          case error => exact Or.inl (by simpa [certByHost, cached, has, entry] using found)
          case ok.none => exact Or.inl (by simpa [certByHost, cached, has, entry] using found)
          case ok.some =>
            simp only [certByHost, cached, has, entry, insertHost, pushExpire,
              Finmap.lookup_insert_eq] at found
            split at found
            case isTrue same =>
              obtain rfl := Option.some.inj found
              exact Or.inr ⟨rfl, day, same ▸ entry⟩
            case isFalse => exact Or.inl found

/-- A host that the cache and the loader do not have leaves the maps as they are. -/
theorem certByHost_snd_of_missing
    (answered : (certs.certByHost (fun host => .ok (find host)) host).1 = .ok none)
    : (certs.certByHost (fun host => .ok (find host)) host).2 = certs := by
  cases cached : certs.hostCert.lookup host with
  | some _ => simp [certByHost, cached]
  | none =>
      cases has : find host with
      | none => simp [certByHost, cached, has]
      | some loaded =>
          rcases entry : cacheEntry loaded.val with failure | _ | ⟨shortest, day⟩ <;>
            simp [certByHost, cached, has, entry] at answered

/-- `get` answers from what `cert_by_host` answers for the host and for its parent domain,
the second time with the maps still as they were.
-/
theorem get_fst_eq (certs : CertLoader) (host : String)
    : (certs.get subHost (fun host => .ok (find host)) host).1
      = match (certs.certByHost (fun host => .ok (find host)) host).1 with
        | .error failure => .error failure
        | .ok (some cert) => .ok cert
        | .ok none =>
            match subHost host with
            | none => .error (.err (.certNotFound host))
            | some sub =>
                match (certs.certByHost (fun host => .ok (find host)) sub).1 with
                | .error failure => .error failure
                | .ok (some cert) => .ok cert
                | .ok none => .error (.err (.certNotFound host)) := by
  rcases first : certs.certByHost (fun host => .ok (find host)) host
    with ⟨failure | _ | _, after⟩
  case error => simp [get, first]
  case ok.some => simp [get, first]
  case ok.none =>
    have unchanged := certByHost_snd_of_missing (congrArg Prod.fst first)
    rw [first] at unchanged
    obtain rfl : after = certs := unchanged
    cases parent : subHost host with
    | none => simp [get, first, parent]
    | some sub =>
        rcases second : after.certByHost (fun host => .ok (find host)) sub
          with ⟨failure | _ | _, last⟩ <;>
          simp [get, first, parent, second]

/-- What `get` adds to the cache is a certificate of the loader under its shortest name. -/
theorem lookup_get
    (found
      : (certs.get subHost (fun host => .ok (find host)) host).2.hostCert.lookup name
        = some cert)
    : certs.hostCert.lookup name = some cert
      ∨ ∃ asked day,
          find asked = some cert ∧ cacheEntry cert.val = .ok (some (name, day)) := by
  have own (certs : CertLoader) (host : String)
      (found
        : (certs.certByHost (fun host => .ok (find host)) host).2.hostCert.lookup name
          = some cert)
      : certs.hostCert.lookup name = some cert
        ∨ ∃ asked day,
            find asked = some cert ∧ cacheEntry cert.val = .ok (some (name, day)) :=
    (lookup_certByHost found).imp_right fun ⟨has, day, entry⟩ => ⟨host, day, has, entry⟩
  rcases first : certs.certByHost (fun host => .ok (find host)) host
    with ⟨failure | _ | _, after⟩
  case error => exact own certs host (by simpa [get, first] using found)
  case ok.some => exact own certs host (by simpa [get, first] using found)
  case ok.none =>
    have same : after = certs := by
      have unchanged := certByHost_snd_of_missing (congrArg Prod.fst first)
      simpa [first] using unchanged
    subst same
    cases parent : subHost host with
    | none => exact own after host (by simpa [get, first, parent] using found)
    | some sub =>
        refine own after sub ?_
        rcases second : after.certByHost (fun host => .ok (find host)) sub
          with ⟨failure | _ | _, last⟩ <;>
          simpa [get, first, parent, second] using found

/-- If every certificate stands for its shortest name, what is cached keeps standing. -/
theorem CacheStands.get (stands : CacheStands subHost find certs)
    (names : NamesStand subHost find) (host : String)
    : CacheStands subHost find (certs.get subHost (fun host => .ok (find host)) host).2 := by
  intro name cert found
  rcases lookup_get found with before | ⟨asked, day, has, entry⟩
  · exact stands name cert before
  · exact ⟨⟨_, entry⟩, names asked cert name day has entry⟩

theorem CacheStands.afterGets (names : NamesStand subHost find) (hosts : List String)
    : CacheStands subHost find (afterGets subHost find hosts) := by
  have empty : CacheStands subHost find .new := by
    intro name cert found
    simp [new] at found
  unfold CertLoader.afterGets
  generalize CertLoader.new = certs at empty ⊢
  induction hosts generalizing certs with
  | nil => exact empty
  | cons host rest ih => exact ih _ (empty.get names host)

/-- A cache whose certificates stand for their names answers as if there were none. Witness:
a cached certificate of the host is the answer, and so is one of the parent domain, since the
host that falls back to it is not one that would get another.
-/
theorem CacheStands.get_fst (stands : CacheStands subHost find certs) (host : String)
    : (certs.get subHost (fun host => .ok (find host)) host).1
      = answer subHost find host := by
  rw [get_fst_eq, certByHost_fst, answer]
  cases own : certs.hostCert.lookup host with
  | some cert =>
      obtain ⟨readable, has | ⟨missing, ⟨sub, parent, has⟩, -⟩⟩ := stands host cert own
      · simp [loaded_of_readable has readable]
      · simp [loaded_of_missing missing, parent, loaded_of_readable has readable]
  | none =>
      dsimp only
      rcases first : loaded find host with failure | _ | cert
      case error => rfl
      case ok.some => rfl
      case ok.none =>
        cases parent : subHost host with
        | none => rfl
        | some sub =>
            dsimp only
            rw [certByHost_fst]
            cases other : certs.hostCert.lookup sub with
            | none => rfl
            | some cert =>
                obtain ⟨readable, has | ⟨missing, -, alone⟩⟩ := stands sub cert other
                · simp [loaded_of_readable has readable]
                · have different : host ≠ sub := by
                    rintro rfl
                    rw [own] at other
                    cases other
                  exact absurd parent (alone host different (find_of_loaded first))

/-- On an empty cache `get` answers as if there were none. -/
theorem get_new_fst (host : String)
    : (new.get subHost (fun host => .ok (find host)) host).1 = answer subHost find host :=
  CacheStands.get_fst (by intro name cert found; simp [new] at found) host

/-- After one call the cache has the loaded certificate under its name and nothing else. -/
theorem lookup_afterGets_singleton (subHost : String → Option String) {asked : String}
    {day : Int} (has : find asked = some cert)
    (entry : cacheEntry cert.val = .ok (some (name, day)))
    (other : String)
    : (afterGets subHost find [asked]).hostCert.lookup other
      = if other = name then some cert else none := by
  simp [afterGets, CertLoader.get, certByHost, new, has, entry, insertHost, pushExpire,
    Finmap.lookup_insert_eq]

/-- A name under which a certificate gets cached finds it, and so do the hosts that fall back
to the name. If they would get the same without the cache, the certificate stands for it.
-/
theorem stands_of_transparent
    (transparent
      : ∀ hosts host,
          ((afterGets subHost find hosts).get subHost (fun host => .ok (find host)) host).1
          = answer subHost find host)
    {asked : String} {day : Int} (has : find asked = some cert)
    (entry : cacheEntry cert.val = .ok (some (name, day)))
    : Stands subHost find name cert := by
  have cached := lookup_afterGets_singleton subHost has entry
  have given : answer subHost find name = .ok cert := by
    rw [← transparent [asked] name, get_fst_eq, certByHost_fst, cached, if_pos rfl]
  rw [answer] at given
  rcases first : loaded find name with failure | _ | own
  case error => simp [first] at given
  case ok.some =>
    obtain rfl : own = cert := by simpa [first] using given
    exact Or.inl (find_of_loaded first)
  case ok.none =>
    have missing := find_of_loaded first
    simp only [first] at given
    cases parent : subHost name with
    | none => simp [parent] at given
    | some sub =>
        rcases second : loaded find sub with failure | _ | other
        case error => simp [parent, second] at given
        case ok.none => simp [parent, second] at given
        case ok.some =>
          obtain rfl : other = cert := by simpa [parent, second] using given
          refine Or.inr ⟨missing, ⟨sub, parent, find_of_loaded second⟩, ?_⟩
          intro host different none falls
          have same := transparent [asked] host
          rw [get_fst_eq, certByHost_fst, cached, if_neg different, answer,
            loaded_of_missing none] at same
          simp only [falls] at same
          rw [certByHost_fst, cached, if_pos rfl, first] at same
          cases same

/-- For every loader function and every `sub_host`, each `get` answers as on an empty cache,
whichever calls of `get` came before, exactly if the loader's certificates stand for their
shortest names. On an empty cache it answers with the loader's certificate for the host, else
that for the parent domain, else `CertNotFound`.
-/
theorem get_transparent_iff (subHost : String → Option String)
    (find : String → Option (Arc Cert))
    : ((∀ hosts host,
          ((afterGets subHost find hosts).get subHost (fun host => .ok (find host)) host).1
          = (new.get subHost (fun host => .ok (find host)) host).1)
        ↔ NamesStand subHost find)
      ∧ ∀ host,
          (new.get subHost (fun host => .ok (find host)) host).1
          = answer subHost find host := by
  refine ⟨⟨?_, ?_⟩, get_new_fst⟩
  · intro transparent asked cert name day has entry
    refine stands_of_transparent (fun hosts host => ?_) has entry
    exact (transparent hosts host).trans (get_new_fst host)
  · intro names hosts host
    exact ((CacheStands.afterGets names hosts).get_fst host).trans (get_new_fst host).symm

/-- A certificate that names the hosts and expires in 2100. -/
def certNaming (ptr : Nat) (hosts : List String) : Arc Cert where
  ptr := ptr
  val :=
    {
      fullchain :=
        [.ok
          {
            notAfter := 4102444800
            subjectAlternativeName := .ok (some (hosts.map .dnsName))
          }]
    }

/-- The certificate of one host names another as well, which has one of its own. -/
def overlapping : String → Option (Arc Cert)
  | "www.b.example" => some (certNaming 1 ["www.b.example", "a.example"])
  | "a.example" => some (certNaming 0 ["a.example"])
  | _ => none

/-- After a call for the one host the other is given that host's certificate. -/
theorem get_sees_history
    : ((afterGets (fun _ => none) overlapping ["www.b.example"]).get (fun _ => none)
          (fun host => .ok (overlapping host)) "a.example").1
        = .ok (certNaming 1 ["www.b.example", "a.example"])
      ∧ (new.get (fun _ => none) (fun host => .ok (overlapping host)) "a.example").1
        = .ok (certNaming 0 ["a.example"])
      ∧ certNaming 1 ["www.b.example", "a.example"] ≠ certNaming 0 ["a.example"] := by
  decide

end Gway.CertLoader
