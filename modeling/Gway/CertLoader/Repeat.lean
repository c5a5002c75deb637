import Gway.CertLoader.ListedOnce
import Gway.CertLoader.Transparency

/-! Whether a repeated call of `get` finds in the cache what the first one returned. The
certificate is cached under its shortest name, which neither the host nor its parent domain
need be, and every call that loads a certificate lists that name again.
-/

namespace Gway.CertLoader

/-- The leaf has a DNS name among its alternative names. -/
def HasDnsName (cert : Cert) : Prop :=
  ∃ leaf san,
    cert.leaf = some leaf
    ∧ leaf.subjectAlternativeName = .ok san
    ∧ dnsNames san ≠ []

/-- After a call of `get` with one loader's answers, the next call for the host with another's
gives the same and obtains no certificate from the loader, and the maps stay as they are.
-/
def HitsAgain (subHost : String → Option String) (load later : Load) (certs : CertLoader)
    (host : String) : Prop :=
  let (first, after) := certs.get subHost load host
  after.get subHost later host = (first, after)
  ∧ ∀ cert, after.search subHost later host ≠ .loaded cert

/-- The certificate that a call finds is afterwards cached where the next call looks: under
the host, or else under its parent domain when the loader then has nothing for the host.
-/
def CachedWhereSought (subHost : String → Option String) (load later : Load)
    (certs : CertLoader) (host : String) : Prop :=
  match certs.search subHost load host with
  | .cached name _ => name = host ∨ later host = .ok none
  | .loaded cert =>
      cachedUnder cert.val = some host
      ∨ later host = .ok none
        ∧ ∃ sub,
            subHost host = some sub
            ∧ (cachedUnder cert.val = some sub
              ∨ certs.hostCert.lookup sub = some cert)
  | .failed _ => False

variable {subHost : String → Option String} {load later : Load} {certs : CertLoader}
  {host name : String} {cert : Arc Cert} {day : Int}

/-- A certificate with a DNS name that can be inspected is cached under a name. -/
theorem cacheEntry_of_hasDnsName {cert : Cert} (named : HasDnsName cert)
    : ∃ name day, cacheEntry cert = .ok (some (name, day)) := by
  obtain ⟨fullchain⟩ := cert
  obtain ⟨leaf, san, parsed, read, nonempty⟩ := named
  rcases fullchain with _ | ⟨err | certPem, rest⟩
  case nil => cases parsed
  case cons.error => cases parsed
  case cons.ok =>
    cases Option.some.inj parsed
    cases shortest : (dnsNames san).argmin String.utf8ByteSize with
    | none => exact absurd (List.argmin_eq_none.mp shortest) nonempty
    | some name => exact ⟨name, _, by simp only [cacheEntry, read, shortest]; rfl⟩

/-- A second call hits exactly if it finds the certificate of the first one in the cache. -/
theorem hitsAgain_iff (given : (certs.get subHost load host).1 = .ok cert)
    : HitsAgain subHost load later certs host
      ↔ ∃ name,
          (certs.get subHost load host).2.search subHost later host = .cached name cert := by
  rcases called : certs.get subHost load host with ⟨first, after⟩
  rw [called] at given
  subst given
  rw [HitsAgain, called]
  dsimp only
  rw [get_eq]
  cases found : after.search subHost later host with
  | cached name other =>
      simp only [give, Prod.mk.injEq, Except.ok.injEq, and_true, reduceCtorEq, ne_eq,
        not_false_eq_true, implies_true, Found.cached.injEq, exists_eq_left']
  | loaded other =>
      simp
  | failed error => simp [give]

/-- A certificate that was cached is found again under the host, or under the parent domain if
the loader has nothing for the host.
-/
theorem cached_hits_iff (found : certs.search subHost load host = .cached name cert)
    : (∃ sought, certs.search subHost later host = .cached sought cert)
      ↔ name = host ∨ later host = .ok none := by
  obtain ⟨known, place⟩ := search_eq_cached.mp found
  simp only [search_eq_cached]
  constructor
  · rintro ⟨_, again, rfl | ⟨missing, none_later, -⟩⟩
    · rcases place with rfl | ⟨missing, -⟩
      · exact Or.inl rfl
      · rw [missing] at again
        cases again
    · exact Or.inr none_later
  · rintro (rfl | none_later)
    · exact ⟨name, known, Or.inl rfl⟩
    · rcases place with rfl | ⟨missing, -, parent⟩
      · exact ⟨name, known, Or.inl rfl⟩
      · exact ⟨name, known, Or.inr ⟨missing, none_later, parent⟩⟩

/-- A certificate that has been loaded and cached under a name is found under this name, if it
is the host or its parent domain, or where it was cached before.
-/
theorem inserted_hits_iff (missing : certs.hostCert.lookup host = none)
    : (∃ sought,
          ((certs.insertHost name cert).pushExpire day name).search subHost later host
          = .cached sought cert)
      ↔ name = host
        ∨ later host = .ok none
          ∧ ∃ sub,
              subHost host = some sub
              ∧ (name = sub ∨ certs.hostCert.lookup sub = some cert) := by
  simp only [search_eq_cached, pushExpire, insertHost, Finmap.lookup_insert_eq]
  by_cases own : name = host
  case pos =>
    subst own
    exact ⟨fun _ => Or.inl rfl, fun _ => ⟨name, if_pos rfl, Or.inl rfl⟩⟩
  case neg =>
    rw [if_neg (Ne.symm own), missing]
    constructor
    · rintro ⟨sought, cached, rfl | ⟨-, none_later, parent⟩⟩
      · rw [if_neg (Ne.symm own), missing] at cached
        cases cached
      · refine Or.inr ⟨none_later, sought, parent, ?_⟩
        split at cached
        case isTrue equal => exact Or.inl equal.symm
        case isFalse => exact Or.inr cached
    · rintro (equal | ⟨none_later, sub, parent, place⟩)
      · exact absurd equal own
      · refine ⟨sub, ?_, Or.inr ⟨rfl, none_later, parent⟩⟩
        rcases place with rfl | cached
        · exact if_pos rfl
        · split
          case isTrue => rfl
          case isFalse => exact cached

/-- For any state of the two maps, any host and any answers of the loader, if a call of `get`
returns a certificate with a DNS name, then the next call for the host finds it in the cache
exactly if it is cached where that call looks.
-/
theorem repeat_hits_iff (given : (certs.get subHost load host).1 = .ok cert)
    (named : HasDnsName cert.val)
    : HitsAgain subHost load later certs host
      ↔ CachedWhereSought subHost load later certs host := by
  rw [hitsAgain_iff given, get_eq]
  rw [get_eq] at given
  unfold CachedWhereSought
  cases found : certs.search subHost load host with
  | failed error =>
      rw [found] at given
      cases given
  | cached name other =>
      rw [found] at given
      obtain rfl : other = cert := Except.ok.inj given
      exact cached_hits_iff found
  | loaded other =>
      obtain ⟨name, day, entry⟩ := cacheEntry_of_hasDnsName named
      have same : other = cert := by
        rw [found] at given
        rcases read : cacheEntry other.val with failure | _ | ⟨_, _⟩
        all_goals
          simp only [give, read, reduceCtorEq, Except.ok.injEq] at given
        case ok.none => exact given
        case ok.some => exact given
      subst same
      have under : cachedUnder other.val = some name := by simp [cachedUnder, entry]
      simp only [give, entry, under, Option.some.injEq]
      exact inserted_hits_iff (search_eq_loaded.mp found).1

/-- For every `sub_host`: in any state of the two maps, for any host and any answers of the
loader, a call of `get` that returned a certificate with a DNS name is followed by a hit
exactly if the certificate is cached where the next call looks. In every run of interleaved
calls that caches certificates only under hosts that are not cached, there are never more
entries than cached and evicted hosts, and if the calls run one after the other, never more
than cached hosts.
-/
theorem get_repeats (subHost : String → Option String)
    : (∀ load later certs host cert,
          (certs.get subHost load host).1 = .ok cert
          → HasDnsName cert.val
          → (HitsAgain subHost load later certs host
            ↔ CachedWhereSought subHost load later certs host))
      ∧ (∀ actions,
          (counting subHost).EachStep InsertsNew (counting subHost).init actions
          → (counting subHost).Always EntriesBounded (counting subHost).init actions)
      ∧ ∀ calls,
          (sequential subHost).EachStep (CallInsertsNew subHost) new calls
          → (sequential subHost).Always
              (fun certs => certs.entries ≤ certs.hostCert.keys.card) new calls := by
  refine ⟨?_, ?_, ?_⟩
  · intro load later certs host cert given named
    exact repeat_hits_iff given named
  · intro actions fresh
    exact entriesBounded_of_insertsNew fresh
  · intro calls fresh
    exact entries_le_of_callInsertsNew fresh

/-- The loader has a certificate of its own for the one host. -/
def ownOnly (host : String) : Except Error (Option (Arc Cert)) :=
  .ok (if host = "a.example" then some (certNaming 0 ["a.example"]) else none)

/-- A call loads a certificate, which is then evicted. -/
def loadAndEvict : List Action :=
  [.call "a.example", .get 0 .look, .get 0 (.loaded (ownOnly "a.example")), .get 0 .insert,
    .get 0 .push, .pass 4102444800 1, .remove 0]

/-- A certificate that is cached under its host is found again, and listed once. -/
theorem get_repeats_own
    : HitsAgain (fun _ => none) ownOnly ownOnly new "a.example"
      ∧ (counting fun _ => none).Always EntriesBounded (counting fun _ => none).init
          loadAndEvict
      ∧ (sequential fun _ => none).Always
          (fun certs => certs.entries ≤ certs.hostCert.keys.card) new
          [.get "a.example" ownOnly, .get "a.example" ownOnly] := by
  refine ⟨?_, ?_, ?_⟩
  · refine ((get_repeats fun _ => none).1 ownOnly ownOnly new "a.example"
      (certNaming 0 ["a.example"]) (by decide) ?_).mpr ?_
    · exact ⟨_, _, rfl, rfl, by decide⟩
    · exact Or.inl (by decide)
  · exact (get_repeats fun _ => none).2.1 loadAndEvict (by decide)
  · refine (get_repeats fun _ => none).2.2 _ fun first stepped => ⟨?_, ?_⟩
    · exact fun cert name _ _ => Finmap.lookup_empty name
    · cases Option.some.inj stepped
      refine fun second _ => ⟨fun cert name found _ => ?_, trivial⟩
      cases found

/-- The certificate that `get` returns for `www.b.example` is cached under `a.example`, so that
the next call loads it again and lists the name a second time.
-/
theorem get_repeats_load
    : (new.get (fun _ => none) (fun host => .ok (overlapping host)) "www.b.example").1
        = .ok (certNaming 1 ["www.b.example", "a.example"])
      ∧ HasDnsName (certNaming 1 ["www.b.example", "a.example"]).val
      ∧ ¬ HitsAgain (fun _ => none) (fun host => .ok (overlapping host))
          (fun host => .ok (overlapping host)) new "www.b.example"
      ∧ (afterGets (fun _ => none) overlapping ["www.b.example", "www.b.example"]).entries = 2
      ∧ (afterGets (fun _ => none) overlapping
            ["www.b.example", "www.b.example"]).hostCert.keys = {"a.example"} := by
  refine ⟨by decide, ⟨_, _, rfl, rfl, by decide⟩, ?_, ?_, ?_⟩
  · exact fun hits => hits.2 (certNaming 1 ["www.b.example", "a.example"]) rfl
  · decide
  · decide

end Gway.CertLoader
