import Gway.CertLoader.Expiry
import Gway.CertLoader.Lookup

/-! Calls of `get` and `rm_expired` one after the other. Then every cached host is listed for
its day, and what a call of `rm_expired` leaves is not due yet.
-/

namespace Gway.CertLoader

/-- A call with what its loader answers, or with the time at which it runs. -/
inductive Call where
  | get (host : String) (load : Load)
  | rmExpired (now days : Int)

/-- The maps after a call. -/
def Call.after (subHost : String → Option String) (certs : CertLoader) : Call → CertLoader
  | .get host load => (certs.get subHost load host).2
  | .rmExpired now days => certs.rmExpired now days

/-- The cache when every call returns before the next one begins. -/
def sequential (subHost : String → Option String) : Machine CertLoader Call where
  init := new
  step certs call := some (call.after subHost certs)

/-- The leaf of the chain, if it can be parsed, expires at or after the epoch. -/
def AfterEpoch (cert : Cert) : Prop :=
  ∀ leaf, cert.leaf = some leaf → 0 ≤ leaf.notAfter

/-- All certificates that the loader of the call answers with expire at or after the epoch. -/
def Call.LoadsAfterEpoch : Call → Prop
  | .get _ load => ∀ host cert, load host = .ok (some cert) → AfterEpoch cert.val
  | .rmExpired _ _ => True

/-- Nothing is left that is due before the end of the given days from now: no certificate in
the cache, and no bucket.
-/
structure NothingDue (certs : CertLoader) (now days : Int) : Prop where
  cached
    : ∀ host cert,
        certs.hostCert.lookup host = some cert
        → ∃ leaf, cert.val.leaf = some leaf ∧ now + days * 86400 ≤ leaf.notAfter
  listed
    : ∀ day hosts, certs.expire[day]? = some hosts → now + days * 86400 ≤ day

/-- Every cached host is listed for the day of its certificate, which expires at or after the
epoch.
-/
structure IndexedAfterEpoch (certs : CertLoader) : Prop where
  indexed : Indexed certs
  afterEpoch
    : ∀ host cert, certs.hostCert.lookup host = some cert → AfterEpoch cert.val

variable {subHost : String → Option String} {load : Load} {certs : CertLoader}
  {host name : String} {cert : Arc Cert} {day now days : Int}

/-- Pushing a host to a day leaves the others listed. -/
theorem mem_bucket_pushExpire {other : String} {listedDay : Int}
    (member : other ∈ certs.bucket listedDay)
    : other ∈ (certs.pushExpire day host).bucket listedDay := by
  rw [bucket_pushExpire]
  split
  case isTrue same => exact List.mem_append_left _ (same ▸ member)
  case isFalse => exact member

/-- A certificate that is cached and listed at once keeps every cached host listed. -/
theorem Indexed.insertPush (indexed : Indexed certs)
    (entry : cacheEntry cert.val = .ok (some (name, day)))
    : Indexed ((certs.insertHost name cert).pushExpire day name) := by
  intro other found known
  simp only [pushExpire, insertHost, Finmap.lookup_insert_eq] at known
  split at known
  case isTrue same =>
    obtain rfl := Option.some.inj known
    subst same
    exact ⟨day, cacheEntry_day entry, by simp [bucket_pushExpire]⟩
  case isFalse =>
    obtain ⟨listedDay, expires, member⟩ := indexed other found known
    exact ⟨listedDay, expires, mem_bucket_pushExpire member⟩

/-- A call of `get` keeps what is cached listed. -/
theorem IndexedAfterEpoch.get (inv : IndexedAfterEpoch certs) (host : String)
    (epoch : ∀ host cert, load host = .ok (some cert) → AfterEpoch cert.val)
    : IndexedAfterEpoch (certs.get subHost load host).2 := by
  rw [get_eq]
  cases found : certs.search subHost load host with
  | cached name cert => exact inv
  | failed error => exact inv
  | loaded cert =>
      have late : AfterEpoch cert.val := by
        rcases (search_eq_loaded.mp found).2 with answer | ⟨-, sub, -, -, answer⟩
        · exact epoch host cert answer
        · exact epoch sub cert answer
      rcases entry : cacheEntry cert.val with failure | _ | ⟨name, day⟩
      case error => simpa [give, entry] using inv
      case ok.none => simpa [give, entry] using inv
      case ok.some =>
        simp only [give, entry]
        refine ⟨inv.indexed.insertPush entry, fun other known cached => ?_⟩
        simp only [pushExpire, insertHost, Finmap.lookup_insert_eq] at cached
        split at cached
        case isTrue => rwa [← Option.some.inj cached]
        case isFalse => exact inv.afterEpoch other known cached

/-- The buckets that `rm_expired` leaves are those not below the threshold. -/
theorem expire_rmExpired {hosts : List String}
    : (certs.rmExpired now days).expire[day]? = some hosts
      ↔ certs.expire[day]? = some hosts ∧ now + days * 24 * 60 * 60 ≤ day := by
  have visited
      : day ∈ (certs.expired now days).map Prod.fst
        ↔ (∃ hosts, certs.expire[day]? = some hosts) ∧ day < now + days * 24 * 60 * 60 := by
    simp only [List.mem_map, Prod.exists, exists_and_right, exists_eq_right, mem_expired]
  simp only [rmExpired, removeBuckets, evict, Std.ExtTreeMap.lookup_foldl_erase, visited,
    Option.ite_none_left_eq_some, not_and, Int.not_lt]
  constructor
  · rintro ⟨late, found⟩
    exact ⟨found, late ⟨hosts, found⟩⟩
  · rintro ⟨found, late⟩
    exact ⟨fun _ => late, found⟩

/-- What `rm_expired` leaves in the cache is listed in a bucket that it leaves as well. -/
theorem IndexedAfterEpoch.rmExpired (inv : IndexedAfterEpoch certs) (now days : Int)
    : IndexedAfterEpoch (certs.rmExpired now days) := by
  constructor
  case indexed =>
    intro host cert known
    obtain ⟨cached, late⟩ := lookup_rmExpired.mp known
    obtain ⟨day, expires, member⟩ := inv.indexed host cert cached
    obtain ⟨hosts, found, listed⟩ := mem_bucket.mp member
    refine ⟨day, expires, mem_bucket.mpr ⟨hosts, ?_, listed⟩⟩
    exact expire_rmExpired.mpr ⟨found, late day member⟩
  case afterEpoch =>
    intro host cert known
    exact inv.afterEpoch host cert (lookup_rmExpired.mp known).1

theorem IndexedAfterEpoch.new : IndexedAfterEpoch new := by
  constructor
  case indexed =>
    intro host cert found
    simp [CertLoader.new] at found
  case afterEpoch =>
    intro host cert found
    simp [CertLoader.new] at found

/-- The calls keep what is cached listed, by induction on the run. -/
theorem IndexedAfterEpoch.of_run {calls : List Call}
    (epoch : ∀ call ∈ calls, call.LoadsAfterEpoch)
    (ran : (sequential subHost).run CertLoader.new calls = some certs)
    : IndexedAfterEpoch certs := by
  have start := IndexedAfterEpoch.new
  generalize CertLoader.new = before at start ran
  induction calls generalizing before with
  | nil => exact Option.some.inj ran ▸ start
  | cons call rest ih =>
      obtain ⟨next, stepped, later⟩ := Machine.run_cons.mp ran
      obtain rfl := Option.some.inj stepped
      have own := epoch call List.mem_cons_self
      refine ih (fun other member => epoch other (List.mem_cons_of_mem _ member)) _ ?_ later
      cases call with
      | get host load => exact start.get host own
      | rmExpired now days => exact start.rmExpired now days

/-- The day of a time after the epoch is a number that is not beyond the time itself. -/
theorem expireDay_le {timestamp : Int} (epoch : 0 ≤ timestamp)
    : Gway.expireDay timestamp ≤ timestamp := by
  rw [Gway.expireDay, Int.tdiv_eq_ediv_of_nonneg epoch]
  omega

/-- After any sequence of calls whose loaders answer with certificates that expire at or after
the epoch, `rm_expired` leaves nothing that is due.
-/
theorem rmExpired_nothingDue {calls : List Call}
    (epoch : ∀ call ∈ calls, call.LoadsAfterEpoch)
    (ran : (sequential subHost).run CertLoader.new calls = some certs) (now days : Int)
    : NothingDue (certs.rmExpired now days) now days := by
  have inv := IndexedAfterEpoch.of_run epoch ran
  constructor
  case cached =>
    intro host cert known
    obtain ⟨cached, late⟩ := lookup_rmExpired.mp known
    obtain ⟨day, expires, member⟩ := inv.indexed host cert cached
    obtain ⟨leaf, parsed, rfl⟩ := Option.map_eq_some_iff.mp expires
    have within := expireDay_le (inv.afterEpoch host cert cached leaf parsed)
    have threshold := late _ member
    exact ⟨leaf, parsed, by omega⟩
  case listed =>
    intro day hosts found
    have threshold := (expire_rmExpired.mp found).2
    omega

theorem afterEpoch_certFor {ptr : Nat} {notAfter : Int} (epoch : 0 ≤ notAfter)
    : AfterEpoch (certFor ptr host notAfter).val := by
  intro leaf parsed
  cases Option.some.inj parsed
  exact epoch

/-- A call whose loader answers with one certificate for all hosts. -/
def getFrom (host : String) (cert : Arc Cert) : Call :=
  .get host (fun _ => .ok (some cert))

/-- A host is loaded again after a pass that evicted it, with a certificate of the next day. -/
def renewal : List Call :=
  [getFrom "a.example" (certFor 0 "a.example" 1700000000), .rmExpired 1700000000 2,
    getFrom "a.example" (certFor 1 "a.example" 1700086400)]

/-- A pass with a threshold below that day leaves the new certificate. -/
theorem rmExpired_nothingDue_renewal
    : ∃ certs,
        (sequential fun _ => none).run CertLoader.new renewal = some certs
        ∧ (certs.rmExpired 10000 0).hostCert.lookup "a.example"
          = some (certFor 1 "a.example" 1700086400)
        ∧ NothingDue (certs.rmExpired 10000 0) 10000 0 := by
  have loads (ptr : Nat) {notAfter : Int} (epoch : 0 ≤ notAfter)
      : (getFrom "a.example" (certFor ptr "a.example" notAfter)).LoadsAfterEpoch := by
    intro host cert answer
    cases answer
    exact afterEpoch_certFor epoch
  have epoch : ∀ call ∈ renewal, call.LoadsAfterEpoch := by
    simp only [renewal, List.forall_mem_cons]
    exact ⟨loads 0 (by decide), trivial, loads 1 (by decide), List.forall_mem_nil _⟩
  exact ⟨_, rfl, by decide, rmExpired_nothingDue epoch rfl 10000 0⟩

end Gway.CertLoader
