import Gway.CertLoader.Entries
import Gway.CertLoader.Sequential

/-! When calls do not overlap, a host that is cached anew has no entry left from before. Then
there are never more entries than cached hosts.
-/

namespace Gway.CertLoader

/-- A call that loads a certificate caches it under a host that is not cached. -/
def CallInsertsNew (subHost : String → Option String) (certs : CertLoader)
    : Call → CertLoader → Prop
  | .get host load, _ =>
      ∀ cert name,
        certs.search subHost load host = .loaded cert
        → cachedUnder cert.val = some name
        → certs.hostCert.lookup name = none
  | .rmExpired _ _, _ => True

/-- Every host has at most one entry, and has none if it is not cached. -/
structure ListedOnce (certs : CertLoader) : Prop where
  once : ∀ day, (certs.bucket day).Nodup
  oneDay
    : ∀ host day other, host ∈ certs.bucket day → host ∈ certs.bucket other → day = other
  cached
    : ∀ host day,
        host ∈ certs.bucket day → ∃ cert, certs.hostCert.lookup host = some cert

variable {subHost : String → Option String} {certs after : CertLoader}
  {host name : String} {cert : Arc Cert} {day now days : Int}

theorem ListedOnce.new : ListedOnce new := by
  have empty (day : Int) : CertLoader.new.bucket day = [] := by
    simp [CertLoader.new, bucket]
  constructor
  case once =>
    intro day
    rw [empty]
    exact List.nodup_nil
  case oneDay =>
    intro host day other member
    rw [empty] at member
    cases member
  case cached =>
    intro host day member
    rw [empty] at member
    cases member

/-- There are no more entries than cached hosts. Witness: the entries in a row have no host
twice, and all of them are keys of the cache.
-/
theorem ListedOnce.entries_le (listed : ListedOnce certs)
    : certs.entries ≤ certs.hostCert.keys.card := by
  have own {entry : Int × List String} (member : entry ∈ certs.expire.toList)
      : certs.bucket entry.1 = entry.2 := by
    have found := Std.ExtTreeMap.mem_toList_iff_getElem?_eq_some.mp member
    simp [bucket, found]
  have nodup : (certs.expire.toList.flatMap Prod.snd).Nodup := by
    refine List.nodup_flatMap.mpr ⟨fun entry member => own member ▸ listed.once entry.1, ?_⟩
    have distinct := Std.ExtTreeMap.toList_nodup certs.expire
    refine distinct.imp_of_mem fun {entry other} member also different => ?_
    refine List.disjoint_left.mpr fun host inside too => different ?_
    rw [← own member] at inside
    rw [← own also] at too
    have day := listed.oneDay host entry.1 other.1 inside too
    refine Prod.ext day ?_
    rw [← own member, ← own also, day]
  have inside : (certs.expire.toList.flatMap Prod.snd).toFinset ⊆ certs.hostCert.keys := by
    intro host member
    obtain ⟨entry, known, listedHere⟩ := List.mem_flatMap.mp (List.mem_toFinset.mp member)
    rw [← own known] at listedHere
    obtain ⟨cert, cached⟩ := listed.cached host entry.1 listedHere
    exact Finmap.mem_keys.mpr (Finmap.mem_of_lookup_eq_some cached)
  calc certs.entries
      = (certs.expire.toList.flatMap Prod.snd).toFinset.card :=
        (List.toFinset_card_of_nodup nodup).symm
    _ ≤ certs.hostCert.keys.card := Finset.card_le_card inside

/-- A host that is not cached can be cached and listed. -/
theorem ListedOnce.insertPush (listed : ListedOnce certs)
    (missing : certs.hostCert.lookup name = none)
    : ListedOnce ((certs.insertHost name cert).pushExpire day name) := by
  have unlisted (other : Int) : name ∉ certs.bucket other := by
    intro member
    obtain ⟨cert, cached⟩ := listed.cached name other member
    rw [missing] at cached
    cases cached
  have members (host : String) (other : Int)
      : host ∈ ((certs.insertHost name cert).pushExpire day name).bucket other
        ↔ host ∈ certs.bucket other ∨ host = name ∧ other = day := by
    rw [bucket_pushExpire]
    change host ∈ (if other = day then certs.bucket day ++ [name] else certs.bucket other) ↔ _
    split
    case isTrue same => simp [same]
    case isFalse different => simp [different]
  constructor
  case once =>
    intro other
    rw [bucket_pushExpire]
    split
    case isTrue =>
      refine (listed.once day).append (List.nodup_singleton name) ?_
      exact List.disjoint_singleton.mpr (unlisted day)
    case isFalse => exact listed.once other
  case oneDay =>
    intro host first second member also
    rcases (members host first).mp member with before | ⟨rfl, rfl⟩
    · rcases (members host second).mp also with other | ⟨rfl, -⟩
      · exact listed.oneDay host first second before other
      · exact absurd before (unlisted first)
    · rcases (members _ second).mp also with other | ⟨-, rfl⟩
      · exact absurd other (unlisted second)
      · rfl
  case cached =>
    intro host other member
    simp only [pushExpire, insertHost, Finmap.lookup_insert_eq]
    split
    case isTrue => exact ⟨cert, rfl⟩
    case isFalse different =>
      rcases (members host other).mp member with before | ⟨same, -⟩
      · exact listed.cached host other before
      · exact absurd same different

/-- What `rm_expired` leaves listed is in a bucket that it does not visit. -/
theorem bucket_rmExpired
    : host ∈ (certs.rmExpired now days).bucket day
      ↔ host ∈ certs.bucket day ∧ now + days * 24 * 60 * 60 ≤ day := by
  simp only [mem_bucket, expire_rmExpired]
  constructor
  · rintro ⟨hosts, ⟨found, late⟩, member⟩
    exact ⟨⟨hosts, found, member⟩, late⟩
  · rintro ⟨⟨hosts, found, member⟩, late⟩
    exact ⟨hosts, ⟨found, late⟩, member⟩

/-- A host that stays listed is not evicted, since it has no entry in another bucket. -/
theorem ListedOnce.rmExpired (listed : ListedOnce certs) (now days : Int)
    : ListedOnce (certs.rmExpired now days) := by
  constructor
  case once =>
    intro day
    rw [CertLoader.rmExpired, bucket_removeBuckets]
    split
    case isTrue => exact List.nodup_nil
    case isFalse => exact listed.once day
  case oneDay =>
    intro host first second member also
    exact listed.oneDay host first second (bucket_rmExpired.mp member).1
      (bucket_rmExpired.mp also).1
  case cached =>
    intro host day member
    obtain ⟨before, late⟩ := bucket_rmExpired.mp member
    obtain ⟨cert, cached⟩ := listed.cached host day before
    refine ⟨cert, lookup_rmExpired.mpr ⟨cached, fun other also => ?_⟩⟩
    rwa [listed.oneDay host other day also before]

/-- A call keeps every host listed once, if what it caches is new. -/
theorem ListedOnce.call (call : Call) (listed : ListedOnce certs)
    (new : CallInsertsNew subHost certs call after)
    : ListedOnce (call.after subHost certs) := by
  cases call with
  | rmExpired now days => exact listed.rmExpired now days
  | get host load =>
      rw [Call.after, get_eq]
      cases found : certs.search subHost load host with
      | cached name cert => exact listed
      | failed error => exact listed
      | loaded cert =>
          rcases entry : cacheEntry cert.val with failure | _ | ⟨name, day⟩
          case error => simpa [give, entry] using listed
          case ok.none => simpa [give, entry] using listed
          case ok.some =>
            have missing := new cert name found (by simp [cachedUnder, entry])
            simpa only [give, entry] using listed.insertPush missing

/-- When the calls run one after the other and each caches only under a host that is not
cached, there are never more entries than cached hosts.
-/
theorem entries_le_of_callInsertsNew {calls : List Call}
    (new
      : (sequential subHost).EachStep (CallInsertsNew subHost) CertLoader.new calls)
    : (sequential subHost).Always
        (fun certs => certs.entries ≤ certs.hostCert.keys.card) CertLoader.new calls := by
  refine Machine.Always.mono (fun certs listed => listed.entries_le)
    (new.always (fun before call after listed stepped met => ?_) ListedOnce.new)
  cases Option.some.inj stepped
  exact listed.call call met

end Gway.CertLoader
