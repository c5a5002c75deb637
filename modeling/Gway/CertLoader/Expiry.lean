import Gway.CertLoader.Index

/-! What `rm_expired` evicts. The buckets are numbered by days and compared with a time in
seconds, so nearly every bucket counts as expired.
-/

namespace Gway.CertLoader

/-- The certificate is valid for at least the given days and one more. -/
def StillGood (now days : Int) (cert : Cert) : Prop :=
  ∃ leaf, cert.leaf = some leaf ∧ now + (days + 1) * 86400 ≤ leaf.notAfter

/-- After `rm_expired` every good certificate is still cached under its host. -/
def KeepsGood (certs : CertLoader) (now days : Int) : Prop :=
  ∀ host cert,
    certs.hostCert.lookup host = some cert
    → StillGood now days cert.val
    → (certs.rmExpired now days).hostCert.lookup host = some cert

/-- Every day that lists the host of a good certificate, taken as a number of seconds, is not
before the end of the given days from now.
-/
def GoodListedLate (certs : CertLoader) (now days : Int) : Prop :=
  ∀ host cert,
    certs.hostCert.lookup host = some cert
    → StillGood now days cert.val
    → ∀ day, host ∈ certs.bucket day → now + days * 24 * 60 * 60 ≤ day

variable {certs : CertLoader} {now days : Int} {host : String}

/-- `rm_expired` keeps exactly the hosts that are not listed below the threshold. -/
theorem lookup_rmExpired {cert : Arc Cert}
    : (certs.rmExpired now days).hostCert.lookup host = some cert
      ↔ certs.hostCert.lookup host = some cert
        ∧ ∀ day, host ∈ certs.bucket day → now + days * 24 * 60 * 60 ≤ day := by
  have visited
      : (∃ entry ∈ certs.expired now days, host ∈ entry.2)
        ↔ ∃ day, host ∈ certs.bucket day ∧ day < now + days * 24 * 60 * 60 := by
    constructor
    · intro ⟨⟨day, hosts⟩, entered, member⟩
      obtain ⟨found, below⟩ := mem_expired.mp entered
      exact ⟨day, mem_bucket.mpr ⟨hosts, found, member⟩, below⟩
    · intro ⟨day, member, below⟩
      obtain ⟨hosts, found, member⟩ := mem_bucket.mp member
      exact ⟨(day, hosts), mem_expired.mpr ⟨found, below⟩, member⟩
  simp only [rmExpired, removeBuckets, lookup_evict, Option.ite_none_left_eq_some, visited,
    not_exists, not_and, Int.not_lt]
  exact and_comm

/-- At any time and in any state of the two maps, `rm_expired` keeps every certificate that
is still good exactly if none of their hosts is listed for a day whose number is below the
threshold in seconds.
-/
theorem keepsGood_iff (certs : CertLoader) (now days : Int)
    : certs.KeepsGood now days ↔ certs.GoodListedLate now days := by
  constructor
  · intro keeps host cert cached good
    exact (lookup_rmExpired.mp (keeps host cert cached good)).2
  · intro late host cert cached good
    exact lookup_rmExpired.mpr ⟨cached, late host cert cached good⟩

/-- Where every cached host is listed for its day, no good certificate is kept unless it
expires on a day whose number is not below the threshold in seconds.
-/
theorem KeepsGood.expireDay (keeps : certs.KeepsGood now days) (indexed : Indexed certs)
    {cert : Arc Cert} (cached : certs.hostCert.lookup host = some cert)
    (good : StillGood now days cert.val)
    : ∃ day, cert.val.expireDay = some day ∧ now + days * 24 * 60 * 60 ≤ day := by
  obtain ⟨day, expires, member⟩ := indexed host cert cached
  obtain ⟨-, late⟩ := lookup_rmExpired.mp (keeps host cert cached good)
  exact ⟨day, expires, late day member⟩

/-- A certificate valid until 2100 is loaded in 2023, and `rm_expired` evicts it at once. -/
theorem rmExpired_evicts_good
    : ∃ state,
        (certLoader fun _ => none).run .init
            (getUntilInserted 0 "a.example" 4102444800 ++ [.get 0 .push])
          = some state
        ∧ state.certs.hostCert.lookup "a.example"
          = some (certFor 0 "a.example" 4102444800)
        ∧ StillGood 1700000000 2 (certFor 0 "a.example" 4102444800).val
        ∧ (state.certs.rmExpired 1700000000 2).hostCert.lookup "a.example" = none := by
  have evicted
      : ((certLoader fun _ => none).run .init
            (getUntilInserted 0 "a.example" 4102444800 ++ [.get 0 .push])).map
          (fun state =>
            (state.certs.hostCert.lookup "a.example",
              (state.certs.rmExpired 1700000000 2).hostCert.lookup "a.example"))
        = some (some (certFor 0 "a.example" 4102444800), none) := by
    decide
  obtain ⟨state, ran, evicted⟩ := Option.map_eq_some_iff.mp evicted
  obtain ⟨cached, gone⟩ := Prod.mk.inj evicted
  exact ⟨state, ran, cached, ⟨_, rfl, by decide⟩, gone⟩

end Gway.CertLoader
