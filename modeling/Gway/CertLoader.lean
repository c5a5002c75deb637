import Gway.Error
import Mathlib.Data.List.MinMax

/-! The certificate cache: the certificate of each cached host, and for each day the hosts
whose certificates expire on it.
-/

namespace Gway

structure X509Error where
  debug : String
deriving DecidableEq, Repr

inductive GeneralName where
  | dnsName (domain : String)
  | other
deriving DecidableEq, Repr

/-- What a parsed certificate says: the end of its validity in seconds since the epoch and
the result of the look-up of its alternative names.
-/
structure X509Certificate where
  notAfter : Int
  subjectAlternativeName : Except X509Error (Option (List GeneralName))
deriving DecidableEq

/-- The bytes of a certificate are represented by the result of `parse_x509_certificate`. -/
abbrev CertificateDer := Except X509Error X509Certificate

/-- A certificate chain, less the private key and the configurations built from it. -/
structure Cert where
  fullchain : List CertificateDer
deriving DecidableEq

/-- The parsed leaf of a chain, if there is one and it can be parsed. -/
def Cert.leaf (cert : Cert) : Option X509Certificate :=
  cert.fullchain.head?.bind Except.toOption

/-- The day of a time in seconds, rounded towards the epoch. -/
def expireDay (timestamp : Int) : Int :=
  timestamp.tdiv 86400

/-- The day on which the leaf expires. -/
def Cert.expireDay (cert : Cert) : Option Int :=
  cert.leaf.map fun leaf => Gway.expireDay leaf.notAfter

/-- The DNS names among the alternative names, in order. -/
def dnsNames (san : Option (List GeneralName)) : List String :=
  (san.getD []).filterMap fun name =>
    match name with
    | .dnsName domain => some domain
    | .other => none

/-- The host under which `cert_by_host` caches a certificate and the day on which it expires:
the first of the shortest DNS names, if there are any. It panics on an empty chain and on
alternative names that cannot be read.
-/
def cacheEntry (cert : Cert) : Except Failure (Option (String × Int)) :=
  match cert.fullchain with
  | [] => .error .panic
  | .error err :: _ => .error (.err (.certParse ("证书解析失败: " ++ err.debug)))
  | .ok certPem :: _ =>
      match certPem.subjectAlternativeName with
      | .error _ => .error .panic
      | .ok san =>
          let shortestHost := (dnsNames san).argmin String.utf8ByteSize
          .ok (shortestHost.map fun host => (host, expireDay certPem.notAfter))

/-- A certificate that is cached has a leaf, and its day is that of the leaf's expiry. -/
theorem cacheEntry_day {cert : Cert} {host : String} {day : Int}
    (cached : cacheEntry cert = .ok (some (host, day)))
    : cert.expireDay = some day := by
  unfold cacheEntry at cached
  split at cached
  case h_1 | h_2 => cases cached
  case h_3 certPem rest chain =>
    split at cached
    case h_1 => cases cached
    case h_2 san found =>
      obtain ⟨_, -, same⟩ := Option.map_eq_some_iff.mp (Except.ok.inj cached)
      obtain ⟨-, rfl⟩ := Prod.mk.inj same
      simp [Cert.expireDay, Cert.leaf, chain, Except.toOption]

-----------------------------------------------------------------------------------------
-- The two maps
-----------------------------------------------------------------------------------------

/-- The cache and its index by days. The loader is a parameter of what uses it. -/
structure CertLoader where
  hostCert : DashMap String (Arc Cert)
  expire : BTreeMap Int (List String)

namespace CertLoader

def new : CertLoader where
  hostCert := ∅
  expire := ∅

/-- `host_cert.insert`. -/
def insertHost (certs : CertLoader) (host : String) (cert : Arc Cert) : CertLoader :=
  { certs with hostCert := certs.hostCert.insert host cert }

/-- The hosts listed for a day. -/
def bucket (certs : CertLoader) (day : Int) : List String :=
  certs.expire[day]?.getD []

/-- `expire.write().entry(day).or_default().push(host)`. -/
def pushExpire (certs : CertLoader) (day : Int) (host : String) : CertLoader :=
  { certs with expire := certs.expire.insert day (certs.bucket day ++ [host]) }

/-- The buckets that the pass of `rm_expired` visits, in the order of their days until the
first that is not below the threshold.
-/
def expired (certs : CertLoader) (now days : Int) : List (Int × List String) :=
  certs.expire.toList.takeWhile fun entry => entry.1 < now + days * 24 * 60 * 60

/-- The pass itself evicts the hosts of these buckets from the cache. -/
def evict (certs : CertLoader) (buckets : List (Int × List String)) : CertLoader :=
  { certs with
    hostCert :=
      (buckets.flatMap Prod.snd).foldl (fun hosts host => hosts.erase host) certs.hostCert }

/-- Then the visited buckets are removed. -/
def removeBuckets (certs : CertLoader) (toRmExpire : List Int) : CertLoader :=
  { certs with
    expire := toRmExpire.foldl (fun expire day => expire.erase day) certs.expire }

/-- `rm_expired` when nothing comes between its pass and the removal. -/
def rmExpired (certs : CertLoader) (now days : Int) : CertLoader :=
  let buckets := certs.expired now days
  (certs.evict buckets).removeBuckets (buckets.map Prod.fst)

variable {certs : CertLoader} {host other : String} {day : Int}

theorem mem_bucket
    : host ∈ certs.bucket day ↔ ∃ hosts, certs.expire[day]? = some hosts ∧ host ∈ hosts := by
  unfold bucket
  cases certs.expire[day]? <;> simp

theorem bucket_pushExpire (other : Int)
    : (certs.pushExpire day host).bucket other
      = if other = day then certs.bucket day ++ [host] else certs.bucket other := by
  simp only [bucket, pushExpire, Std.ExtTreeMap.lookup_insert_eq]
  split <;> rfl

/-- Since the buckets are visited in order, the pass visits all below the threshold. -/
theorem mem_expired {now days : Int} {hosts : List String}
    : (day, hosts) ∈ certs.expired now days
      ↔ certs.expire[day]? = some hosts ∧ day < now + days * 24 * 60 * 60 := by
  have lower (left right : Int) (before : compare left right = .lt)
      (below : decide (right < now + days * 24 * 60 * 60))
      : decide (left < now + days * 24 * 60 * 60) := by
    rw [compare_lt_iff_lt] at before
    simp only [decide_eq_true_eq] at below ⊢
    exact before.trans below
  have visited
      : (day, hosts) ∈ certs.expired now days
        ↔ certs.expire[day]? = some hosts
          ∧ decide (day < now + days * 24 * 60 * 60) = true :=
    Std.ExtTreeMap.mem_takeWhile_toList lower
  rwa [decide_eq_true_iff] at visited

/-- The pass evicts the hosts of the buckets it visits. -/
theorem lookup_evict (buckets : List (Int × List String))
    : (certs.evict buckets).hostCert.lookup host
      = if ∃ entry ∈ buckets, host ∈ entry.2 then none
        else certs.hostCert.lookup host := by
  simp only [evict, Finmap.lookup_foldl_erase, List.mem_flatMap]

theorem bucket_removeBuckets (toRmExpire : List Int)
    : (certs.removeBuckets toRmExpire).bucket day
      = if day ∈ toRmExpire then [] else certs.bucket day := by
  simp only [bucket, removeBuckets, Std.ExtTreeMap.lookup_foldl_erase]
  split <;> rfl

end CertLoader

end Gway
