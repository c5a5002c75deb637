import Gway.CertLoader.Lookup

/-! How a call of `get` fails. Most failures are errors that leave the maps as they are, but a
chain without a leaf and alternative names that cannot be looked up are not expected.
-/

namespace Gway.CertLoader

/-- The chain has a leaf, and if this can be parsed, its alternative names can be looked up. -/
def Inspectable (cert : Cert) : Prop :=
  cert.fullchain ≠ []
  ∧ ∀ leaf, cert.leaf = some leaf → leaf.subjectAlternativeName.isOk = true

/-- The call does not panic, and an error leaves the maps as they are. -/
def FailsCleanly (subHost : String → Option String) (load : Load) (certs : CertLoader)
    (host : String) : Prop :=
  (certs.get subHost load host).1 ≠ .error .panic
  ∧ ∀ error,
      (certs.get subHost load host).1 = .error (.err error)
      → (certs.get subHost load host).2 = certs

variable {subHost : String → Option String} {load : Load} {certs : CertLoader}
  {host : String} {cert : Arc Cert}

theorem cacheEntry_eq_panic {cert : Cert}
    : cacheEntry cert = .error .panic ↔ ¬ Inspectable cert := by
  obtain ⟨fullchain⟩ := cert
  rcases fullchain with _ | ⟨err | ⟨notAfter, san⟩, rest⟩
  case nil => simp [cacheEntry, Inspectable]
  case cons.error => simp [cacheEntry, Inspectable, Cert.leaf, Except.toOption]
  case cons.ok =>
    cases san with
    | error err => simp [cacheEntry, Inspectable, Cert.leaf, Except.toOption, Except.isOk,
        Except.toBool]
    | ok san => simp [cacheEntry, Inspectable, Cert.leaf, Except.toOption, Except.isOk,
        Except.toBool]

/-- A call fails without any change to the maps, as it changes them only at its end. -/
theorem get_error {failure : Failure}
    (failed : (certs.get subHost load host).1 = .error failure)
    : (certs.get subHost load host).2 = certs := by
  rw [get_eq] at failed ⊢
  cases found : certs.search subHost load host with
  | cached name cert => rfl
  | failed error => rfl
  | loaded cert =>
      rw [found] at failed
      rcases entry : cacheEntry cert.val with failure | _ | ⟨name, day⟩
      case error => simp only [give, entry]
      case ok.none => simp only [give, entry, reduceCtorEq] at failed
      case ok.some => simp only [give, entry, reduceCtorEq] at failed

/-- A call panics exactly if it loads a certificate that it cannot inspect. -/
theorem get_eq_panic
    : (certs.get subHost load host).1 = .error .panic
      ↔ ∃ cert,
          certs.search subHost load host = .loaded cert ∧ ¬ Inspectable cert.val := by
  rw [get_eq]
  cases found : certs.search subHost load host with
  | cached name cert => simp [give]
  | failed error => simp [give]
  | loaded cert =>
      simp only [Found.loaded.injEq, exists_eq_left', ← cacheEntry_eq_panic]
      rcases entry : cacheEntry cert.val with failure | _ | ⟨name, day⟩ <;>
        simp [give, entry]

/-- For any state of the two maps, any host and any answers of the loader, a call of `get`
fails cleanly exactly if the certificate that it loads, if it loads one, has a leaf, and this
cannot be parsed or has alternative names that can be looked up.
-/
theorem get_failsCleanly_iff (subHost : String → Option String) (load : Load)
    (certs : CertLoader) (host : String)
    : FailsCleanly subHost load certs host
      ↔ ∀ cert, certs.search subHost load host = .loaded cert → Inspectable cert.val := by
  have unchanged (error : Error)
      (failed : (certs.get subHost load host).1 = .error (.err error))
      : (certs.get subHost load host).2 = certs :=
    get_error failed
  rw [FailsCleanly, and_iff_left unchanged, ne_eq, get_eq_panic]
  simp only [not_exists, not_and, not_not]

/-- A chain with a leaf in which the alternative names occur twice. -/
def duplicatedNames : Arc Cert where
  ptr := 0
  val :=
    {
      fullchain :=
        [.ok
          {
            notAfter := 4102444800
            subjectAlternativeName := .error { debug := "DuplicateExtensions" }
          }]
    }

/-- A chain without certificates. -/
def emptyChain : Arc Cert where
  ptr := 1
  val := { fullchain := [] }

/-- Either makes the first call for a host panic. Witness: the call by evaluation. -/
theorem get_panics
    : (new.get (fun _ => none) (fun _ => .ok (some duplicatedNames)) "a.example").1
        = .error .panic
      ∧ (new.get (fun _ => none) (fun _ => .ok (some emptyChain)) "a.example").1
        = .error .panic
      ∧ ¬ FailsCleanly (fun _ => none) (fun _ => .ok (some duplicatedNames)) new
          "a.example" := by
  refine ⟨rfl, rfl, fun clean => ?_⟩
  exact clean.1 rfl

end Gway.CertLoader
