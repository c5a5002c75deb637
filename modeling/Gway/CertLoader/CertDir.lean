import Gway.CertLoader.System
import Gway.Library.UnixPath

/-! The loader that keeps certificates in a directory, as the loader of the cache. It makes
the paths of the two files out of the host, which is whatever the client has sent.
-/

namespace Gway

open UnixPath

/-- What `tokio::fs` answers while a load is under way, which asks each question at most
once. Errors are represented by their texts.
-/
structure FileSystem where
  tryExists (path : UnixPath) : Except String Bool
  readToString (path : UnixPath) : Except String String

/-- No file exists. -/
def FileSystem.empty : FileSystem where
  tryExists _ := .ok false
  readToString _ := .error "entity not found"

structure CertDir where
  base : UnixPath
deriving DecidableEq, Repr

/-- `Cert::new` and the allocation of its result. -/
abbrev NewCert := String → String → Except Error (Arc Cert)

namespace CertDir

def certPath (certDir : CertDir) (host : String) : UnixPath :=
  certDir.base.join (host ++ "_ecc/fullchain.cer").toList

def keyPath (certDir : CertDir) (host : String) : UnixPath :=
  certDir.base.join (host ++ "_ecc/" ++ host ++ ".key").toList

/-- `load`, and the paths that it probes and reads, in order. -/
def load (certDir : CertDir) (fs : FileSystem) (newCert : NewCert) (host : String)
    : Except Error (Option (Arc Cert)) × List UnixPath :=
  let certPath := certDir.certPath host
  let keyPath := certDir.keyPath host
  if (fs.tryExists certPath).toOption.getD false = false then (.ok none, [certPath])
  else if (fs.tryExists keyPath).toOption.getD false = false then
    (.ok none, [certPath, keyPath])
  else
    match fs.readToString certPath with
    | .error err => (.error (.io err), [certPath, keyPath, certPath])
    | .ok certStr =>
        match fs.readToString keyPath with
        | .error err => (.error (.io err), [certPath, keyPath, certPath, keyPath])
        | .ok keyStr =>
            ((newCert certStr keyStr).map some, [certPath, keyPath, certPath, keyPath])

variable {certDir : CertDir} {fs : FileSystem} {newCert : NewCert} {host : String}

/-- A load probes both paths and then reads both, up to the first operation that ends it. -/
theorem load_paths (certDir : CertDir) (fs : FileSystem) (newCert : NewCert) (host : String)
    : ∃ count,
        (certDir.load fs newCert host).2
        = certDir.certPath host
          :: [certDir.keyPath host, certDir.certPath host, certDir.keyPath host].take count := by
  simp only [load]
  split
  case isTrue => exact ⟨0, rfl⟩
  case isFalse =>
    split
    case isTrue => exact ⟨1, rfl⟩
    case isFalse =>
      split
      case h_1 => exact ⟨2, rfl⟩
      case h_2 => split <;> exact ⟨3, rfl⟩

theorem certPath_mem_load : certDir.certPath host ∈ (certDir.load fs newCert host).2 := by
  obtain ⟨count, paths⟩ := load_paths certDir fs newCert host
  rw [paths]
  exact List.mem_cons_self

theorem mem_load {path : UnixPath} (touched : path ∈ (certDir.load fs newCert host).2)
    : path = certDir.certPath host ∨ path = certDir.keyPath host := by
  obtain ⟨count, paths⟩ := load_paths certDir fs newCert host
  rw [paths] at touched
  rcases List.mem_cons.mp touched with rfl | later
  · exact Or.inl rfl
  · have known := List.mem_of_mem_take later
    simp only [List.mem_cons, List.not_mem_nil, or_false] at known
    tauto

theorem load_empty : certDir.load .empty newCert host = (.ok none, [certDir.certPath host]) :=
  rfl

end CertDir

-----------------------------------------------------------------------------------------
-- Hosts whose files are in the directory
-----------------------------------------------------------------------------------------

/-- The host is no absolute path and, but for its last component, never leads out of the
directory that it begins in.
-/
def StaysInStore (host : String) : Prop :=
  ¬ IsAbsolute host.toList
  ∧ (depthAfter 0 (components host.toList).dropLast).isSome

instance (host : String) : Decidable (StaysInStore host) :=
  inferInstanceAs (Decidable (_ ∧ _))

/-- A name without a separator is such a host. -/
theorem staysInStore_of_plain {host : String} (plain : '/' ∉ host.toList)
    : StaysInStore host := by
  constructor
  case left =>
    intro absolute
    exact plain (List.mem_of_mem_head? absolute)
  case right =>
    rw [components, List.splitOn_eq_singleton plain]
    rfl

/-- What follows the host makes its last component a name and enters it, so the path is
confined if the components before that one are and so are those that come after.
-/
theorem confined_stored (host : String) (front : UnixPath) {file : List Char}
    (plain : '/' ∉ file) (long : 2 < file.length)
    : Confined (host.toList ++ ("_ecc".toList ++ '/' :: (front ++ file)))
      ↔ ¬ IsAbsolute host.toList
        ∧ ∃ depth,
            depthAfter 0 (components host.toList).dropLast = some depth
            ∧ (depthAfter (depth + 1) (components front).dropLast).isSome := by
  refine and_congr (not_congr (isAbsolute_append ?_)) ?_
  · simp [IsAbsolute]
  · rw [← List.append_assoc, components_separated, depthAfter_append,
      depthAfter_append_tail 0 _ (by decide) (by decide)]
    cases depthAfter 0 (components host.toList).dropLast with
    | none => simp
    | some depth => simp [depthAfter_append_tail _ _ plain long]

/-- The path of the certificate is confined exactly for these hosts. -/
theorem confined_cert {host : String}
    : Confined (host ++ "_ecc/fullchain.cer").toList ↔ StaysInStore host := by
  have text
      : (host ++ "_ecc/fullchain.cer").toList
        = host.toList ++ ("_ecc".toList ++ '/' :: ([] ++ "fullchain.cer".toList)) := by
    simp
  rw [text, confined_stored host [] (by decide) (by decide), StaysInStore,
    Option.isSome_iff_exists]
  refine and_congr_right fun _ => exists_congr fun depth => ?_
  exact and_iff_left rfl

/-- So is the path of the key, where the host comes a second time, from further down. -/
theorem confined_key {host : String} (stays : StaysInStore host)
    : Confined (host ++ "_ecc/" ++ host ++ ".key").toList := by
  have text
      : (host ++ "_ecc/" ++ host ++ ".key").toList
        = host.toList ++ ("_ecc".toList ++ '/' :: (host.toList ++ ".key".toList)) := by
    simp
  obtain ⟨relative, below⟩ := stays
  obtain ⟨depth, walked⟩ := Option.isSome_iff_exists.mp below
  rw [text, confined_stored host host.toList (by decide) (by decide)]
  refine ⟨relative, depth, walked, ?_⟩
  have again := depthAfter_add walked (depth + 1)
  rw [Nat.zero_add] at again
  rw [again]
  rfl

end Gway
