import Gway.Http

/-! Header fields that are meant for one connection only, and the length that a head gives for
its body.
-/

namespace Gway

/-- A byte of a name in lower case. -/
def lowerCase (byte : UInt8) : UInt8 :=
  if 65 ≤ byte && byte ≤ 90 then byte + 32 else byte

/-- Without the spaces and tabs at both ends. -/
def trimBlanks (bytes : Bytes) : Bytes :=
  let blank (byte : UInt8) := byte == 32 || byte == 9
  ((bytes.dropWhile blank).reverse.dropWhile blank).reverse

/-- The names in a Connection field, which are separated by commas and written in any case. -/
def connectionOptions (value : HeaderValue) : List Bytes :=
  (value.splitOn 44).map fun option => (trimBlanks option).map lowerCase

/-- A Connection field of the head names the field as one for this connection only. -/
def HeaderMap.Nominates (headers : HeaderMap) (name : HeaderName) : Prop :=
  ∃ value ∈ HeaderMap.getAll headers "connection", bytesOf name ∈ connectionOptions value

instance (headers : HeaderMap) (name : HeaderName) : Decidable (headers.Nominates name) :=
  inferInstanceAs (Decidable (∃ value ∈ HeaderMap.getAll headers "connection", _))

/-- The number that a value consisting of digits stands for. -/
def decimal (value : HeaderValue) : Option Nat :=
  if value ≠ [] ∧ value.all fun byte => 48 ≤ byte && byte ≤ 57 then
    some (value.foldl (fun number byte => number * 10 + (byte.toNat - 48)) 0)
  else none

/-- Nothing is named by a head without a Connection field. -/
theorem HeaderMap.not_nominates {headers : HeaderMap} {name : HeaderName}
    (missing : HeaderMap.getAll headers "connection" = [])
    : ¬ headers.Nominates name := by
  intro ⟨value, member, _⟩
  rw [missing] at member
  cases member

end Gway
