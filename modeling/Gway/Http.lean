import Mathlib.Data.UInt

/-! Requests and responses as the `http` crate represents them. -/

namespace Gway

abbrev Bytes := List UInt8

def bytesOf (text : String) : Bytes :=
  text.toUTF8.data.toList

theorem bytesOf_injective : Function.Injective bytesOf := by
  intro left right same
  have data : left.toByteArray.data = right.toByteArray.data := Array.toList_inj.mp same
  exact String.toByteArray_inj.mp (ByteArray.ext data)

/-- The bytes of a text are those of its characters in order. -/
theorem bytesOf_eq_flatMap (text : String)
    : bytesOf text = text.toList.flatMap String.utf8EncodeChar := by
  have encoded : text.toByteArray = text.toList.utf8Encode := String.utf8Encode_toList.symm
  rw [bytesOf, String.toUTF8_eq_toByteArray, encoded, List.utf8Encode]
  simp

inductive Method where
  | get
  | head
  | post
  | put
  | delete
  | connect
  | options
  | trace
  | patch
  | extension (name : String)
deriving DecidableEq, Repr

inductive Version where
  | http09
  | http10
  | http11
  | http2
  | http3
deriving DecidableEq, Repr

/-- An authority without its user information. -/
structure Authority where
  host : String
  port : Option String
deriving DecidableEq, Repr

structure Uri where
  scheme : Option String
  authority : Option Authority
  pathAndQuery : Option String
deriving DecidableEq, Repr

def Uri.host (uri : Uri) : Option String :=
  uri.authority.map (·.host)

/-- The path before the query; an empty one is read as a slash. -/
def Uri.path (uri : Uri) : String :=
  match uri.pathAndQuery with
  | some text =>
      let path := String.ofList (text.toList.takeWhile (· ≠ '?'))
      if path = "" then "/" else path
  | none => ""

/-- What follows the first question mark. -/
def Uri.query (uri : Uri) : Option String :=
  match uri.pathAndQuery with
  | some text =>
      match text.toList.dropWhile (· ≠ '?') with
      | _ :: query => some (String.ofList query)
      | [] => none
  | none => none

/-- A name in lower case. -/
abbrev HeaderName := String

abbrev HeaderValue := Bytes

/-- A value consists of visible bytes, spaces, tabs and bytes beyond ASCII. -/
def HeaderValue.fromBytes (bytes : Bytes) : Option HeaderValue :=
  if bytes.all fun byte => (32 ≤ byte && byte != 127) || byte == 9 then some bytes
  else none

def isVisibleAscii (byte : UInt8) : Bool :=
  (32 ≤ byte && byte < 127) || byte == 9

/-- The text of a value in which all bytes are visible. -/
def HeaderValue.toStr (value : HeaderValue) : Option String :=
  if value.all isVisibleAscii then
    some (String.ofList (value.map fun byte => Char.ofNat byte.toNat))
  else none

theorem isVisibleAscii_lt {byte : UInt8} (visible : isVisibleAscii byte = true)
    : byte < 128 := by
  simp only [isVisibleAscii, Bool.or_eq_true, Bool.and_eq_true, decide_eq_true_eq,
    beq_iff_eq] at visible
  rcases visible with ⟨-, below⟩ | tab
  · exact UInt8.lt_trans below (by decide)
  · subst tab
    decide

theorem utf8EncodeChar_ofNat {byte : UInt8} (ascii : byte < 128)
    : String.utf8EncodeChar (Char.ofNat byte.toNat) = [byte] := by
  have small : byte.toNat < 128 := ascii
  have valid : byte.toNat.isValidChar := .inl (by omega)
  have code : (Char.ofNat byte.toNat).val.toNat = byte.toNat := by
    rw [Char.ofNat, dif_pos valid]
    rfl
  simp [String.utf8EncodeChar, code, Nat.le_of_lt_succ small]

/-- A value is the bytes of the text that it gives. -/
theorem HeaderValue.bytesOf_toStr {value : HeaderValue} {text : String}
    (read : HeaderValue.toStr value = some text)
    : bytesOf text = value := by
  unfold HeaderValue.toStr at read
  split at read
  case isTrue visible =>
    cases Option.some.inj read
    rw [bytesOf_eq_flatMap, String.toList_ofList, List.flatMap_map]
    have each
        : ∀ byte ∈ value, String.utf8EncodeChar (Char.ofNat byte.toNat) = [byte] :=
      fun byte member =>
        utf8EncodeChar_ofNat (isVisibleAscii_lt (List.all_eq_true.mp visible byte member))
    rw [List.flatMap_congr each, List.flatMap_singleton']
  case isFalse => cases read

/-- A visible text is read back from its bytes, as these are the bytes of no other text. -/
theorem HeaderValue.toStr_bytesOf {text : String}
    (visible : (bytesOf text).all isVisibleAscii = true)
    : HeaderValue.toStr (bytesOf text) = some text := by
  have read
      : HeaderValue.toStr (bytesOf text)
        = some (String.ofList ((bytesOf text).map fun byte => Char.ofNat byte.toNat)) :=
    if_pos visible
  rw [read, bytesOf_injective (HeaderValue.bytesOf_toStr read)]

/-- A text of printable ASCII can be the value of a field, as each of its characters is one
valid byte.
-/
theorem HeaderValue.fromBytes_of_printable {text : String}
    (printable : ∀ char ∈ text.toList, 32 ≤ char.toNat ∧ char.toNat < 127)
    : (HeaderValue.fromBytes (bytesOf text)).isSome = true := by
  have valid
      : ((bytesOf text).all fun byte => (32 ≤ byte && byte != 127) || byte == 9) = true := by
    rw [bytesOf_eq_flatMap, List.all_flatMap, List.all_eq_true]
    intro char member
    obtain ⟨low, high⟩ := printable char member
    have small : char.toNat ≤ 127 := Nat.le_of_lt high
    have encoded : String.utf8EncodeChar char = [char.toNat.toUInt8] := by
      simp [String.utf8EncodeChar, small]
    rw [encoded]
    have above : 32 ≤ char.toNat.toUInt8 := by
      rw [UInt8.le_iff_toNat_le]
      simp
      omega
    have other : char.toNat.toUInt8 ≠ 127 := by
      intro same
      have := congrArg UInt8.toNat same
      simp at this
      omega
    simp [above, other]
  exact Option.isSome_iff_exists.mpr ⟨bytesOf text, if_pos valid⟩

/-- A valid value is kept as it is. -/
theorem HeaderValue.fromBytes_of_isSome {bytes : Bytes}
    (valid : (HeaderValue.fromBytes bytes).isSome = true)
    : HeaderValue.fromBytes bytes = some bytes := by
  unfold HeaderValue.fromBytes at valid ⊢
  split at valid
  case isTrue ok => exact if_pos ok
  case isFalse => cases valid

/-- The fields in order; a name may occur more than once. -/
abbrev HeaderMap := List (HeaderName × HeaderValue)

/-- The values of a name in order. -/
def HeaderMap.getAll (headers : HeaderMap) (name : HeaderName) : List HeaderValue :=
  (headers.filter (·.1 = name)).map (·.2)

/-- The first value of a name. -/
def HeaderMap.get (headers : HeaderMap) (name : HeaderName) : Option HeaderValue :=
  (HeaderMap.getAll headers name).head?

/-- Puts a value in the place of the first one of the name, whose other values are dropped, or at
the end if there is none.
-/
def HeaderMap.insert : HeaderMap → HeaderName → HeaderValue → HeaderMap
  | [], name, value => [(name, value)]
  | field :: rest, name, value =>
      if field.1 = name then (name, value) :: rest.filter (·.1 ≠ name)
      else field :: HeaderMap.insert rest name value

/-- An insertion leaves the values of other names alone. -/
theorem HeaderMap.getAll_insert {headers : HeaderMap} {name other : HeaderName}
    {value : HeaderValue} (apart : other ≠ name)
    : HeaderMap.getAll (HeaderMap.insert headers name value) other
      = HeaderMap.getAll headers other := by
  have kept
      : ∀ field : HeaderName × HeaderValue,
          (decide (field.1 = other) && !decide (field.1 = name))
            = decide (field.1 = other) := by
    intro field
    by_cases same : field.1 = other
    case pos => simp [same, apart]
    case neg => simp [same]
  induction headers with
  | nil => simp [HeaderMap.getAll, HeaderMap.insert, apart.symm]
  | cons field rest ih =>
      unfold HeaderMap.getAll at ih ⊢
      by_cases named : field.1 = name
      case pos =>
        simp [HeaderMap.insert, named, List.filter_filter, kept, apart.symm]
      case neg =>
        by_cases same : field.1 = other
        case pos => simp [HeaderMap.insert, same, apart, ih]
        case neg => simp [HeaderMap.insert, named, same, ih]

theorem HeaderMap.mem_getAll {headers : HeaderMap} {name : HeaderName} {value : HeaderValue}
    : value ∈ HeaderMap.getAll headers name ↔ (name, value) ∈ headers := by
  simp [HeaderMap.getAll]

theorem HeaderMap.mem_insert {headers : HeaderMap} {name : HeaderName}
    {value : HeaderValue} {field : HeaderName × HeaderValue}
    : field ∈ HeaderMap.insert headers name value
      ↔ field ∈ headers ∧ field.1 ≠ name ∨ field = (name, value) := by
  induction headers with
  | nil => simp [HeaderMap.insert]
  | cons first rest ih =>
      unfold HeaderMap.insert
      split
      case isTrue named =>
        have own : field = first → field.1 = name := fun same => same ▸ named
        simp only [List.mem_cons, List.mem_filter, decide_eq_true_eq]
        tauto
      case isFalse other =>
        have apart : field = first → field.1 ≠ name := fun same => same ▸ other
        simp only [List.mem_cons, ih]
        tauto

/-- The head of a request. -/
structure Parts where
  method : Method
  uri : Uri
  version : Version
  headers : HeaderMap
deriving DecidableEq, Repr

structure Request (Body : Type) where
  parts : Parts
  body : Body
deriving DecidableEq, Repr

structure Response (Body : Type) where
  status : Nat
  headers : HeaderMap
  body : Body
deriving DecidableEq, Repr

end Gway
