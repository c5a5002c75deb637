import Mathlib.Data.List.Basic

/-! URLs: the components that RFC 3986 finds in a text, and the text that they compose. -/

/-- The components of a URL without their delimiters. All but the path may be missing. -/
structure Url where
  scheme : Option (List Char)
  authority : Option (List Char)
  path : List Char
  query : Option (List Char)
  fragment : Option (List Char)
deriving DecidableEq, Repr

namespace Url

/-- The text up to the first of the delimiters, and the rest of it. -/
def cut (delimiters text : List Char) : List Char × List Char :=
  (text.takeWhile (· ∉ delimiters), text.dropWhile (· ∉ delimiters))

/-- A scheme is not empty and ends in a colon. -/
def takeScheme (text : List Char) : Option (List Char) × List Char :=
  match cut [':', '/', '?', '#'] text with
  | (first :: name, ':' :: rest) => (some (first :: name), rest)
  | _ => (none, text)

def takeAuthority : List Char → Option (List Char) × List Char
  | '/' :: '/' :: text =>
      let (authority, rest) := cut ['/', '?', '#'] text
      (some authority, rest)
  | text => (none, text)

def takeQuery : List Char → Option (List Char) × List Char
  | '?' :: text =>
      let (query, rest) := cut ['#'] text
      (some query, rest)
  | text => (none, text)

def takeFragment : List Char → Option (List Char)
  | '#' :: text => some text
  | _ => none

/-- Takes a text apart from left to right. -/
def parse (text : List Char) : Url :=
  let (scheme, text) := takeScheme text
  let (authority, text) := takeAuthority text
  let (path, text) := cut ['?', '#'] text
  let (query, text) := takeQuery text
  { scheme, authority, path, query, fragment := takeFragment text }

/-- A component after the delimiter that tells it from the one before. -/
def marked (delimiter : Char) : Option (List Char) → List Char
  | some component => delimiter :: component
  | none => []

/-- The components with their delimiters. -/
def render (url : Url) : List Char :=
  (url.scheme.map (· ++ [':'])).getD []
  ++ (url.authority.map (['/', '/'] ++ ·)).getD []
  ++ url.path
  ++ marked '?' url.query
  ++ marked '#' url.fragment

/-- The URL has a scheme and an authority, and no component has a character in it that
would end it.
-/
structure Absolute (url : Url) : Prop where
  scheme
    : ∃ first name,
        url.scheme = some (first :: name)
        ∧ ∀ char ∈ first :: name, char ∉ [':', '/', '?', '#']
  authority
    : ∃ name, url.authority = some name ∧ ∀ char ∈ name, char ∉ ['/', '?', '#']
  path : ∀ char ∈ url.path, char ∉ ['?', '#']
  rooted : url.path = [] ∨ ∃ rest, url.path = '/' :: rest
  query : ∀ query, url.query = some query → ∀ char ∈ query, char ∉ ['#']

variable {url : Url} {delimiters part rest : List Char}

/-- A part without a delimiter is cut off before the delimiter that follows it. -/
theorem cut_append (clean : ∀ char ∈ part, char ∉ delimiters)
    (ends : ∀ char later, rest = char :: later → char ∈ delimiters)
    : cut delimiters (part ++ rest) = (part, rest) := by
  have passes : ∀ char ∈ part, decide (char ∉ delimiters) = true :=
    fun char member => decide_eq_true (clean char member)
  rw [cut, List.takeWhile_append_of_pos passes, List.dropWhile_append_of_pos passes]
  cases rest with
  | nil => simp
  | cons char later => simp [ends char later rfl]

theorem marked_head {delimiter char : Char} {component : Option (List Char)}
    (same : marked delimiter component = char :: rest)
    : char = delimiter := by
  cases component with
  | none => cases same
  | some => exact (List.cons.inj same).1.symm

/-- What follows the path begins with the delimiter of a query or a fragment. -/
theorem tail_head (url : Url)
    : ∀ char later,
        marked '?' url.query ++ marked '#' url.fragment = char :: later
        → char ∈ ['?', '#'] := by
  intro char later same
  cases query : url.query with
  | none =>
      rw [query] at same
      simp [marked_head same]
  | some text =>
      rw [query] at same
      simp [← (List.cons.inj same).1]

theorem takeQuery_marked {query fragment : Option (List Char)}
    (clean : ∀ text, query = some text → ∀ char ∈ text, char ∉ ['#'])
    : takeQuery (marked '?' query ++ marked '#' fragment)
      = (query, marked '#' fragment) := by
  cases query with
  | none => cases fragment <;> rfl
  | some text =>
      have ends : ∀ char later, marked '#' fragment = char :: later → char ∈ ['#'] :=
        fun char later same => List.mem_singleton.mpr (marked_head same)
      change takeQuery ('?' :: (text ++ marked '#' fragment)) = _
      rw [takeQuery, cut_append (clean text rfl) ends]

theorem takeFragment_marked (fragment : Option (List Char))
    : takeFragment (marked '#' fragment) = fragment := by
  cases fragment <;> rfl

/-- The components of an absolute URL are found again in the text that they compose, from
left to right: each ends where the delimiter of the next one stands.
-/
theorem parse_render (absolute : url.Absolute) : parse url.render = url := by
  obtain ⟨first, name, scheme, scheme_clean⟩ := absolute.scheme
  obtain ⟨authority, named, authority_clean⟩ := absolute.authority
  let tail := marked '?' url.query ++ marked '#' url.fragment
  have text
      : url.render
        = (first :: name) ++ (':' :: '/' :: '/' :: (authority ++ (url.path ++ tail))) := by
    simp [render, scheme, named, tail]
  have scheme_read
      : takeScheme url.render
        = (some (first :: name), '/' :: '/' :: (authority ++ (url.path ++ tail))) := by
    have ends
        : ∀ char later,
            ':' :: '/' :: '/' :: (authority ++ (url.path ++ tail)) = char :: later
            → char ∈ [':', '/', '?', '#'] := by
      intro char later same
      simp [← (List.cons.inj same).1]
    simp only [text, takeScheme, cut_append scheme_clean ends]
  have authority_ends
      : ∀ char later, url.path ++ tail = char :: later → char ∈ ['/', '?', '#'] := by
    intro char later same
    rcases absolute.rooted with empty | ⟨rest, slash⟩
    · rw [empty, List.nil_append] at same
      exact List.mem_cons_of_mem _ (url.tail_head char later same)
    · rw [slash, List.cons_append, List.cons.injEq] at same
      simp [← same.1]
  have authority_read
      : takeAuthority ('/' :: '/' :: (authority ++ (url.path ++ tail)))
        = (some authority, url.path ++ tail) := by
    rw [takeAuthority, cut_append authority_clean authority_ends]
  have path_read : cut ['?', '#'] (url.path ++ tail) = (url.path, tail) :=
    cut_append absolute.path url.tail_head
  simp only [parse, scheme_read, authority_read, path_read, tail,
    takeQuery_marked absolute.query, takeFragment_marked]
  rw [← scheme, ← named]

end Url
