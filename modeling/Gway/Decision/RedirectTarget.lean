import Gway.Decision.FrontEnds
import Gway.Library.Url
import Mathlib.Data.List.TakeWhile

/-! Where a redirect leads. The URL of a redirect is a host followed by the path and the
query as the client sent them, without anything between them.
-/

namespace Gway

open PooledFetch

/-- The name consists of letters, digits, hyphens and dots. -/
def HostName (name : String) : Prop :=
  name ≠ "" ∧ ∀ char ∈ name.toList, char.isAlphanum = true ∨ char = '-' ∨ char = '.'

/-- The text begins with a slash or with the query, and the fragment is cut off. -/
def OriginForm (text : String) : Prop :=
  (∃ first rest, text.toList = first :: rest ∧ (first = '/' ∨ first = '?'))
  ∧ '#' ∉ text.toList

/-- The forms of a path and query that the `http` crate lets pass. -/
def TargetForm (pathAndQuery : Option String) : Prop :=
  ∀ text, pathAndQuery = some text → text = "*" ∨ OriginForm text

/-- An empty path stands for the root. -/
def rooted (path : List Char) : List Char :=
  if path = [] then ['/'] else path

/-- The URL leads to a served host by HTTPS, with the path and the query of the request. -/
structure LeadsTo (route : Route) (uri : Uri) (url : Url) : Prop where
  scheme : url.scheme = some "https".toList
  authority : ∃ host, route.Serves host ∧ url.authority = some host.toList
  path : rooted url.path = rooted uri.path.toList
  query : url.query = uri.query.map String.toList
  fragment : url.fragment = none

/-- The fields have one location, which leads to a served host. -/
def ProperLocation (route : Route) (uri : Uri) (headers : HeaderMap) : Prop :=
  ∃ text,
    HeaderMap.getAll headers "location" = [bytesOf text]
    ∧ LeadsTo route uri (Url.parse text.toList)

-----------------------------------------------------------------------------------------
-- The URL of a redirect
-----------------------------------------------------------------------------------------

def pathPart (text : String) : List Char :=
  text.toList.takeWhile (· ≠ '?')

def queryPart (text : String) : Option (List Char) :=
  match text.toList.dropWhile (· ≠ '?') with
  | _ :: query => some query
  | [] => none

/-- The query begins at the first question mark. -/
theorem split_query (text : String)
    : text.toList = pathPart text ++ Url.marked '?' (queryPart text) := by
  have parts := @List.takeWhile_append_dropWhile Char (· ≠ '?') text.toList
  have stops := List.head?_dropWhile_not (· ≠ '?') text.toList
  unfold pathPart queryPart
  cases rest : text.toList.dropWhile (· ≠ '?') with
  | nil =>
      rw [rest] at parts
      exact parts.symm
  | cons first query =>
      rw [rest] at parts stops
      have mark : first = '?' := by simpa using stops
      rw [mark] at parts
      exact parts.symm

/-- The components of the URL of a redirect. -/
def redirectUrl (authority : List Char) (pathAndQuery : String) : Url where
  scheme := some "https".toList
  authority := some authority
  path := pathPart pathAndQuery
  query := queryPart pathAndQuery
  fragment := none

theorem location_render (host pathAndQuery : String)
    : (location host pathAndQuery).toList
      = (redirectUrl host.toList pathAndQuery).render := by
  simp [location, redirectUrl, Url.render, Url.marked, split_query pathAndQuery]

/-- A name has no delimiter of a URL in it. -/
theorem HostName.clean {host : String} (valid : HostName host)
    : ∀ char ∈ host.toList, char ∉ ['/', '?', '#'] := by
  intro char member delimiter
  simp only [List.mem_cons, List.not_mem_nil, or_false] at delimiter
  rcases delimiter with rfl | rfl | rfl <;> simpa using valid.2 _ member

theorem HostName.star_not_mem {host : String} (valid : HostName host) : '*' ∉ host.toList :=
  fun member => by simpa using valid.2 _ member

/-- The URL of a redirect is absolute: the host ends where the path or the query begins. -/
theorem redirectUrl_absolute {authority : List Char} {pathAndQuery : String}
    (clean : ∀ char ∈ authority, char ∉ ['/', '?', '#'])
    (form : pathAndQuery = "" ∨ OriginForm pathAndQuery)
    : (redirectUrl authority pathAndQuery).Absolute := by
  have whole := split_query pathAndQuery
  have no_fragment : '#' ∉ pathAndQuery.toList := by
    rcases form with empty | ⟨-, clean⟩
    · simp [empty]
    · exact clean
  rw [whole, List.mem_append, not_or] at no_fragment
  constructor
  case scheme => exact ⟨'h', ['t', 't', 'p', 's'], rfl, by simp⟩
  case authority => exact ⟨authority, rfl, clean⟩
  case path =>
    intro char member delimiter
    simp only [List.mem_cons, List.not_mem_nil, or_false] at delimiter
    rcases delimiter with rfl | rfl
    · simpa using List.mem_takeWhile_imp member
    · exact no_fragment.1 member
  case rooted =>
    rcases form with empty | ⟨⟨first, rest, begins, slash | mark⟩, -⟩
    · simp [redirectUrl, pathPart, empty]
    · simp [redirectUrl, pathPart, begins, slash]
    · simp [redirectUrl, pathPart, begins, mark]
  case query =>
    intro query found char member
    have found : queryPart pathAndQuery = some query := found
    rw [found] at no_fragment
    intro hash
    rw [List.mem_singleton.mp hash] at member
    exact no_fragment.2 (List.mem_cons_of_mem _ member)

/-- The path and the query of the request are those of the text after the host, also where
a request without them has a default.
-/
theorem uri_parts (uri : Uri) {absent : String} (root : absent = "" ∨ absent = "/")
    : rooted (pathPart (uri.pathAndQuery.getD absent)) = rooted uri.path.toList
      ∧ queryPart (uri.pathAndQuery.getD absent) = uri.query.map String.toList := by
  cases given : uri.pathAndQuery with
  | none => rcases root with rfl | rfl <;> simp [Uri.path, Uri.query, given] <;> decide
  | some text =>
      constructor
      · by_cases empty : pathPart text = []
        case pos =>
          have empty : text.toList.takeWhile (· ≠ '?') = [] := empty
          simp only [Option.getD_some, pathPart, Uri.path, given, empty]
          decide
        case neg =>
          have nonempty : String.ofList (text.toList.takeWhile (· ≠ '?')) ≠ "" := by
            intro none
            have none := congrArg String.toList none
            rw [String.toList_ofList] at none
            exact empty none
          simp only [Option.getD_some, pathPart, Uri.path, given, nonempty, if_false,
            String.toList_ofList]
      · simp only [Option.getD_some, queryPart, Uri.query, given]
        cases text.toList.dropWhile (· ≠ '?') with
        | nil => rfl
        | cons mark query => simp

/-- The redirect to a served host leads there unless the target of the request is the star. -/
theorem location_leadsTo {route : Route} {host : String} {uri : Uri} {absent : String}
    (valid : HostName host) (served : route.Serves host)
    (form : TargetForm uri.pathAndQuery) (ordinary : uri.pathAndQuery ≠ some "*")
    (root : absent = "" ∨ absent = "/")
    : LeadsTo route uri
        (Url.parse (location host (uri.pathAndQuery.getD absent)).toList) := by
  have text_form
      : uri.pathAndQuery.getD absent = "" ∨ OriginForm (uri.pathAndQuery.getD absent) := by
    cases given : uri.pathAndQuery with
    | none =>
        rcases root with rfl | rfl
        · exact .inl rfl
        · exact .inr ⟨⟨'/', [], rfl, .inl rfl⟩, by decide⟩
    | some text =>
        rcases form text given with star | origin
        · exact absurd (star ▸ given) ordinary
        · exact .inr origin
  rw [location_render, Url.parse_render (redirectUrl_absolute valid.clean text_form)]
  obtain ⟨path, query⟩ := uri_parts uri root
  exact ⟨rfl, ⟨host, served, rfl⟩, path, query, rfl⟩

/-- Behind the host, the star becomes a part of the authority. -/
theorem star_authority {host : String} (valid : HostName host)
    : (Url.parse (location host "*").toList).authority = some (host.toList ++ ['*']) := by
  have clean : ∀ char ∈ host.toList ++ ['*'], char ∉ ['/', '?', '#'] := by
    intro char member
    rcases List.mem_append.mp member with inside | star
    · exact valid.clean char inside
    · rw [List.mem_singleton.mp star]
      decide
  have text
      : (location host "*").toList = (redirectUrl (host.toList ++ ['*']) "").render := by
    simp [location, redirectUrl, Url.render, Url.marked, pathPart, queryPart]
  rw [text, Url.parse_render (redirectUrl_absolute clean (.inl rfl))]
  rfl

theorem HostName.printable {host : String} (valid : HostName host)
    : ∀ char ∈ host.toList, 32 ≤ char.toNat ∧ char.toNat < 127 := by
  intro char member
  rcases valid.2 char member with alphanumeric | rfl | rfl
  · have ranges
        : (decide (char.val ≥ 65 ∧ char.val ≤ 90) || (char.val ≥ 97 && char.val ≤ 122)
            || (char.val ≥ 48 && char.val ≤ 57)) = true :=
      alphanumeric
    simp only [Bool.or_eq_true, Bool.and_eq_true, decide_eq_true_eq, ge_iff_le,
      UInt32.le_iff_toNat_le] at ranges
    simp at ranges
    omega
  · decide
  · decide

theorem star_valid {host : String} (valid : HostName host) : ValidLocation host "*" := by
  refine HeaderValue.fromBytes_of_printable fun char member => ?_
  simp only [location, String.toList_append, List.mem_append] at member
  have printable
      : ("https://".toList ++ "*".toList).all
          (fun char => decide (32 ≤ char.toNat ∧ char.toNat < 127)) = true := by
    decide
  have constant := fun char member => of_decide_eq_true (List.all_eq_true.mp printable char member)
  rcases member with (scheme | inside) | star
  · exact constant char (List.mem_append_left _ scheme)
  · exact valid.printable char inside
  · exact constant char (List.mem_append_right _ star)

-----------------------------------------------------------------------------------------
-- The redirects of the front ends
-----------------------------------------------------------------------------------------

variable {subHost : String → Option String} {route : Route} {req : Parts}

/-- The location of a redirect to a served host is proper exactly if the target of the
request is not the star, which no name of a host contains.
-/
theorem properLocation_iff {target absent : String}
    (keys : ∀ host, route.Serves host → HostName host) (served : route.Serves target)
    (form : TargetForm req.uri.pathAndQuery) (root : absent = "" ∨ absent = "/")
    : ProperLocation route req.uri
        [("location", bytesOf (location target (req.uri.pathAndQuery.getD absent)))]
      ↔ req.uri.pathAndQuery ≠ some "*" := by
  constructor
  · intro ⟨text, field, leads⟩ star
    simp only [HeaderMap.getAll, decide_true, List.filter_cons_of_pos, List.filter_nil,
      List.map_cons, List.map_nil, List.cons.injEq, and_true, star, Option.getD_some]
      at field
    obtain ⟨host, host_served, authority⟩ := leads.authority
    rw [← bytesOf_injective field, star_authority (keys target served)] at authority
    have member : '*' ∈ host.toList := by
      rw [← Option.some.inj authority]
      exact List.mem_append_right _ (List.mem_singleton.mpr rfl)
    exact (keys host host_served).star_not_mem member
  · intro ordinary
    exact ⟨_, rfl, location_leadsTo (keys target served) served form ordinary root⟩

theorem validLocation_star (keys : ∀ host, route.Serves host → HostName host)
    {target absent : String} (served : route.Serves target)
    (star : req.uri.pathAndQuery = some "*")
    : ValidLocation target (req.uri.pathAndQuery.getD absent) := by
  rw [star]
  exact star_valid (keys target served)

/-- If the plain HTTP service answers 301, the location is proper. -/
def H1.RedirectsProperly (subHost : String → Option String) (route : Route) (req : Parts)
    : Prop :=
  (redirect subHost route req).status = 301
  → ProperLocation route req.uri (redirect subHost route req).headers

/-- If the proxy itself answers 301, the location is proper. -/
def Proxy.RedirectsProperly {Body : Type} (route : Route) (req : Parts)
    (handled : Handled Body) : Prop :=
  ∀ res own,
    handled.result = some (.ok res)
    → res.body = .full own
    → res.status = 301
    → ProperLocation route req.uri res.headers

theorem H1.redirectsProperly_iff (keys : ∀ host, route.Serves host → HostName host)
    (form : TargetForm req.uri.pathAndQuery)
    : H1.RedirectsProperly subHost route req
      ↔ req.uri.pathAndQuery ≠ some "*"
        ∨ H1.redirectHost subHost route (reqHost req) = none := by
  unfold H1.RedirectsProperly
  cases found : H1.redirectHost subHost route (reqHost req) with
  | none => simp [H1.redirect_of_none found, H1.response, H1.StatusCode.asU16]
  | some target =>
      have served := H1.redirectHost_served found
      by_cases valid : ValidLocation target (req.uri.pathAndQuery.getD "/")
      case pos =>
        have moved : H1.redirect subHost route req = _ := H1.redirect_of_valid found valid
        simpa [moved] using properLocation_iff keys served form (.inr rfl)
      case neg =>
        have ordinary : req.uri.pathAndQuery ≠ some "*" :=
          fun star => valid (validLocation_star keys served star)
        simp [H1.redirect_of_invalid found valid, H1.response, H1.StatusCode.asU16, ordinary]

theorem Proxy.redirectsProperly_iff {Body : Type}
    (keys : ∀ host, route.Serves host → HostName host)
    (form : TargetForm req.uri.pathAndQuery) (n : UInt64) (collected : Except Error Bytes)
    (attempts : List (Attempt Body))
    : Proxy.RedirectsProperly route req (Proxy.proxy subHost route n req collected attempts)
      ↔ req.uri.pathAndQuery ≠ some "*"
        ∨ ∀ target, route.decision subHost (reqHost req) ≠ .redirect target := by
  constructor
  · intro proper
    by_cases star : req.uri.pathAndQuery = some "*"
    case pos =>
      right
      intro target redirected
      have served := (Route.decision_eq_redirect.mp redirected).2.2
      have valid : ValidLocation target (req.uri.pathAndQuery.getD "") :=
        validLocation_star keys served star
      have location := proper _ [] (Proxy.proxy_of_redirect redirected valid) rfl rfl
      exact (properLocation_iff keys served form (.inl rfl)).mp location star
    case neg => exact .inl star
  · intro condition res own answered full status
    rcases Proxy.decision_of_own answered full (by omega)
      with ⟨target, redirected, -, rfl⟩ | ⟨-, rfl⟩
    · have served := (Route.decision_eq_redirect.mp redirected).2.2
      rcases condition with ordinary | none
      · exact (properLocation_iff keys served form (.inl rfl)).mpr ordinary
      · exact absurd redirected (none target)
    · cases status

/-- For every table with valid names, every `sub_host` and every request, a redirect of the
gateway leads to a served host with the path and the query of the request exactly if the
target is not the star or the request is not redirected at all.
-/
theorem redirects_proper_iff (Body : Type) (subHost : String → Option String)
    (route : Route) (req : Parts) (keys : ∀ host, route.Serves host → HostName host)
    (form : TargetForm req.uri.pathAndQuery)
    : (H1.RedirectsProperly subHost route req
        ↔ req.uri.pathAndQuery ≠ some "*"
          ∨ ¬ route.Serves (reqHost req)
            ∧ ∀ sub, subHost (reqHost req) = some sub → ¬ route.Serves sub)
      ∧ ∀ n collected, ∀ attempts : List (Attempt Body),
          Proxy.RedirectsProperly route req
              (Proxy.proxy subHost route n req collected attempts)
          ↔ req.uri.pathAndQuery ≠ some "*"
            ∨ route.Serves (reqHost req)
            ∨ ∀ sub, subHost (reqHost req) = some sub → ¬ route.Serves sub := by
  refine ⟨?_, fun n collected attempts => ?_⟩
  · rw [H1.redirectsProperly_iff keys form, H1.redirectHost_eq_none]
  · rw [Proxy.redirectsProperly_iff keys form]
    refine or_congr_right ?_
    simp only [ne_eq, Route.decision_eq_redirect, not_and]
    by_cases serves : route.Serves (reqHost req)
    case pos => simp [serves]
    case neg => simp [serves]

theorem exampleName : HostName "example.com" :=
  ⟨by decide, by simp⟩

/-- The redirects of a request for a path are proper. Witness: the target is not the star. -/
theorem redirects_proper_cartRequest
    : H1.RedirectsProperly (fun _ => none) (Route.single "example.com" localServer)
        cartRequest := by
  have proper :=
    redirects_proper_iff Bytes (fun _ => none) (Route.single "example.com" localServer)
      cartRequest (fun host served => Route.serves_single.mp served ▸ exampleName)
      (fun text given => .inr (by
        cases given
        exact ⟨⟨'/', _, rfl, .inl rfl⟩, by decide⟩))
  exact proper.1.mpr (.inl (by decide))

/-- A request about the server itself, as far as its target goes. -/
def optionsStar : Parts where
  method := .options
  uri := { scheme := none, authority := none, pathAndQuery := some "*" }
  version := .http11
  headers := [("host", bytesOf "example.com")]

/-- The client is sent to a host with a star behind its name. Witness: the location by
evaluation; no host with such a name is served.
-/
theorem optionsStar_improper
    : (H1.redirect (fun _ => none) (Route.single "example.com" localServer)
          optionsStar).headers
        = [("location", bytesOf "https://example.com*")]
      ∧ ¬ H1.RedirectsProperly (fun _ => none) (Route.single "example.com" localServer)
          optionsStar := by
  refine ⟨by decide, fun proper => ?_⟩
  obtain ⟨text, field, leads⟩ := proper (by decide)
  obtain ⟨host, served, authority⟩ := leads.authority
  have same : text = "https://example.com*" := bytesOf_injective (by
    have located
        : HeaderMap.getAll (H1.redirect (fun _ => none)
            (Route.single "example.com" localServer) optionsStar).headers "location"
          = [bytesOf "https://example.com*"] := by decide
    rw [located] at field
    exact (List.cons.inj field).1.symm)
  rw [Route.serves_single.mp served, same] at authority
  revert authority
  decide

end Gway
