import Gway.Decision.FrontEnds

/-! Whether two requests for the same host are treated alike. It does not matter where a
request carries its host, but hosts are compared with the keys of the table as they are
written, and nothing puts them in lower case.
-/

namespace Gway

open PooledFetch

/-- Where a request carries the authority that it is for. -/
inductive Carrier where
  | header
  | uri
deriving DecidableEq, Repr

/-- The host with the port, if there is one. -/
def Authority.text (authority : Authority) : String :=
  match authority.port with
  | some port => authority.host ++ ":" ++ port
  | none => authority.host

/-- The text does not end in a port; colons within brackets belong to an IPv6 address. -/
def PortFree (text : String) : Prop :=
  ':' ∉ text.toList ∨ text.toList.getLast? = some ']'

instance (text : String) : Decidable (PortFree text) :=
  inferInstanceAs (Decidable (_ ∨ _))

/-- The host of an authority is visible ASCII and does not contain the port. -/
structure Authority.WellFormed (authority : Authority) : Prop where
  visible : (bytesOf authority.host).all isVisibleAscii = true
  portFree : PortFree authority.host

/-- The request names the authority in its Host field, or in its URI and has no such field. -/
def Carries (req : Parts) (authority : Authority) : Carrier → Prop
  | .header => HeaderMap.get req.headers "host" = some (bytesOf authority.text)
  | .uri => HeaderMap.get req.headers "host" = none ∧ req.uri.authority = some authority

/-- The host is written in lower case and without a port. -/
def Plain (host : String) : Prop :=
  host.toLower = host ∧ PortFree host

theorem toLower_eq_iff {text other : String}
    : text.toLower = other ↔ text.toList.map Char.toLower = other.toList := by
  have mapped : text.toLower = text.map Char.toLower := rfl
  rw [← String.toList_inj, mapped, String.toList_map]

instance (host : String) : Decidable (Plain host) :=
  decidable_of_iff (host.toList.map Char.toLower = host.toList ∧ PortFree host)
    (and_congr_left' toLower_eq_iff.symm)

def PlainKeys (route : Route) : Prop :=
  ∀ host, route.Serves host → Plain host

/-- The host that may stand for another in a table with plain keys. -/
def plainSub (subHost : String → Option String) (host : String) : Option String :=
  (subHost host).filter (fun sub => decide (Plain sub))

/-- What `proxy` does with a request after a decision. -/
def Proxy.respond {Body : Type} (decision : Decision) (n : UInt64) (req : Parts)
    (collected : Except Error Bytes) (attempts : List (Attempt Body)) : Handled Body :=
  let handled := carryOut decision n (req.uri.pathAndQuery.getD "") req collected attempts
  { handled with result := handled.result.map answer }

/-- Whatever comes of the body and the attempts, `proxy` handles the request by the decision.
-/
def Proxy.Takes (Body : Type) (subHost : String → Option String) (route : Route)
    (req : Parts) (decision : Decision) : Prop :=
  ∀ n collected, ∀ attempts : List (Attempt Body),
    proxy subHost route n req collected attempts
      = respond decision n req collected attempts

/-- The proxy takes one decision for both requests, and so does the plain HTTP service. -/
def DecidedAlike (Body : Type) (subHost : String → Option String) (route : Route)
    (left right : Parts) : Prop :=
  (∃ decision,
    Proxy.Takes Body subHost route left decision
    ∧ Proxy.Takes Body subHost route right decision)
  ∧ H1.redirectHost subHost route (reqHost left)
    = H1.redirectHost subHost route (reqHost right)

variable {Body : Type} {subHost : String → Option String} {route : Route}
  {host target : String} {req left right : Parts}

-----------------------------------------------------------------------------------------
-- The host that a request is for
-----------------------------------------------------------------------------------------

/-- A request is for the host of its authority, wherever it carries that. A Host field is
taken as it is, so it must not have a port.
-/
theorem reqHost_of_carries {req : Parts} {authority : Authority} {carrier : Carrier}
    (carries : Carries req authority carrier) (wellFormed : authority.WellFormed)
    (portless : carrier = .header → authority.port = none)
    : reqHost req = authority.host := by
  cases carrier with
  | header =>
      have text : authority.text = authority.host := by
        simp only [Authority.text, portless rfl]
      have carries : HeaderMap.get req.headers "host" = some (bytesOf authority.text) :=
        carries
      rw [text] at carries
      exact reqHost_of_field carries (HeaderValue.toStr_bytesOf wellFormed.visible)
  | uri => exact reqHost_of_uri carries.1 carries.2

-----------------------------------------------------------------------------------------
-- Decisions by tables with plain keys
-----------------------------------------------------------------------------------------

theorem plainSub_eq_some
    : plainSub subHost host = some target ↔ subHost host = some target ∧ Plain target := by
  simp [plainSub, Option.filter_eq_some_iff]

/-- What is decided about a host that is not plain depends only on what may stand for it. -/
theorem decision_of_not_plain (keys : PlainKeys route) (odd : ¬ Plain host)
    : route.decision subHost host
      = match plainSub subHost host with
        | some sub => if route.Serves sub then .redirect sub else .notFound
        | none => .notFound := by
  rw [Route.decision_of_unserved fun served => odd (keys host served)]
  cases found : subHost host with
  | none => simp [plainSub, found]
  | some sub =>
      by_cases plain : Plain sub
      case pos =>
        have kept : plainSub subHost host = some sub := plainSub_eq_some.mpr ⟨found, plain⟩
        simp only [kept]
      case neg =>
        have unserved : ¬ route.Serves sub := fun served => plain (keys sub served)
        have dropped : plainSub subHost host = none := by simp [plainSub, found, plain]
        simp only [dropped, unserved, if_false]

-----------------------------------------------------------------------------------------
-- What requests that are decided alike have in common
-----------------------------------------------------------------------------------------

/-- The proxy takes the decision about the host that the request is for. -/
theorem Proxy.takes_decision
    : Proxy.Takes Body subHost route req (route.decision subHost (reqHost req)) :=
  fun n collected attempts => proxy_eq subHost route n req collected attempts

theorem DecidedAlike.of_decision
    (same : route.decision subHost (reqHost left) = route.decision subHost (reqHost right))
    (target
      : H1.redirectHost subHost route (reqHost left)
        = H1.redirectHost subHost route (reqHost right))
    : DecidedAlike Body subHost route left right :=
  ⟨⟨_, Proxy.takes_decision, same ▸ Proxy.takes_decision⟩, target⟩

theorem DecidedAlike.symm (alike : DecidedAlike Body subHost route left right)
    : DecidedAlike Body subHost route right left := by
  obtain ⟨⟨decision, left_takes, right_takes⟩, same⟩ := alike
  exact ⟨⟨decision, right_takes, left_takes⟩, same.symm⟩

/-- Only the decision to forward counts a request. -/
theorem Proxy.respond_counts {decision : Decision}
    : (Proxy.respond decision 0 req (.ok []) ([] : List (Attempt Body))).n = 1
      ↔ ∃ upstream, decision = .forward upstream ∧ upstream.val.addrLi ≠ [] := by
  cases decision with
  | forward upstream =>
      by_cases empty : upstream.val.addrLi = []
      case pos => simp [Proxy.respond, Proxy.carryOut, Proxy.forwardTo, empty]
      case neg =>
        simp [Proxy.respond, Proxy.carryOut, Proxy.forwardTo, empty]
  | redirect target => simp [Proxy.respond, Proxy.carryOut]
  | notFound => simp [Proxy.respond, Proxy.carryOut]

/-- Only the decision that a host is not found gives the answer 404. -/
theorem Proxy.respond_notFound {decision : Decision}
    : (Proxy.respond decision 0 req (.ok []) ([] : List (Attempt Body))).result
        = some (.ok Proxy.notFound)
      ↔ decision = .notFound := by
  cases decision with
  | forward upstream =>
      by_cases empty : upstream.val.addrLi = []
      case pos =>
        simp [Proxy.respond, Proxy.carryOut, Proxy.forwardTo, empty, Proxy.answer_err,
          Proxy.failed, Proxy.notFound]
      case neg => simp [Proxy.respond, Proxy.carryOut, Proxy.forwardTo, empty, Proxy.retryLoop]
  | redirect target =>
      by_cases valid : ValidLocation target (req.uri.pathAndQuery.getD "")
      case pos =>
        simp [Proxy.respond, Proxy.carryOut, Proxy.moved_of_valid valid, Proxy.answer,
          Proxy.movedTo, Proxy.notFound]
      case neg =>
        simp [Proxy.respond, Proxy.carryOut, Proxy.moved_of_invalid valid, Proxy.answer_err,
          Proxy.failed, Proxy.notFound]
  | notFound => simp [Proxy.respond, Proxy.carryOut, Proxy.answer]

/-- If the one request is for a host with servers, the other is for a served host. -/
theorem DecidedAlike.serves (alike : DecidedAlike Body subHost route left right)
    {siteConf : SiteConf} (found : route.confByHost (reqHost left) = some siteConf)
    (nonempty : siteConf.upstream.val.addrLi ≠ [])
    : route.Serves (reqHost right) := by
  obtain ⟨⟨decision, left_takes, right_takes⟩, -⟩ := alike
  have counted
      : (Proxy.respond decision 0 left (.ok []) ([] : List (Attempt Body))).n = 1 := by
    rw [← left_takes, Proxy.takes_decision, Route.decision_of_served found]
    exact Proxy.respond_counts.mpr ⟨siteConf.upstream, rfl, nonempty⟩
  have forwards
      : (Proxy.respond decision 0 right (.ok []) ([] : List (Attempt Body))).n = 1 :=
    Proxy.respond_counts.mpr (Proxy.respond_counts.mp counted)
  rw [← right_takes, Proxy.takes_decision] at forwards
  obtain ⟨upstream, forward, -⟩ := Proxy.respond_counts.mp forwards
  obtain ⟨other, served, -⟩ := Route.decision_eq_forward.mp forward
  exact Option.isSome_iff_exists.mpr ⟨other, served⟩

/-- If the one host is not found, neither is the other. -/
theorem DecidedAlike.notFound (alike : DecidedAlike Body subHost route left right)
    (unknown : route.decision subHost (reqHost left) = .notFound)
    : route.decision subHost (reqHost right) = .notFound := by
  obtain ⟨⟨decision, left_takes, right_takes⟩, -⟩ := alike
  have left_answer
      : (Proxy.respond decision 0 left (.ok []) ([] : List (Attempt Body))).result
        = some (.ok Proxy.notFound) := by
    rw [← left_takes]
    exact Proxy.proxy_of_notFound unknown
  have right_answer
      : (Proxy.respond decision 0 right (.ok []) ([] : List (Attempt Body))).result
        = some (.ok Proxy.notFound) :=
    Proxy.respond_notFound.mpr (Proxy.respond_notFound.mp left_answer)
  rw [← right_takes] at right_answer
  exact Proxy.proxy_notFound_iff.mp right_answer

-----------------------------------------------------------------------------------------
-- Which hosts all tables with plain keys treat alike
-----------------------------------------------------------------------------------------

theorem decidedAlike_of_not_plain (keys : PlainKeys route)
    (left_odd : ¬ Plain (reqHost left)) (right_odd : ¬ Plain (reqHost right))
    (same : plainSub subHost (reqHost left) = plainSub subHost (reqHost right))
    : DecidedAlike Body subHost route left right := by
  have decided
      : route.decision subHost (reqHost left) = route.decision subHost (reqHost right) := by
    rw [decision_of_not_plain keys left_odd, decision_of_not_plain keys right_odd, same]
  refine .of_decision decided ?_
  rw [H1.redirectHost_eq, H1.redirectHost_eq, ← decided,
    decision_of_not_plain keys left_odd]
  cases plainSub subHost (reqHost left) with
  | none => rfl
  | some sub => by_cases served : route.Serves sub <;> simp [served, Decision.target]

theorem plainKeys_single (plain : Plain host) : PlainKeys (Route.single host localServer) := by
  intro key served
  rw [Route.serves_single.mp served]
  exact plain

/-- The table whose only key is one of the hosts tells them apart. -/
theorem plain_eq_of_alike (plain : Plain (reqHost left))
    (alike : ∀ route, PlainKeys route → DecidedAlike Body subHost route left right)
    : reqHost left = reqHost right := by
  have found := @Route.confByHost_single (reqHost left) (reqHost left) localServer
  rw [if_pos rfl] at found
  have served := (alike _ (plainKeys_single plain)).serves found (List.cons_ne_nil _ _)
  exact (Route.serves_single.mp served).symm

/-- The table whose only key may stand for one host shows that it stands for the other. -/
theorem plainSub_of_alike (left_odd : ¬ Plain (reqHost left))
    (right_odd : ¬ Plain (reqHost right))
    (found : plainSub subHost (reqHost left) = some target)
    (alike : ∀ route, PlainKeys route → DecidedAlike Body subHost route left right)
    : plainSub subHost (reqHost right) = some target := by
  obtain ⟨sub, plain⟩ := plainSub_eq_some.mp found
  have keys := plainKeys_single plain
  have unserved {host : String} (odd : ¬ Plain host)
      : ¬ (Route.single target localServer).Serves host :=
    fun served => odd (keys host served)
  have redirected
      : (Route.single target localServer).decision subHost (reqHost left)
        = .redirect target :=
    Route.decision_eq_redirect.mpr ⟨unserved left_odd, sub, Route.serves_single.mpr rfl⟩
  cases decided : (Route.single target localServer).decision subHost (reqHost right) with
  | forward upstream =>
      obtain ⟨siteConf, served, -⟩ := Route.decision_eq_forward.mp decided
      exact absurd (Option.isSome_iff_exists.mpr ⟨siteConf, served⟩) (unserved right_odd)
  | redirect other =>
      obtain ⟨-, stands, served⟩ := Route.decision_eq_redirect.mp decided
      rw [Route.serves_single.mp served] at stands
      exact plainSub_eq_some.mpr ⟨stands, plain⟩
  | notFound =>
      rw [(alike _ keys).symm.notFound decided] at redirected
      cases redirected

theorem Authority.WellFormed.plain_iff {authority : Authority}
    (wellFormed : authority.WellFormed)
    : Plain authority.host ↔ authority.host.toLower = authority.host :=
  and_iff_left wellFormed.portFree

/-- Two requests carry their authorities in the Host field or in the URI, with a port in the
URI only. For every `sub_host`, both front ends decide alike about them by every table with
plain keys exactly if their hosts are written alike, or if neither is written in lower case
and the same plain host may stand for both, or none. Witness: the table with one key tells
any other two hosts apart.
-/
theorem decidedAlike_iff (Body : Type) (subHost : String → Option String)
    {left right : Parts}
    {leftAuthority rightAuthority : Authority} {leftCarrier rightCarrier : Carrier}
    (leftCarries : Carries left leftAuthority leftCarrier)
    (rightCarries : Carries right rightAuthority rightCarrier)
    (leftFormed : leftAuthority.WellFormed) (rightFormed : rightAuthority.WellFormed)
    (leftPortless : leftCarrier = .header → leftAuthority.port = none)
    (rightPortless : rightCarrier = .header → rightAuthority.port = none)
    : (∀ route, PlainKeys route → DecidedAlike Body subHost route left right)
      ↔ leftAuthority.host = rightAuthority.host
        ∨ leftAuthority.host.toLower ≠ leftAuthority.host
          ∧ rightAuthority.host.toLower ≠ rightAuthority.host
          ∧ plainSub subHost leftAuthority.host = plainSub subHost rightAuthority.host := by
  have left_host := reqHost_of_carries leftCarries leftFormed leftPortless
  have right_host := reqHost_of_carries rightCarries rightFormed rightPortless
  rw [ne_eq, ne_eq, ← leftFormed.plain_iff, ← rightFormed.plain_iff, ← left_host,
    ← right_host]
  constructor
  · intro alike
    have reversed
        : ∀ route, PlainKeys route → DecidedAlike Body subHost route right left :=
      fun route keys => (alike route keys).symm
    by_cases left_plain : Plain (reqHost left)
    case pos => exact .inl (plain_eq_of_alike left_plain alike)
    case neg =>
      by_cases right_plain : Plain (reqHost right)
      case pos => exact .inl (plain_eq_of_alike right_plain reversed).symm
      case neg =>
        refine .inr ⟨left_plain, right_plain, Option.ext fun target => ?_⟩
        exact ⟨fun found => plainSub_of_alike left_plain right_plain found alike,
          fun found => plainSub_of_alike right_plain left_plain found reversed⟩
  · intro condition route keys
    rcases condition with same | ⟨left_odd, right_odd, same⟩
    · exact .of_decision (by rw [same]) (by rw [same])
    · exact decidedAlike_of_not_plain keys left_odd right_odd same

/-- A request of HTTP/1.1 has a Host field. -/
def fieldRequest (host : String) : Parts where
  method := .get
  uri := { scheme := none, authority := none, pathAndQuery := some "/" }
  version := .http11
  headers := [("host", bytesOf host)]

/-- A request of HTTP/2 has an authority. -/
def uriRequest (host port : String) : Parts where
  method := .get
  uri :=
    {
      scheme := some "https"
      authority := some { host, port := some port }
      pathAndQuery := some "/"
    }
  version := .http2
  headers := []

/-- A Host field and an authority with a port are decided alike. Witness: the hosts are
written alike.
-/
theorem decidedAlike_fieldRequest
    : DecidedAlike Bytes (fun _ => none) (Route.single "example.com" localServer)
        (fieldRequest "example.com") (uriRequest "example.com" "443") := by
  have visible : (bytesOf "example.com").all isVisibleAscii = true := by decide
  have portFree : PortFree "example.com" := by decide
  have wellFormed
      : ∀ port, ({ host := "example.com", port } : Authority).WellFormed :=
    fun port => ⟨visible, portFree⟩
  have alike :=
    decidedAlike_iff Bytes (fun _ => none)
      (show Carries (fieldRequest "example.com") { host := "example.com", port := none }
        .header from rfl)
      (show Carries (uriRequest "example.com" "443")
        { host := "example.com", port := some "443" } .uri from ⟨rfl, rfl⟩)
      (wellFormed none) (wellFormed (some "443")) (fun _ => rfl) (fun header => by cases header)
  refine alike.mpr (.inl rfl) _ fun key served => ?_
  rw [Route.serves_single.mp served]
  decide

/-- The same name with a capital letter is not found. Witness: both decisions by evaluation,
and the answers to the two requests.
-/
theorem capital_not_found
    : let route := Route.single "example.com" localServer
      let answered (host : String) :=
        Proxy.proxy (fun _ => none) route 0 (fieldRequest host) (.ok [])
          ([] : List (Attempt Bytes))
      "Example.com".toLower = "example.com"
      ∧ PlainKeys route
      ∧ (answered "example.com").n = 1
      ∧ (answered "Example.com").n = 0
      ∧ (answered "Example.com").result = some (.ok Proxy.notFound)
      ∧ ¬ DecidedAlike Bytes (fun _ => none) route (fieldRequest "example.com")
          (fieldRequest "Example.com") := by
  intro route answered
  refine ⟨toLower_eq_iff.mpr (by decide), fun key served => ?_, rfl, rfl, rfl,
    fun alike => ?_⟩
  · rw [Route.serves_single.mp served]
    decide
  · have unlike
        : H1.redirectHost (fun _ => none) route (reqHost (fieldRequest "example.com"))
          ≠ H1.redirectHost (fun _ => none) route (reqHost (fieldRequest "Example.com")) := by
      decide
    exact unlike alike.2

end Gway
