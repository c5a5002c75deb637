import Gway.Decision

/-! The answers of the two front ends to requests for one host. They answer by the same
decision, and a redirect leads to a host that is not redirected again.
-/

namespace Gway

open PooledFetch

/-- The text of the URL that a client is sent to. -/
def location (host pathAndQuery : String) : String :=
  "https://" ++ host ++ pathAndQuery

/-- The text can be the value of a field. -/
def ValidLocation (host pathAndQuery : String) : Prop :=
  (HeaderValue.fromBytes (bytesOf (location host pathAndQuery))).isSome = true

theorem location_host_eq {host other pathAndQuery : String}
    (same : bytesOf (location host pathAndQuery) = bytesOf (location other pathAndQuery))
    : host = other := by
  have texts := congrArg String.toList (bytesOf_injective same)
  simp only [location, String.toList_append, List.append_assoc, List.append_cancel_left_eq,
    List.append_cancel_right_eq] at texts
  exact String.toList_inj.mp texts

-----------------------------------------------------------------------------------------
-- The plain HTTP service
-----------------------------------------------------------------------------------------

namespace H1

/-- The answer to the request is a redirect to the target. -/
def RedirectsTo (subHost : String → Option String) (route : Route) (req : Parts)
    (target : String) : Prop :=
  redirect subHost route req
  = {
      status := 301
      headers := [("location", bytesOf (location target (req.uri.pathAndQuery.getD "/")))]
      body := []
    }

variable {subHost : String → Option String} {route : Route} {req : Parts} {target : String}

theorem redirect_of_none (none : redirectHost subHost route (reqHost req) = none)
    : redirect subHost route req = response .notFound := by
  simp only [redirect, none]

theorem redirect_of_valid (found : redirectHost subHost route (reqHost req) = some target)
    (valid : ValidLocation target (req.uri.pathAndQuery.getD "/"))
    : RedirectsTo subHost route req target := by
  have value := HeaderValue.fromBytes_of_isSome valid
  rw [location] at value
  simp only [RedirectsTo, redirect, found, value]
  rfl

theorem redirect_of_invalid (found : redirectHost subHost route (reqHost req) = some target)
    (invalid : ¬ ValidLocation target (req.uri.pathAndQuery.getD "/"))
    : redirect subHost route req = response .internalServerError := by
  have missing := Option.not_isSome_iff_eq_none.mp invalid
  rw [location] at missing
  simp only [redirect, found, missing]

theorem redirect_eq_404
    : (redirect subHost route req).status = 404
      ↔ redirectHost subHost route (reqHost req) = none := by
  cases found : redirectHost subHost route (reqHost req) with
  | none => simp [redirect_of_none found, response, StatusCode.asU16]
  | some target =>
      by_cases valid : ValidLocation target (req.uri.pathAndQuery.getD "/")
      case pos =>
        have moved : redirect subHost route req = _ := redirect_of_valid found valid
        simp [moved]
      case neg => simp [redirect_of_invalid found valid, response, StatusCode.asU16]

theorem redirectsTo_iff
    : RedirectsTo subHost route req target
      ↔ redirectHost subHost route (reqHost req) = some target
        ∧ ValidLocation target (req.uri.pathAndQuery.getD "/") := by
  constructor
  · intro redirects
    cases found : redirectHost subHost route (reqHost req) with
    | none =>
        rw [RedirectsTo, redirect_of_none found] at redirects
        cases redirects
    | some other =>
        by_cases valid : ValidLocation other (req.uri.pathAndQuery.getD "/")
        case pos =>
          have moved : redirect subHost route req = _ := redirect_of_valid found valid
          rw [RedirectsTo, moved] at redirects
          simp only [Response.mk.injEq, List.cons.injEq, Prod.mk.injEq, and_true,
            true_and] at redirects
          cases location_host_eq redirects
          exact ⟨rfl, valid⟩
        case neg =>
          rw [RedirectsTo, redirect_of_invalid found valid] at redirects
          cases redirects
  · exact fun conditions => redirect_of_valid conditions.1 conditions.2

end H1

-----------------------------------------------------------------------------------------
-- The proxy
-----------------------------------------------------------------------------------------

namespace Proxy

variable {Body : Type}

/-- The answer that sends the client to the target. -/
def movedTo (target pathAndQuery : String) : Answer Body :=
  {
    status := 301
    headers := [("location", bytesOf (location target pathAndQuery))]
    body := .full []
  }

/-- The answer to a request that could not be forwarded. -/
def failed (err : Error) : Answer Body :=
  { status := 500, headers := [], body := .full (bytesOf err.display) }

theorem answer_err (err : Error)
    : answer (.error (.err err) : Except Failure (Answer Body)) = .ok (failed err) :=
  rfl

theorem moved_of_valid {target pathAndQuery : String}
    (valid : ValidLocation target pathAndQuery)
    : (moved target pathAndQuery : Except Failure (Answer Body))
      = .ok (movedTo target pathAndQuery) := by
  have value := HeaderValue.fromBytes_of_isSome valid
  rw [location] at value
  simp only [moved, response, List.mapM_cons, List.mapM_nil, value, movedTo, location]
  rfl

theorem moved_of_invalid {target pathAndQuery : String}
    (invalid : ¬ ValidLocation target pathAndQuery)
    : (moved target pathAndQuery : Except Failure (Answer Body))
      = .error (.err (.http "failed to parse header value")) := by
  have missing := Option.not_isSome_iff_eq_none.mp invalid
  rw [location] at missing
  simp only [moved, response, List.mapM_cons, List.mapM_nil, missing]
  rfl

/-- The loop answers only with what an upstream has answered, by induction on the attempts. -/
theorem retryLoop_boxed {upstream : Upstream} {req : Request Bytes}
    {attempts : List (Attempt Body)} {pos : Nat} {retry : UInt64} {res : Answer Body}
    (answered : (retryLoop upstream req attempts pos retry).2 = some (.ok res))
    : ∃ body, res.body = .boxed body := by
  induction attempts generalizing pos retry with
  | nil => cases answered
  | cons attempt later ih =>
      unfold retryLoop at answered
      split at answered
      case h_1 => cases answered
      case h_2 upstreamAddr _ =>
        rcases called : http attempt upstreamAddr req with ⟨sent, err | given⟩
        case ok =>
          simp only [Call.made, called, Option.some.injEq, Except.ok.injEq] at answered
          exact ⟨given.body, by rw [← answered]⟩
        case error =>
          simp only [Call.made, called] at answered
          split at answered
          case isTrue => cases answered
          case isFalse => exact ih answered

/-- The loop gets the request with the body, and the counter has gone up by one. -/
def Forwards (upstream : Upstream) (n : UInt64) (req : Parts)
    (collected : Except Error Bytes) (attempts : List (Attempt Body))
    (handled : Handled Body) : Prop :=
  upstream.addrLi ≠ []
  ∧ ∃ body,
      collected = .ok body
      ∧ let (calls, result) :=
          retryLoop upstream { parts := forwardParts upstream.protocol req, body } attempts
            ((n + 1).toNat % upstream.addrLi.length) 0
        handled = { n := n + 1, calls, result := result.map answer }

/-- No call is made, as there is no server to send to or no body to send. -/
def Refuses (upstream : Upstream) (n : UInt64) (collected : Except Error Bytes)
    (handled : Handled Body) : Prop :=
  ∃ err,
    (upstream.addrLi = [] ∧ err = .upstreamNotFound ∨ collected = .error err)
    ∧ handled = { n, calls := [], result := some (.ok (failed err)) }

variable {subHost : String → Option String} {route : Route} {n : UInt64} {req : Parts}
  {collected : Except Error Bytes} {attempts : List (Attempt Body)}

/-- A request for a served host is forwarded or refused. -/
theorem proxy_of_served {siteConf : SiteConf}
    (found : route.confByHost (reqHost req) = some siteConf)
    : let handled := proxy subHost route n req collected attempts
      Forwards siteConf.upstream.val n req collected attempts handled
      ∨ Refuses siteConf.upstream.val n collected handled := by
  rw [proxy_eq, Route.decision_of_served found]
  by_cases empty : siteConf.upstream.val.addrLi = []
  case pos =>
    right
    refine ⟨.upstreamNotFound, .inl ⟨empty, rfl⟩, ?_⟩
    simp [carryOut, forwardTo, empty, answer_err]
  case neg =>
    have nonempty : siteConf.upstream.val.addrLi.length ≠ 0 :=
      fun none => empty (List.length_eq_zero_iff.mp none)
    cases collected with
    | error err =>
        right
        exact ⟨err, .inr rfl, by simp [carryOut, forwardTo, nonempty, answer_err]⟩
    | ok body =>
        left
        exact ⟨empty, body, rfl, by simp [carryOut, forwardTo, nonempty]⟩

/-- With a server and a body, a request for a served host is forwarded. -/
theorem proxy_forwards {siteConf : SiteConf} {body : Bytes}
    (found : route.confByHost (reqHost req) = some siteConf)
    (nonempty : siteConf.upstream.val.addrLi ≠ []) (read : collected = .ok body)
    : Forwards siteConf.upstream.val n req collected attempts
        (proxy subHost route n req collected attempts) := by
  rcases proxy_of_served found with forwards | ⟨err, empty | failed, -⟩
  · exact forwards
  · exact absurd empty.1 nonempty
  · cases read.symm.trans failed

/-- An answer to a request for a served host comes from an upstream or has status 500. -/
theorem proxy_of_served_answer {siteConf : SiteConf} {res : Answer Body}
    (found : route.confByHost (reqHost req) = some siteConf)
    (answered : (proxy subHost route n req collected attempts).result = some (.ok res))
    : (∃ body, res.body = .boxed body) ∨ res.status = 500 := by
  rcases proxy_of_served found with ⟨-, body, -, handled⟩ | ⟨err, -, handled⟩
  · rw [handled] at answered
    obtain ⟨result, looped, given⟩ := Option.map_eq_some_iff.mp answered
    cases result with
    | ok given_res =>
        cases given
        exact .inl (retryLoop_boxed looped)
    | error failure =>
        cases failure with
        | panic => cases given
        | err err =>
            rw [answer_err] at given
            cases given
            exact .inr rfl
  · rw [handled] at answered
    cases answered
    exact .inr rfl

theorem proxy_of_redirect {target : String}
    (redirected : route.decision subHost (reqHost req) = .redirect target)
    (valid : ValidLocation target (req.uri.pathAndQuery.getD ""))
    : (proxy subHost route n req collected attempts).result
      = some (.ok (movedTo target (req.uri.pathAndQuery.getD ""))) := by
  rw [proxy_eq, redirected]
  simp only [carryOut, moved_of_valid valid]
  rfl

theorem proxy_of_redirect_invalid {target : String}
    (redirected : route.decision subHost (reqHost req) = .redirect target)
    (invalid : ¬ ValidLocation target (req.uri.pathAndQuery.getD ""))
    : (proxy subHost route n req collected attempts).result
      = some (.ok (failed (.http "failed to parse header value"))) := by
  rw [proxy_eq, redirected]
  simp only [carryOut, moved_of_invalid invalid]
  rfl

theorem proxy_of_notFound
    (unknown : route.decision subHost (reqHost req) = .notFound)
    : (proxy subHost route n req collected attempts).result = some (.ok notFound) := by
  rw [proxy_eq, unknown]
  rfl

/-- An answer of the proxy's own with another status than 500 shows the decision. -/
theorem decision_of_own {res : Answer Body} {own : Bytes}
    (answered : (proxy subHost route n req collected attempts).result = some (.ok res))
    (full : res.body = .full own) (status : res.status ≠ 500)
    : (∃ target,
        route.decision subHost (reqHost req) = .redirect target
        ∧ ValidLocation target (req.uri.pathAndQuery.getD "")
        ∧ res = movedTo target (req.uri.pathAndQuery.getD ""))
      ∨ route.decision subHost (reqHost req) = .notFound ∧ res = notFound := by
  cases decided : route.decision subHost (reqHost req) with
  | forward upstream =>
      obtain ⟨siteConf, found, -⟩ := Route.decision_eq_forward.mp decided
      rcases proxy_of_served_answer found answered with ⟨body, boxed⟩ | failed
      · rw [full] at boxed
        cases boxed
      · exact absurd failed status
  | redirect target =>
      left
      by_cases valid : ValidLocation target (req.uri.pathAndQuery.getD "")
      case pos =>
        rw [proxy_of_redirect decided valid] at answered
        cases answered
        exact ⟨target, rfl, valid, rfl⟩
      case neg =>
        rw [proxy_of_redirect_invalid decided valid] at answered
        cases answered
        exact absurd rfl status
  | notFound =>
      rw [proxy_of_notFound decided] at answered
      cases answered
      exact .inr ⟨rfl, rfl⟩

theorem proxy_moved_iff {target : String}
    : (proxy subHost route n req collected attempts).result
        = some (.ok (movedTo target (req.uri.pathAndQuery.getD "")))
      ↔ route.decision subHost (reqHost req) = .redirect target
        ∧ ValidLocation target (req.uri.pathAndQuery.getD "") := by
  constructor
  · intro answered
    rcases decision_of_own answered rfl (by simp [movedTo])
      with ⟨other, decided, valid, same⟩ | ⟨-, same⟩
    · simp only [movedTo, Response.mk.injEq, List.cons.injEq, Prod.mk.injEq, and_true,
        true_and] at same
      cases location_host_eq same
      exact ⟨decided, valid⟩
    · cases same
  · exact fun conditions => proxy_of_redirect conditions.1 conditions.2

theorem proxy_notFound_iff
    : (proxy subHost route n req collected attempts).result = some (.ok notFound)
      ↔ route.decision subHost (reqHost req) = .notFound := by
  constructor
  · intro answered
    rcases decision_of_own answered rfl (by simp [notFound])
      with ⟨other, -, -, same⟩ | ⟨decided, -⟩
    · cases same
    · exact decided
  · exact proxy_of_notFound

end Proxy

/-- A request with a Host field. -/
def cartRequest : Parts where
  method := .get
  uri := { scheme := none, authority := none, pathAndQuery := some "/cart" }
  version := .http11
  headers := [("host", bytesOf "example.com")]

end Gway
