import Gway.Proxy
import Gway.Srv.H1

/-! What the gateway decides about a host, and that the proxy and the plain HTTP service
carry out this one decision.
-/

namespace Gway

open PooledFetch

/-- A request is forwarded to an upstream, redirected to another host or not served. -/
inductive Decision where
  | forward (upstream : Arc Upstream)
  | redirect (host : String)
  | notFound
deriving DecidableEq, Repr

namespace Route

/-- The host is a key of the table of hosts. -/
def Serves (route : Route) (host : String) : Prop :=
  (route.confByHost host).isSome = true

instance (route : Route) (host : String) : Decidable (route.Serves host) :=
  inferInstanceAs (Decidable ((route.confByHost host).isSome = true))

/-- A served host has its upstream, and any other one stands for its `sub_host` if that is
served.
-/
def decision (subHost : String → Option String) (route : Route) (host : String) : Decision :=
  match route.confByHost host with
  | some siteConf => .forward siteConf.upstream
  | none =>
      match subHost host with
      | some sub => if route.Serves sub then .redirect sub else .notFound
      | none => .notFound

variable {subHost : String → Option String} {route : Route} {host target : String}

theorem decision_of_served {siteConf : SiteConf} (found : route.confByHost host = some siteConf)
    : route.decision subHost host = .forward siteConf.upstream := by
  simp only [decision, found]

theorem decision_of_unserved (unserved : ¬ route.Serves host)
    : route.decision subHost host
      = match subHost host with
        | some sub => if route.Serves sub then .redirect sub else .notFound
        | none => .notFound := by
  have missing : route.confByHost host = none := Option.not_isSome_iff_eq_none.mp unserved
  simp only [decision, missing]

theorem decision_eq_forward {upstream : Arc Upstream}
    : route.decision subHost host = .forward upstream
      ↔ ∃ siteConf, route.confByHost host = some siteConf ∧ siteConf.upstream = upstream := by
  by_cases serves : route.Serves host
  case pos =>
    obtain ⟨siteConf, found⟩ := Option.isSome_iff_exists.mp serves
    simp [decision_of_served found, found]
  case neg =>
    have missing : route.confByHost host = none := Option.not_isSome_iff_eq_none.mp serves
    rw [decision_of_unserved serves, missing]
    cases subHost host with
    | none => simp
    | some sub => by_cases served : route.Serves sub <;> simp [served]

theorem decision_eq_redirect
    : route.decision subHost host = .redirect target
      ↔ ¬ route.Serves host ∧ subHost host = some target ∧ route.Serves target := by
  by_cases serves : route.Serves host
  case pos =>
    obtain ⟨siteConf, found⟩ := Option.isSome_iff_exists.mp serves
    simp [decision_of_served found, serves]
  case neg =>
    rw [decision_of_unserved serves]
    cases found : subHost host with
    | none => simp
    | some sub =>
        by_cases served : route.Serves sub
        case pos => simpa [served, serves] using fun same : sub = target => same ▸ served
        case neg => simpa [served] using fun _ (same : sub = target) => same ▸ served

/-- The table with one site. -/
def single (host : String) (upstream : Upstream) : Route :=
  ((default : Route).addUpstream 0 "site" upstream).set host host "site"

theorem confByHost_single {other : String} {upstream : Upstream}
    : (single host upstream).confByHost other
      = if other = host then
          some { upstream := { ptr := 0, val := upstream }, certHost := host }
        else none := by
  have registered
      : ((default : Route).addUpstream 0 "site" upstream).upstreamOf "site"
        = some { ptr := 0, val := upstream } :=
    rfl
  rw [single, confByHost_set registered]
  rfl

theorem serves_single {other : String} {upstream : Upstream}
    : (single host upstream).Serves other ↔ other = host := by
  rw [Serves, confByHost_single]
  by_cases same : other = host
  case pos => simp [same]
  case neg => simp [same]

end Route

/-- An upstream with one server. -/
def localServer : Upstream where
  addrLi := [localUpstream]
  maxRetry := 0
  protocol := .h1

/-- The host that the plain HTTP service redirects to after a decision about `host`. -/
def Decision.target (host : String) : Decision → Option String
  | .forward _ => some host
  | .redirect target => some target
  | .notFound => none

theorem H1.redirectHost_eq (subHost : String → Option String) (route : Route) (host : String)
    : H1.redirectHost subHost route host
      = (route.decision subHost host).target host := by
  unfold H1.redirectHost Route.decision
  cases route.confByHost host with
  | some siteConf => rfl
  | none =>
      cases subHost host with
      | none => rfl
      | some sub =>
          cases found : route.confByHost sub with
          | none => simp [found, Route.Serves, Decision.target]
          | some siteConf => simp [found, Route.Serves, Decision.target]

/-- A host that a request is redirected to is served. -/
theorem H1.redirectHost_served {subHost : String → Option String} {route : Route}
    {host target : String} (found : H1.redirectHost subHost route host = some target)
    : route.Serves target := by
  rw [H1.redirectHost_eq] at found
  cases decided : route.decision subHost host with
  | forward upstream =>
      rw [decided] at found
      cases Option.some.inj found
      obtain ⟨siteConf, served, -⟩ := Route.decision_eq_forward.mp decided
      exact Option.isSome_iff_exists.mpr ⟨siteConf, served⟩
  | redirect other =>
      rw [decided] at found
      cases Option.some.inj found
      exact (Route.decision_eq_redirect.mp decided).2.2
  | notFound =>
      rw [decided] at found
      cases found

theorem H1.redirectHost_eq_none {subHost : String → Option String} {route : Route}
    {host : String}
    : H1.redirectHost subHost route host = none
      ↔ ¬ route.Serves host ∧ ∀ sub, subHost host = some sub → ¬ route.Serves sub := by
  unfold H1.redirectHost Route.Serves
  cases route.confByHost host with
  | some siteConf => simp
  | none => cases subHost host <;> simp

namespace Proxy

variable {Body : Type}

/-- What `_proxy` does with a request for a host with an upstream. -/
def forwardTo (upstream : Upstream) (n : UInt64) (parts : Parts)
    (collected : Except Error Bytes) (attempts : List (Attempt Body)) : Handled Body :=
  let len := upstream.addrLi.length
  if len = 0 then { n, calls := [], result := some (.error (.err .upstreamNotFound)) }
  else
    match collected with
    | .error err => { n, calls := [], result := some (.error (.err err)) }
    | .ok body =>
        let req := { parts := forwardParts upstream.protocol parts, body }
        let n := n + 1
        let (calls, result) := retryLoop upstream req attempts (n.toNat % len) 0
        { n, calls, result }

/-- The answer that sends the client to another host. -/
def moved (host pathAndQuery : String) : Except Failure (Answer Body) :=
  response 301 [("location", bytesOf ("https://" ++ host ++ pathAndQuery))] []

/-- The answer for a host that is not served. -/
def notFound : Answer Body :=
  { status := 404, headers := [], body := .full (bytesOf "404: Not Found") }

/-- What `_proxy` does about a decision. -/
def carryOut (decision : Decision) (n : UInt64) (pathAndQuery : String) (parts : Parts)
    (collected : Except Error Bytes) (attempts : List (Attempt Body)) : Handled Body :=
  match decision with
  | .forward upstream => forwardTo upstream.val n parts collected attempts
  | .redirect host => { n, calls := [], result := some (moved host pathAndQuery) }
  | .notFound => { n, calls := [], result := some (.ok notFound) }

/-- `_proxy` carries out the decision about the host. -/
theorem proxyInner_eq (subHost : String → Option String) (route : Route) (n : UInt64)
    (host pathAndQuery : String) (parts : Parts) (collected : Except Error Bytes)
    (attempts : List (Attempt Body))
    : proxyInner subHost route n host pathAndQuery parts collected attempts
      = carryOut (route.decision subHost host) n pathAndQuery parts collected attempts := by
  unfold proxyInner Route.decision
  cases route.confByHost host with
  | some siteConf => rfl
  | none =>
      cases subHost host with
      | none => rfl
      | some sub =>
          cases found : route.confByHost sub with
          | none => simp [found, Route.Serves, carryOut, response, notFound]
          | some siteConf => simp [found, Route.Serves, carryOut, moved]

/-- `proxy` carries out the decision about the host that the request is for. -/
theorem proxy_eq (subHost : String → Option String) (route : Route) (n : UInt64)
    (req : Parts) (collected : Except Error Bytes) (attempts : List (Attempt Body))
    : proxy subHost route n req collected attempts
      = let handled :=
          carryOut (route.decision subHost (reqHost req)) n (req.uri.pathAndQuery.getD "") req
            collected attempts
        { handled with result := handled.result.map answer } := by
  simp only [proxy, proxyInner_eq]

end Proxy

end Gway
