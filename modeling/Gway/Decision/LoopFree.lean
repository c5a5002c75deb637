import Gway.Decision.FrontEnds

/-! The two front ends decide alike, and a client who follows redirects is redirected at
most once.
-/

namespace Gway

open PooledFetch

/-- The services that take the requests of clients: plain HTTP and TLS. -/
inductive FrontEnd where
  | h1
  | proxy
deriving DecidableEq, Repr

/-- Some request for the host is redirected to the target. -/
def Redirects (Body : Type) (subHost : String → Option String) (route : Route)
    (host target : String) : FrontEnd → Prop
  | .h1 => ∃ req, reqHost req = host ∧ H1.RedirectsTo subHost route req target
  | .proxy =>
      ∃ req n collected, ∃ attempts : List (Attempt Body),
        reqHost req = host
        ∧ (Proxy.proxy subHost route n req collected attempts).result
          = some (.ok (Proxy.movedTo target (req.uri.pathAndQuery.getD "")))

/-- The hosts that a client is redirected to one after the other. A redirect is always to
HTTPS, so only the first request can be one to the plain HTTP service.
-/
def Follows (Body : Type) (subHost : String → Option String) (route : Route)
    : (front : FrontEnd) → (host : String) → List String → Prop
  | _, _, [] => True
  | front, host, target :: later =>
      Redirects Body subHost route host target front
      ∧ Follows Body subHost route .proxy target later

variable {Body : Type} {subHost : String → Option String} {route : Route}
  {host target : String} {front : FrontEnd}

/-- A target has an upstream of its own. -/
theorem Redirects.served (redirects : Redirects Body subHost route host target front)
    : route.Serves target := by
  cases front with
  | h1 =>
      obtain ⟨req, -, moved⟩ := redirects
      obtain ⟨found, -⟩ := H1.redirectsTo_iff.mp moved
      exact H1.redirectHost_served found
  | proxy =>
      obtain ⟨req, n, collected, attempts, -, moved⟩ := redirects
      obtain ⟨redirected, -⟩ := Proxy.proxy_moved_iff.mp moved
      exact (Route.decision_eq_redirect.mp redirected).2.2

/-- The proxy redirects no host that is served. -/
theorem not_redirects_of_served (served : route.Serves host)
    : ¬ Redirects Body subHost route host target .proxy := by
  intro ⟨req, n, collected, attempts, named, moved⟩
  obtain ⟨redirected, -⟩ := Proxy.proxy_moved_iff.mp moved
  rw [named] at redirected
  exact (Route.decision_eq_redirect.mp redirected).1 served

/-- No second redirect follows, as the target of the first is served. -/
theorem Follows.length_le {chain : List String}
    (follows : Follows Body subHost route front host chain)
    : chain.length ≤ 1 := by
  rcases chain with - | ⟨first, - | ⟨second, later⟩⟩
  · exact Nat.zero_le 1
  · exact Nat.le_refl 1
  · obtain ⟨redirects, again, -⟩ := follows
    exact absurd again (not_redirects_of_served redirects.served)

/-- For every table and every `sub_host`, requests for one host are answered alike by the
two front ends. The plain HTTP service answers 404 exactly if the proxy answers its own 404.
When the former redirects to a target, the host is served and the target itself, and the
proxy forwards it or refuses it for lack of a server or a body; or the proxy redirects it to
the same target. Every chain of redirects has at most one, to a host that is served.
-/
theorem frontEnds_agree (Body : Type) (subHost : String → Option String) (route : Route)
    (host : String)
    : (∀ plain secure : Parts,
        reqHost plain = host
        → reqHost secure = host
        → ∀ n collected, ∀ attempts : List (Attempt Body),
            let handled := Proxy.proxy subHost route n secure collected attempts
            ((H1.redirect subHost route plain).status = 404
              ↔ handled.result = some (.ok Proxy.notFound))
            ∧ ∀ target,
                H1.RedirectsTo subHost route plain target
                → ValidLocation target (secure.uri.pathAndQuery.getD "")
                → (target = host
                    ∧ ∃ siteConf,
                        route.confByHost host = some siteConf
                        ∧ (Proxy.Forwards siteConf.upstream.val n secure collected attempts
                            handled
                          ∨ Proxy.Refuses siteConf.upstream.val n collected handled))
                  ∨ handled.result
                    = some (.ok (Proxy.movedTo target (secure.uri.pathAndQuery.getD ""))))
      ∧ ∀ front chain,
          Follows Body subHost route front host chain
          → chain.length ≤ 1 ∧ ∀ target ∈ chain, route.Serves target := by
  refine ⟨fun plain secure plain_named secure_named n collected attempts => ⟨?_, ?_⟩, ?_⟩
  · rw [H1.redirect_eq_404, H1.redirectHost_eq, Proxy.proxy_notFound_iff, plain_named,
      secure_named]
    cases route.decision subHost host <;> simp [Decision.target]
  · intro target redirects valid
    obtain ⟨found, -⟩ := H1.redirectsTo_iff.mp redirects
    rw [H1.redirectHost_eq, plain_named] at found
    cases decided : route.decision subHost host with
    | forward upstream =>
        rw [decided] at found
        obtain ⟨siteConf, served, -⟩ := Route.decision_eq_forward.mp decided
        left
        refine ⟨(Option.some.inj found).symm, siteConf, served, ?_⟩
        exact Proxy.proxy_of_served (by rw [secure_named, served])
    | redirect other =>
        rw [decided] at found
        cases Option.some.inj found
        right
        exact Proxy.proxy_of_redirect (by rw [secure_named, decided]) valid
    | notFound =>
        rw [decided] at found
        cases found
  · intro front chain follows
    refine ⟨follows.length_le, fun target member => ?_⟩
    rcases chain with - | ⟨first, - | ⟨second, later⟩⟩
    · cases member
    · cases List.mem_singleton.mp member
      exact follows.1.served
    · exact absurd follows.length_le (by simp)

/-- The plain HTTP service redirects the request to its own host, and the proxy forwards it.
Witness: the proxy's answer is no redirect, by evaluation.
-/
theorem frontEnds_agree_cartRequest
    : let route := Route.single "example.com" localServer
      let handled :=
        Proxy.proxy (fun _ => none) route 0 cartRequest (.ok []) ([] : List (Attempt Bytes))
      H1.RedirectsTo (fun _ => none) route cartRequest "example.com"
      ∧ ∃ siteConf,
          route.confByHost "example.com" = some siteConf
          ∧ (Proxy.Forwards siteConf.upstream.val 0 cartRequest (.ok []) [] handled
            ∨ Proxy.Refuses siteConf.upstream.val 0 (.ok []) handled) := by
  intro route handled
  have redirects : H1.RedirectsTo (fun _ => none) route cartRequest "example.com" := by
    unfold H1.RedirectsTo
    decide
  have valid : ValidLocation "example.com" "/cart" := by
    unfold ValidLocation
    decide
  have alike :=
    (frontEnds_agree Bytes (fun _ => none) route "example.com").1 cartRequest cartRequest
      (by decide) (by decide) 0 (.ok []) []
  rcases alike.2 "example.com" redirects valid with ⟨-, served⟩ | moved
  · exact ⟨redirects, served⟩
  · cases moved

/-- A site whose upstream has no servers. -/
def unstaffed : Route :=
  Route.single "example.com" { addrLi := [], maxRetry := 0, protocol := .h1 }

/-- The plain HTTP service redirects the request to its own host, which the proxy neither
forwards nor redirects. Witness: both answers by evaluation.
-/
theorem unstaffed_not_forwarded
    : let handled :=
        Proxy.proxy (fun _ => none) unstaffed 0 cartRequest (.ok []) ([] : List (Attempt Bytes))
      H1.RedirectsTo (fun _ => none) unstaffed cartRequest "example.com"
      ∧ handled.sent.length = 0
      ∧ handled.n = 0
      ∧ handled.result = some (.ok (Proxy.failed .upstreamNotFound))
      ∧ ∀ target, handled.result ≠ some (.ok (Proxy.movedTo target "/cart")) := by
  intro handled
  have redirects : H1.RedirectsTo (fun _ => none) unstaffed cartRequest "example.com" := by
    unfold H1.RedirectsTo
    decide
  have answered : handled.result = some (.ok (Proxy.failed .upstreamNotFound)) := rfl
  refine ⟨redirects, rfl, rfl, answered, fun target moved => ?_⟩
  rw [answered] at moved
  cases moved

end Gway
