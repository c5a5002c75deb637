import Gway.Error
import Gway.PooledFetch.Http
import Gway.ReqHost
import Gway.Route

/-! The proxy: where a request goes, and the loop that retries it. -/

namespace Gway.Proxy

open PooledFetch

/-- The body of an answer is the proxy's own or that of an upstream. -/
inductive BoxBody (Body : Type) where
  | full (bytes : Bytes)
  | boxed (body : Body)
deriving DecidableEq, Repr

abbrev Answer (Body : Type) := Response (BoxBody Body)

/-- A call of `http`: the address and the request that it gets, and what the network does
during it.
-/
structure Call (Body : Type) where
  addr : SocketAddr
  req : Request Bytes
  attempt : Attempt Body

/-- What came of a request: the counter `N` afterwards, the calls of `http` in order, and the
result, unless the call is still waiting for an attempt.
-/
structure Handled (Body : Type) where
  n : UInt64
  calls : List (Call Body)
  result : Option (Except Failure (Answer Body))

variable {Body : Type}

/-- The sends and the result of a call. -/
def Call.made (call : Call Body)
    : List (Sent Body) × Except PooledFetch.Error (Response Body) :=
  http call.attempt call.addr call.req

/-- The sends to upstreams, in order. -/
def Handled.sent (handled : Handled Body) : List (Sent Body) :=
  handled.calls.flatMap fun call => call.made.1

/-- An answer of the proxy itself, with the fields that are valid. -/
def response (status : Nat) (fields : List (HeaderName × Bytes)) (body : Bytes)
    : Except Failure (Answer Body) :=
  match fields.mapM (fun field => (HeaderValue.fromBytes field.2).map (field.1, ·)) with
  | some headers => .ok { status, headers, body := .full body }
  | none => .error (.err (.http "failed to parse header value"))

/-- The loop of `_proxy`, over the attempts that the network has decided so far. The counter
of retries is compared after it has been incremented, which may wrap.
-/
def retryLoop (upstream : Upstream) (req : Request Bytes)
    : List (Attempt Body) → (pos : Nat) → (retry : UInt64)
      → List (Call Body) × Option (Except Failure (Answer Body))
  | [], _, _ => ([], none)
  | attempt :: later, pos, retry =>
      match upstream.addrLi[pos]? with
      | none => ([], some (.error .panic))
      | some upstreamAddr =>
          let call : Call Body := { addr := upstreamAddr, req, attempt }
          match call.made.2 with
          | .ok res => ([call], some (.ok { res with body := .boxed res.body }))
          | .error err =>
              let retry := retry + 1
              if retry > upstream.maxRetry then
                ([call], some (.error (.err (.pooledFetch err))))
              else
                let (more, result) :=
                  retryLoop upstream req later ((pos + 1) % upstream.addrLi.length) retry
                (call :: more, result)

/-- The head that is sent to an upstream that speaks HTTP/1.1. -/
def forwardParts (protocol : Protocol) (parts : Parts) : Parts :=
  match protocol with
  | .h1 =>
      { parts with
        version := .http11
        headers := HeaderMap.insert parts.headers "connection" (bytesOf "keep-alive") }

/-- `_proxy`. `collected` is what collecting the body of the request gives, and `n` is the
counter `N`, which every forwarded request increments.
-/
def proxyInner (subHost : String → Option String) (route : Route) (n : UInt64)
    (host pathAndQuery : String) (parts : Parts) (collected : Except Error Bytes)
    (attempts : List (Attempt Body)) : Handled Body :=
  match route.confByHost host with
  | some siteConf =>
      let upstream := siteConf.upstream.val
      let len := upstream.addrLi.length
      if len = 0 then
        { n, calls := [], result := some (.error (.err .upstreamNotFound)) }
      else
        match collected with
        | .error err => { n, calls := [], result := some (.error (.err err)) }
        | .ok body =>
            let req := { parts := forwardParts upstream.protocol parts, body }
            let n := n + 1
            let (calls, result) := retryLoop upstream req attempts (n.toNat % len) 0
            { n, calls, result }
  | none =>
      let result :=
        match subHost host with
        | some sub =>
            if (route.confByHost sub).isSome then
              response 301 [("location", bytesOf ("https://" ++ sub ++ pathAndQuery))] []
            else response 404 [] (bytesOf "404: Not Found")
        | none => response 404 [] (bytesOf "404: Not Found")
      { n, calls := [], result := some result }

/-- What a result of `_proxy` is answered with: an error by its text. -/
def answer : Except Failure (Answer Body) → Except Failure (Answer Body)
  | .ok res => .ok res
  | .error (.err err) =>
      match response 500 [] (bytesOf err.display) with
      | .ok res => .ok res
      | .error _ => .ok { status := 200, headers := [], body := .full [] }
  | .error .panic => .error .panic

/-- `proxy`: the request goes to `_proxy` under the host that it is for. -/
def proxy (subHost : String → Option String) (route : Route) (n : UInt64) (req : Parts)
    (collected : Except Error Bytes) (attempts : List (Attempt Body)) : Handled Body :=
  let host := reqHost req
  let path := req.uri.pathAndQuery.getD ""
  let handled := proxyInner subHost route n host path req collected attempts
  { handled with result := handled.result.map answer }

end Gway.Proxy
