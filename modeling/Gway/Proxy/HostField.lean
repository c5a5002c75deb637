import Gway.Decision
import Gway.Proxy.Calls

/-! Whether a forwarded request names its host. The head is passed on as the client sent it,
except for the version and the connection, and clients of HTTP/2 and HTTP/3 name the host in
the URI.
-/

namespace Gway.Proxy

open PooledFetch

variable {Body : Type}

/-- The request has exactly one Host field, whose value is the host. -/
def NamesHost (req : Request Bytes) (host : String) : Prop :=
  HeaderMap.getAll req.parts.headers "host" = [bytesOf host]

/-- The client sent exactly one Host field, with a value that can be read. -/
def OneHost (req : Parts) : Prop :=
  ∃ value,
    HeaderMap.getAll req.headers "host" = [value]
    ∧ (HeaderValue.toStr value).isSome = true

/-- The head that is sent has the Host fields of the client. -/
theorem forwardParts_host (protocol : Protocol) (req : Parts)
    : HeaderMap.getAll (forwardParts protocol req).headers "host"
      = HeaderMap.getAll req.headers "host" := by
  cases protocol with
  | h1 => exact HeaderMap.getAll_insert (by decide)

/-- The Host fields of the client name the host of the request exactly if there is one that
can be read: without any the host is taken from the URI, and one that cannot be read is not
the empty text that it is read as.
-/
theorem getAll_reqHost_iff {req : Parts}
    : HeaderMap.getAll req.headers "host" = [bytesOf (reqHost req)] ↔ OneHost req := by
  unfold OneHost
  cases fields : HeaderMap.getAll req.headers "host" with
  | nil => simp
  | cons value more =>
      have first : HeaderMap.get req.headers "host" = some value := by
        rw [HeaderMap.get, fields]
        rfl
      cases read : HeaderValue.toStr value with
      | some text =>
          rw [reqHost_of_field first read, HeaderValue.bytesOf_toStr read]
          constructor
          · intro same
            exact ⟨value, same, by rw [read]; rfl⟩
          · intro ⟨other, same, _⟩
            rw [(List.cons.inj same).1, (List.cons.inj same).2]
      | none =>
          rw [reqHost_of_unreadable first read]
          constructor
          · intro same
            rw [(List.cons.inj same).1] at read
            cases read
          · intro ⟨other, same, visible⟩
            rw [← (List.cons.inj same).1, read] at visible
            cases visible

/-- The loop gets a request: there is a server to send it to and a body. -/
def Handed (route : Route) (req : Parts) (collected : Except Error Bytes) : Prop :=
  ∃ siteConf body,
    route.confByHost (reqHost req) = some siteConf
    ∧ siteConf.upstream.val.addrLi ≠ []
    ∧ collected = .ok body

variable {subHost : String → Option String} {route : Route} {n : UInt64} {req : Parts}
  {collected : Except Error Bytes}

/-- `http` gets only a request that is handed to the loop, with the client's Host fields. -/
theorem proxy_calls {attempts : List (Attempt Body)} {call : Call Body}
    (member : call ∈ (proxy subHost route n req collected attempts).calls)
    : Handed route req collected
      ∧ HeaderMap.getAll call.req.parts.headers "host"
        = HeaderMap.getAll req.headers "host" := by
  obtain ⟨siteConf, body, found, nonempty, read, given⟩ := mem_calls member
  refine ⟨⟨siteConf, body, found, nonempty, read⟩, ?_⟩
  rw [given]
  exact forwardParts_host siteConf.upstream.val.protocol req

/-- For every table, every request and every body, all requests that are given to `http` for it
name the host by which it was routed, on the first attempt and on every other, exactly if the
client sent one readable Host field or no request can be given to `http` at all.
-/
theorem proxy_namesHost_iff (Body : Type) (subHost : String → Option String) (route : Route)
    (req : Parts) (collected : Except Error Bytes)
    : (∀ n, ∀ attempts : List (Attempt Body),
        ∀ call ∈ (proxy subHost route n req collected attempts).calls,
          NamesHost call.req (reqHost req))
      ↔ (Handed route req collected → OneHost req) := by
  constructor
  · rintro named ⟨siteConf, body, found, nonempty, read⟩
    obtain ⟨attempts, call, member, -⟩ :=
      @exists_mem_calls Body subHost _ 0 _ (req.uri.pathAndQuery.getD "") req _ _ _ found
        nonempty read
    have value := named 0 attempts call member
    rw [NamesHost, (proxy_calls member).2] at value
    exact getAll_reqHost_iff.mp value
  · intro one n attempts call member
    obtain ⟨handed, fields⟩ := proxy_calls member
    rw [NamesHost, fields]
    exact getAll_reqHost_iff.mpr (one handed)

/-- A request of HTTP/2 that names its host in the URI only. -/
def pageRequest : Parts where
  method := .get
  uri :=
    {
      scheme := some "https"
      authority := some { host := "example.com", port := none }
      pathAndQuery := some "/"
    }
  version := .http2
  headers := []

def pageHandled : Handled Bytes :=
  proxy (fun _ => none) (Route.single "example.com" localServer) 0 pageRequest (.ok [])
    [
      {
        cached := none
        opened := .ok ()
        fresh := .ok { status := 200, headers := [], body := [] }
      }
    ]

/-- The request is sent as one of HTTP/1.1 without a Host field. Witness: the sends by
evaluation.
-/
theorem pageRequest_unnamed
    : reqHost pageRequest = "example.com"
      ∧ pageHandled.sent.map
          (fun sent => (sent.addr, sent.req.parts.version, sent.req.parts.headers))
        = [(localUpstream, .http11, [("connection", bytesOf "keep-alive")])]
      ∧ ∃ call ∈ pageHandled.calls, ¬ NamesHost call.req (reqHost pageRequest) := by
  refine ⟨rfl, rfl, _, List.mem_singleton.mpr rfl, ?_⟩
  intro named
  cases named

end Gway.Proxy
