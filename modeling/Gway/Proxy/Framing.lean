import Gway.Decision
import Gway.HopByHop
import Gway.Proxy.Calls

/-! How a forwarded request is framed. Its body is collected and sent as one buffer, while the
head that describes the client's framing is passed on as it is, except for the version and the
Connection field.
-/

namespace Gway.Proxy

open PooledFetch

variable {Body : Type}

/-- The fields of requests that are meant for one connection, besides Connection itself. -/
def hopByHop : List HeaderName :=
  ["keep-alive", "proxy-connection", "te", "transfer-encoding", "upgrade"]

/-- The request has no field that the client sent for its own connection, and a length that it
gives is that of its body. The Connection field of the request is the proxy's own.
-/
structure WellFramed (client : Parts) (req : Request Bytes) : Prop where
  endToEnd
    : ∀ field ∈ req.parts.headers,
        field.1 ≠ "connection"
        → field.1 ∉ hopByHop ∧ ¬ client.headers.Nominates field.1
  length
    : HeaderMap.getAll req.parts.headers "content-length" ≠ []
      → ∃ value,
          HeaderMap.getAll req.parts.headers "content-length" = [value]
          ∧ decimal value = some req.body.length

/-- The client sent no field for its own connection, apart from Connection, and gave no length
or once that of the body which it sent.
-/
structure PlainlyFramed (client : Parts) (body : Bytes) : Prop where
  absent : ∀ name ∈ hopByHop, HeaderMap.getAll client.headers name = []
  unnamed
    : ∀ field ∈ client.headers,
        client.headers.Nominates field.1 → field.1 = "connection"
  length
    : HeaderMap.getAll client.headers "content-length" = []
      ∨ ∃ value,
          HeaderMap.getAll client.headers "content-length" = [value]
          ∧ decimal value = some body.length

/-- The head that is sent has the fields of the client, with a Connection field of its own. -/
theorem mem_forwardParts {protocol : Protocol} {client : Parts}
    {field : HeaderName × HeaderValue}
    : field ∈ (forwardParts protocol client).headers
      ↔ field ∈ client.headers ∧ field.1 ≠ "connection"
        ∨ field = ("connection", bytesOf "keep-alive") := by
  cases protocol with
  | h1 => exact HeaderMap.mem_insert

theorem forwardParts_length (protocol : Protocol) (client : Parts)
    : HeaderMap.getAll (forwardParts protocol client).headers "content-length"
      = HeaderMap.getAll client.headers "content-length" := by
  cases protocol with
  | h1 => exact HeaderMap.getAll_insert (by decide)

/-- A request that is forwarded is well framed exactly if the client's was plainly framed. -/
theorem wellFramed_iff {protocol : Protocol} {client : Parts} {body : Bytes}
    : WellFramed client { parts := forwardParts protocol client, body }
      ↔ PlainlyFramed client body := by
  constructor
  · intro framed
    constructor
    case absent =>
      intro name hop
      refine List.eq_nil_iff_forall_not_mem.mpr fun value member => ?_
      have apart : name ≠ "connection" := by
        rintro rfl
        exact absurd hop (by decide)
      have sent : (name, value) ∈ (forwardParts protocol client).headers :=
        mem_forwardParts.mpr (Or.inl ⟨HeaderMap.mem_getAll.mp member, apart⟩)
      exact (framed.endToEnd _ sent apart).1 hop
    case unnamed =>
      intro field member nominated
      by_contra apart
      have sent : field ∈ (forwardParts protocol client).headers :=
        mem_forwardParts.mpr (Or.inl ⟨member, apart⟩)
      exact (framed.endToEnd _ sent apart).2 nominated
    case length =>
      have given := framed.length
      rw [forwardParts_length] at given
      exact or_iff_not_imp_left.mpr given
  · intro plain
    constructor
    case endToEnd =>
      intro field member apart
      have sent : field ∈ (forwardParts protocol client).headers := member
      rcases mem_forwardParts.mp sent with ⟨own, -⟩ | same
      · refine ⟨fun hop => ?_, fun nominated => apart (plain.unnamed field own nominated)⟩
        have value : field.2 ∈ HeaderMap.getAll client.headers field.1 :=
          HeaderMap.mem_getAll.mpr own
        rw [plain.absent field.1 hop] at value
        cases value
      · exact absurd (congrArg Prod.fst same) apart
    case length =>
      rw [forwardParts_length]
      exact or_iff_not_imp_left.mp plain.length

/-- For every table, every head and every body, all requests given to `http` for it are well
framed, on the first attempt and on every other, exactly if the client framed it plainly or
nothing can be sent at all.
-/
theorem proxyInner_wellFramed_iff (Body : Type) (subHost : String → Option String)
    (route : Route) (host pathAndQuery : String) (client : Parts)
    (collected : Except Error Bytes)
    : (∀ n, ∀ attempts : List (Attempt Body),
        ∀ call ∈ (proxyInner subHost route n host pathAndQuery client collected attempts).calls,
          WellFramed client call.req)
      ↔ ∀ siteConf body,
          route.confByHost host = some siteConf
          → siteConf.upstream.val.addrLi ≠ []
          → collected = .ok body
          → PlainlyFramed client body := by
  constructor
  · intro framed siteConf body found nonempty read
    obtain ⟨attempts, call, member, -⟩ :=
      @exists_mem_calls Body subHost _ 0 _ pathAndQuery client _ _ _ found nonempty read
    obtain ⟨otherConf, otherBody, also, -, same, given⟩ := mem_calls member
    obtain rfl := Option.some.inj (also.symm.trans found)
    obtain rfl := Except.ok.inj (same.symm.trans read)
    have sent := framed 0 attempts call member
    rw [given] at sent
    exact wellFramed_iff.mp sent
  · intro plain n attempts call member
    obtain ⟨siteConf, body, found, nonempty, read, given⟩ := mem_calls member
    rw [given]
    exact wellFramed_iff.mpr (plain siteConf body found nonempty read)

/-- An upload over HTTP/3 that asks for trailers and gives a length of ten bytes. -/
def upload : Parts where
  method := .post
  uri :=
    {
      scheme := some "https"
      authority := some { host := "example.com", port := none }
      pathAndQuery := some "/"
    }
  version := .http3
  headers := [("te", bytesOf "trailers"), ("content-length", bytesOf "10")]

/-- The calls for the upload when its stream ends after five bytes. -/
def uploadCalls : List (Call Bytes) :=
  (proxyInner (fun _ => none) (Route.single "example.com" localServer) 0 "example.com" "/"
      upload (.ok (bytesOf "hello"))
      [
        {
          cached := none
          opened := .ok ()
          fresh := .ok { status := 200, headers := [], body := [] }
        }
      ]).calls

/-- The request that is given to `http` asks for trailers and promises ten bytes, but has
five. Witness: the calls by evaluation.
-/
theorem uploadCalls_misframed
    : uploadCalls.map (fun call => (call.req.parts.headers, call.req.body.length))
        = [
            ([("te", bytesOf "trailers"), ("content-length", bytesOf "10"),
              ("connection", bytesOf "keep-alive")], 5)
          ]
      ∧ ∃ call ∈ uploadCalls, ¬ WellFramed upload call.req := by
  refine ⟨rfl, _, List.mem_singleton.mpr rfl, fun framed => ?_⟩
  have kept := framed.endToEnd ("te", bytesOf "trailers") (by decide) (by decide)
  exact absurd kept.1 (by decide)

end Gway.Proxy
