import Gway.HopByHop
import Gway.Srv.Download

/-! The head and the trailers of a response that is relayed to an HTTP/3 stream. The head is
passed on as the upstream sent it, and the trailers are dropped.
-/

namespace Gway.H3

/-- The fields that HTTP/3 forbids, as they are about an HTTP/1.1 connection. -/
def connectionSpecific : List HeaderName :=
  ["connection", "keep-alive", "proxy-connection", "transfer-encoding", "upgrade"]

/-- The fields of a response that are not about the connection to the upstream. -/
def endToEnd (headers : HeaderMap) : HeaderMap :=
  headers.filter fun field => field.1 ∉ connectionSpecific ∧ ¬ headers.Nominates field.1

/-- The trailers of a body, in order. -/
def trailerFrames (body : UpstreamBody) : List HeaderMap :=
  body.items.filterMap Frame.trailersRef

/-- The operations that send a part of a body. -/
def Op.sendsBody : Op → Bool
  | sendData _ => true
  | sendTrailers _ => true
  | _ => false

/-- The head has the status and the end-to-end fields of the response. If nothing fails, the
trailers are sent after all data.
-/
structure MetadataRelayed (outcome : Nat → Except Error Unit) (status : Nat)
    (headers : HeaderMap) (body : UpstreamBody) (ops : List Op) : Prop where
  head : ops.head? = some (.sendResponse status (endToEnd headers))
  trailers
    : body.outcome = .ok ()
      → (∀ i < ops.length, outcome i = .ok ())
      → ops.filter Op.sendsBody
        = (dataFrames body).map .sendData ++ (trailerFrames body).map .sendTrailers

variable {headers : HeaderMap}

/-- All fields are end-to-end exactly if there is none that HTTP/3 forbids: without a Connection
field none is named by one.
-/
theorem endToEnd_eq_self
    : endToEnd headers = headers
      ↔ ∀ name ∈ connectionSpecific, HeaderMap.getAll headers name = [] := by
  rw [endToEnd, List.filter_eq_self]
  simp only [decide_eq_true_eq]
  constructor
  · intro kept name specific
    refine List.eq_nil_iff_forall_not_mem.mpr fun value member => ?_
    exact (kept _ (HeaderMap.mem_getAll.mp member)).1 specific
  · intro absent field member
    refine ⟨fun specific => ?_, HeaderMap.not_nominates (absent "connection" (by decide))⟩
    have value : field.2 ∈ HeaderMap.getAll headers field.1 := HeaderMap.mem_getAll.mpr member
    rw [absent field.1 specific] at value
    cases value

/-- Of a body that is sent as a whole the data is sent. -/
theorem sendsBody_bodyOps (body : UpstreamBody)
    : (bodyOps body).filter Op.sendsBody = (dataFrames body).map .sendData := by
  have last : (lastOps body).filter Op.sendsBody = [] := by
    unfold lastOps
    split <;> rfl
  rw [bodyOps, List.filter_append, last, List.append_nil, List.filter_eq_self]
  intro op member
  obtain ⟨bytes, -, rfl⟩ := List.mem_map.mp member
  rfl

/-- If no operation fails, those for the whole answer are performed. -/
theorem sendAnswer_of_succeeded {outcome : Nat → Except Error Unit}
    {resp : Proxy.Answer UpstreamBody}
    (succeeded : ∀ i < (sendAnswer outcome resp).1.length, outcome i = .ok ())
    : (sendAnswer outcome resp).1 = headOp resp :: bodyOps (frames resp.body) := by
  rw [sendAnswer_eq] at succeeded ⊢
  refine performAll_fst_of_ok (performAll_snd_of_performed fun i inside => ?_)
  rw [Nat.zero_add]
  exact succeeded i inside

/-- For every response of an upstream that is relayed, its metadata is relayed whatever becomes
of the stream exactly if the head has no field that HTTP/3 forbids, and the body, if it ends
without an error, has no trailers.
-/
theorem handleReq_metadataRelayed_iff {subHost : String → Option String} {route : Route}
    {n : UInt64} {req : Parts} {stream : Polled Buf String}
    {attempts : List (PooledFetch.Attempt UpstreamBody)} {status : Nat} {body : UpstreamBody}
    (relayed
      : (Proxy.proxy subHost route n req (collect [] (H3Body.pollFrame stream))
            attempts).result
        = some (.ok { status, headers, body := .boxed body }))
    : (∀ outcome,
        MetadataRelayed outcome status headers body
          (handleReq subHost route n req stream attempts outcome).ops)
      ↔ (∀ name ∈ connectionSpecific, HeaderMap.getAll headers name = [])
        ∧ (body.outcome = .ok () → trailerFrames body = []) := by
  let resp : Proxy.Answer UpstreamBody := { status, headers, body := .boxed body }
  have ops (outcome : Nat → Except Error Unit)
      : (handleReq subHost route n req stream attempts outcome).ops
        = answerOps outcome resp := by
    simp only [handleReq, relayed, resp, answerOps]
  have first (outcome : Nat → Except Error Unit)
      : (answerOps outcome resp).head? = some (headOp resp) := by
    obtain ⟨later, head, -⟩ := answerOps_head outcome resp
    exact List.head?_eq_some_iff.mpr ⟨later, head⟩
  have sent {outcome : Nat → Except Error Unit}
      (succeeded : ∀ i < (answerOps outcome resp).length, outcome i = .ok ())
      : (answerOps outcome resp).filter Op.sendsBody = (dataFrames body).map .sendData := by
    have performed := sendAnswer_of_succeeded fun i inside =>
      succeeded i (inside.trans_le (List.sublist_append_left _ _).length_le)
    rw [answerOps, List.filter_append, performed, List.filter_cons_of_neg Bool.false_ne_true]
    exact (List.append_nil _).trans (sendsBody_bodyOps body)
  simp only [ops, ← endToEnd_eq_self]
  constructor
  · intro metadata
    have own := metadata fun _ => .ok ()
    constructor
    · have head := own.head.symm.trans (first _)
      exact (Op.sendResponse.inj (Option.some.inj head)).2
    · intro ended
      have both := (own.trailers ended fun _ _ => rfl).symm.trans (sent fun _ _ => rfl)
      exact List.map_eq_nil_iff.mp (List.append_right_eq_self.mp both)
  · rintro ⟨plain, untrailed⟩ outcome
    constructor
    case head =>
      rw [plain]
      exact first outcome
    case trailers =>
      intro ended succeeded
      rw [sent succeeded, untrailed ended, List.map_nil, List.append_nil]

/-- What `handle_req` does for a page with a head and a body of the upstream's choice. -/
def pageFrom (headers : HeaderMap) (body : UpstreamBody) : Handling :=
  handleReq (fun _ => none) (Route.single "example.com" localServer) 0 page .ended
    [{ cached := none, opened := .ok (), fresh := .ok { status := 200, headers, body } }]
    fun _ => .ok ()

/-- A body without trailers under a head of end-to-end fields. -/
theorem handleReq_metadataRelayed_plain
    : MetadataRelayed (fun _ => .ok ()) 200 [("content-type", bytesOf "text/plain")]
        (.ready (.data (bytesOf "hi")) .ended)
        (pageFrom [("content-type", bytesOf "text/plain")]
          (.ready (.data (bytesOf "hi")) .ended)).ops :=
  (handleReq_metadataRelayed_iff (by rfl)).mpr (by decide) _

/-- A chunked body with trailers. -/
def chunked : UpstreamBody :=
  .ready (.data (bytesOf "hi"))
    (.ready (.trailers [("x-checksum", bytesOf "7")]) .ended)

/-- Its Transfer-Encoding is written to the stream and its trailers are not. Witness: the call
by evaluation.
-/
theorem handleReq_metadata_chunked
    : (pageFrom [("transfer-encoding", bytesOf "chunked")] chunked).ops
        = [.sendResponse 200 [("transfer-encoding", bytesOf "chunked")],
            .sendData (bytesOf "hi"), .finish, .drop]
      ∧ ¬ MetadataRelayed (fun _ => .ok ()) 200 [("transfer-encoding", bytesOf "chunked")]
            chunked (pageFrom [("transfer-encoding", bytesOf "chunked")] chunked).ops
      ∧ ¬ MetadataRelayed (fun _ => .ok ()) 200 [] chunked (pageFrom [] chunked).ops := by
  refine ⟨rfl, fun metadata => ?_, fun metadata => ?_⟩
  · exact absurd metadata.head (by decide)
  · exact absurd (metadata.trailers rfl fun _ _ => rfl) (by decide)

end Gway.H3
