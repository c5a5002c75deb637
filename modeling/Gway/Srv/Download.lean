import Gway.Decision
import Gway.Srv.H3

/-! What is written to an HTTP/3 stream. The operations for an answer are those of a plan, which
are performed in order until one of them fails, and then the stream is dropped.
-/

namespace Gway.H3

/-- The data of the frames of a body, in order. -/
def dataFrames (body : UpstreamBody) : List Bytes :=
  body.items.filterMap Frame.dataRef

def Op.dataRef : Op → Option Bytes
  | sendData bytes => some bytes
  | _ => none

/-- The data that the operations send, in order. -/
def dataSent (ops : List Op) : List Bytes :=
  ops.filterMap Op.dataRef

/-- The operation for the head. -/
def headOp (resp : Proxy.Answer UpstreamBody) : Op :=
  .sendResponse resp.status resp.headers

/-- The stream is finished after a body without an error. -/
def lastOps (body : UpstreamBody) : List Op :=
  match body.outcome with
  | .ok () => [.finish]
  | .error _ => []

/-- The operations for a body if none of them fails. -/
def bodyOps (body : UpstreamBody) : List Op :=
  (dataFrames body).map .sendData ++ lastOps body

/-- The result of operations for a body: an error of its own comes after them. -/
def bodyResult (body : UpstreamBody) : Except Error Unit → Except Error Unit
  | .ok () => body.outcome.mapError .hyper
  | .error err => .error err

/-- The head and all data of the answer have been sent without an error. -/
def AllSent (outcome : Nat → Except Error Unit) (resp : Proxy.Answer UpstreamBody) : Prop :=
  ∀ i ≤ (dataFrames (frames resp.body)).length, outcome i = .ok ()

/-- The number of the last operation before the drop where the answer is broken off: it fails, or
it is the last of the data and the body fails after it.
-/
def BrokenOffAt (outcome : Nat → Except Error Unit) (resp : Proxy.Answer UpstreamBody)
    (last : Nat) : Prop :=
  last ≤ (dataFrames (frames resp.body)).length
  ∧ (∀ i < last, outcome i = .ok ())
  ∧ (outcome last ≠ .ok ()
    ∨ last = (dataFrames (frames resp.body)).length ∧ (frames resp.body).outcome ≠ .ok ())

/-- One of the operations has finished the stream. -/
def Finished (outcome : Nat → Except Error Unit) (ops : List Op) : Prop :=
  ∃ i op, ops[i]? = some op ∧ op.finishes = true ∧ outcome i = .ok ()

/-- The head is sent once and first, then the first of the data frames. `finish` is called
exactly if everything has been sent and the body has ended without an error. Otherwise the
result is an error and the stream is not finished in another way either.
-/
structure BodyProtocol (outcome : Nat → Except Error Unit) (resp : Proxy.Answer UpstreamBody)
    (ops : List Op) (result : Except Failure Unit) : Prop where
  head
    : ∃ later,
        ops = headOp resp :: later
        ∧ ∀ status headers, .sendResponse status headers ∉ later
  data : dataSent ops <+: dataFrames (frames resp.body)
  bytes : (dataSent ops).flatten <+: (dataFrames (frames resp.body)).flatten
  finish
    : .finish ∈ ops ↔ AllSent outcome resp ∧ (frames resp.body).outcome = .ok ()
  whole
    : .finish ∈ ops
      → ops = headOp resp :: (dataFrames (frames resp.body)).map .sendData ++ [.finish, .drop]
  otherwise : .finish ∉ ops → (∃ failure, result = .error failure) ∧ ¬ Finished outcome ops

variable {outcome : Nat → Except Error Unit} {resp : Proxy.Answer UpstreamBody}
  {body : UpstreamBody}

/-- The loop performs the operations for the body in order until one fails, by induction on
what the body answers.
-/
theorem sendFrames_eq (outcome : Nat → Except Error Unit) (ops : List Op)
    (body : UpstreamBody)
    : sendFrames outcome ops body
      = let (performed, result) := performAll outcome ops.length (bodyOps body)
        (ops ++ performed, bodyResult body result) := by
  induction body generalizing ops with
  | pending later ih => exact ih ops
  | ready frame later ih =>
      cases frame with
      | trailers headers => exact ih ops
      | data bytes =>
          have plan : bodyOps (.ready (.data bytes) later) = .sendData bytes :: bodyOps later :=
            rfl
          simp only [sendFrames, Frame.dataRef, plan, performAll]
          cases outcome ops.length with
          | error err => rfl
          | ok _ =>
              simp only [ih, List.length_append, List.length_singleton, List.append_assoc]
              rfl
  | ended =>
      simp only [sendFrames, bodyOps, lastOps, dataFrames, Polled.items, Polled.outcome]
      cases own : outcome ops.length <;> simp [performAll, own, bodyResult, Polled.outcome,
        Except.mapError]
  | failed err => simp [sendFrames, bodyOps, lastOps, dataFrames, Polled.items, Polled.outcome,
      performAll, bodyResult, Except.mapError]

/-- So are the operations for the answer. -/
theorem sendAnswer_eq (outcome : Nat → Except Error Unit) (resp : Proxy.Answer UpstreamBody)
    : sendAnswer outcome resp
      = let (performed, result) :=
          performAll outcome 0 (headOp resp :: bodyOps (frames resp.body))
        (performed, bodyResult (frames resp.body) result) := by
  unfold sendAnswer
  simp only [performAll]
  cases outcome 0 with
  | error err => rfl
  | ok _ =>
      simp only [sendFrames_eq, List.length_singleton]
      rfl

/-- The operations for an answer are those of the plan, up to one that fails. -/
theorem sendAnswer_prefix (outcome : Nat → Except Error Unit)
    (resp : Proxy.Answer UpstreamBody)
    : (sendAnswer outcome resp).1 <+: headOp resp :: bodyOps (frames resp.body) := by
  rw [sendAnswer_eq]
  exact performAll_prefix _

theorem sendAnswer_head? (outcome : Nat → Except Error Unit)
    (resp : Proxy.Answer UpstreamBody)
    : (sendAnswer outcome resp).1.head? = some (headOp resp) := by
  rw [sendAnswer_eq]
  exact head?_performAll _

theorem mem_bodyOps {op : Op}
    : op ∈ bodyOps body
      ↔ (∃ bytes ∈ dataFrames body, .sendData bytes = op)
        ∨ body.outcome = .ok () ∧ op = .finish := by
  rw [bodyOps, List.mem_append, List.mem_map, lastOps]
  cases body.outcome <;> simp

/-- The operations for a body send the data of its frames. -/
theorem dataSent_bodyOps (body : UpstreamBody) : dataSent (bodyOps body) = dataFrames body := by
  have data (list : List Bytes) : dataSent (list.map .sendData) = list := by
    rw [dataSent, List.filterMap_map]
    exact List.filterMap_some
  have last : dataSent (lastOps body) = [] := by
    unfold lastOps
    split <;> rfl
  rw [bodyOps, dataSent, List.filterMap_append]
  exact (congrArg₂ (· ++ ·) (data _) last).trans (List.append_nil _)

/-- The operations for an answer up to its last data. -/
def contentOps (resp : Proxy.Answer UpstreamBody) : List Op :=
  headOp resp :: (dataFrames (frames resp.body)).map .sendData

theorem length_contentOps
    : (contentOps resp).length = (dataFrames (frames resp.body)).length + 1 := by
  simp [contentOps]

/-- None of them finishes the stream. -/
theorem finishes_contentOps {op : Op} (member : op ∈ contentOps resp) : op.finishes = false := by
  rcases List.mem_cons.mp member with rfl | member
  · rfl
  · obtain ⟨bytes, -, rfl⟩ := List.mem_map.mp member
    rfl

/-- An answer that is sent as a whole is not broken off anywhere. -/
theorem not_brokenOffAt {last : Nat} (sent : AllSent outcome resp)
    (ended : (frames resp.body).outcome = .ok ())
    : ¬ BrokenOffAt outcome resp last := by
  rintro ⟨inside, -, failed | ⟨-, failed⟩⟩
  · exact failed (sent last inside)
  · exact failed ended

/-- An answer is broken off at one place at most. -/
theorem BrokenOffAt.le {last other : Nat} (broken : BrokenOffAt outcome resp last)
    (also : BrokenOffAt outcome resp other)
    : other ≤ last := by
  by_contra later
  rcases broken.2.2 with failed | ⟨whole, -⟩
  · exact failed (also.2.1 last (Nat.lt_of_not_le later))
  · have inside := also.1
    omega

/-- Either everything has been sent, and `finish` is called after a body without an error, or the
answer is broken off after an operation for its head or data and the result is an error.
Witness: the part of the plan before its end succeeds or does not.
-/
theorem sendAnswer_cases (outcome : Nat → Except Error Unit)
    (resp : Proxy.Answer UpstreamBody)
    : AllSent outcome resp
        ∧ (frames resp.body).outcome = .ok ()
        ∧ (sendAnswer outcome resp).1 = contentOps resp ++ [.finish]
      ∨ ∃ last error,
          BrokenOffAt outcome resp last
          ∧ (sendAnswer outcome resp).1 <+: contentOps resp
          ∧ (sendAnswer outcome resp).1.length = last + 1
          ∧ (sendAnswer outcome resp).2 = .error error := by
  have plan
      : headOp resp :: bodyOps (frames resp.body)
        = contentOps resp ++ lastOps (frames resp.body) :=
    rfl
  have all_sent
      : (performAll outcome 0 (contentOps resp)).2 = .ok () ↔ AllSent outcome resp := by
    simp only [performAll_eq_ok, length_contentOps, Nat.zero_add, AllSent, Nat.lt_succ_iff]
  have kept : (performAll outcome 0 (contentOps resp)).1 <+: contentOps resp :=
    performAll_prefix _
  rw [sendAnswer_eq, plan, performAll_append]
  cases succeeded : (performAll outcome 0 (contentOps resp)).2 with
  | error err =>
      obtain ⟨last, inside, length, failed, before⟩ := performAll_of_error succeeded
      simp only [Nat.zero_add, length_contentOps, Nat.lt_succ_iff] at inside failed before
      have broken : BrokenOffAt outcome resp last :=
        ⟨inside, before, Or.inl (by simp [failed])⟩
      rcases performed : performAll outcome 0 (contentOps resp) with ⟨ops, result⟩
      rw [performed] at succeeded length kept
      obtain rfl : result = .error err := succeeded
      exact Or.inr ⟨last, err, broken, kept, length, rfl⟩
  | ok _ =>
      have whole := performAll_fst_of_ok succeeded
      have sent := all_sent.mp succeeded
      rcases performed : performAll outcome 0 (contentOps resp) with ⟨ops, result⟩
      rw [performed] at succeeded whole
      obtain rfl : result = .ok () := succeeded
      obtain rfl : ops = contentOps resp := whole
      cases ending : (frames resp.body).outcome with
      | ok _ =>
          refine Or.inl ⟨sent, rfl, ?_⟩
          simp only [lastOps, ending, performAll]
          cases outcome (0 + (contentOps resp).length) <;> rfl
      | error err =>
          have broken : BrokenOffAt outcome resp (dataFrames (frames resp.body)).length :=
            ⟨Nat.le_refl _, fun i earlier => sent i (Nat.le_of_lt earlier),
              Or.inr ⟨rfl, by simp [ending]⟩⟩
          refine Or.inr ⟨_, .hyper err, broken, ?_, ?_, ?_⟩
          · simp [lastOps, ending, performAll]
          · simp [lastOps, ending, performAll, length_contentOps]
          · simp [lastOps, ending, performAll, bodyResult, Except.mapError]

/-- Where the answer is broken off, the drop alone can finish the stream. -/
theorem finished_drop_iff {ops : List Op} (inside : ops <+: contentOps resp)
    : Finished outcome (ops ++ [.drop]) ↔ outcome ops.length = .ok () := by
  constructor
  · rintro ⟨i, op, at_, finishes, succeeded⟩
    rcases Nat.lt_or_ge i ops.length with before | after
    · rw [List.getElem?_append_left before] at at_
      have plain := finishes_contentOps (inside.subset (List.mem_of_getElem? at_))
      simp [plain] at finishes
    · have last : i < (ops ++ [Op.drop]).length := (List.getElem?_eq_some_iff.mp at_).1
      obtain rfl : i = ops.length := by
        simp at last
        omega
      exact succeeded
  · exact fun succeeded => ⟨ops.length, .drop, by simp, rfl, succeeded⟩

/-- The operations for an answer and the drop after them. -/
def answerOps (outcome : Nat → Except Error Unit) (resp : Proxy.Answer UpstreamBody) : List Op :=
  (sendAnswer outcome resp).1 ++ [.drop]

/-- The head is sent first, and what comes after it sends no other head. -/
theorem answerOps_head (outcome : Nat → Except Error Unit) (resp : Proxy.Answer UpstreamBody)
    : ∃ later,
        answerOps outcome resp = headOp resp :: later
        ∧ ∀ status headers, .sendResponse status headers ∉ later := by
  obtain ⟨later, ops⟩ := List.head?_eq_some_iff.mp (sendAnswer_head? outcome resp)
  refine ⟨later ++ [.drop], by rw [answerOps, ops, List.cons_append], ?_⟩
  intro status headers member
  have inPlan := sendAnswer_prefix outcome resp
  rw [ops] at inPlan
  have inBody := ((List.prefix_cons_inj _).mp inPlan).subset (by simpa using member)
  rcases mem_bodyOps.mp inBody with ⟨bytes, -, same⟩ | ⟨-, same⟩
  · cases same
  · cases same

/-- The first of the data frames are sent, in order. -/
theorem dataSent_answerOps (outcome : Nat → Except Error Unit)
    (resp : Proxy.Answer UpstreamBody)
    : dataSent (answerOps outcome resp) <+: dataFrames (frames resp.body) := by
  have inPlan := sendAnswer_prefix outcome resp
  have sent := inPlan.filterMap Op.dataRef
  rw [List.filterMap_cons_none rfl, ← dataSent, ← dataSent, dataSent_bodyOps] at sent
  rw [answerOps, dataSent, List.filterMap_append]
  exact (List.append_nil _).symm ▸ sent

/-- Where the answer is broken off, `finish` is not called. -/
theorem finish_notMem_answerOps (inside : (sendAnswer outcome resp).1 <+: contentOps resp)
    : .finish ∉ answerOps outcome resp := by
  intro member
  have content : Op.finish ∈ contentOps resp := inside.subset (by simpa [answerOps] using member)
  cases finishes_contentOps content

/-- The answer and the drop after it follow the protocol exactly if the drop of an answer that is
broken off does not finish the stream.
-/
theorem answerOps_protocol_iff (outcome : Nat → Except Error Unit)
    (resp : Proxy.Answer UpstreamBody)
    : BodyProtocol outcome resp (answerOps outcome resp)
          ((sendAnswer outcome resp).2.mapError .err)
      ↔ ∀ last, BrokenOffAt outcome resp last → outcome (last + 1) ≠ .ok () := by
  have ending := sendAnswer_cases outcome resp
  constructor
  · intro protocol last broken
    rcases ending with ⟨sent, ended, -⟩ | ⟨other, error, also, inside, length, -⟩
    · exact absurd broken (not_brokenOffAt sent ended)
    · obtain rfl : last = other := Nat.le_antisymm (also.le broken) (broken.le also)
      have unfinished := (protocol.otherwise (finish_notMem_answerOps inside)).2
      rwa [answerOps, finished_drop_iff inside, length] at unfinished
  intro closed
  constructor
  case head => exact answerOps_head outcome resp
  case data => exact dataSent_answerOps outcome resp
  case bytes =>
    obtain ⟨rest, all⟩ := dataSent_answerOps outcome resp
    rw [← all, List.flatten_append]
    exact List.prefix_append _ _
  case finish =>
    rcases ending with ⟨sent, ended, ops⟩ | ⟨last, error, broken, inside, -⟩
    · exact ⟨fun _ => ⟨sent, ended⟩, fun _ => by simp [answerOps, ops]⟩
    · exact ⟨fun member => absurd member (finish_notMem_answerOps inside),
        fun both => absurd broken (not_brokenOffAt both.1 both.2)⟩
  case whole =>
    intro member
    rcases ending with ⟨-, -, ops⟩ | ⟨last, error, -, inside, -⟩
    · rw [answerOps, ops, List.append_assoc]
      rfl
    · exact absurd member (finish_notMem_answerOps inside)
  case otherwise =>
    intro finishless
    rcases ending with ⟨-, -, ops⟩ | ⟨last, error, broken, inside, length, result⟩
    · exact absurd (by simp [answerOps, ops]) finishless
    · refine ⟨⟨.err error, by rw [result]; rfl⟩, ?_⟩
      rw [answerOps, finished_drop_iff inside, length]
      exact closed last broken

/-- For every answer of the proxy and every point at which an operation may fail, what
`handle_req` writes to the stream follows the protocol exactly if, where the answer is broken
off, the stream cannot be finished any more when it is dropped.
-/
theorem handleReq_protocol_iff {subHost : String → Option String} {route : Route}
    {n : UInt64} {req : Parts} {stream : Polled Buf String}
    {attempts : List (PooledFetch.Attempt UpstreamBody)}
    (answered
      : (Proxy.proxy subHost route n req (collect [] (H3Body.pollFrame stream))
            attempts).result
        = some (.ok resp))
    (outcome : Nat → Except Error Unit)
    : (∃ result,
        (handleReq subHost route n req stream attempts outcome).result = some result
        ∧ BodyProtocol outcome resp
            (handleReq subHost route n req stream attempts outcome).ops result)
      ↔ ∀ last, BrokenOffAt outcome resp last → outcome (last + 1) ≠ .ok () := by
  rw [← answerOps_protocol_iff]
  simp only [handleReq, answered, Option.some.injEq, exists_eq_left', answerOps]

/-- The body of an upstream whose connection breaks after two pieces. -/
def broken : UpstreamBody :=
  .ready (.data (bytesOf "hel"))
    (.pending (.ready (.data (bytesOf "lo")) (.failed { kind := .other, text := "reset" })))

def page : Parts where
  method := .get
  uri :=
    {
      scheme := some "https"
      authority := some { host := "example.com", port := none }
      pathAndQuery := some "/"
    }
  version := .http3
  headers := []

/-- What `handle_req` does for a page of this upstream. -/
def brokenPage (outcome : Nat → Except Error Unit) : Handling :=
  handleReq (fun _ => none) (Route.single "example.com" localServer) 0 page .ended
    [
      {
        cached := none
        opened := .ok ()
        fresh := .ok { status := 200, headers := [], body := broken }
      }
    ]
    outcome

/-- What is sent of the page. -/
def brokenAnswer : Proxy.Answer UpstreamBody where
  status := 200
  headers := []
  body := .boxed broken

/-- The client stops reading after the first piece, and the stream is closed from then on. -/
def stopped (i : Nat) : Except Error Unit :=
  if i = 0 then .ok () else .error (.h3Stream "stopped")

/-- A stream that is closed by the client is not finished by its drop. -/
theorem handleReq_protocol_stopped
    : (∃ result,
        (brokenPage stopped).result = some result
        ∧ BodyProtocol stopped brokenAnswer (brokenPage stopped).ops result)
      ∧ (brokenPage stopped).ops
        = [.sendResponse 200 [], .sendData (bytesOf "hel"), .drop] := by
  refine ⟨(handleReq_protocol_iff (by rfl) stopped).mpr fun last _ => ?_, rfl⟩
  simp [stopped]

/-- The body breaks off, the call fails, and the client gets a stream that ends well. Witness:
the call by evaluation; its last operation is the drop, which finishes the stream.
-/
theorem handleReq_finishes_broken
    : (brokenPage fun _ => .ok ()).ops
        = [.sendResponse 200 [], .sendData (bytesOf "hel"), .sendData (bytesOf "lo"), .drop]
      ∧ (brokenPage fun _ => .ok ()).result
        = some (.error (.err (.hyper { kind := .other, text := "reset" })))
      ∧ Finished (fun _ => .ok ()) (brokenPage fun _ => .ok ()).ops
      ∧ ¬ ∃ result,
            (brokenPage fun _ => .ok ()).result = some result
            ∧ BodyProtocol (fun _ => .ok ()) brokenAnswer (brokenPage fun _ => .ok ()).ops
                result := by
  have finished : Finished (fun _ => .ok ()) (brokenPage fun _ => .ok ()).ops :=
    ⟨3, .drop, rfl, rfl, rfl⟩
  refine ⟨rfl, rfl, finished, ?_⟩
  rintro ⟨result, -, protocol⟩
  exact (protocol.otherwise (by decide)).2 finished

end Gway.H3
