import Gway.Decision
import Gway.Proxy.Calls
import Gway.Srv.H3

/-! What an upstream gets of a body that is uploaded over HTTP/3. A frame has the first chunk of
its buffer, and the rest of the buffer is dropped.
-/

namespace Gway.H3

open Proxy (Call)

/-- All bytes of all buffers in order. -/
def uploaded (stream : Polled Buf String) : Bytes :=
  stream.items.flatMap Buf.remaining

/-- Every attempt is made with the uploaded bytes, and so is every send; if the upload ends in
an error there are none.
-/
def UploadFaithful (subHost : String → Option String) (route : Route) (n : UInt64)
    (req : Parts) (stream : Polled Buf String) : Prop :=
  ∀ attempts outcome,
    let handled := (handleReq subHost route n req stream attempts outcome).handled
    match stream.outcome with
    | .ok () =>
        (∀ call ∈ handled.calls, call.req.body = uploaded stream)
        ∧ ∀ send ∈ handled.sent, send.req.body = uploaded stream
    | .error _ => handled.calls = [] ∧ handled.sent = []

/-- The host of the request has an upstream with a server. -/
def Served (route : Route) (req : Parts) : Prop :=
  ∃ siteConf,
    route.confByHost (reqHost req) = some siteConf ∧ siteConf.upstream.val.addrLi ≠ []

variable {subHost : String → Option String} {route : Route} {n : UInt64} {req : Parts}
  {stream : Polled Buf String} {attempts : List (PooledFetch.Attempt UpstreamBody)}
  {outcome : Nat → Except Error Unit}

/-- A body is collected as the data of its frames, or fails with its error; by induction on
what it answers.
-/
theorem collect_eq (collected : Bytes) (body : Polled Frame Error)
    : collect collected body
      = body.outcome.map fun _ =>
          collected ++ body.items.flatMap fun frame => frame.dataRef.getD [] := by
  induction body generalizing collected with
  | pending later ih => exact ih collected
  | ready frame later ih =>
      rw [collect, ih, Polled.outcome, Polled.items, List.flatMap_cons]
      simp only [List.append_assoc]
  | ended => simp [collect, Polled.outcome, Polled.items, Except.map]
  | failed err => rfl

/-- An upload is collected as the first chunks of its buffers. -/
theorem collect_pollFrame (stream : Polled Buf String)
    : collect [] (H3Body.pollFrame stream)
      = match stream.outcome with
        | .ok () => .ok (stream.items.flatMap Buf.chunk)
        | .error err => .error (.h3Stream err) := by
  rw [collect_eq, H3Body.pollFrame, Polled.outcome_map, Polled.items_map, List.flatMap_map]
  cases stream.outcome <;> rfl

/-- The first chunk is what the remaining bytes begin with. -/
theorem chunk_begins (buf : Buf) : buf.chunk <+: buf.remaining := by
  obtain ⟨_ | ⟨chunk, rest⟩, nonempty⟩ := buf
  · exact List.prefix_rfl
  · exact List.prefix_append chunk rest.flatten

/-- The first chunks are all bytes exactly if each of them is: as none is longer than its
buffer, what one leaves out is not made up for by another.
-/
theorem flatMap_chunk_eq_iff (bufs : List Buf)
    : bufs.flatMap Buf.chunk = bufs.flatMap Buf.remaining
      ↔ ∀ buf ∈ bufs, buf.chunk = buf.remaining := by
  have shorter (bufs : List Buf)
      : (bufs.flatMap Buf.chunk).length ≤ (bufs.flatMap Buf.remaining).length := by
    induction bufs with
    | nil => exact Nat.le_refl _
    | cons buf rest ih =>
        rw [List.flatMap_cons, List.flatMap_cons, List.length_append, List.length_append]
        exact Nat.add_le_add (chunk_begins buf).length_le ih
  induction bufs with
  | nil => simp
  | cons buf rest ih =>
      rw [List.flatMap_cons, List.flatMap_cons, List.forall_mem_cons]
      constructor
      · intro same
        have total := congrArg List.length same
        rw [List.length_append, List.length_append] at total
        have own := (chunk_begins buf).length_le
        have others := shorter rest
        obtain ⟨first, later⟩ := List.append_inj same (by omega)
        exact ⟨first, ih.mp later⟩
      · rintro ⟨first, later⟩
        rw [first, ih.mpr later]

/-- However the stream ends, what the proxy does with a request is the same. -/
theorem handleReq_handled
    : (handleReq subHost route n req stream attempts outcome).handled
      = Proxy.proxy subHost route n req (collect [] (H3Body.pollFrame stream)) attempts := by
  unfold handleReq
  dsimp only
  split <;> rfl

/-- An attempt is made only for a host with a server and an upload without an error, and with
the first chunks of the buffers.
-/
theorem mem_reqCalls {call : Call UpstreamBody}
    (member : call ∈ (handleReq subHost route n req stream attempts outcome).handled.calls)
    : Served route req
      ∧ stream.outcome = .ok ()
      ∧ call.req.body = stream.items.flatMap Buf.chunk := by
  rw [handleReq_handled] at member
  obtain ⟨siteConf, body, found, nonempty, read, made⟩ := Proxy.mem_calls member
  rw [collect_pollFrame] at read
  cases ending : stream.outcome with
  | error err =>
      rw [ending] at read
      cases read
  | ok _ =>
      rw [ending] at read
      obtain rfl := Except.ok.inj read
      exact ⟨⟨siteConf, found, nonempty⟩, rfl, by rw [made]⟩

/-- For every table, every head and every upload, the attempts are made with the uploaded bytes
exactly if no buffer of an upload that is forwarded has more than its first chunk. Nothing is
sent of an upload that ends in an error.
-/
theorem handleReq_uploadFaithful_iff (subHost : String → Option String) (route : Route)
    (n : UInt64) (req : Parts) (stream : Polled Buf String)
    : UploadFaithful subHost route n req stream
      ↔ stream.outcome = .ok ()
        → Served route req
        → ∀ buf ∈ stream.items, buf.chunk = buf.remaining := by
  unfold UploadFaithful
  cases ending : stream.outcome with
  | error err =>
      have none (attempts outcome)
          : (handleReq subHost route n req stream attempts outcome).handled.calls = [] := by
        refine List.eq_nil_iff_forall_not_mem.mpr fun call member => ?_
        rw [(mem_reqCalls member).2.1] at ending
        cases ending
      simp [Proxy.Handled.sent, none]
  | ok _ =>
      constructor
      · intro faithful _ ⟨siteConf, found, nonempty⟩
        have read
            : collect [] (H3Body.pollFrame stream)
              = .ok (stream.items.flatMap Buf.chunk) := by
          rw [collect_pollFrame, ending]
        obtain ⟨attempts, call, member, -⟩ :=
          @Proxy.exists_mem_calls UpstreamBody subHost _ n _ (req.uri.pathAndQuery.getD "") req _
            _ _ found nonempty read
        let outcome (_ : Nat) : Except Error Unit := .ok ()
        have member
            : call
              ∈ (handleReq subHost route n req stream attempts outcome).handled.calls := by
          rw [handleReq_handled]
          exact member
        have given : call.req.body = uploaded stream := (faithful attempts outcome).1 call member
        rw [(mem_reqCalls member).2.2] at given
        exact (flatMap_chunk_eq_iff stream.items).mp given
      · intro whole attempts outcome
        have given
            : ∀ call ∈ (handleReq subHost route n req stream attempts outcome).handled.calls,
                call.req.body = uploaded stream := by
          intro call member
          obtain ⟨served, -, body⟩ := mem_reqCalls member
          exact body.trans ((flatMap_chunk_eq_iff stream.items).mpr (whole rfl served))
        refine ⟨given, fun send member => ?_⟩
        obtain ⟨call, called, made⟩ := List.mem_flatMap.mp member
        rw [(PooledFetch.http_sent made).2]
        exact given call called

/-- A buffer that lies in two pieces. -/
def twoPieces : Buf where
  chunks := [bytesOf "hel", bytesOf "lo"]
  nonempty := by decide

def post : Parts where
  method := .post
  uri :=
    {
      scheme := some "https"
      authority := some { host := "example.com", port := none }
      pathAndQuery := some "/"
    }
  version := .http3
  headers := []

/-- An attempt whose send on a new connection is answered. -/
def answered : PooledFetch.Attempt UpstreamBody where
  cached := none
  opened := .ok ()
  fresh := .ok { status := 200, headers := [], body := .ended }

/-- What the upstream gets of a body in such a buffer, which does not arrive at once. -/
def received : List Bytes :=
  (handleReq (fun _ => none) (Route.single "example.com" localServer) 0 post
      (.pending (.ready twoPieces .ended)) [answered] fun _ => .ok ()).handled.sent.map
    fun send => send.req.body

/-- The upstream gets the first piece. Witness: the call by evaluation. -/
theorem handleReq_truncates
    : received = [bytesOf "hel"]
      ∧ uploaded (.pending (.ready twoPieces .ended)) = bytesOf "hello"
      ∧ ¬ UploadFaithful (fun _ => none) (Route.single "example.com" localServer) 0 post
          (.pending (.ready twoPieces .ended)) := by
  have truncated : received = [bytesOf "hel"] := by decide
  refine ⟨truncated, by decide, fun faithful => ?_⟩
  have first : bytesOf "hel" ∈ received := truncated ▸ List.mem_singleton.mpr rfl
  obtain ⟨send, sent, same⟩ := List.mem_map.mp first
  have given := (faithful [answered] fun _ => .ok ()).2 send sent
  rw [same] at given
  exact absurd given (by decide)

end Gway.H3
