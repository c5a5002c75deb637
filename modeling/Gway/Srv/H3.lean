import Gway.CertLoader.Get
import Gway.Library.Streams
import Gway.Proxy

/-! The HTTP/3 service: the certificate for a client hello, the body of a request as it arrives
on a stream, and the answer that is written to the stream.
-/

namespace Gway.H3

open PooledFetch (HyperError)

/-- `on_client_hello`: the certificate whose configuration the connection gets. -/
def onClientHello (subHost : String → Option String) (load : CertLoader.Load)
    (certs : CertLoader) : Option String → Except Failure (Arc Cert) × CertLoader
  | none => (.error (.err (.certNotFound "sni not found")), certs)
  | some sni =>
      match certs.get subHost load sni with
      | (.ok cert, certs) => (.ok cert, certs)
      | (.error .panic, certs) => (.error .panic, certs)
      | (.error (.err e), certs) =>
          let text := "cert not found for " ++ sni ++ ": " ++ e.display
          (.error (.err (.certNotFound text)), certs)

-----------------------------------------------------------------------------------------
-- Bodies
-----------------------------------------------------------------------------------------

/-- The bytes that remain in a buffer, in the chunks in which they lie in memory. -/
structure Buf where
  chunks : List Bytes
  nonempty : ∀ chunk ∈ chunks, chunk ≠ []

namespace Buf

/-- The first chunk, which is empty only at the end. -/
def chunk (buf : Buf) : Bytes :=
  buf.chunks.head?.getD []

/-- All bytes that remain. -/
def remaining (buf : Buf) : Bytes :=
  buf.chunks.flatten

end Buf

/-- A frame of a body. -/
inductive Frame where
  | data (bytes : Bytes)
  | trailers (headers : HeaderMap)
deriving DecidableEq, Repr

namespace Frame

def dataRef : Frame → Option Bytes
  | data bytes => some bytes
  | trailers _ => none

def trailersRef : Frame → Option HeaderMap
  | data _ => none
  | trailers headers => some headers

end Frame

/-- `H3Body::poll_frame`, at each poll: a frame with the chunk of the buffer that
`poll_recv_data` answers.
-/
def H3Body.pollFrame (stream : Polled Buf String) : Polled Frame Error :=
  stream.map (fun data => .data data.chunk) .h3Stream

/-- The bytes of a body that is collected, after those collected before. -/
def collect (collected : Bytes) : Polled Frame Error → Except Error Bytes
  | .pending later => collect collected later
  | .ready frame later => collect (collected ++ frame.dataRef.getD []) later
  | .ended => .ok collected
  | .failed err => .error err

/-- The body of an upstream's response. -/
abbrev UpstreamBody := Polled Frame HyperError

/-- What the body of an answer gives when it is polled; one of the proxy's own is a single
frame, unless it is empty.
-/
def frames : Proxy.BoxBody UpstreamBody → UpstreamBody
  | .full [] => .ended
  | .full bytes => .ready (.data bytes) .ended
  | .boxed body => body

-----------------------------------------------------------------------------------------
-- Requests
-----------------------------------------------------------------------------------------

/-- The operations on the sending side of a stream, and its drop. -/
inductive Op where
  | sendResponse (status : Nat) (headers : HeaderMap)
  | sendData (bytes : Bytes)
  | sendTrailers (headers : HeaderMap)
  | finish
  | drop
deriving DecidableEq, Repr

/-- The operations by which the stream is finished: s2n-quic finishes one that is dropped. -/
def Op.finishes : Op → Bool
  | finish | drop => true
  | _ => false

/-- The rest of `handle_req` from its loop on. `outcome` says how each operation on the stream
ends, by its number (a drop like the finish that s2n-quic makes of it), and `ops` are those
that have been performed.
-/
def sendFrames (outcome : Nat → Except Error Unit) (ops : List Op)
    : UpstreamBody → List Op × Except Error Unit
  | .pending later => sendFrames outcome ops later
  | .ready frame later =>
      match frame.dataRef with
      | some data =>
          match outcome ops.length with
          | .error err => (ops ++ [.sendData data], .error err)
          | .ok () => sendFrames outcome (ops ++ [.sendData data]) later
      | none => sendFrames outcome ops later
  | .ended => (ops ++ [.finish], outcome ops.length)
  | .failed err => (ops, .error (.hyper err))

/-- The rest of `handle_req` from the head on. -/
def sendAnswer (outcome : Nat → Except Error Unit) (resp : Proxy.Answer UpstreamBody)
    : List Op × Except Error Unit :=
  let head := .sendResponse resp.status resp.headers
  match outcome 0 with
  | .error err => ([head], .error err)
  | .ok () => sendFrames outcome [head] (frames resp.body)

/-- What came of a request: what the proxy did, the operations on the stream in order, up to its
drop, and the result, unless the call is still waiting for an upstream.
-/
structure Handling where
  handled : Proxy.Handled UpstreamBody
  ops : List Op
  result : Option (Except Failure Unit)

/-- `handle_req`, for a request whose body arrives as the stream answers. `send_stream` is
dropped on every way out of it, of which a panic of the proxy is none.
-/
def handleReq (subHost : String → Option String) (route : Route) (n : UInt64) (req : Parts)
    (stream : Polled Buf String) (attempts : List (PooledFetch.Attempt UpstreamBody))
    (outcome : Nat → Except Error Unit) : Handling :=
  let body := collect [] (H3Body.pollFrame stream)
  let handled := Proxy.proxy subHost route n req body attempts
  match handled.result with
  | none => { handled, ops := [], result := none }
  | some (.error failure) => { handled, ops := [], result := some (.error failure) }
  | some (.ok resp) =>
      let (ops, result) := sendAnswer outcome resp
      { handled, ops := ops ++ [.drop], result := some (result.mapError .err) }

end Gway.H3
