import Gway.Library.Machine
import Gway.Srv.H3

/-! The adapter that lets HTTP/3 use the streams of the QUIC library. The sending half of a
stream keeps the data it was given until the QUIC stream has taken it, one chunk at a time.
What the QUIC stream answers to each call is a parameter.
-/

namespace Gway.S2nQuic

open H3 (Buf)

-----------------------------------------------------------------------------------------
-- Errors
-----------------------------------------------------------------------------------------

/-- The errors of a connection of the QUIC library. Those that the adapter does not tell
apart are represented by their texts.
-/
inductive ConnectionError where
  | application (error : UInt64)
  | idleTimerExpired
  | closed
  | other (text : String)
deriving DecidableEq, Repr

inductive StreamError where
  | streamReset (error : UInt64)
  | connectionError (error : ConnectionError)
  | other (text : String)
deriving DecidableEq, Repr

/-- The errors of a connection as HTTP/3 expects them. -/
inductive ConnectionErrorIncoming where
  | applicationClose (errorCode : UInt64)
  | timeout
  | internalError (text : String)
  | undefined (error : ConnectionError)
deriving DecidableEq, Repr

inductive StreamErrorIncoming where
  | connectionErrorIncoming (connectionError : ConnectionErrorIncoming)
  | streamTerminated (errorCode : UInt64)
  | unknown (error : StreamError)
deriving DecidableEq, Repr

/-- `Code::H3_NO_ERROR`. -/
def h3NoError : UInt64 := 0x100

/-- `convert_connection_error`. -/
def convertConnectionError : ConnectionError → ConnectionErrorIncoming
  | .application error => .applicationClose error
  | .idleTimerExpired => .timeout
  | .closed => .applicationClose h3NoError
  | .other text => .undefined (.other text)

/-- `convert_stream_error_to_h3_stream_error_incoming`. -/
def convertStreamError : StreamError → StreamErrorIncoming
  | .streamReset error => .streamTerminated error
  | .connectionError error => .connectionErrorIncoming (convertConnectionError error)
  | .other text => .unknown (.other text)

/-- The codes that the QUIC library accepts, `application::Error::UNKNOWN` being its zero. -/
def applicationError (code : UInt64) : Option UInt64 :=
  if code.toNat < 2 ^ 62 then some code else none

-----------------------------------------------------------------------------------------
-- Buffers
-----------------------------------------------------------------------------------------

/-- The chunks after `len` bytes have been taken off them. -/
def advanceChunks : Nat → List Bytes → List Bytes
  | _, [] => []
  | len, chunk :: rest =>
      if len < chunk.length then chunk.drop len :: rest
      else advanceChunks (len - chunk.length) rest

theorem advanceChunks_nonempty {len : Nat} {chunks : List Bytes}
    (nonempty : ∀ chunk ∈ chunks, chunk ≠ [])
    : ∀ chunk ∈ advanceChunks len chunks, chunk ≠ [] := by
  induction chunks generalizing len with
  | nil => exact nonempty
  | cons first rest ih =>
      obtain ⟨_, later⟩ := List.forall_mem_cons.mp nonempty
      unfold advanceChunks
      split
      next inside => exact List.forall_mem_cons.mpr ⟨by simpa using inside, later⟩
      next => exact ih later

/-- `copy_to_bytes`: the next `len` bytes, and the buffer after them. -/
def copyToBytes (buf : Buf) (len : Nat) : Bytes × Buf :=
  (buf.remaining.take len,
    { chunks := advanceChunks len buf.chunks,
      nonempty := advanceChunks_nonempty buf.nonempty })

-----------------------------------------------------------------------------------------
-- The sending half of a stream
-----------------------------------------------------------------------------------------

/-- An answer of the QUIC stream's `poll_send`: how many bytes it has taken off the chunk, and
its result unless it is pending.
-/
structure PollSend where
  taken : Nat
  result : Option (Except StreamError Unit)
deriving DecidableEq, Repr

/-- A call on the QUIC stream with its answer. -/
inductive QuicCall where
  | pollSend (chunk : Bytes) (answer : PollSend)
  | finish (result : Except StreamError Unit)
  | reset (errorCode : UInt64)
deriving DecidableEq, Repr

/-- `stream` is what has been called on the QUIC stream, in order. -/
structure SendStream where
  stream : List QuicCall
  chunk : Option Bytes
  buf : Option Buf

/-- How a poll ends. A failed assertion of a debug build is a panic. -/
inductive Poll where
  | pending
  | ready (result : Except StreamErrorIncoming Unit)
  | panicked
deriving DecidableEq, Repr

namespace SendStream

def new : SendStream :=
  { stream := [], chunk := none, buf := none }

/-- The first half of the loop of `poll_ready` for the current chunk: no result means that
the loop goes on. `debug` says that assertions are compiled in.
-/
def flush (debug : Bool) (self : SendStream) (chunk : Bytes) (answer : PollSend)
    : Option Poll × SendStream :=
  let left := chunk.drop answer.taken
  let called := { self with
    stream := self.stream ++ [.pollSend chunk answer]
    chunk := some left }
  match answer.result with
  | none => (some .pending, called)
  | some (.error err) => (some (.ready (.error (convertStreamError err))), called)
  | some (.ok ()) =>
      if debug ∧ left ≠ [] then (some .panicked, called)
      else (none, { called with chunk := none })

/-- The second half of the loop: the next chunk, or none when the loop ends. -/
def nextChunk (self : SendStream) : Option Bytes × SendStream :=
  match self.buf with
  | none => (none, self)
  | some data =>
      let len := data.chunk.length
      if len = 0 then (none, { self with buf := none })
      else
        let (chunk, data) := copyToBytes data len
        (some chunk, { self with chunk := some chunk, buf := some data })

/-- The loop of `poll_ready` from a chunk on. The QUIC stream gives the answers in order and
is pending after them.
-/
def flushFrom (debug : Bool) (self : SendStream) (chunk : Bytes)
    : List PollSend → Poll × SendStream
  | [] => (.pending, (flush debug self chunk { taken := 0, result := none }).2)
  | answer :: answers =>
      match flush debug self chunk answer with
      | (some poll, self) => (poll, self)
      | (none, self) =>
          match nextChunk self with
          | (none, self) => (.ready (.ok ()), self)
          | (some chunk, self) => flushFrom debug self chunk answers

def pollReady (debug : Bool) (answers : List PollSend) (self : SendStream)
    : Poll × SendStream :=
  match self.chunk with
  | some chunk => flushFrom debug self chunk answers
  | none =>
      match nextChunk self with
      | (none, self) => (.ready (.ok ()), self)
      | (some chunk, self) => flushFrom debug self chunk answers

def sendData (data : Buf) (self : SendStream) : Except StreamErrorIncoming Unit × SendStream :=
  if self.buf.isSome then
    (.error (.connectionErrorIncoming (.internalError "internal error in the http stack")), self)
  else (.ok (), { self with buf := some data })

/-- `finished` is the answer of the QUIC stream's `finish`. -/
def pollFinish (debug : Bool) (answers : List PollSend) (finished : Except StreamError Unit)
    (self : SendStream)
    : Poll × SendStream :=
  match pollReady debug answers self with
  | (.ready (.ok ()), self) =>
      (.ready (finished.mapError convertStreamError),
        { self with stream := self.stream ++ [.finish finished] })
  | (poll, self) => (poll, self)

def reset (resetCode : UInt64) (self : SendStream) : SendStream :=
  { self with stream := self.stream ++ [.reset ((applicationError resetCode).getD 0)] }

end SendStream

end Gway.S2nQuic
