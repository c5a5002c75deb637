import Gway.Srv.S2nQuic

/-! The loop with which the sending half of a stream hands its data to the QUIC stream. Each
half of the loop moves bytes in order, and so does a poll.
-/

namespace Gway.S2nQuic

open H3 (Buf)

-----------------------------------------------------------------------------------------
-- What a stream has sent, and what it still holds
-----------------------------------------------------------------------------------------

/-- The bytes that the QUIC stream took in a call. -/
def QuicCall.bytesTaken : QuicCall → Bytes
  | pollSend chunk answer => chunk.take answer.taken
  | _ => []

/-- The bytes that are let go although the QUIC stream has not taken them: those left of a chunk
after a call that succeeds. A debug build panics instead.
-/
def QuicCall.bytesLost : QuicCall → Bytes
  | pollSend chunk { taken, result := some (.ok ()) } => chunk.drop taken
  | _ => []

namespace SendStream

/-- All bytes that the QUIC stream has taken, in order. -/
def sent (self : SendStream) : Bytes :=
  self.stream.flatMap QuicCall.bytesTaken

/-- The bytes that wait for the QUIC stream: the chunk first. -/
def outstanding (self : SendStream) : Bytes :=
  self.chunk.getD [] ++ (self.buf.map Buf.remaining).getD []

/-- How many bytes have been let go. -/
def lost (debug : Bool) (self : SendStream) : Nat :=
  if debug then 0 else (self.stream.flatMap QuicCall.bytesLost).length

/-- A chunk is kept together with the buffer that it was taken from. -/
def ChunkHasBuf (self : SendStream) : Prop :=
  self.chunk.isSome → self.buf.isSome

end SendStream

/-- What a call does to a stream that it is made on: bytes move from those outstanding to those
sent, in order, and those that it lets go are accounted for.
-/
structure Moves (debug : Bool) (before after : SendStream) : Prop where
  sublist : (after.sent ++ after.outstanding).Sublist (before.sent ++ before.outstanding)
  length
    : after.sent.length + after.outstanding.length + after.lost debug
      = before.sent.length + before.outstanding.length + before.lost debug

theorem Moves.refl (debug : Bool) (self : SendStream) : Moves debug self self :=
  ⟨.refl _, rfl⟩

theorem Moves.trans {debug : Bool} {first second third : SendStream}
    (early : Moves debug first second) (late : Moves debug second third)
    : Moves debug first third :=
  ⟨late.sublist.trans early.sublist, late.length.trans early.length⟩

-----------------------------------------------------------------------------------------
-- The first chunk of a buffer
-----------------------------------------------------------------------------------------

/-- A buffer without a first chunk is at its end. -/
theorem remaining_of_chunk_eq_nil {buf : Buf} (atEnd : buf.chunk.length = 0)
    : buf.remaining = [] := by
  obtain ⟨chunks, nonempty⟩ := buf
  cases chunks with
  | nil => rfl
  | cons first rest =>
      have nonempty_first := nonempty first List.mem_cons_self
      exact absurd (List.length_eq_zero_iff.mp atEnd) nonempty_first

theorem advanceChunks_zero {chunks : List Bytes} (nonempty : ∀ chunk ∈ chunks, chunk ≠ [])
    : advanceChunks 0 chunks = chunks := by
  cases chunks with
  | nil => rfl
  | cons first rest =>
      have inside : 0 < first.length :=
        List.length_pos_iff.mpr (nonempty first List.mem_cons_self)
      simp [advanceChunks, inside]

/-- Copying as many bytes as the first chunk has gives that chunk and leaves the others. -/
theorem copyToBytes_chunk (buf : Buf)
    : (copyToBytes buf buf.chunk.length).1 = buf.chunk
      ∧ (copyToBytes buf buf.chunk.length).2.chunks = buf.chunks.tail := by
  obtain ⟨chunks, nonempty⟩ := buf
  cases chunks with
  | nil => exact ⟨rfl, rfl⟩
  | cons first rest =>
      obtain ⟨_, later⟩ := List.forall_mem_cons.mp nonempty
      refine ⟨by simp [copyToBytes, Buf.remaining, Buf.chunk], ?_⟩
      simp [copyToBytes, Buf.chunk, advanceChunks, advanceChunks_zero later]

/-- The bytes of a buffer are those of its first chunk and those after it. -/
theorem chunk_append_remaining (buf : Buf)
    : (copyToBytes buf buf.chunk.length).1
        ++ (copyToBytes buf buf.chunk.length).2.remaining = buf.remaining := by
  obtain ⟨copied, rest⟩ := copyToBytes_chunk buf
  rw [copied, Buf.remaining, rest, Buf.remaining, Buf.chunk]
  cases buf.chunks <;> rfl

-----------------------------------------------------------------------------------------
-- The loop of a poll
-----------------------------------------------------------------------------------------

namespace SendStream

variable {debug : Bool} {self : SendStream} {chunk : Bytes} {answer : PollSend}

/-- The stream when the QUIC stream has answered, before the answer is looked at. -/
def called (self : SendStream) (chunk : Bytes) (answer : PollSend) : SendStream :=
  { self with
    stream := self.stream ++ [.pollSend chunk answer]
    chunk := some (chunk.drop answer.taken) }

/-- A flush ends the poll without success and keeps what is left of the chunk, or it succeeds
and lets go of the chunk, in a debug build only if nothing is left of it.
-/
theorem flush_cases (debug : Bool) (self : SendStream) (chunk : Bytes) (answer : PollSend)
    : (∃ poll,
        flush debug self chunk answer = (some poll, self.called chunk answer)
        ∧ poll ≠ .ready (.ok ())
        ∧ (answer.result = some (.ok ()) → debug = true ∧ chunk.drop answer.taken ≠ []))
      ∨ flush debug self chunk answer
          = (none, { self.called chunk answer with chunk := none })
        ∧ answer.result = some (.ok ())
        ∧ (debug = true → chunk.drop answer.taken = []) := by
  obtain ⟨taken, result⟩ := answer
  rcases result with _ | err | _
  · exact .inl ⟨.pending, rfl, by simp, by simp⟩
  · exact .inl ⟨.ready (.error (convertStreamError err)), rfl, by simp, by simp⟩
  · by_cases stops : debug = true ∧ chunk.drop taken ≠ []
    · exact .inl ⟨.panicked, by simp only [flush, if_pos stops]; rfl, by simp, fun _ => stops⟩
    · refine .inr ⟨by simp only [flush, if_neg stops]; rfl, rfl, fun isDebug => ?_⟩
      by_contra left
      exact stops ⟨isDebug, left⟩

/-- Without a chunk the loop ends with the buffer, or it takes the first chunk off it. -/
theorem nextChunk_cases (self : SendStream)
    : nextChunk self = (none, { self with buf := none })
        ∧ (self.buf.map Buf.remaining).getD [] = []
      ∨ ∃ data rest chunk,
          self.buf = some data
          ∧ nextChunk self = (some chunk, { self with chunk := some chunk, buf := some rest })
          ∧ chunk = data.chunk
          ∧ chunk ≠ []
          ∧ rest.chunks = data.chunks.tail
          ∧ chunk ++ rest.remaining = data.remaining := by
  obtain ⟨stream, current, buf⟩ := self
  cases buf with
  | none => exact .inl ⟨rfl, rfl⟩
  | some data =>
      by_cases atEnd : data.chunk.length = 0
      · left
        exact ⟨by simp only [nextChunk, if_pos atEnd], remaining_of_chunk_eq_nil atEnd⟩
      · right
        obtain ⟨copied, rest⟩ := copyToBytes_chunk data
        refine ⟨data, _, _, rfl, by simp only [nextChunk, if_neg atEnd], copied, ?_, rest,
          chunk_append_remaining data⟩
        rw [copied]
        intro empty
        exact atEnd (by rw [empty]; rfl)

/-- A relation between the streams before and after that both halves of the loop respect is
respected by the loop, by induction on the answers.
-/
theorem flushFrom_rule (relation : SendStream → SendStream → Prop)
    {answers : List PollSend}
    (trans
      : ∀ {first second third},
          relation first second → relation second third → relation first third)
    (flushed
      : ∀ self chunk answer,
          self.chunk = some chunk → relation self (flush debug self chunk answer).2)
    (next : ∀ self, self.chunk = none → relation self (nextChunk self).2)
    (current : self.chunk = some chunk)
    : relation self (flushFrom debug self chunk answers).2 := by
  induction answers generalizing self chunk with
  | nil => exact flushed self chunk _ current
  | cons answer answers ih =>
      have first := flushed self chunk answer current
      unfold flushFrom
      rcases flush_cases debug self chunk answer with ⟨poll, flushes, _⟩ | ⟨flushes, _⟩
      · rw [flushes] at first ⊢
        exact first
      · rw [flushes] at first ⊢
        have second := next { self.called chunk answer with chunk := none } rfl
        rcases nextChunk_cases { self.called chunk answer with chunk := none } with
          ⟨ends, _⟩ | ⟨data, rest, chunk', _, goes, _⟩
        · rw [ends] at second
          simp only [ends]
          exact trans first second
        · rw [goes] at second
          simp only [goes]
          exact trans (trans first second) (ih rfl)

/-- The same rule for a poll, which begins with the second half if there is no chunk. -/
theorem pollReady_rule (relation : SendStream → SendStream → Prop)
    {answers : List PollSend}
    (trans
      : ∀ {first second third},
          relation first second → relation second third → relation first third)
    (flushed
      : ∀ self chunk answer,
          self.chunk = some chunk → relation self (flush debug self chunk answer).2)
    (next : ∀ self, self.chunk = none → relation self (nextChunk self).2)
    : relation self (pollReady debug answers self).2 := by
  unfold pollReady
  cases current : self.chunk with
  | some chunk => exact flushFrom_rule relation trans flushed next current
  | none =>
      have first := next self current
      rcases nextChunk_cases self with ⟨ends, _⟩ | ⟨data, rest, chunk, _, goes, _⟩
      · rw [ends] at first
        simp only [ends]
        exact first
      · rw [goes] at first
        simp only [goes]
        exact trans first (flushFrom_rule relation trans flushed next rfl)

-----------------------------------------------------------------------------------------
-- Bytes are moved in order
-----------------------------------------------------------------------------------------

theorem sent_called
    : (self.called chunk answer).sent = self.sent ++ chunk.take answer.taken := by
  simp [sent, called, QuicCall.bytesTaken]

theorem lost_called (debug : Bool) (self : SendStream) (chunk : Bytes) (answer : PollSend)
    : (self.called chunk answer).lost debug
      = self.lost debug
        + if debug then 0 else (QuicCall.pollSend chunk answer).bytesLost.length := by
  unfold lost called
  cases debug <;> simp

/-- A call that does not succeed loses nothing. -/
theorem bytesLost_of_failed (failed : answer.result ≠ some (.ok ()))
    : (QuicCall.pollSend chunk answer).bytesLost = [] := by
  obtain ⟨taken, result⟩ := answer
  rcases result with _ | err | _
  · rfl
  · rfl
  · exact absurd rfl failed

theorem bytesLost_of_succeeded (succeeded : answer.result = some (.ok ()))
    : (QuicCall.pollSend chunk answer).bytesLost = chunk.drop answer.taken := by
  obtain ⟨taken, result⟩ := answer
  cases succeeded
  rfl

/-- What is taken off the current chunk is sent next, and what is left of it stays first. -/
theorem called_bytes (answer : PollSend) (current : self.chunk = some chunk)
    : (self.called chunk answer).sent ++ (self.called chunk answer).outstanding
      = self.sent ++ self.outstanding := by
  rw [sent_called]
  simp only [outstanding, called, current, Option.getD_some, List.append_assoc]
  rw [← List.append_assoc (chunk.take _), List.take_append_drop]

/-- Without its chunk a stream has all bytes but those of the chunk. -/
theorem outstanding_letGo (current : self.chunk = some chunk)
    : self.outstanding = chunk ++ { self with chunk := none }.outstanding := by
  simp [outstanding, current]

/-- Letting go of a chunk of which something is left loses just that. -/
theorem flush_moves (current : self.chunk = some chunk)
    : Moves debug self (flush debug self chunk answer).2 := by
  have bytes := called_bytes answer current
  have lengths := congrArg List.length bytes
  simp only [List.length_append] at lengths
  rcases flush_cases debug self chunk answer with
    ⟨poll, flushes, _, debugOnly⟩ | ⟨flushes, succeeded, whole⟩
  · rw [flushes]
    refine ⟨by rw [bytes], ?_⟩
    rw [lost_called, lengths]
    cases debug with
    | true => simp
    | false =>
        have failed : answer.result ≠ some (.ok ()) := fun ok => nomatch (debugOnly ok).1
        simp [bytesLost_of_failed failed]
  · rw [flushes]
    have parts
        : (self.called chunk answer).outstanding
          = chunk.drop answer.taken
            ++ { self.called chunk answer with chunk := none }.outstanding :=
      outstanding_letGo rfl
    rw [parts] at bytes lengths
    refine ⟨?_, ?_⟩
    · rw [← bytes]
      exact (List.sublist_append_right _ _).append_left _
    · have counted := lost_called debug self chunk answer
      rw [bytesLost_of_succeeded succeeded] at counted
      change (self.called chunk answer).sent.length + _
        + (self.called chunk answer).lost debug = _
      rw [counted]
      cases debug with
      | true =>
          rw [whole rfl] at lengths
          simp only [List.length_append, List.length_nil, if_true] at lengths ⊢
          omega
      | false =>
          simp only [List.length_append, Bool.false_eq_true, if_false] at lengths ⊢
          omega

theorem nextChunk_moves (idle : self.chunk = none) : Moves debug self (nextChunk self).2 := by
  have same : (nextChunk self).2.outstanding = self.outstanding := by
    rcases nextChunk_cases self with ⟨ends, empty⟩ | ⟨data, rest, chunk, held, goes, _, _, _, all⟩
    · simp [ends, outstanding, idle, empty]
    · simp [goes, outstanding, idle, held, all]
  have stream : (nextChunk self).2.stream = self.stream := by
    rcases nextChunk_cases self with ⟨ends, _⟩ | ⟨data, rest, chunk, _, goes, _⟩
    · rw [ends]
    · rw [goes]
  have sent_eq : (nextChunk self).2.sent = self.sent := by rw [sent, sent, stream]
  have lost_eq : (nextChunk self).2.lost debug = self.lost debug := by rw [lost, lost, stream]
  exact ⟨by rw [sent_eq, same], by rw [sent_eq, same, lost_eq]⟩

theorem pollReady_moves (debug : Bool) (answers : List PollSend) (self : SendStream)
    : Moves debug self (pollReady debug answers self).2 :=
  pollReady_rule (Moves debug) .trans (fun _ _ _ => flush_moves) (fun _ => nextChunk_moves)

-----------------------------------------------------------------------------------------
-- What the result of a poll says
-----------------------------------------------------------------------------------------

/-- The buffer is given up only when the loop ends, and then there is no chunk. -/
theorem nextChunk_chunkHasBuf (idle : self.chunk = none)
    : (nextChunk self).2.ChunkHasBuf := by
  unfold ChunkHasBuf
  rcases nextChunk_cases self with ⟨ends, _⟩ | ⟨data, rest, chunk, _, goes, _⟩
  · simp [ends, idle]
  · simp [goes]

theorem flush_chunkHasBuf (current : self.chunk = some chunk) (kept : self.ChunkHasBuf)
    : (flush debug self chunk answer).2.ChunkHasBuf := by
  have buffered : self.buf.isSome := kept (by rw [current]; rfl)
  rcases flush_cases debug self chunk answer with ⟨poll, flushes, _⟩ | ⟨flushes, _⟩
  · rw [flushes]
    exact fun _ => buffered
  · rw [flushes]
    exact fun _ => buffered

theorem pollReady_chunkHasBuf (debug : Bool) (answers : List PollSend) (kept : self.ChunkHasBuf)
    : (pollReady debug answers self).2.ChunkHasBuf :=
  pollReady_rule (fun before after => before.ChunkHasBuf → after.ChunkHasBuf)
    (fun early late before => late (early before))
    (fun _ _ _ current before => flush_chunkHasBuf current before)
    (fun _ idle _ => nextChunk_chunkHasBuf idle) kept

/-- A poll from a chunk on succeeds exactly if the buffer has been given up, by induction on
the answers.
-/
theorem flushFrom_ready_iff {answers : List PollSend} (current : self.chunk = some chunk)
    (buffered : self.buf.isSome)
    : (flushFrom debug self chunk answers).1 = .ready (.ok ())
      ↔ (flushFrom debug self chunk answers).2.buf = none := by
  induction answers generalizing self chunk with
  | nil => simp [flushFrom, flush, Option.isSome_iff_ne_none.mp buffered]
  | cons answer answers ih =>
      unfold flushFrom
      rcases flush_cases debug self chunk answer with ⟨poll, flushes, other, _⟩ | ⟨flushes, _⟩
      · simp [flushes, other, called, Option.isSome_iff_ne_none.mp buffered]
      · rw [flushes]
        rcases nextChunk_cases { self.called chunk answer with chunk := none } with
          ⟨ends, _⟩ | ⟨data, rest, chunk', _, goes, _⟩
        · simp [ends]
        · simp only [goes]
          exact ih rfl rfl

theorem pollReady_ready_iff (answers : List PollSend) (kept : self.ChunkHasBuf)
    : (pollReady debug answers self).1 = .ready (.ok ())
      ↔ (pollReady debug answers self).2.buf = none := by
  unfold pollReady
  cases current : self.chunk with
  | some chunk => exact flushFrom_ready_iff current (kept (by rw [current]; rfl))
  | none =>
      rcases nextChunk_cases self with ⟨ends, _⟩ | ⟨data, rest, chunk, _, goes, _⟩
      · simp [ends]
      · simp only [goes]
        exact flushFrom_ready_iff rfl rfl

theorem chunk_eq_none (kept : self.ChunkHasBuf) (given : self.buf = none)
    : self.chunk = none := by
  by_contra busy
  have buffered := kept (Option.isSome_iff_ne_none.mpr busy)
  simp [given] at buffered

/-- Without a buffer nothing is outstanding. -/
theorem outstanding_eq_nil (kept : self.ChunkHasBuf) (given : self.buf = none)
    : self.outstanding = [] := by
  simp [outstanding, chunk_eq_none kept given, given]

/-- A poll without a buffer has nothing to do. -/
theorem pollReady_buf_eq_none (answers : List PollSend) (kept : self.ChunkHasBuf)
    (given : self.buf = none)
    : (pollReady debug answers self).2.buf = none := by
  simp [pollReady, chunk_eq_none kept given, nextChunk, given]

end SendStream

end Gway.S2nQuic
