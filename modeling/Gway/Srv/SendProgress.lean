import Gway.Srv.SendSessions

/-! What it takes until a stream has sent what it holds. -/

namespace Gway.S2nQuic

open H3 (Buf)

variable {debug : Bool}

-----------------------------------------------------------------------------------------
-- Polling until everything is sent
-----------------------------------------------------------------------------------------

namespace SendStream

variable {self : SendStream} {chunk : Bytes}

/-- The chunks in which a stream sends what it holds. -/
def chunksLeft (self : SendStream) : List Bytes :=
  self.chunk.toList ++ (self.buf.map Buf.chunks).getD []

/-- A caller that polls until the stream is ready, with the answers at each poll. -/
def pollUntilReady (debug : Bool)
    : List PollSend → List (List PollSend) → SendStream → Poll × SendStream
  | answers, [], self => pollReady debug answers self
  | answers, next :: polls, self =>
      match pollReady debug answers self with
      | (.pending, self) => pollUntilReady debug next polls self
      | done => done

/-- The QUIC stream answers each call by taking a whole chunk of those given. -/
def TakesWhole (chunks : List Bytes) (answers : List PollSend) : Prop :=
  ∀ answer ∈ answers,
    answer.result = some (.ok ()) ∧ ∀ chunk ∈ chunks, chunk.length ≤ answer.taken

/-- What polls have achieved whose answers took `count` chunks. -/
structure Advanced (before : SendStream) (count : Nat) (poll : Poll) (after : SendStream)
    : Prop where
  sends : after.sent = before.sent ++ (before.chunksLeft.take count).flatten
  leaves : after.chunksLeft = before.chunksLeft.drop count
  ready : before.chunksLeft.length ≤ count → poll = .ready (.ok ())
  waits : count < before.chunksLeft.length → poll = .pending

/-- A flush that takes the whole chunk sends it and goes on. -/
theorem flush_whole (debug : Bool) (self : SendStream) {answer : PollSend}
    (succeeded : answer.result = some (.ok ())) (whole : chunk.length ≤ answer.taken)
    : flush debug self chunk answer = (none, { self.called chunk answer with chunk := none })
      ∧ (self.called chunk answer).sent = self.sent ++ chunk := by
  refine ⟨?_, by rw [sent_called, List.take_of_length_le whole]⟩
  rcases flush_cases debug self chunk answer with ⟨_, _, _, stops⟩ | ⟨flushes, _⟩
  · exact absurd (List.drop_eq_nil_of_le whole) (stops succeeded).2
  · exact flushes

/-- A buffer without bytes has no chunks. -/
theorem chunks_eq_nil {buf : Buf} (empty : buf.remaining = []) : buf.chunks = [] := by
  apply List.eq_nil_iff_forall_not_mem.mpr
  intro chunk inside
  exact buf.nonempty chunk inside (List.flatten_eq_nil_iff.mp empty chunk inside)

theorem chunks_eq_cons {buf : Buf} (inside : buf.chunk ≠ [])
    : buf.chunks = buf.chunk :: buf.chunks.tail := by
  obtain ⟨chunks, nonempty⟩ := buf
  cases chunks with
  | nil => exact absurd rfl inside
  | cons first rest => rfl

/-- The loop ends when no chunks are left; otherwise it takes the first of them. -/
theorem nextChunk_left (idle : self.chunk = none)
    : (∃ after,
        nextChunk self = (none, after)
        ∧ after.stream = self.stream
        ∧ self.chunksLeft = []
        ∧ after.chunksLeft = [])
      ∨ ∃ chunk after,
          nextChunk self = (some chunk, after)
          ∧ after.stream = self.stream
          ∧ after.chunk = some chunk
          ∧ after.chunksLeft = self.chunksLeft := by
  rcases nextChunk_cases self with
    ⟨ends, empty⟩ | ⟨data, rest, chunk, held, goes, first, inside, tail, _⟩
  · refine .inl ⟨_, ends, rfl, ?_, by simp [chunksLeft, idle]⟩
    cases held : self.buf with
    | none => simp [chunksLeft, idle, held]
    | some data =>
        have no_bytes : data.remaining = [] := by simpa [held] using empty
        simpa [chunksLeft, idle, held] using chunks_eq_nil no_bytes
  · refine .inr ⟨chunk, _, goes, rfl, rfl, ?_⟩
    subst first
    simp [chunksLeft, idle, held, tail, ← chunks_eq_cons inside]

/-- A chunk sent before the others is one more. -/
theorem Advanced.cons {middle after : SendStream} {count : Nat} {poll : Poll}
    (left : self.chunksLeft = chunk :: middle.chunksLeft)
    (sent_chunk : middle.sent = self.sent ++ chunk)
    (later : Advanced middle count poll after)
    : Advanced self (count + 1) poll after := by
  constructor
  · rw [later.sends, sent_chunk, left, List.take_succ_cons, List.flatten_cons,
      List.append_assoc]
  · rw [later.leaves, left, List.drop_succ_cons]
  · intro enough
    apply later.ready
    rw [left, List.length_cons] at enough
    omega
  · intro short
    apply later.waits
    rw [left, List.length_cons] at short
    omega

/-- Nothing is left to send when the loop ends. -/
theorem Advanced.ended {after : SendStream} (same : after.stream = self.stream)
    (nothing : self.chunksLeft = []) (left : after.chunksLeft = []) (count : Nat)
    : Advanced self count (.ready (.ok ())) after := by
  have sent_eq : after.sent = self.sent := by rw [sent, sent, same]
  constructor
  · simp [sent_eq, nothing]
  · simp [nothing, left]
  · exact fun _ => rfl
  · simp [nothing]

/-- The second half of the loop has no effect on what is sent. -/
theorem Advanced.of_same {middle after : SendStream} {count : Nat} {poll : Poll}
    (same : middle.stream = self.stream) (left : middle.chunksLeft = self.chunksLeft)
    (later : Advanced middle count poll after)
    : Advanced self count poll after := by
  have sent_eq : middle.sent = self.sent := by rw [sent, sent, same]
  obtain ⟨sends, leaves, ready, waits⟩ := later
  rw [left] at sends leaves ready waits
  exact ⟨by rw [sends, sent_eq], leaves, ready, waits⟩

/-- Answers that take whole chunks advance a poll by one chunk each, by induction on them. -/
theorem flushFrom_advanced {answers : List PollSend} (current : self.chunk = some chunk)
    (whole : TakesWhole self.chunksLeft answers)
    : Advanced self answers.length (flushFrom debug self chunk answers).1
        (flushFrom debug self chunk answers).2 := by
  induction answers generalizing self chunk with
  | nil =>
      have left : self.chunksLeft = chunk :: (self.buf.map Buf.chunks).getD [] := by
        simp [chunksLeft, current]
      constructor
      · simp [flushFrom, flush, sent, QuicCall.bytesTaken]
      · simp [flushFrom, flush, chunksLeft, current]
      · simp [left]
      · exact fun _ => rfl
  | cons answer answers ih =>
      obtain ⟨⟨succeeded, fits⟩, later⟩ := List.forall_mem_cons.mp whole
      have left
          : self.chunksLeft
            = chunk :: { self.called chunk answer with chunk := none }.chunksLeft := by
        simp [chunksLeft, current, called]
      obtain ⟨flushes, sent_chunk⟩ := flush_whole debug self succeeded
        (fits chunk (by simp [left]))
      simp only [flushFrom, flushes, List.length_cons]
      refine Advanced.cons left sent_chunk ?_
      have idle : { self.called chunk answer with chunk := none }.chunk = none := rfl
      rcases nextChunk_left idle with
        ⟨after, ends, same, nothing, empty⟩ | ⟨next, after, goes, same, taken, kept⟩
      · simp only [ends]
        exact .ended same nothing empty _
      · simp only [goes]
        refine .of_same same kept (ih taken fun answer inside => ?_)
        obtain ⟨ok, fits⟩ := later answer inside
        exact ⟨ok, fun chunk' among => fits chunk' (by rw [left, ← kept]; simp [among])⟩

theorem pollReady_advanced (debug : Bool) {self : SendStream} {answers : List PollSend}
    (whole : TakesWhole self.chunksLeft answers)
    : Advanced self answers.length (pollReady debug answers self).1
        (pollReady debug answers self).2 := by
  unfold pollReady
  cases current : self.chunk with
  | some chunk => exact flushFrom_advanced current whole
  | none =>
      rcases nextChunk_left current with
        ⟨after, ends, same, nothing, empty⟩ | ⟨next, after, goes, same, taken, kept⟩
      · simp only [ends]
        exact .ended same nothing empty _
      · simp only [goes]
        exact .of_same same kept (flushFrom_advanced taken (kept.symm ▸ whole))

/-- Two polls in a row, the first of which did not suffice, are as good as one. -/
theorem Advanced.append {middle after : SendStream} {count more : Nat} {first poll : Poll}
    (early : Advanced self count first middle) (late : Advanced middle more poll after)
    (short : count < self.chunksLeft.length)
    : Advanced self (count + more) poll after := by
  have lengths : middle.chunksLeft.length = self.chunksLeft.length - count := by
    rw [early.leaves, List.length_drop]
  constructor
  · rw [late.sends, early.sends, early.leaves, List.take_add, List.flatten_append,
      List.append_assoc]
  · rw [late.leaves, early.leaves, List.drop_drop]
  · intro enough
    apply late.ready
    omega
  · intro not_yet
    apply late.waits
    omega

/-- More answers than there are chunks are not asked for. -/
theorem Advanced.more {after : SendStream} {count more : Nat} {poll : Poll}
    (early : Advanced self count poll after) (enough : self.chunksLeft.length ≤ count)
    : Advanced self (count + more) poll after := by
  have also : self.chunksLeft.length ≤ count + more := by omega
  constructor
  · rw [early.sends, List.take_of_length_le enough, List.take_of_length_le also]
  · rw [early.leaves, List.drop_of_length_le enough, List.drop_of_length_le also]
  · exact fun _ => early.ready enough
  · omega

/-- However the answers of the QUIC stream are spread over the polls, each of them sends the
next chunk, and the caller goes on exactly when there has been an answer for each chunk.
Witness: induction on the later polls.
-/
theorem pollUntilReady_advanced {answers : List PollSend} {polls : List (List PollSend)}
    (whole : TakesWhole self.chunksLeft (answers ++ polls.flatten))
    : Advanced self (answers ++ polls.flatten).length
        (pollUntilReady debug answers polls self).1
        (pollUntilReady debug answers polls self).2 := by
  induction polls generalizing self answers with
  | nil =>
      rw [List.flatten_nil, List.append_nil] at whole ⊢
      exact pollReady_advanced debug whole
  | cons next polls ih =>
      obtain ⟨first, later⟩ := List.forall_mem_append.mp whole
      have early := pollReady_advanced debug first
      rw [List.length_append]
      rcases Nat.lt_or_ge answers.length self.chunksLeft.length with short | enough
      · have waits := early.waits short
        have unfolded
            : pollUntilReady debug answers (next :: polls) self
              = pollUntilReady debug next polls (pollReady debug answers self).2 := by
          rw [pollUntilReady]
          rcases polled : pollReady debug answers self with ⟨poll, after⟩
          rw [polled] at waits
          cases waits
          rfl
        rw [unfolded]
        refine early.append (ih fun answer inside => ?_) short
        obtain ⟨ok, fits⟩ := later answer (by simpa using inside)
        refine ⟨ok, fun chunk among => fits chunk ?_⟩
        rw [early.leaves] at among
        exact List.mem_of_mem_drop among
      · have ready := early.ready enough
        have unfolded
            : pollUntilReady debug answers (next :: polls) self
              = pollReady debug answers self := by
          rw [pollUntilReady]
          rcases polled : pollReady debug answers self with ⟨poll, after⟩
          rw [polled] at ready
          cases ready
          rfl
        rw [unfolded]
        exact early.more enough

/-- Two chunks are sent in two polls. -/
theorem pollUntilReady_advanced_two_chunks
    : (pollUntilReady true [{ taken := 2, result := some (.ok ()) }]
        [[{ taken := 2, result := some (.ok ()) }]] { new with buf := some twoChunks }).1
      = .ready (.ok ()) := by
  have whole
      : TakesWhole { new with buf := some twoChunks }.chunksLeft
          ([{ taken := 2, result := some (.ok ()) }]
            ++ [[{ taken := 2, result := some (.ok ()) }]].flatten) := by
    simp [TakesWhole, chunksLeft, new, twoChunks]
  exact (pollUntilReady_advanced whole).ready (Nat.le_refl 2)

end SendStream

end Gway.S2nQuic
