import Gway.Srv.SendStream

/-! The sending half of a stream over all calls that are made on it. Whatever the QUIC stream
answers, it is given what was accepted for sending, in that order and nothing twice.
-/

namespace Gway.S2nQuic

open H3 (Buf)

-----------------------------------------------------------------------------------------
-- Sessions
-----------------------------------------------------------------------------------------

/-- A stream in use. `accepted` is the data of all calls of `send_data` that were accepted, and
`drained` says that since the last of them a poll has gone to the end of its loop.
-/
structure Session where
  stream : SendStream
  accepted : Bytes
  drained : Bool

/-- A call, with what the QUIC stream answers meanwhile. -/
inductive Call where
  | sendData (data : Buf)
  | pollReady (answers : List PollSend)
  | pollFinish (answers : List PollSend) (finished : Except StreamError Unit)
  | reset (resetCode : UInt64)

namespace Session

def new : Session :=
  { stream := .new, accepted := [], drained := true }

/-- What a call makes of the session. -/
def call (debug : Bool) (session : Session) : Call → Session
  | .sendData data =>
      match session.stream.sendData data with
      | (.ok (), stream) =>
          { stream, accepted := session.accepted ++ data.remaining, drained := false }
      | (.error _, stream) => { session with stream }
  | .pollReady answers =>
      let (poll, stream) := session.stream.pollReady debug answers
      { session with stream, drained := session.drained || poll = .ready (.ok ()) }
  | .pollFinish answers finished =>
      let (poll, _) := session.stream.pollReady debug answers
      { session with
        stream := (session.stream.pollFinish debug answers finished).2
        drained := session.drained || poll = .ready (.ok ()) }
  | .reset resetCode => { session with stream := session.stream.reset resetCode }

end Session

/-- Every call is possible at any time. -/
def sessions (debug : Bool) : Machine Session Call where
  init := .new
  step session call := some (session.call debug call)

/-- A session accounts for what it accepted: a part of it, in order, has been sent or waits,
and the rest has been let go. It is drained exactly if it has no buffer.
-/
structure Accounted (debug : Bool) (session : Session) : Prop where
  sublist
    : (session.stream.sent ++ session.stream.outstanding).Sublist session.accepted
  length
    : session.stream.sent.length + session.stream.outstanding.length
        + session.stream.lost debug
      = session.accepted.length
  chunkHasBuf : session.stream.ChunkHasBuf
  drained_iff : session.drained = true ↔ session.stream.buf = none

variable {debug : Bool}

theorem accounted_new : Accounted debug .new := by
  refine ⟨.refl _, ?_, nofun, by simp [Session.new, SendStream.new]⟩
  cases debug <;> rfl

/-- Moving bytes keeps the account. -/
theorem Moves.accounted {session after : Session} (kept : Accounted debug session)
    (moves : Moves debug session.stream after.stream)
    (same : after.accepted = session.accepted)
    (chunkHasBuf : after.stream.ChunkHasBuf)
    (drained : after.drained = true ↔ after.stream.buf = none)
    : Accounted debug after where
  sublist := same ▸ moves.sublist.trans kept.sublist
  length := same ▸ moves.length.trans kept.length
  chunkHasBuf := chunkHasBuf
  drained_iff := drained

/-- A call that the QUIC stream takes no bytes in moves none. -/
theorem moves_of_call {self : SendStream} {call : QuicCall} (taken : call.bytesTaken = [])
    (lost : call.bytesLost = [])
    : Moves debug self { self with stream := self.stream ++ [call] } := by
  have sent_eq : { self with stream := self.stream ++ [call] }.sent = self.sent := by
    simp [SendStream.sent, taken]
  have lost_eq
      : { self with stream := self.stream ++ [call] }.lost debug = self.lost debug := by
    simp [SendStream.lost, lost]
  exact ⟨by rw [sent_eq]; exact .refl _, by rw [sent_eq, lost_eq]; rfl⟩

/-- Whether the session is drained after a poll, in terms of the buffer. -/
theorem drained_after_poll {session : Session} (kept : Accounted debug session)
    (answers : List PollSend)
    : (session.drained || (session.stream.pollReady debug answers).1 = .ready (.ok ())) = true
      ↔ (session.stream.pollReady debug answers).2.buf = none := by
  rw [Bool.or_eq_true, decide_eq_true_iff, kept.drained_iff,
    SendStream.pollReady_ready_iff answers kept.chunkHasBuf]
  refine or_iff_right_of_imp fun given => ?_
  exact SendStream.pollReady_buf_eq_none answers kept.chunkHasBuf given

/-- Data is accepted exactly without a buffer, and then it is all that is outstanding. -/
theorem accounted_sendData {session : Session} (data : Buf) (kept : Accounted debug session)
    : Accounted debug (session.call debug (.sendData data)) := by
  cases given : session.stream.buf with
  | some held =>
      simpa [Session.call, SendStream.sendData, given] using kept
  | none =>
      have nothing := SendStream.outstanding_eq_nil kept.chunkHasBuf given
      have outstanding
          : { session.stream with buf := some data }.outstanding = data.remaining := by
        simp [SendStream.outstanding, SendStream.chunk_eq_none kept.chunkHasBuf given]
      have sublist := kept.sublist
      have length := kept.length
      rw [nothing, List.append_nil] at sublist
      rw [nothing, List.length_nil, Nat.add_zero] at length
      have called
          : session.call debug (.sendData data)
            = { stream := { session.stream with buf := some data },
                accepted := session.accepted ++ data.remaining,
                drained := false } := by
        simp [Session.call, SendStream.sendData, given]
      rw [called]
      constructor
      · rw [outstanding]
        exact sublist.append_right data.remaining
      · rw [outstanding, List.length_append, ← length]
        change session.stream.sent.length + _ + session.stream.lost debug = _
        omega
      · exact fun _ => rfl
      · simp

/-- `finish` is called on the QUIC stream exactly if the poll before it succeeds. -/
theorem pollFinish_cases (debug : Bool) (answers : List PollSend)
    (finished : Except StreamError Unit) (self : SendStream)
    : (self.pollReady debug answers).1 = .ready (.ok ())
        ∧ (self.pollFinish debug answers finished).2
          = { (self.pollReady debug answers).2 with
              stream := (self.pollReady debug answers).2.stream ++ [.finish finished] }
      ∨ (self.pollReady debug answers).1 ≠ .ready (.ok ())
        ∧ (self.pollFinish debug answers finished).2 = (self.pollReady debug answers).2 := by
  unfold SendStream.pollFinish
  rcases self.pollReady debug answers with ⟨_ | (err | _) | _, polled⟩
  · exact .inr ⟨by simp, rfl⟩
  · exact .inr ⟨by simp, rfl⟩
  · exact .inl ⟨rfl, rfl⟩
  · exact .inr ⟨by simp, rfl⟩

/-- Every call keeps the account. -/
theorem accounted_call {session : Session} (call : Call) (kept : Accounted debug session)
    : Accounted debug (session.call debug call) := by
  cases call with
  | sendData data => exact accounted_sendData data kept
  | pollReady answers =>
      exact (SendStream.pollReady_moves debug answers session.stream).accounted kept rfl
        (SendStream.pollReady_chunkHasBuf debug answers kept.chunkHasBuf)
        (drained_after_poll kept answers)
  | pollFinish answers finished =>
      have polled := SendStream.pollReady_moves debug answers session.stream
      have held
          := SendStream.pollReady_chunkHasBuf debug answers kept.chunkHasBuf
      have drained := drained_after_poll kept answers
      simp only [Session.call]
      rcases pollFinish_cases debug answers finished session.stream with
        ⟨_, stream⟩ | ⟨_, stream⟩
      · rw [stream]
        exact (polled.trans (moves_of_call rfl rfl)).accounted kept rfl held drained
      · rw [stream]
        exact polled.accounted kept rfl held drained
  | reset resetCode =>
      exact (moves_of_call rfl rfl).accounted kept rfl kept.chunkHasBuf kept.drained_iff

/-- Every reachable session accounts for its data, by induction on the calls. -/
theorem accounted_of_reachable {session : Session}
    (reached : (sessions debug).Reachable session)
    : Accounted debug session := by
  refine reached.invariant accounted_new fun before call after kept stepped => ?_
  cases Option.some.inj stepped
  exact accounted_call call kept

-----------------------------------------------------------------------------------------
-- Nothing is lost
-----------------------------------------------------------------------------------------

/-- No bytes are let go exactly if each call that succeeded took its whole chunk, or if a
debug build panics otherwise.
-/
theorem lost_eq_zero_iff {self : SendStream}
    : self.lost debug = 0
      ↔ debug = true
        ∨ ∀ chunk answer,
            .pollSend chunk answer ∈ self.stream
            → answer.result = some (.ok ())
            → chunk.length ≤ answer.taken := by
  cases debug with
  | true => simp [SendStream.lost]
  | false =>
      simp only [SendStream.lost, Bool.false_eq_true, if_false, false_or,
        List.length_eq_zero_iff, List.flatMap_eq_nil_iff]
      constructor
      · intro none chunk answer made succeeded
        have nothing := none _ made
        rw [SendStream.bytesLost_of_succeeded succeeded] at nothing
        exact List.drop_eq_nil_iff.mp nothing
      · intro whole call made
        cases call with
        | pollSend chunk answer =>
            by_cases succeeded : answer.result = some (.ok ())
            · rw [SendStream.bytesLost_of_succeeded succeeded]
              exact List.drop_eq_nil_iff.mpr (whole chunk answer made succeeded)
            · exact SendStream.bytesLost_of_failed succeeded
        | finish _ => rfl
        | reset _ => rfl

/-- After any calls, what the QUIC stream has taken and what still waits are together a part of
the accepted data, in order and without repetition. They are all of it exactly if each
successful call has taken its whole chunk, which a debug build asserts.
-/
theorem sessions_conserve_data {calls : List Call} {final : Session}
    (ran : (sessions debug).run .new calls = some final)
    : (final.stream.sent ++ final.stream.outstanding).Sublist final.accepted
      ∧ (final.stream.sent ++ final.stream.outstanding = final.accepted
        ↔ debug = true
          ∨ ∀ chunk answer,
              .pollSend chunk answer ∈ final.stream.stream
              → answer.result = some (.ok ())
              → chunk.length ≤ answer.taken) := by
  have kept := accounted_of_reachable ⟨calls, ran⟩
  have length := kept.length
  refine ⟨kept.sublist, ?_⟩
  rw [← lost_eq_zero_iff]
  constructor
  · intro same
    have lengths := congrArg List.length same
    rw [List.length_append] at lengths
    omega
  · intro nothing
    apply kept.sublist.eq_of_length
    rw [List.length_append]
    omega

/-- A buffer of two chunks. -/
def twoChunks : Buf where
  chunks := [[1, 2], [3]]
  nonempty := by decide

/-- The second chunk waits when the QUIC stream has answered once. -/
theorem sessions_conserve_data_two_chunks
    : ∃ final,
        (sessions true).run .new
            [.sendData twoChunks, .pollReady [{ taken := 2, result := some (.ok ()) }]]
          = some final
        ∧ final.stream.sent ++ final.stream.outstanding = final.accepted := by
  refine ⟨_, rfl, ?_⟩
  exact (sessions_conserve_data (rfl : (sessions true).run .new
    [.sendData twoChunks, .pollReady [{ taken := 2, result := some (.ok ()) }]]
      = some _)).2.mpr (.inl rfl)

-----------------------------------------------------------------------------------------
-- The order of the calls
-----------------------------------------------------------------------------------------

/-- A poll calls nothing but `poll_send` on the QUIC stream. -/
theorem pollReady_calls (debug : Bool) (answers : List PollSend) (self : SendStream)
    : ∃ calls,
        (self.pollReady debug answers).2.stream = self.stream ++ calls
        ∧ ∀ result, .finish result ∉ calls := by
  apply SendStream.pollReady_rule
    (fun before after : SendStream =>
      ∃ calls, after.stream = before.stream ++ calls ∧ ∀ result, .finish result ∉ calls)
  · rintro first second third ⟨early, stream, no_finish⟩ ⟨late, stream', no_finish'⟩
    refine ⟨early ++ late, by rw [stream', stream, List.append_assoc], fun result => ?_⟩
    simp [no_finish, no_finish']
  · intro self chunk answer _
    refine ⟨[.pollSend chunk answer], ?_, by simp⟩
    rcases SendStream.flush_cases debug self chunk answer with ⟨_, flushes, _⟩ | ⟨flushes, _⟩
    · rw [flushes]
      rfl
    · rw [flushes]
      rfl
  · intro self _
    refine ⟨[], ?_, by simp⟩
    rcases SendStream.nextChunk_cases self with ⟨ends, _⟩ | ⟨_, _, _, _, goes, _⟩
    · simp [ends]
    · simp [goes]

/-- Data is accepted exactly if a poll has gone to its end since data was accepted last.
Then nothing waits any more, and so it is when `finish` is called on the QUIC stream.
-/
structure InTurn (debug : Bool) (session : Session) : Prop where
  accepts : ∀ data, (session.stream.sendData data).1 = .ok () ↔ session.drained = true
  drained : session.drained = true → session.stream.outstanding = []
  finishes
    : ∀ answers finished result calls,
        (session.stream.pollFinish debug answers finished).2.stream
          = session.stream.stream ++ calls
        → .finish result ∈ calls
        → (session.stream.pollFinish debug answers finished).2.outstanding = []

theorem inTurn_of_reachable {session : Session}
    (reached : (sessions debug).Reachable session)
    : InTurn debug session := by
  have kept := accounted_of_reachable reached
  constructor
  · intro data
    rw [kept.drained_iff]
    cases given : session.stream.buf <;> simp [SendStream.sendData, given]
  · intro drained
    exact SendStream.outstanding_eq_nil kept.chunkHasBuf (kept.drained_iff.mp drained)
  · intro answers finished result calls appended finish
    have held
        := SendStream.pollReady_chunkHasBuf debug answers kept.chunkHasBuf
    rcases pollFinish_cases debug answers finished session.stream with
      ⟨ready, stream⟩ | ⟨_, stream⟩
    · rw [stream]
      have given := (SendStream.pollReady_ready_iff answers kept.chunkHasBuf).mp ready
      exact SendStream.outstanding_eq_nil held given
    · obtain ⟨polled, only, no_finish⟩ := pollReady_calls debug answers session.stream
      rw [stream, only] at appended
      rw [List.append_cancel_left appended] at no_finish
      exact absurd finish (no_finish result)

/-- A second call of `send_data` is refused while the first chunk waits. -/
theorem inTurn_of_reachable_two_chunks
    : InTurn true
        ((Session.new.call true (.sendData twoChunks)).call true (.pollReady [])) :=
  inTurn_of_reachable ⟨[.sendData twoChunks, .pollReady []], rfl⟩

end Gway.S2nQuic
