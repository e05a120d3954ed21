import Colloquy.Proofs.Chat.Ending
import Colloquy.Proofs.Response.Draining

/-! How the response of a streamed body comes out. Only reasoning after a part of the
answer is rejected; else the last failure that was told is returned with what there
is of the response, or the response if none was told. -/
namespace Colloquy.Chat

open Sse (Arrival)

theorem telling_decodeAll (chunks : List Chunk) : Telling (ChunkDecoder.decodeAll {} chunks).2 where
  kinds := (ChunkDecoder.decoded_decodeAll {} chunks).kinds
  single := length_info?_decodeAll chunks

theorem outcome_responseOfBody (opening : Opening) (body : List Arrival) :
    Outcome (events body) (responseOfBody opening body) := by
  obtain ⟨last, -, kind, whole⟩ := exists_events_eq body
  rw [responseOfBody, Response.ofStream, whole]
  apply outcome_collect opening (telling_decodeAll _) last
  rw [kind]
  split
  next => exact Or.inl rfl
  next => exact Or.inr rfl

/-- Whatever a body holds, there is a response, or a failure that was told, or reasoning
that came late; each of them exactly when the events say so. -/
theorem responseOfBody_fails_iff (opening : Opening) (body : List Arrival) :
    ((∃ cause partial_, responseOfBody opening body = .error (.aggregation cause partial_)) ↔
        reasonsLate (events body) = true) ∧
      (∀ cause partial_, responseOfBody opening body = .error (.aggregation cause partial_) →
        cause = .invalidTransition .reasoning .text ∨ cause = .invalidTransition .reasoning .toolCall) ∧
      (∀ message, (∃ partial_, responseOfBody opening body = .error (.streamFailure ⟨message, partial_⟩)) ↔
        reasonsLate (events body) = false ∧ lastError? (events body) = some message) ∧
      ((∃ response, responseOfBody opening body = .ok response) ↔
        reasonsLate (events body) = false ∧ lastError? (events body) = none) ∧
      ∀ failure, responseOfBody opening body = .error failure →
        (∃ cause partial_, failure = .aggregation cause partial_) ∨
          ∃ message partial_, failure = .streamFailure ⟨message, partial_⟩ := by
  have outcome := outcome_responseOfBody opening body
  refine ⟨outcome.aggregation_iff, ?_, outcome.streamFailure_iff, outcome.ok_iff, ?_⟩
  · intro cause partial_ rejected
    rw [rejected] at outcome
    exact outcome.cause
  · intro failure failed
    rw [failed] at outcome
    exact outcome.failure

theorem interrupted_of_drained {opening : Opening} {chunks : List Chunk} {b : Builder}
    (drained : Drained opening (ChunkDecoder.decodeAll {} chunks).2 b)
    (added : (Builder.empty.addOpening opening).addAll (ChunkDecoder.decodeAll {} chunks).2 = .ok b) :
    Interrupted opening chunks b.response := by
  have reads := Builder.reads_addAll (b := Builder.empty.addOpening opening) Builder.reads_empty _ added
  rw [List.nil_append] at reads
  have response := drained.response
  rw [info?_decodeAll, Option.head?_toList] at response
  refine
    { content := reads.content, responseInfo := ?_, opened := ?_, usage := ?_, finishReason := ?_,
      logProbs := ?_ }
  · rw [response]
  · rw [response]
  · rw [response]
    rfl
  · rw [response]
    rfl
  · rw [response]
    rfl

/-- A stream that fails leaves what was told before the failure. What the decoder keeps
for the end of the stream, the usage, the finish reason and the log probabilities, is
not part of it, as only the end releases it. -/
theorem interrupted_of_failure (opening : Opening) (body : List Arrival) (failure : Failure)
    (ends : failure? (Sse.decode body) = some failure)
    (accepted : ∃ b, (Builder.empty.addOpening opening).addAll (events body) = .ok b) :
    ∃ partial_, responseOfBody opening body = .error (.streamFailure ⟨failure.message, partial_⟩) ∧
      Interrupted opening (leadingChunks (Sse.decode body)) partial_ := by
  obtain ⟨last, released, -, whole⟩ := exists_events_eq body
  have telling := telling_decodeAll (leadingChunks (Sse.decode body))
  have failing : last = .error failure.message := by
    rw [terminal?, ends] at released
    exact (Option.some.inj released).symm
  obtain ⟨final, taken⟩ := accepted
  rw [whole] at taken
  -- Late reasoning would have been rejected.
  have timely := timely_of_addAll opening telling [last] final taken
  obtain ⟨b, added, drained⟩ := drained_of_timely opening telling timely
  refine ⟨b.response, ?_, interrupted_of_drained drained added⟩
  rw [responseOfBody, Response.ofStream, whole, Builder.collect_append _ _ added, failing]
  exact drained.collect_error _

/-- One chunk with all that a chunk can tell, and then the connection is lost. -/
def brokenOff : List Arrival :=
  let scores := "\x7b\"content\":[\x7b\"token\":\"ok\",\"logprob\":-0.5\x7d]\x7d"
  let choice :=
    "\x7b\"delta\":\x7b\"content\":\"ok\"\x7d,\"finish_reason\":\"stop\",\"logprobs\":" ++ scores ++ "\x7d"
  let usage := "\x7b\"prompt_tokens\":3,\"completion_tokens\":1\x7d"
  [.bytes ("data: \x7b\"choices\":[" ++ choice ++ "],\"usage\":" ++ usage ++ "\x7d\n\n").toUTF8.toList,
    .failure (.transport "reset")]

-- The body is read once for all of these facts.
theorem reading_brokenOff :
    (failure? (Sse.decode brokenOff)).map Failure.message = some "transport error: reset" ∧
      ((Builder.empty.addOpening {}).addAll (events brokenOff)).toOption.map (fun b =>
          (b.error, b.response.usage, b.response.finishReason, b.response.logProbs.length)) =
        some (some "transport error: reset", {}, none, 0) ∧
      lastUsage (leadingChunks (Sse.decode brokenOff)) = some { inputTokens := 3, outputTokens := 1 } ∧
      lastReason (leadingChunks (Sse.decode brokenOff)) = some "stop" ∧
      (tokenScores (leadingChunks (Sse.decode brokenOff))).length = 1 := by
  decide +kernel

theorem taken_brokenOff :
    ∃ b, (Builder.empty.addOpening {}).addAll (events brokenOff) = .ok b ∧
      b.error = some "transport error: reset" ∧ b.response.usage = {} ∧
      b.response.finishReason = none ∧ b.response.logProbs = [] := by
  obtain ⟨-, taken, -⟩ := reading_brokenOff
  obtain ⟨b, added, told⟩ := Option.map_eq_some_iff.mp taken
  simp only [Prod.mk.injEq, List.length_eq_zero_iff] at told
  refine ⟨b, ?_, told⟩
  cases result : (Builder.empty.addOpening {}).addAll (events brokenOff) with
  | error rejection => rw [result] at added; cases added
  | ok last => rw [result] at added; cases added; rfl

theorem interrupted_brokenOff :
    ∃ failure partial_, failure? (Sse.decode brokenOff) = some failure ∧
      (∃ b, (Builder.empty.addOpening {}).addAll (events brokenOff) = .ok b) ∧
      responseOfBody {} brokenOff = .error (.streamFailure ⟨failure.message, partial_⟩) ∧
      Interrupted {} (leadingChunks (Sse.decode brokenOff)) partial_ := by
  obtain ⟨failing, -⟩ := reading_brokenOff
  obtain ⟨failure, ends, -⟩ := Option.map_eq_some_iff.mp failing
  obtain ⟨b, added, -⟩ := taken_brokenOff
  obtain ⟨partial_, failed, interrupted⟩ := interrupted_of_failure {} brokenOff failure ends ⟨b, added⟩
  exact ⟨failure, partial_, ends, ⟨b, added⟩, failed, interrupted⟩

/-- None of what is only released at the end is in the response. -/
theorem withheld_brokenOff :
    ∃ failure partial_, failure? (Sse.decode brokenOff) = some failure ∧
      (∃ b, (Builder.empty.addOpening {}).addAll (events brokenOff) = .ok b) ∧
      responseOfBody {} brokenOff = .error (.streamFailure ⟨failure.message, partial_⟩) ∧
      (∃ report, lastUsage (leadingChunks (Sse.decode brokenOff)) = some report ∧
        partial_.usage ≠ report.usage) ∧
      (∃ reason, lastReason (leadingChunks (Sse.decode brokenOff)) = some reason ∧
        partial_.finishReason ≠ some (finishReason (some reason))) ∧
      partial_.logProbs ≠ (tokenScores (leadingChunks (Sse.decode brokenOff))).map TokenScore.logProbOf := by
  obtain ⟨failing, -, usage_, reason_, scores_⟩ := reading_brokenOff
  obtain ⟨failure, ends, message⟩ := Option.map_eq_some_iff.mp failing
  obtain ⟨b, added, failed, usage, reason, logProbs⟩ := taken_brokenOff
  refine ⟨failure, b.response, ends, ⟨b, added⟩, ?_, ⟨_, usage_, ?_⟩, ⟨_, reason_, ?_⟩, ?_⟩
  · rw [responseOfBody, Response.ofStream, Builder.collect_of_addAll _ added, Builder.build, failed, message]
    rfl
  · rw [usage]
    decide
  · rw [reason]
    simp
  · rw [logProbs]
    intro same
    have empty := congrArg List.length same
    rw [List.length_map, scores_] at empty
    cases empty

end Colloquy.Chat
