import Colloquy.Chat.Ending
import Colloquy.Proofs.Chat.Decoding

/-! The end of the events of a streamed body. They are told by the chunks before the
item that ends the stream, and one event more says how it ended; nothing that comes
later has a say in them. -/
namespace Colloquy.Sse.Decoder

/-- A body in two parts: the second is asked for only by a decoder that is not done. -/
theorem run_append (d : Decoder) (before after : List Arrival) (unended : d.done = false) :
    d.run (before ++ after) =
      (d.read before).2 ++ if (d.read before).1.done then [] else (d.read before).1.run after := by
  induction before generalizing d with
  | nil => simp [read, unended]
  | cons arrival rest ih =>
    cases arrival with
    | notReady => exact ih d unended
    | failure failure =>
      rw [List.cons_append, run, ih d unended]
      rfl
    | bytes chunk =>
      rw [List.cons_append, run, read]
      cases done : (d.feed chunk).1.done with
      | true => simp [done]
      | false => simp [done, ih _ done]

end Colloquy.Sse.Decoder

namespace Colloquy.Chat

open Sse (Arrival Frame)

theorem leadingChunks_ending (item : Except Failure Frame) (rest : List (Except Failure Frame))
    (ends : chunk? item = none) : leadingChunks (item :: rest) = [] := by
  simp [leadingChunks, endsStream, ends]

theorem leadingChunks_chunk (item : Except Failure Frame) (rest : List (Except Failure Frame))
    (chunk : Chunk) (holds : chunk? item = some chunk) :
    leadingChunks (item :: rest) = chunk :: leadingChunks rest := by
  simp [leadingChunks, endsStream, holds]

theorem failure?_ending (item : Except Failure Frame) (rest : List (Except Failure Frame))
    (ends : chunk? item = none) : failure? (item :: rest) = failureOf? item := by
  simp [failure?, endsStream, ends]

theorem failure?_chunk (item : Except Failure Frame) (rest : List (Except Failure Frame))
    (chunk : Chunk) (holds : chunk? item = some chunk) : failure? (item :: rest) = failure? rest := by
  simp [failure?, endsStream, holds]

theorem eventsFrom_ending (d : ChunkDecoder) (item : Except Failure Frame)
    (rest : List (Except Failure Frame)) (ends : chunk? item = none) :
    eventsFrom d (item :: rest) = (terminal? d [item]).toList := by
  rw [terminal?, failure?_ending item [] ends]
  cases item with
  | error failure => rfl
  | ok frame =>
    cases frame with
    | done => rfl
    | data text =>
      have unread : Chunk.parse? text = none := ends
      simp only [eventsFrom, ChunkDecoder.decodeText, unread, failureOf?, Option.toList_some]

theorem eventsFrom_chunk (d : ChunkDecoder) (item : Except Failure Frame)
    (rest : List (Except Failure Frame)) (chunk : Chunk) (holds : chunk? item = some chunk) :
    eventsFrom d (item :: rest) = (d.decode chunk).2 ++ eventsFrom (d.decode chunk).1 rest := by
  cases item with
  | error failure => cases holds
  | ok frame =>
    cases frame with
    | done => cases holds
    | data text =>
      have read : Chunk.parse? text = some chunk := holds
      simp only [eventsFrom, ChunkDecoder.decodeText, read]

theorem eventsFrom_eq (d : ChunkDecoder) (items : List (Except Failure Frame)) :
    eventsFrom d items = (d.decodeAll (leadingChunks items)).2 ++
      (terminal? (d.decodeAll (leadingChunks items)).1 items).toList := by
  induction items generalizing d with
  | nil => rfl
  | cons item rest ih =>
    cases holds : chunk? item with
    | none =>
      rw [eventsFrom_ending d item rest holds, leadingChunks_ending item rest holds, terminal?, terminal?,
        failure?_ending item rest holds, failure?_ending item [] holds]
      rfl
    | some chunk =>
      rw [eventsFrom_chunk d item rest chunk holds, ih, leadingChunks_chunk item rest chunk holds,
        terminal?, terminal?, failure?_chunk item rest chunk holds]
      simp only [ChunkDecoder.decodeAll, List.append_assoc]

/-- Items after one that ends the stream are not looked at. -/
theorem eventsFrom_append_of_ends (d : ChunkDecoder) (items more : List (Except Failure Frame))
    (ends : items.any endsStream = true) : eventsFrom d (items ++ more) = eventsFrom d items := by
  induction items generalizing d with
  | nil => cases ends
  | cons item rest ih =>
    rw [List.cons_append]
    cases holds : chunk? item with
    | none => rw [eventsFrom_ending d item _ holds, eventsFrom_ending d item _ holds]
    | some chunk =>
      have later : rest.any endsStream = true := by simpa [endsStream, holds] using ends
      rw [eventsFrom_chunk d item _ chunk holds, eventsFrom_chunk d item _ chunk holds, ih _ later]

theorem eventsFrom_append_of_goes (d : ChunkDecoder) (items more : List (Except Failure Frame))
    (goes : items.any endsStream = false) :
    eventsFrom d (items ++ more) = (d.decodeAll (items.filterMap chunk?)).2 ++
      eventsFrom (d.decodeAll (items.filterMap chunk?)).1 more := by
  induction items generalizing d with
  | nil => rfl
  | cons item rest ih =>
    rw [List.any_cons, Bool.or_eq_false_iff] at goes
    cases holds : chunk? item with
    | none => simp [endsStream, holds] at goes
    | some chunk =>
      rw [List.cons_append, eventsFrom_chunk d item _ chunk holds, ih _ goes.2,
        List.filterMap_cons_some holds]
      simp only [ChunkDecoder.decodeAll, List.append_assoc]

theorem ChunkDecoder.finish_unfinished (d : ChunkDecoder) (unfinished : d.finished = false) :
    d.finish.2 = some (.finish {
      reason := Chat.finishReason d.finishReason
      usage := d.usage.map TokenReport.usage
      logProbs := d.logProbs }) := by
  simp [finish, unfinished]

theorem ChunkDecoder.finish_decodeAll (chunks : List Chunk) :
    (decodeAll {} chunks).1.finish.2 = some (.finish {
      reason := Chat.finishReason (lastReason chunks)
      usage := (lastUsage chunks).map TokenReport.usage
      logProbs := (tokenScores chunks).map TokenScore.logProbOf }) := by
  have decoded := decoded_decodeAll {} chunks
  rw [finish_unfinished _ decoded.finished, decoded.reason, decoded.usage, decoded.logProbs]
  simp

theorem exists_terminal (d : ChunkDecoder) (items : List (Except Failure Frame))
    (unfinished : d.finished = false) :
    ∃ last, terminal? d items = some last ∧
      last.kind = if (failure? items).isSome then .error else .finish := by
  unfold terminal?
  cases failure? items with
  | some failure => exact ⟨_, rfl, rfl⟩
  | none => exact ⟨_, d.finish_unfinished unfinished, rfl⟩

theorem exists_events_eq (body : List Arrival) :
    ∃ last, terminal? (ChunkDecoder.decodeAll {} (leadingChunks (Sse.decode body))).1 (Sse.decode body) =
        some last ∧
      last.kind = (if (failure? (Sse.decode body)).isSome then .error else .finish) ∧
      events body = (ChunkDecoder.decodeAll {} (leadingChunks (Sse.decode body))).2 ++ [last] := by
  have decoded := ChunkDecoder.decoded_decodeAll {} (leadingChunks (Sse.decode body))
  obtain ⟨last, released, kind⟩ := exists_terminal _ (Sse.decode body) decoded.finished
  exact ⟨last, released, kind, by rw [events, eventsFrom_eq, released, Option.toList_some]⟩

theorem eventsFrom_ne_nil (d : ChunkDecoder) (items : List (Except Failure Frame))
    (unfinished : d.finished = false) : eventsFrom d items ≠ [] := by
  have later := (d.decoded_decodeAll (leadingChunks items)).finished
  obtain ⟨last, released, -⟩ := exists_terminal _ items (later.trans unfinished)
  simp [eventsFrom_eq, released]

theorem length_filter_responseMetadata (history : List Event) :
    (history.filter fun event => event.kind == .responseMetadata).length =
      (history.filterMap Event.info?).length := by
  rw [List.length_filterMap_eq_countP, List.countP_eq_length_filter]
  congr 2
  funext event
  cases event <;> rfl

/-- However a body is cut and whatever it holds, its events come to one end. -/
theorem exists_endsOnce (body : List Arrival) : ∃ told last, EndsOnce body told last := by
  obtain ⟨last, released, kind, whole⟩ := exists_events_eq body
  refine ⟨_, last,
    { whole, decoded := rfl, released, kind, unfinished := ?_, identity := ?_, items := ?_,
      arrivals := ?_, disturbance := ?_ }⟩
  · intro event member finishes
    have kind := ChunkDecoder.kind_mem_of_decodeAll {} _ event member
    rw [finishes] at kind
    revert kind
    decide
  · rw [length_filter_responseMetadata]
    exact length_info?_decodeAll _
  · intro before item after split_ ends
    rw [events, split_, List.append_cons]
    exact eventsFrom_append_of_ends {} _ after (by simp [ends])
  · rintro before after rfl ends other
    rw [events, events, Sse.decode, Sse.decode, Sse.Decoder.run_append _ _ _ rfl,
      Sse.Decoder.run_append _ _ _ rfl, eventsFrom_append_of_ends _ _ _ ends,
      eventsFrom_append_of_ends _ _ _ ends]
  · -- The chunk leaves the decoder as it is, so the later items are read as without it.
    intro before item after chunk explanation split_ goes holds failed
    have told (d : ChunkDecoder) := d.decode_disturbed chunk explanation failed
    refine ⟨(ChunkDecoder.decodeAll {} (before.filterMap chunk?)).2,
      eventsFrom (ChunkDecoder.decodeAll {} (before.filterMap chunk?)).1 after, ?_, ?_, ?_⟩
    · rw [events, split_, eventsFrom_append_of_goes {} before _ goes, eventsFrom_chunk _ item _ chunk holds,
        told]
      rfl
    · exact eventsFrom_append_of_goes {} before after goes
    · exact eventsFrom_ne_nil _ after (ChunkDecoder.decoded_decodeAll {} _).finished

end Colloquy.Chat
