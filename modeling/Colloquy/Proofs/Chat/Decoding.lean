import Colloquy.Chat.Fragments
import Colloquy.Stream.History
import Mathlib.Data.List.Basic
import Mathlib.Data.List.Induction

/-! What decoding a list of chunks leaves behind, in the decoder and as events. A
single chunk is a list of one, and two lists after another add up. -/
namespace Colloquy.Chat

theorem undisturbed_append (chunks more : List Chunk) :
    undisturbed (chunks ++ more) = undisturbed chunks ++ undisturbed more :=
  List.filter_append ..

theorem choices_append (chunks more : List Chunk) :
    choices (chunks ++ more) = choices chunks ++ choices more := by
  simp [choices, undisturbed_append]

theorem fragments_append (chunks more : List Chunk) :
    fragments (chunks ++ more) = fragments chunks ++ fragments more := by
  simp [fragments, choices_append]

theorem pieces_append (chunks more : List Chunk) :
    pieces (chunks ++ more) = pieces chunks ++ pieces more := by
  simp [pieces, choices_append]

theorem tokenScores_append (chunks more : List Chunk) :
    tokenScores (chunks ++ more) = tokenScores chunks ++ tokenScores more := by
  simp [tokenScores, choices_append]

theorem lastReason_append (chunks more : List Chunk) :
    lastReason (chunks ++ more) = (lastReason more).or (lastReason chunks) := by
  simp [lastReason, choices_append, List.filterMap_append, List.getLast?_append]

theorem lastUsage_append (chunks more : List Chunk) :
    lastUsage (chunks ++ more) = (lastUsage more).or (lastUsage chunks) := by
  simp [lastUsage, undisturbed_append, List.filterMap_append, List.getLast?_append]

theorem identity_append (chunks more : List Chunk) :
    identity (chunks ++ more) = (identity chunks).or (identity more) := by
  simp [identity, undisturbed_append, List.findSome?_append]

theorem undisturbed_single (chunk : Chunk) (intact : chunk.error = none) :
    undisturbed [chunk] = [chunk] := by
  simp [undisturbed, intact]

theorem lastUsage_single (chunk : Chunk) (intact : chunk.error = none) :
    lastUsage [chunk] = chunk.usage := by
  cases told : chunk.usage <;> simp [lastUsage, undisturbed_single chunk intact, told]

theorem identity_single (chunk : Chunk) (intact : chunk.error = none) :
    identity [chunk] = chunk.info? := by
  cases told : chunk.info? <;> simp [identity, undisturbed_single chunk intact, told]

/-- The first choice of a chunk; a chunk without choices tells what an empty choice does. -/
def Chunk.choice (chunk : Chunk) : ChunkChoice :=
  chunk.choices.head?.getD {}

theorem fragments_single (chunk : Chunk) (intact : chunk.error = none) :
    fragments [chunk] = chunk.choice.delta.toolCalls.getD [] := by
  cases listed : chunk.choices <;>
    simp [fragments, choices, undisturbed_single chunk intact, Chunk.choice, listed]

theorem pieces_single (chunk : Chunk) (intact : chunk.error = none) :
    pieces [chunk] = chunk.choice.pieces := by
  cases listed : chunk.choices <;>
    simp [pieces, choices, undisturbed_single chunk intact, Chunk.choice, listed, ChunkChoice.pieces,
      Text.nonempty?]

theorem tokenScores_single (chunk : Chunk) (intact : chunk.error = none) :
    tokenScores [chunk] = Scores.tokens chunk.choice.scores := by
  cases listed : chunk.choices <;>
    simp [tokenScores, choices, undisturbed_single chunk intact, Chunk.choice, listed, Scores.tokens]

theorem filterMap_choices_single {α : Type} (f : ChunkChoice → Option α) (empty : f {} = none)
    (chunk : Chunk) (intact : chunk.error = none) :
    (choices [chunk]).filterMap f = (f chunk.choice).toList := by
  cases listed : chunk.choices with
  | nil => simp [choices, undisturbed_single chunk intact, Chunk.choice, listed, empty]
  | cons choice others =>
    cases told : f choice <;>
      simp [choices, undisturbed_single chunk intact, Chunk.choice, listed, told]

theorem lastReason_single (chunk : Chunk) (intact : chunk.error = none) :
    lastReason [chunk] = Text.nonempty? chunk.choice.finishReason := by
  rw [lastReason, filterMap_choices_single _ rfl chunk intact]
  cases Text.nonempty? chunk.choice.finishReason <;> rfl

namespace ChunkDecoder

theorem takeFragment_congr (d e : ChunkDecoder) (same : d.slots = e.slots) (fragment : ToolCallFragment) :
    (d.takeFragment fragment).1.slots = (e.takeFragment fragment).1.slots ∧
      (d.takeFragment fragment).2 = (e.takeFragment fragment).2 := by
  unfold takeFragment
  rw [same]
  cases e.slots.lookup fragment.index <;> exact ⟨rfl, rfl⟩

/-- Fragments are read by the slots alone. -/
theorem takeFragments_congr (d e : ChunkDecoder) (same : d.slots = e.slots)
    (fragments : List ToolCallFragment) :
    (d.takeFragments fragments).1.slots = (e.takeFragments fragments).1.slots ∧
      (d.takeFragments fragments).2 = (e.takeFragments fragments).2 := by
  induction fragments generalizing d e with
  | nil => exact ⟨same, rfl⟩
  | cons fragment rest ih =>
    obtain ⟨slots_, event_⟩ := takeFragment_congr d e same fragment
    obtain ⟨rest_, events_⟩ := ih _ _ slots_
    exact ⟨rest_, by simp only [takeFragments, event_, events_]⟩

theorem takeFragments_append (d : ChunkDecoder) (fragments more : List ToolCallFragment) :
    (d.takeFragments (fragments ++ more)).1 =
        ((d.takeFragments fragments).1.takeFragments more).1 ∧
      (d.takeFragments (fragments ++ more)).2 =
        (d.takeFragments fragments).2 ++ ((d.takeFragments fragments).1.takeFragments more).2 := by
  induction fragments generalizing d with
  | nil => exact ⟨rfl, rfl⟩
  | cons fragment rest ih =>
    obtain ⟨last_, events_⟩ := ih (d.takeFragment fragment).1
    refine ⟨last_, ?_⟩
    simp only [List.cons_append, takeFragments, events_, List.append_assoc]

/-- Fragments change the slots and nothing else. -/
theorem takeFragment_frame (d : ChunkDecoder) (fragment : ToolCallFragment) :
    (d.takeFragment fragment).1 = { d with slots := (d.takeFragment fragment).1.slots } := by
  unfold takeFragment
  cases d.slots.lookup fragment.index <;> rfl

theorem takeFragments_frame (d : ChunkDecoder) (fragments : List ToolCallFragment) :
    (d.takeFragments fragments).1 = { d with slots := (d.takeFragments fragments).1.slots } := by
  induction fragments generalizing d with
  | nil => rfl
  | cons fragment rest ih =>
    have rest_ := ih (d.takeFragment fragment).1
    rw [takeFragment_frame d fragment] at rest_
    simp only [takeFragments]
    rw [takeFragment_frame d fragment, rest_]

theorem exists_of_mem_takeFragments (d : ChunkDecoder) (fragments : List ToolCallFragment)
    (event : Event) (member : event ∈ (d.takeFragments fragments).2) :
    ∃ callId toolName argsDelta, event = .toolCallDelta callId toolName argsDelta := by
  induction fragments generalizing d with
  | nil => simp [takeFragments] at member
  | cons fragment rest ih =>
    simp only [takeFragments, List.mem_append, Option.mem_toList] at member
    rcases member with first | later
    · unfold takeFragment at first
      split at first
      next =>
        cases first
        exact ⟨_, _, _, rfl⟩
      next =>
        simp only [Option.ite_none_left_eq_some, Option.some.injEq] at first
        exact ⟨_, _, _, first.2.symm⟩
    · exact ih _ later

theorem filter_takeFragments (d : ChunkDecoder) (fragments : List ToolCallFragment) :
    (d.takeFragments fragments).2.filter (·.callId?.isSome) = (d.takeFragments fragments).2 := by
  rw [List.filter_eq_self]
  intro event member
  obtain ⟨callId, toolName, argsDelta, rfl⟩ := exists_of_mem_takeFragments d fragments event member
  rfl

theorem length_takeFragments (d : ChunkDecoder) (fragments : List ToolCallFragment) :
    (d.takeFragments fragments).2.length ≤ fragments.length := by
  induction fragments generalizing d with
  | nil => simp [takeFragments]
  | cons fragment rest ih =>
    have later := ih (d.takeFragment fragment).1
    have first : (d.takeFragment fragment).2.toList.length ≤ 1 := by
      cases (d.takeFragment fragment).2 <;> simp
    simp only [takeFragments, List.length_append, List.length_cons]
    omega

theorem rank?_takeFragments (d : ChunkDecoder) (fragments : List ToolCallFragment) :
    ((d.takeFragments fragments).2.filterMap Event.rank?).Sublist
      ((fragments.map Piece.call).map Piece.rank) := by
  have ranks : (d.takeFragments fragments).2.filterMap Event.rank? =
      List.replicate (d.takeFragments fragments).2.length 2 := by
    rw [List.eq_replicate_iff]
    have ranked (event : Event) (member : event ∈ (d.takeFragments fragments).2) :
        event.rank? = some 2 := by
      obtain ⟨callId, toolName, argsDelta, rfl⟩ := exists_of_mem_takeFragments d fragments event member
      rfl
    refine ⟨?_, ?_⟩
    · rw [List.length_filterMap_eq_countP, List.countP_eq_length]
      intro event member
      rw [ranked event member]
      rfl
    · intro rank member
      obtain ⟨event, inside, same⟩ := List.mem_filterMap.mp member
      rw [ranked event inside] at same
      exact (Option.some.inj same).symm
  have pieces_ : (fragments.map Piece.call).map Piece.rank = List.replicate fragments.length 2 := by
    simp [List.eq_replicate_iff, Piece.rank]
  rw [ranks, pieces_]
  exact (List.replicate_sublist_replicate 2).mpr (length_takeFragments d fragments)

theorem filterMap_takeFragments {α : Type} (f : Event → Option α)
    (quiet : ∀ callId toolName argsDelta, f (.toolCallDelta callId toolName argsDelta) = none)
    (d : ChunkDecoder) (fragments : List ToolCallFragment) :
    (d.takeFragments fragments).2.filterMap f = [] := by
  rw [List.filterMap_eq_nil_iff]
  intro event member
  obtain ⟨callId, toolName, argsDelta, rfl⟩ := exists_of_mem_takeFragments d fragments event member
  exact quiet callId toolName argsDelta

theorem takeIdentity_cases (d : ChunkDecoder) (chunk : Chunk) :
    (d.takeIdentity chunk = (d, []) ∧ (d.metadataSent = true ∨ chunk.info? = none)) ∨
      ∃ info, d.metadataSent = false ∧ chunk.info? = some info ∧
        d.takeIdentity chunk =
          ({ d with metadataSent := true }, [.responseMetadata info.id info.modelId info.timestamp]) := by
  unfold takeIdentity Chunk.info?
  cases sent : d.metadataSent with
  | true => simp
  | false =>
    cases known : chunk.id.isSome || chunk.model.isSome with
    | true => simp
    | false => simp

theorem takeIdentity_frame (d : ChunkDecoder) (chunk : Chunk) :
    (d.takeIdentity chunk).1 = { d with metadataSent := d.metadataSent || chunk.info?.isSome } := by
  rcases takeIdentity_cases d chunk with ⟨same, sent | unknown⟩ | ⟨info, unsent, known, same⟩
  · cases d
    simp_all
  · simp [same, unknown]
  · simp [same, known]

theorem filterMap_takeIdentity {α : Type} (f : Event → Option α)
    (quiet : ∀ id modelId timestamp, f (.responseMetadata id modelId timestamp) = none)
    (d : ChunkDecoder) (chunk : Chunk) : (d.takeIdentity chunk).2.filterMap f = [] := by
  rcases takeIdentity_cases d chunk with ⟨same, -⟩ | ⟨info, -, -, same⟩
  · simp [same]
  · simp [same, quiet]

theorem info?_takeIdentity (d : ChunkDecoder) (chunk : Chunk) :
    (d.takeIdentity chunk).2.filterMap Event.info? =
      if d.metadataSent then [] else chunk.info?.toList := by
  rcases takeIdentity_cases d chunk with ⟨same, sent | unknown⟩ | ⟨info, unsent, known, same⟩
  · simp [same, sent]
  · simp [same, unknown]
  · simp [same, unsent, known, Event.info?]

theorem decode_disturbed (d : ChunkDecoder) (chunk : Chunk) (explanation : Explanation)
    (failed : chunk.error = some explanation) : d.decode chunk = (d, [.error explanation.message]) := by
  simp only [decode, failed]

theorem decode_intact (d : ChunkDecoder) (chunk : Chunk) (intact : chunk.error = none) :
    d.decode chunk =
      ({ d with
          metadataSent := d.metadataSent || chunk.info?.isSome
          slots := (d.takeFragments (chunk.choice.delta.toolCalls.getD [])).1.slots
          finishReason := (Text.nonempty? chunk.choice.finishReason).or d.finishReason
          usage := chunk.usage.or d.usage
          logProbs := d.logProbs ++ (Scores.tokens chunk.choice.scores).map TokenScore.logProbOf },
        (d.takeIdentity chunk).2 ++
          (((Text.nonempty? chunk.choice.delta.reasoning).map Event.reasoning).toList ++
            ((Text.nonempty? chunk.choice.delta.content).map Event.textDelta).toList ++
            (d.takeFragments (chunk.choice.delta.toolCalls.getD [])).2)) := by
  cases listed : chunk.choices with
  | nil =>
    simp [decode, intact, listed, Chunk.choice, takeFragments, takeUsage, takeIdentity_frame, Scores.tokens,
      Text.nonempty?]
  | cons choice others =>
    let informed := (d.takeIdentity chunk).1.takeUsage chunk.usage
    have same : informed.slots = d.slots := by
      simp only [informed, takeUsage, takeIdentity_frame]
    obtain ⟨slots_, events_⟩ := takeFragments_congr informed d same (choice.delta.toolCalls.getD [])
    have frame : (informed.takeFragments (choice.delta.toolCalls.getD [])).1 =
        { informed with slots := (d.takeFragments (choice.delta.toolCalls.getD [])).1.slots } := by
      rw [takeFragments_frame, slots_]
    have told : d.decode chunk =
        ((informed.takeChoice choice).1, (d.takeIdentity chunk).2 ++ (informed.takeChoice choice).2) := by
      simp only [decode, intact, listed, informed]
    rw [told]
    simp only [takeChoice, events_, frame, Chunk.choice, listed, List.head?_cons, Option.getD_some,
      Chat.logProbs, Scores.tokens]
    simp [informed, takeUsage, takeIdentity_frame]

theorem decodeAll_append (d : ChunkDecoder) (chunks more : List Chunk) :
    d.decodeAll (chunks ++ more) =
      (((d.decodeAll chunks).1.decodeAll more).1,
        (d.decodeAll chunks).2 ++ ((d.decodeAll chunks).1.decodeAll more).2) := by
  induction chunks generalizing d with
  | nil => rfl
  | cons chunk rest ih => simp only [List.cons_append, decodeAll, ih, List.append_assoc]

/-- What is picked from the reasoning and the text of a chunk alone. -/
theorem filterMap_decode {α : Type} (f : Event → Option α)
    (unidentified : ∀ id modelId timestamp, f (.responseMetadata id modelId timestamp) = none)
    (uncalled : ∀ callId toolName argsDelta, f (.toolCallDelta callId toolName argsDelta) = none)
    (d : ChunkDecoder) (chunk : Chunk) (intact : chunk.error = none) :
    (d.decode chunk).2.filterMap f =
      ((Text.nonempty? chunk.choice.delta.reasoning).bind fun text => f (.reasoning text)).toList ++
        ((Text.nonempty? chunk.choice.delta.content).bind fun text => f (.textDelta text)).toList := by
  have single (event : Event) : [event].filterMap f = (f event).toList := by
    cases told : f event <;> simp [told]
  rw [d.decode_intact chunk intact]
  simp only [List.filterMap_append, d.filterMap_takeIdentity f unidentified,
    d.filterMap_takeFragments f uncalled, List.nil_append, List.append_nil]
  cases Text.nonempty? chunk.choice.delta.reasoning <;>
    cases Text.nonempty? chunk.choice.delta.content <;> simp [single]

end ChunkDecoder

/-- The decoder after some chunks, and the events it told, against the chunks. -/
structure Decoded (d : ChunkDecoder) (chunks : List Chunk) (next : ChunkDecoder)
    (events : List Event) : Prop where
  slots : next.slots = (d.takeFragments (fragments chunks)).1.slots
  calls : events.filter (·.callId?.isSome) = (d.takeFragments (fragments chunks)).2
  reasoning : events.filterMap Event.reasoning? =
    (choices chunks).filterMap fun choice => Text.nonempty? choice.delta.reasoning
  text : events.filterMap Event.textDelta? =
    (choices chunks).filterMap fun choice => Text.nonempty? choice.delta.content
  order : (events.filterMap Event.rank?).Sublist ((pieces chunks).map Piece.rank)
  identity : events.filterMap Event.info? = if d.metadataSent then [] else (Chat.identity chunks).toList
  sent : next.metadataSent = (d.metadataSent || (Chat.identity chunks).isSome)
  failures : events.filterMap Event.error? = (chunks.filterMap (·.error)).map (·.message)
  kinds : ∀ event ∈ events, event.rank?.isSome ∨ event.info?.isSome ∨ event.error?.isSome
  reason : next.finishReason = (lastReason chunks).or d.finishReason
  usage : next.usage = (lastUsage chunks).or d.usage
  logProbs : next.logProbs = d.logProbs ++ (tokenScores chunks).map TokenScore.logProbOf
  finished : next.finished = d.finished

namespace Decoded

theorem nil (d : ChunkDecoder) : Decoded d [] d [] := by
  constructor <;> simp [fragments, choices, undisturbed, ChunkDecoder.takeFragments, pieces, Chat.identity,
    lastReason, lastUsage, tokenScores]

theorem append {d middle next : ChunkDecoder} {chunks more : List Chunk} {events later : List Event}
    (first : Decoded d chunks middle events) (second : Decoded middle more next later) :
    Decoded d (chunks ++ more) next (events ++ later) := by
  obtain ⟨slots_, later_⟩ := ChunkDecoder.takeFragments_congr middle _ first.slots (fragments more)
  obtain ⟨last_, events_⟩ := d.takeFragments_append (fragments chunks) (fragments more)
  refine
    { slots := ?_, calls := ?_, reasoning := ?_, text := ?_, order := ?_, identity := ?_, sent := ?_,
      failures := ?_, kinds := ?_, reason := ?_, usage := ?_, logProbs := ?_, finished := ?_ }
  · rw [second.slots, slots_, fragments_append, last_]
  · rw [List.filter_append, first.calls, second.calls, later_, fragments_append, events_]
  · rw [List.filterMap_append, first.reasoning, second.reasoning, choices_append, List.filterMap_append]
  · rw [List.filterMap_append, first.text, second.text, choices_append, List.filterMap_append]
  · rw [List.filterMap_append, pieces_append, List.map_append]
    exact first.order.append second.order
  · rw [List.filterMap_append, first.identity, second.identity, first.sent, identity_append]
    cases d.metadataSent <;> cases Chat.identity chunks <;> simp
  · rw [second.sent, first.sent, identity_append]
    cases Chat.identity chunks <;> simp
  · rw [List.filterMap_append, first.failures, second.failures, List.filterMap_append, List.map_append]
  · intro event member
    rcases List.mem_append.mp member with early | late
    · exact first.kinds event early
    · exact second.kinds event late
  · rw [second.reason, first.reason, lastReason_append, Option.or_assoc]
  · rw [second.usage, first.usage, lastUsage_append, Option.or_assoc]
  · rw [second.logProbs, first.logProbs, tokenScores_append, List.map_append, List.append_assoc]
  · rw [second.finished, first.finished]

theorem disturbed (d : ChunkDecoder) (chunk : Chunk) (explanation : Explanation)
    (failed : chunk.error = some explanation) :
    Decoded d [chunk] (d.decode chunk).1 (d.decode chunk).2 := by
  have told := d.decode_disturbed chunk explanation failed
  have none_ : undisturbed [chunk] = [] := by simp [undisturbed, failed]
  rw [told]
  constructor <;> simp [fragments, choices, pieces, Chat.identity, lastReason, lastUsage, tokenScores,
    none_, failed, ChunkDecoder.takeFragments, Event.callId?, Event.reasoning?, Event.textDelta?,
    Event.rank?, Event.info?, Event.error?]

theorem intact (d : ChunkDecoder) (chunk : Chunk) (intact : chunk.error = none) :
    Decoded d [chunk] (d.decode chunk).1 (d.decode chunk).2 := by
  have told := d.decode_intact chunk intact
  refine
    { slots := ?_, calls := ?_, reasoning := ?_, text := ?_, order := ?_, identity := ?_, sent := ?_,
      failures := ?_, kinds := ?_, reason := ?_, usage := ?_, logProbs := ?_, finished := ?_ }
  · rw [told, fragments_single chunk intact]
  · have named : (d.takeIdentity chunk).2.filter (·.callId?.isSome) = [] := by
      rw [← List.filterMap_eq_filter]
      exact d.filterMap_takeIdentity _ (fun _ _ _ => rfl) chunk
    rw [told, fragments_single chunk intact]
    simp only [List.filter_append, named, ChunkDecoder.filter_takeFragments]
    cases Text.nonempty? chunk.choice.delta.reasoning <;>
      cases Text.nonempty? chunk.choice.delta.content <;> rfl
  · rw [filterMap_choices_single _ rfl chunk intact,
      d.filterMap_decode Event.reasoning? (fun _ _ _ => rfl) (fun _ _ _ => rfl) chunk intact]
    simp [Event.reasoning?]
  · rw [filterMap_choices_single _ rfl chunk intact,
      d.filterMap_decode Event.textDelta? (fun _ _ _ => rfl) (fun _ _ _ => rfl) chunk intact]
    simp [Event.textDelta?]
  · rw [told, pieces_single chunk intact, ChunkChoice.pieces]
    simp only [List.filterMap_append, List.map_append,
      d.filterMap_takeIdentity Event.rank? (fun _ _ _ => rfl), List.nil_append]
    apply List.Sublist.append
    · cases Text.nonempty? chunk.choice.delta.reasoning <;>
        cases Text.nonempty? chunk.choice.delta.content <;> exact List.Sublist.refl _
    · exact d.rank?_takeFragments _
  · rw [told, identity_single chunk intact]
    simp only [List.filterMap_append, d.info?_takeIdentity,
      d.filterMap_takeFragments Event.info? (fun _ _ _ => rfl)]
    cases Text.nonempty? chunk.choice.delta.reasoning <;>
      cases Text.nonempty? chunk.choice.delta.content <;> simp [Event.info?]
  · rw [told, identity_single chunk intact]
  · rw [d.filterMap_decode Event.error? (fun _ _ _ => rfl) (fun _ _ _ => rfl) chunk intact]
    simp [Event.error?, intact]
  · intro event member
    rw [told] at member
    simp only [List.mem_append, Option.mem_toList, Option.map_eq_some_iff] at member
    rcases member with told | (⟨text, -, rfl⟩ | ⟨text, -, rfl⟩) | call
    · rcases d.takeIdentity_cases chunk with ⟨same, -⟩ | ⟨info, -, -, same⟩
      · simp [same] at told
      · rw [same, List.mem_singleton] at told
        simp [told, Event.info?]
    · exact Or.inl rfl
    · exact Or.inl rfl
    · obtain ⟨callId, toolName, argsDelta, rfl⟩ := d.exists_of_mem_takeFragments _ event call
      exact Or.inl rfl
  · rw [told, lastReason_single chunk intact]
  · rw [told, lastUsage_single chunk intact]
  · rw [told, tokenScores_single chunk intact]
  · rw [told]

end Decoded

theorem ChunkDecoder.decoded_decode (d : ChunkDecoder) (chunk : Chunk) :
    Decoded d [chunk] (d.decode chunk).1 (d.decode chunk).2 := by
  cases failed : chunk.error with
  | some explanation => exact Decoded.disturbed d chunk explanation failed
  | none => exact Decoded.intact d chunk failed

theorem ChunkDecoder.decoded_decodeAll (d : ChunkDecoder) (chunks : List Chunk) :
    Decoded d chunks (d.decodeAll chunks).1 (d.decodeAll chunks).2 := by
  induction chunks generalizing d with
  | nil => exact Decoded.nil d
  | cons chunk rest ih => exact (d.decoded_decode chunk).append (ih (d.decode chunk).1)

theorem info?_decodeAll (chunks : List Chunk) :
    (ChunkDecoder.decodeAll {} chunks).2.filterMap Event.info? = (identity chunks).toList :=
  (ChunkDecoder.decoded_decodeAll {} chunks).identity

theorem length_info?_decodeAll (chunks : List Chunk) :
    ((ChunkDecoder.decodeAll {} chunks).2.filterMap Event.info?).length ≤ 1 := by
  rw [info?_decodeAll]
  cases identity chunks <;> simp

theorem ChunkDecoder.kind_mem_of_decodeAll (d : ChunkDecoder) (chunks : List Chunk) (event : Event)
    (member : event ∈ (d.decodeAll chunks).2) :
    event.kind ∈ [EventKind.reasoning, .textDelta, .toolCallDelta, .responseMetadata, .error] := by
  rcases (d.decoded_decodeAll chunks).kinds event member with ranked | told | failed
  · cases event <;> simp_all [Event.kind, Event.rank?]
  · cases event <;> simp_all [Event.kind, Event.info?]
  · cases event <;> simp_all [Event.kind, Event.error?]

end Colloquy.Chat
