import Colloquy.Chat.Reply
import Colloquy.Proofs.Chat.Ending
import Colloquy.Proofs.Chat.ToolCalls
import Colloquy.Proofs.Response.Ordered
import Mathlib.Data.List.Forall2

/-! A streamed reply against the same reply in one piece. However the reply is cut
into chunks, the response put together from them is the one read at once. -/
namespace Colloquy.Chat

theorem join_filterMap_nonempty? {α : Type} (f : α → Option String) (parts : List α) :
    String.join (parts.filterMap fun part => Text.nonempty? (f part)) =
      String.join (parts.map fun part => (f part).getD "") := by
  induction parts with
  | nil => rfl
  | cons part rest ih =>
    rw [List.filterMap_cons, List.map_cons, String.join_cons, ← ih]
    cases told : f part with
    | none => simp
    | some text => by_cases empty : text = "" <;> simp [Text.nonempty?_some, empty]

theorem nonempty?_eq_some (text : Option String) (found : String) (same : Text.nonempty? text = some found) :
    text = some found ∧ found ≠ "" := by
  cases text with
  | none => cases same
  | some text =>
    rw [Text.nonempty?_some] at same
    split at same
    next => cases same
    next filled =>
      cases same
      exact ⟨rfl, filled⟩

/-- The parts that are not empty make one block, or none if the whole is empty. -/
theorem joined_parts {α : Type} (block : String → Block) (f : α → Option String) (parts : List α)
    (whole : Option String) (same : String.join (parts.map fun part => (f part).getD "") = whole.getD "") :
    joined block (parts.filterMap fun part => Text.nonempty? (f part)) =
      ((Text.nonempty? whole).map block).toList := by
  rw [← join_filterMap_nonempty?] at same
  cases listed : parts.filterMap fun part => Text.nonempty? (f part) with
  | nil =>
    have none_ : Text.nonempty? whole = none := by
      rw [listed, String.join_nil] at same
      cases whole with
      | none => rfl
      | some text =>
        have empty : text = "" := same.symm
        rw [Text.nonempty?_some, if_pos empty]
    rw [none_]
    rfl
  | cons first rest =>
    have member : first ∈ parts.filterMap fun part => Text.nonempty? (f part) := by simp [listed]
    obtain ⟨part, -, told⟩ := List.mem_filterMap.mp member
    have some_ := (nonempty?_eq_some _ _ told).2
    rw [listed] at same
    have long : String.join (first :: rest) ≠ "" := by
      intro empty
      rw [String.join_cons, String.append_eq_empty_iff] at empty
      exact some_ empty.1
    cases whole with
    | none => exact absurd same long
    | some text =>
      have filled : text ≠ "" := by
        intro empty
        exact long (same.trans empty)
      rw [joined_of_ne_nil block _ (by simp), same, Text.nonempty?_some, if_neg filled]
      rfl

/-- The fragments at an index that make up a call. -/
structure Carries (fragments : List ToolCallFragment) (index : UInt64) (call : ToolCall) : Prop where
  id : callIdAt fragments index = call.id
  named : (fragmentsAt fragments index).head?.map ToolCallFragment.name = some call.function.name
  names : ∀ fragment ∈ fragmentsAt fragments index,
    fragment.name = "" ∨ fragment.name = call.function.name
  arguments : argumentsAt fragments index = call.function.arguments

theorem Carries.nameAt_append {before after : List ToolCallFragment} {index : UInt64} {call : ToolCall}
    (carries : Carries (before ++ after) index call) (seen : index ∈ before.map (·.index)) :
    nameAt before index = call.function.name := by
  have some_ : fragmentsAt before index ≠ [] := by
    rw [Ne, fragmentsAt_eq_nil]
    exact not_not_intro seen
  obtain ⟨first, rest, starts⟩ := List.exists_cons_of_ne_nil some_
  have named := carries.named
  have names := carries.names
  rw [fragmentsAt_append, starts] at named names
  have first_ : first.name = call.function.name := Option.some.inj named
  rw [nameAt, starts, List.map_cons, ← first_]
  apply Text.firstNonempty_of_head
  intro name member
  obtain ⟨fragment, inside, rfl⟩ := List.mem_map.mp member
  rw [first_]
  exact names fragment (by simp [inside])

theorem ChunkDecoder.exists_fragment_of_mem (fragments : List ToolCallFragment) (event : Event)
    (member : event ∈ (takeFragments {} fragments).2) :
    ∃ before fragment after, fragments = before ++ [fragment] ++ after ∧
      event = .toolCallDelta (callIdAt (before ++ [fragment]) fragment.index)
        (nameAt (before ++ [fragment]) fragment.index) fragment.arguments := by
  induction fragments using List.reverseRecOn with
  | nil => simp [takeFragments] at member
  | append_singleton fragments last ih =>
    rw [takeFragments_concat, List.mem_append, Option.mem_toList] at member
    rcases member with early | late
    · obtain ⟨before, fragment, after, rfl, told⟩ := ih early
      exact ⟨before, fragment, after ++ [last], by simp, told⟩
    · unfold fragmentEvent? at late
      split at late
      next => cases late
      next =>
        cases late
        exact ⟨fragments, last, [], by simp, rfl⟩

section

variable {chunks : List Chunk} {index : UInt64} {call : ToolCall}

theorem Carries.known {fragments : List ToolCallFragment} (carries : Carries fragments index call) :
    index ∈ fragments.map (·.index) := by
  by_contra unknown
  have named := carries.named
  rw [(fragmentsAt_eq_nil fragments index).mpr unknown] at named
  cases named

theorem Carries.callName_decodeAll (carries : Carries (fragments chunks) index call)
    (distinct : ((indexes (fragments chunks)).map (callIdAt (fragments chunks))).Nodup) :
    callName (ChunkDecoder.decodeAll {} chunks).2 (callIdAt (fragments chunks) index) =
      call.function.name := by
  rw [← callName_filter, (ChunkDecoder.decoded_decodeAll {} chunks).calls]
  apply callName_of_constant
  · intro event member name told
    obtain ⟨before, fragment, after, split_, rfl⟩ := ChunkDecoder.exists_fragment_of_mem _ event member
    have seen : fragment.index ∈ (before ++ [fragment]).map (·.index) := by simp
    have settled := callIdAt_append (before ++ [fragment]) after fragment.index seen
    rw [← split_] at settled
    simp only [Event.toolName?, ← settled, Option.ite_none_right_eq_some, Option.some.injEq] at told
    obtain ⟨sameId, rfl⟩ := told
    have same : fragment.index = index := by
      apply List.inj_on_of_nodup_map distinct _ _ sameId
      · exact List.mem_eraseDups.mpr (by simp [split_])
      · exact List.mem_eraseDups.mpr carries.known
    subst same
    rw [split_] at carries
    exact carries.nameAt_append seen
  · rw [ChunkDecoder.namedCalls_takeFragments]
    exact mem_callIds _ index carries.known

theorem Carries.streamedCall (carries : Carries (fragments chunks) index call)
    (distinct : ((indexes (fragments chunks)).map (callIdAt (fragments chunks))).Nodup) :
    Block.toolCall (streamedCall (ChunkDecoder.decodeAll {} chunks).2 (callIdAt (fragments chunks) index)) =
      call.block := by
  have known : index ∈ indexes (fragments chunks) := List.mem_eraseDups.mpr carries.known
  rw [Colloquy.streamedCall, carries.callName_decodeAll distinct, callDeltas_decodeAll,
    argumentsOf_callIdAt _ distinct index known, carries.id, carries.arguments]
  rfl

end

theorem callBlocks_decodeAll (chunks : List Chunk) (calls : List ToolCall)
    (matched : List.Forall₂ (Carries (fragments chunks)) (indexes (fragments chunks)) calls)
    (distinct : (calls.map (·.id)).Nodup) :
    callBlocks (ChunkDecoder.decodeAll {} chunks).2 (ChunkDecoder.decodeAll {} chunks).2 =
      calls.map ToolCall.block := by
  have ids : (indexes (fragments chunks)).map (callIdAt (fragments chunks)) = calls.map (·.id) := by
    rw [← List.forall₂_eq_eq_eq, List.forall₂_map_left_iff, List.forall₂_map_right_iff]
    exact matched.imp fun index call carries => carries.id
  rw [← ids] at distinct
  rw [callBlocks, namedCalls_decodeAll, callIds_of_nodup _ distinct, List.map_map, ← List.forall₂_eq_eq_eq,
    List.forall₂_map_left_iff, List.forall₂_map_right_iff]
  exact matched.imp fun index call carries => carries.streamedCall distinct

/-- Chunks that a reply is cut into, of which the choice is the first. Each part of the
reply is somewhere in them, and the parts are in order. -/
structure Cut (reply : Reply) (choice : Choice) (chunks : List Chunk) : Prop where
  undisturbed : ∀ chunk ∈ chunks, chunk.error = none
  reasoning : String.join ((choices chunks).map fun part => part.delta.reasoning.getD "") =
    choice.message.reasoning.getD ""
  text : String.join ((choices chunks).map fun part => part.delta.content.getD "") =
    choice.message.content.getD ""
  order : (pieces chunks).Pairwise fun earlier later => earlier.rank ≤ later.rank
  calls : List.Forall₂ (Carries (fragments chunks)) (indexes (fragments chunks))
    (choice.message.toolCalls.getD [])
  distinct : ((choice.message.toolCalls.getD []).map (·.id)).Nodup
  reason : lastReason chunks = Text.nonempty? choice.finishReason
  usage : lastUsage chunks = reply.usage
  scores : tokenScores chunks = Scores.tokens choice.scores

namespace Cut

variable {reply : Reply} {choice : Choice} {chunks : List Chunk}

theorem ordered (cut : Cut reply choice chunks) : Ordered (ChunkDecoder.decodeAll {} chunks).2 := by
  apply List.Pairwise.sublist (ChunkDecoder.decoded_decodeAll {} chunks).order
  rw [List.pairwise_map]
  exact cut.order

theorem plain (cut : Cut reply choice chunks) (event : Event)
    (member : event ∈ (ChunkDecoder.decodeAll {} chunks).2) : event.Plain := by
  have decoded := ChunkDecoder.decoded_decodeAll {} chunks
  have failures : (ChunkDecoder.decodeAll {} chunks).2.filterMap Event.error? = [] := by
    rw [decoded.failures, List.map_eq_nil_iff, List.filterMap_eq_nil_iff]
    exact cut.undisturbed
  rcases decoded.kinds event member with ranked | told | failed
  · exact Or.inl ranked
  · exact Or.inr told
  · rw [List.filterMap_eq_nil_iff.mp failures event member] at failed
    cases failed

theorem blocks (cut : Cut reply choice chunks) :
    orderedBlocks (ChunkDecoder.decodeAll {} chunks).2 (ChunkDecoder.decodeAll {} chunks).2 =
      choice.message.blocks := by
  have decoded := ChunkDecoder.decoded_decodeAll {} chunks
  rw [orderedBlocks, decoded.reasoning, decoded.text, callBlocks_decodeAll chunks _ cut.calls cut.distinct,
    joined_parts reasoningBlock _ _ _ cut.reasoning, joined_parts Block.ofText _ _ _ cut.text]
  rfl

end Cut

theorem finishReason_nonempty? (reported : Option String) :
    finishReason (Text.nonempty? reported) = finishReason reported := by
  cases reported with
  | none => rfl
  | some reason =>
    rw [Text.nonempty?_some]
    split
    next empty => rw [empty]; rfl
    next => rfl

def finishOf (chunks : List Chunk) : Finish :=
  { reason := finishReason (lastReason chunks)
    usage := (lastUsage chunks).map TokenReport.usage
    logProbs := (tokenScores chunks).map TokenScore.logProbOf }

theorem streamedEvents_eq (chunks : List Chunk) :
    streamedEvents chunks = (ChunkDecoder.decodeAll {} chunks).2 ++ [.finish (finishOf chunks)] := by
  have released := ChunkDecoder.finish_decodeAll chunks
  simp only [streamedEvents, released, Option.toList_some, finishOf]

theorem usage_addFinish (usage : Option Usage) :
    (usage.filter fun usage => !usage.isZero).getD {} = usage.getD {} := by
  cases usage with
  | none => rfl
  | some usage => by_cases zero : usage = {} <;> simp [Usage.isZero, Option.filter, zero]

/-- However a reply is cut into chunks, a builder accepts all their events, and puts
together the response that is read from the reply in one piece. Only the identity is
that of the chunks. The stream drained as a whole gives the same. -/
theorem build_streamedEvents (reply : Reply) (choice : Choice) (others : List Choice)
    (chunks : List Chunk) (first : reply.choices = choice :: others) (cut : Cut reply choice chunks) :
    ∃ batch b, reply.response = .ok batch ∧ Builder.empty.addAll (streamedEvents chunks) = .ok b ∧
      b.build = .ok { batch with responseInfo := identity chunks } ∧
      Response.ofStream {} (streamedEvents chunks) =
        .ok { batch with responseInfo := identity chunks } := by
  have single : ((ChunkDecoder.decodeAll {} chunks).2.filterMap Event.info?).length ≤ 1 := by
    rw [info?_decodeAll]
    cases identity chunks <;> simp
  obtain ⟨b, added, unfinished, noError, response⟩ :=
    response_of_ordered (ChunkDecoder.decodeAll {} chunks).2 cut.ordered cut.plain single
  rw [cut.blocks, info?_decodeAll, Option.head?_toList] at response
  have batch : reply.response = .ok {
      content := choice.message.blocks
      finishReason := some (finishReason choice.finishReason)
      usage := (reply.usage.map TokenReport.usage).getD {}
      logProbs := logProbs choice.scores
      responseInfo := some {
        id := reply.id
        timestamp := reply.created.bind Time.Timestamp.ofUnixSeconds?
        modelId := reply.model } } := by
    rw [Reply.response, first]
  have accepted : Builder.empty.addAll (streamedEvents chunks) = .ok (b.addFinish (finishOf chunks)) := by
    rw [streamedEvents_eq, Builder.addAll_concat _ b _ _ added, Builder.add, if_neg unfinished]
    rfl
  have gathered : (if ((Scores.tokens choice.scores).map TokenScore.logProbOf).isEmpty then []
      else (Scores.tokens choice.scores).map TokenScore.logProbOf) = logProbs choice.scores := by
    split
    next empty => exact (List.isEmpty_iff.mp empty).symm
    next => rfl
  have built : (b.addFinish (finishOf chunks)).build = .ok {
      content := choice.message.blocks
      finishReason := some (finishReason choice.finishReason)
      usage := (reply.usage.map TokenReport.usage).getD {}
      logProbs := logProbs choice.scores
      responseInfo := identity chunks } := by
    simp only [Builder.build, Builder.addFinish, noError, response, finishOf, cut.reason, cut.usage,
      cut.scores, finishReason_nonempty?, usage_addFinish, gathered, Option.or_none]
  refine ⟨_, _, batch, accepted, built, ?_⟩
  rw [Response.ofStream, Builder.addOpening_empty, Builder.collect_of_addAll _ accepted, built]
  rfl

def lookups : Choice :=
  { message :=
      { reasoning := some "Both."
        content := some "Looking up"
        toolCalls := some [
          { id := "a", function := { name := "find", arguments := "[1,2]" } },
          { id := "b", function := { name := "find", arguments := "[3]" } }] }
    scores := some { content := some [{ token := "Looking" }, { token := " up" }] }
    finishReason := some "tool_calls" }

def lookupChunks : List Chunk :=
  let part (delta : Delta) (token : String) : Chunk :=
    { id := some "r", choices := [{ delta, scores := some { content := some [{ token }] } }] }
  let fragment (index : UInt64) (id name : Option String) (arguments : String) : ToolCallFragment :=
    { index, id, function := some { name, arguments := some arguments } }
  let calls (fragments : List ToolCallFragment) : Chunk :=
    { id := some "r", choices := [{ delta := { toolCalls := some fragments } }] }
  [part { reasoning := some "Both.", content := some "Looking" } "Looking",
    part { reasoning := some "", content := some " up" } " up",
    calls [fragment 7 (some "a") (some "find") "[1,", fragment 2 (some "b") (some "find") ""],
    calls [fragment 2 none none "[3]", fragment 7 (some "late") none "2]"],
    { choices := [{ finishReason := some "tool_calls" }], usage := some { outputTokens := 9 } }]

def lookupReply : Reply :=
  { choices := [lookups], usage := some { outputTokens := 9 } }

theorem build_lookupChunks :
    ∃ batch b, lookupReply.response = .ok batch ∧
      Builder.empty.addAll (streamedEvents lookupChunks) = .ok b ∧
      b.build = .ok { batch with responseInfo := some { id := "r" } } ∧
      Response.ofStream {} (streamedEvents lookupChunks) =
        .ok { batch with responseInfo := some { id := "r" } } := by
  have indexes_ : indexes (fragments lookupChunks) = [7, 2] := by decide
  have calls : List.Forall₂ (Carries (fragments lookupChunks)) (indexes (fragments lookupChunks))
      (lookups.message.toolCalls.getD []) := by
    rw [indexes_]
    refine .cons ?_ (.cons ?_ .nil)
    · exact { id := by decide, named := by decide, names := by decide, arguments := by decide }
    · exact { id := by decide, named := by decide, names := by decide, arguments := by decide }
  exact build_streamedEvents lookupReply lookups [] lookupChunks rfl
    { undisturbed := by decide, reasoning := by decide, text := by decide, order := by decide
      calls, distinct := by decide, reason := by decide, usage := by decide, scores := rfl }

end Colloquy.Chat
