import Colloquy.Proofs.Chat.Decoding
import Colloquy.Proofs.Response.Calls
import Mathlib.Data.List.Nodup

/-! The tool calls of a streamed response against the fragments they come in. The
decoder keeps fragments apart by index and the builder by identifier, so calls are
apart exactly when their identifiers are. -/
namespace Colloquy.Chat

theorem fragmentsAt_append (fragments more : List ToolCallFragment) (index : UInt64) :
    fragmentsAt (fragments ++ more) index = fragmentsAt fragments index ++ fragmentsAt more index :=
  List.filter_append ..

theorem fragmentsAt_eq_nil (fragments : List ToolCallFragment) (index : UInt64) :
    fragmentsAt fragments index = [] ↔ index ∉ fragments.map (·.index) := by
  simp [fragmentsAt]

theorem fragmentsAt_self (fragment : ToolCallFragment) :
    fragmentsAt [fragment] fragment.index = [fragment] := by
  simp [fragmentsAt]

theorem fragmentsAt_other (fragment : ToolCallFragment) (index : UInt64) (other : fragment.index ≠ index) :
    fragmentsAt [fragment] index = [] := by
  simp [fragmentsAt, other]

/-- The identifier at an index is settled by the first fragment there. -/
theorem callIdAt_append (fragments more : List ToolCallFragment) (index : UInt64)
    (known : index ∈ fragments.map (·.index)) :
    callIdAt (fragments ++ more) index = callIdAt fragments index := by
  have some_ : fragmentsAt fragments index ≠ [] := by
    rw [Ne, fragmentsAt_eq_nil]
    exact not_not_intro known
  obtain ⟨first, rest, starts⟩ := List.exists_cons_of_ne_nil some_
  simp [callIdAt, fragmentsAt_append, starts]

theorem nameAt_append (fragments more : List ToolCallFragment) (index : UInt64) :
    nameAt (fragments ++ more) index =
      if (nameAt fragments index).isEmpty then nameAt more index else nameAt fragments index := by
  unfold nameAt
  rw [fragmentsAt_append, List.map_append, Text.firstNonempty_append]

theorem callIdAt_of_mem (fragments more : List ToolCallFragment) (fragment : ToolCallFragment)
    (member : fragment ∈ fragments) :
    callIdAt (fragments ++ more) fragment.index = callIdAt fragments fragment.index :=
  callIdAt_append fragments more fragment.index (List.mem_map_of_mem member)

theorem callIds_concat (fragments : List ToolCallFragment) (fragment : ToolCallFragment) :
    callIds (fragments ++ [fragment]) =
      if callIdAt (fragments ++ [fragment]) fragment.index ∈ callIds fragments then callIds fragments
      else callIds fragments ++ [callIdAt (fragments ++ [fragment]) fragment.index] := by
  have before : (fragments.map fun earlier => callIdAt (fragments ++ [fragment]) earlier.index) =
      fragments.map fun earlier => callIdAt fragments earlier.index :=
    List.map_congr_left (callIdAt_of_mem fragments [fragment])
  rw [callIds, List.map_append, List.map_singleton, eraseDups_concat, before]
  simp only [callIds, List.mem_eraseDups]

theorem argumentsOf_concat (fragments : List ToolCallFragment) (fragment : ToolCallFragment)
    (callId : String) :
    argumentsOf (fragments ++ [fragment]) callId =
      argumentsOf fragments callId ++
        if callIdAt (fragments ++ [fragment]) fragment.index = callId then fragment.arguments else "" := by
  have before : (fragments.filter fun earlier =>
        callIdAt (fragments ++ [fragment]) earlier.index == callId) =
      fragments.filter fun earlier => callIdAt fragments earlier.index == callId := by
    apply List.filter_congr
    intro earlier member
    rw [callIdAt_of_mem fragments [fragment] earlier member]
  rw [argumentsOf, List.filter_append, before, argumentsOf]
  by_cases same : callIdAt (fragments ++ [fragment]) fragment.index = callId <;> simp [same]

theorem mem_callIds (fragments : List ToolCallFragment) (index : UInt64)
    (known : index ∈ fragments.map (·.index)) : callIdAt fragments index ∈ callIds fragments := by
  obtain ⟨fragment, member, rfl⟩ := List.mem_map.mp known
  rw [callIds, List.mem_eraseDups]
  exact List.mem_map_of_mem member

namespace ChunkDecoder

def fragmentEvent? (fragments : List ToolCallFragment) (fragment : ToolCallFragment) : Option Event :=
  if fragment.index ∈ fragments.map (·.index) ∧ fragment.arguments = "" then none
  else
    some (.toolCallDelta (callIdAt (fragments ++ [fragment]) fragment.index)
      (nameAt (fragments ++ [fragment]) fragment.index) fragment.arguments)

/-- Slots that are settled by fragments. -/
def Settled (slots : List (UInt64 × CallSlot)) (fragments : List ToolCallFragment) : Prop :=
  ∀ index, slots.lookup index =
    if index ∈ fragments.map (·.index) then some ⟨callIdAt fragments index, nameAt fragments index⟩
    else none

theorem settled_concat (slots : List (UInt64 × CallSlot)) (fragments : List ToolCallFragment)
    (settled : Settled slots fragments) (fragment : ToolCallFragment) :
    Settled ((fragment.index, ⟨callIdAt (fragments ++ [fragment]) fragment.index,
      nameAt (fragments ++ [fragment]) fragment.index⟩) :: slots) (fragments ++ [fragment]) := by
  intro index
  rw [List.lookup_cons]
  by_cases same : index = fragment.index
  · simp [same]
  · have other : fragmentsAt [fragment] index = [] := fragmentsAt_other fragment index (Ne.symm same)
    have id_ : callIdAt (fragments ++ [fragment]) index = callIdAt fragments index := by
      rw [callIdAt, fragmentsAt_append, other, List.append_nil, callIdAt]
    have name_ : nameAt (fragments ++ [fragment]) index = nameAt fragments index := by
      rw [nameAt, fragmentsAt_append, other, List.append_nil, nameAt]
    rw [beq_false_of_ne same, settled index, id_, name_]
    simp [same]

theorem takeFragment_settled (d : ChunkDecoder) (fragments : List ToolCallFragment)
    (settled : Settled d.slots fragments) (fragment : ToolCallFragment) :
    Settled (d.takeFragment fragment).1.slots (fragments ++ [fragment]) ∧
      (d.takeFragment fragment).2 = fragmentEvent? fragments fragment := by
  have grown := settled_concat d.slots fragments settled fragment
  have known := settled fragment.index
  by_cases seen : fragment.index ∈ fragments.map (·.index)
  · rw [if_pos seen] at known
    have id_ := callIdAt_append fragments [fragment] fragment.index seen
    have name_ : nameAt (fragments ++ [fragment]) fragment.index =
        if (nameAt fragments fragment.index).isEmpty then fragment.name
        else nameAt fragments fragment.index := by
      rw [nameAt_append, nameAt, nameAt, fragmentsAt_self]
      simp
    rw [id_, name_] at grown
    constructor
    · simp only [takeFragment, known]
      exact grown
    · simp only [takeFragment, known, fragmentEvent?, seen, true_and, id_, name_, String.isEmpty_iff]
      rfl
  · rw [if_neg seen] at known
    have empty := (fragmentsAt_eq_nil fragments fragment.index).mpr seen
    have id_ : callIdAt (fragments ++ [fragment]) fragment.index = fragment.id.getD "" := by
      simp [callIdAt, fragmentsAt_append, empty, fragmentsAt_self]
    have name_ : nameAt (fragments ++ [fragment]) fragment.index = fragment.name := by
      simp [nameAt, fragmentsAt_append, empty, fragmentsAt_self]
    rw [id_, name_] at grown
    constructor
    · simp only [takeFragment, known]
      exact grown
    · simp only [takeFragment, known, fragmentEvent?, seen, false_and, if_false, id_, name_]
      rfl

theorem takeFragments_settled (fragments : List ToolCallFragment) :
    Settled (takeFragments {} fragments).1.slots fragments := by
  induction fragments using List.reverseRecOn with
  | nil =>
    intro index
    simp [takeFragments]
  | append_singleton fragments fragment ih =>
    rw [(takeFragments_append {} fragments [fragment]).1]
    exact (takeFragment_settled _ fragments ih fragment).1

theorem takeFragments_concat (fragments : List ToolCallFragment) (fragment : ToolCallFragment) :
    (takeFragments {} (fragments ++ [fragment])).2 =
      (takeFragments {} fragments).2 ++ (fragmentEvent? fragments fragment).toList := by
  have told := (takeFragment_settled _ fragments (takeFragments_settled fragments) fragment).2
  rw [(takeFragments_append {} fragments [fragment]).2]
  simp [takeFragments, told]

theorem namedCalls_takeFragments (fragments : List ToolCallFragment) :
    namedCalls (takeFragments {} fragments).2 = callIds fragments := by
  induction fragments using List.reverseRecOn with
  | nil => rfl
  | append_singleton fragments fragment ih =>
    rw [takeFragments_concat, callIds_concat, fragmentEvent?]
    split
    -- A fragment that tells nothing is at a known index, so its identifier is known as well.
    next silent =>
      have known := mem_callIds fragments fragment.index silent.1
      rw [← callIdAt_append fragments [fragment] fragment.index silent.1] at known
      simp [ih, known]
    next =>
      rw [Option.toList_some, namedCalls_concat _ _ _ rfl, ih]

theorem callDeltas_takeFragments (fragments : List ToolCallFragment) (callId : String) :
    callDeltas (takeFragments {} fragments).2 callId = argumentsOf fragments callId := by
  induction fragments using List.reverseRecOn with
  | nil => rfl
  | append_singleton fragments fragment ih =>
    rw [takeFragments_concat, argumentsOf_concat, fragmentEvent?]
    split
    next silent => simp [ih, silent.2]
    next =>
      rw [Option.toList_some, callDeltas_concat, ih, Event.argsDelta?]
      split <;> rfl

end ChunkDecoder

theorem ne_toolCall_of_decodeAll (d : ChunkDecoder) (chunks : List Chunk) (event : Event)
    (member : event ∈ (d.decodeAll chunks).2) : event.kind ≠ .toolCall := by
  intro whole
  have kind := d.kind_mem_of_decodeAll chunks event member
  rw [whole] at kind
  revert kind
  decide

theorem namedCalls_decodeAll (chunks : List Chunk) :
    namedCalls (ChunkDecoder.decodeAll {} chunks).2 = callIds (fragments chunks) := by
  rw [← namedCalls_filter, (ChunkDecoder.decoded_decodeAll {} chunks).calls,
    ChunkDecoder.namedCalls_takeFragments]

theorem callDeltas_decodeAll (chunks : List Chunk) (callId : String) :
    callDeltas (ChunkDecoder.decodeAll {} chunks).2 callId = argumentsOf (fragments chunks) callId := by
  rw [← callDeltas_filter, (ChunkDecoder.decoded_decodeAll {} chunks).calls,
    ChunkDecoder.callDeltas_takeFragments]

theorem toolCalls_decodeAll (chunks : List Chunk) (b : Builder)
    (added : Builder.empty.addAll (ChunkDecoder.decodeAll {} chunks).2 = .ok b) :
    b.response.toolCalls =
      (callIds (fragments chunks)).map (streamedCall (ChunkDecoder.decodeAll {} chunks).2) := by
  have reads := Builder.reads_addAll Builder.reads_empty _ added
  rw [List.nil_append] at reads
  rw [← namedCalls_decodeAll]
  exact reads.toolCalls (ne_toolCall_of_decodeAll {} chunks)

theorem callIds_of_nodup (fragments : List ToolCallFragment)
    (distinct : ((indexes fragments).map (callIdAt fragments)).Nodup) :
    callIds fragments = (indexes fragments).map (callIdAt fragments) := by
  have both : (fragments.map fun fragment => callIdAt fragments fragment.index) =
      (fragments.map (·.index)).map (callIdAt fragments) := by
    simp
  rw [callIds, both, indexes]
  apply eraseDups_map
  intro index member other known
  apply List.inj_on_of_nodup_map distinct
  · exact List.mem_eraseDups.mpr member
  · exact List.mem_eraseDups.mpr known

theorem argumentsOf_callIdAt (fragments : List ToolCallFragment)
    (distinct : ((indexes fragments).map (callIdAt fragments)).Nodup) (index : UInt64)
    (known : index ∈ indexes fragments) :
    argumentsOf fragments (callIdAt fragments index) = argumentsAt fragments index := by
  unfold argumentsOf argumentsAt fragmentsAt
  congr 2
  apply List.filter_congr
  intro fragment member
  have inside : fragment.index ∈ indexes fragments :=
    List.mem_eraseDups.mpr (List.mem_map_of_mem member)
  rw [Bool.eq_iff_iff, beq_iff_eq, beq_iff_eq]
  constructor
  · exact List.inj_on_of_nodup_map distinct inside known
  · intro same
    rw [same]

/-- The calls are those of the identifiers that the indexes have. They are those of the
indexes, and none is a mixture of two, exactly when no two indexes have one identifier. -/
theorem toolCalls_by_index_iff (chunks : List Chunk) (b : Builder)
    (added : Builder.empty.addAll (ChunkDecoder.decodeAll {} chunks).2 = .ok b) :
    (b.response.toolCalls.map fun call => (call.callId, call.args)) =
        ((callIds (fragments chunks)).map fun callId => (callId, argumentsOf (fragments chunks) callId)) ∧
      ((b.response.toolCalls.map fun call => (call.callId, call.args)) =
          ((indexes (fragments chunks)).map fun index =>
            (callIdAt (fragments chunks) index, argumentsAt (fragments chunks) index)) ↔
        ((indexes (fragments chunks)).map (callIdAt (fragments chunks))).Nodup) := by
  have byId : (b.response.toolCalls.map fun call => (call.callId, call.args)) =
      (callIds (fragments chunks)).map fun callId => (callId, argumentsOf (fragments chunks) callId) := by
    rw [toolCalls_decodeAll chunks b added, List.map_map]
    apply List.map_congr_left
    intro callId _
    simp [streamedCall, callDeltas_decodeAll]
  refine ⟨byId, ?_, ?_⟩
  -- Calls by identifier have no identifier twice, so calls by index cannot either.
  · intro byIndex
    have ids := congrArg (List.map Prod.fst) (byId.symm.trans byIndex)
    simp only [List.map_map, Function.comp_def, List.map_id'] at ids
    rw [← ids]
    exact nodup_eraseDups _
  · intro distinct
    rw [byId, callIds_of_nodup _ distinct, List.map_map]
    apply List.map_congr_left
    intro index known
    simp [argumentsOf_callIdAt _ distinct index known]

def interleavedPair : List Chunk :=
  let fragment (index : UInt64) (id : Option String) (arguments : String) : ToolCallFragment :=
    { index, id, function := some { arguments := some arguments } }
  let part (fragments : List ToolCallFragment) : Chunk :=
    { choices := [{ delta := { toolCalls := some fragments } }] }
  [part [fragment 0 (some "a") "[1,", fragment 1 (some "b") "[3,"],
    part [fragment 0 (some "late") "2]"],
    part [fragment 1 none "4]"]]

theorem toolCalls_interleavedPair :
    ∃ b, Builder.empty.addAll (ChunkDecoder.decodeAll {} interleavedPair).2 = .ok b ∧
      (b.response.toolCalls.map fun call => (call.callId, call.args)) = [("a", "[1,2]"), ("b", "[3,4]")] := by
  obtain ⟨-, byIndex⟩ := toolCalls_by_index_iff interleavedPair _ rfl
  exact ⟨_, rfl, (byIndex.mpr (by decide)).trans (by decide)⟩

def unidentifiedPair : List Chunk :=
  let fragment (index : UInt64) (name arguments : String) : ToolCallFragment :=
    { index, function := some { name := some name, arguments := some arguments } }
  [{ choices := [{ delta := { toolCalls := some [fragment 0 "first" "[1]", fragment 1 "second" "[2]"] } }] }]

theorem toolCalls_merged_unidentifiedPair :
    ¬ ∀ (chunks : List Chunk) (b : Builder),
      Builder.empty.addAll (ChunkDecoder.decodeAll {} chunks).2 = .ok b →
        (b.response.toolCalls.map fun call => (call.callId, call.args)) =
          (indexes (fragments chunks)).map fun index =>
            (callIdAt (fragments chunks) index, argumentsAt (fragments chunks) index) := by
  intro apart
  have equal := apart unidentifiedPair _ rfl
  revert equal
  decide

end Colloquy.Chat
