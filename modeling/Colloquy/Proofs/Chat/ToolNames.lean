import Colloquy.Proofs.Chat.ToolCalls

/-! The names of the tool calls of a streamed response. A fragment that brings a name
and no arguments is told of only if it is the first of its call. Its name gets into
the response when arguments come after it, and is lost otherwise. -/
namespace Colloquy.Chat

theorem heard_concat (fragments : List ToolCallFragment) (last : ToolCallFragment) :
    heard (fragments ++ [last]) =
      if fragments ≠ [] ∧ last.arguments = "" then heard fragments else fragments ++ [last] := by
  cases fragments with
  | nil => rfl
  | cons first rest =>
    by_cases silent : last.arguments = "" <;> simp [heard, silent]

theorem exists_append_heard (fragments : List ToolCallFragment) :
    ∃ silent, fragments = heard fragments ++ silent := by
  induction fragments using List.reverseRecOn with
  | nil => exact ⟨[], rfl⟩
  | append_singleton fragments last ih =>
    rw [heard_concat]
    split
    next =>
      obtain ⟨silent, split_⟩ := ih
      exact ⟨silent ++ [last], by rw [← List.append_assoc, ← split_]⟩
    next => exact ⟨[], (List.append_nil _).symm⟩

/-- A name that is heard is the first that there is. -/
theorem heardNameAt_eq (fragments : List ToolCallFragment) (index : UInt64)
    (named : heardNameAt fragments index ≠ "") :
    nameAt fragments index = heardNameAt fragments index := by
  obtain ⟨silent, split_⟩ := exists_append_heard (fragmentsAt fragments index)
  have heard_ : Text.firstNonempty ((heard (fragmentsAt fragments index)).map ToolCallFragment.name) =
      heardNameAt fragments index := rfl
  rw [nameAt, split_, List.map_append, Text.firstNonempty_append, heard_]
  exact if_neg (by rwa [String.isEmpty_iff])

theorem heardNameAt_concat_other (fragments : List ToolCallFragment) (last : ToolCallFragment)
    (index : UInt64) (other : last.index ≠ index) :
    heardNameAt (fragments ++ [last]) index = heardNameAt fragments index := by
  rw [heardNameAt, heardAt, fragmentsAt_append, fragmentsAt_other last index other, List.append_nil,
    heardNameAt, heardAt]

theorem heardAt_concat_silent (fragments : List ToolCallFragment) (last : ToolCallFragment)
    (known : last.index ∈ fragments.map (·.index)) (silent : last.arguments = "") :
    heardAt (fragments ++ [last]) last.index = heardAt fragments last.index := by
  have some_ : fragmentsAt fragments last.index ≠ [] := by
    rw [Ne, fragmentsAt_eq_nil]
    exact not_not_intro known
  rw [heardAt, fragmentsAt_append, fragmentsAt_self, heard_concat, if_pos ⟨some_, silent⟩, heardAt]

theorem heardAt_concat_told (fragments : List ToolCallFragment) (last : ToolCallFragment)
    (told : ¬ (last.index ∈ fragments.map (·.index) ∧ last.arguments = "")) :
    heardAt (fragments ++ [last]) last.index = fragmentsAt (fragments ++ [last]) last.index := by
  rw [heardAt, fragmentsAt_append, fragmentsAt_self, heard_concat]
  apply if_neg
  rwa [Ne, fragmentsAt_eq_nil, Decidable.not_not]

/-- What is told of a call until now has the first name that is heard. Only the
fragments at the index of the call have its identifier. -/
theorem ChunkDecoder.callName_takeFragments (fragments more : List ToolCallFragment) (index : UInt64)
    (apart : ∀ fragment ∈ fragments,
      callIdAt (fragments ++ more) fragment.index = callIdAt (fragments ++ more) index →
        fragment.index = index) :
    callName (takeFragments {} fragments).2 (callIdAt (fragments ++ more) index) =
      heardNameAt fragments index := by
  -- The identifiers are those of the whole list, so that they stay the same as it is cut.
  induction fragments using List.reverseRecOn generalizing more with
  | nil => rfl
  | append_singleton fragments last ih =>
    rw [List.append_assoc] at apart ⊢
    have before := ih ([last] ++ more) fun fragment member =>
      apart fragment (List.mem_append_left _ member)
    have settled : callIdAt (fragments ++ ([last] ++ more)) last.index =
        callIdAt (fragments ++ [last]) last.index := by
      rw [← List.append_assoc]
      exact callIdAt_append (fragments ++ [last]) more last.index (by simp)
    rw [takeFragments_concat, fragmentEvent?]
    by_cases here : last.index = index
    · subst here
      split
      next silent =>
        rw [Option.toList_none, List.append_nil, before, heardNameAt, heardNameAt,
          heardAt_concat_silent fragments last silent.1 silent.2]
      next told =>
        have all : heardNameAt (fragments ++ [last]) last.index =
            nameAt (fragments ++ [last]) last.index := by
          rw [heardNameAt, heardAt_concat_told fragments last told, nameAt]
        rw [Option.toList_some, callName_concat, before, all, settled]
        split
        next => simp [Event.toolName?]
        next named =>
          have first := heardNameAt_eq fragments last.index (by simpa using named)
          rw [nameAt_append, first, if_neg named]
    · have other : callIdAt (fragments ++ [last]) last.index ≠
          callIdAt (fragments ++ ([last] ++ more)) index := by
        rw [← settled]
        exact fun same => here (apart last (by simp) same)
      rw [heardNameAt_concat_other fragments last index here, ← before]
      split
      next => simp
      next =>
        rw [Option.toList_some]
        apply callName_concat_other
        simpa [Event.callId?] using other

theorem callName_decodeAll (chunks : List Chunk)
    (distinct : ((indexes (fragments chunks)).map (callIdAt (fragments chunks))).Nodup) (index : UInt64)
    (known : index ∈ indexes (fragments chunks)) :
    callName (ChunkDecoder.decodeAll {} chunks).2 (callIdAt (fragments chunks) index) =
      heardNameAt (fragments chunks) index := by
  rw [← callName_filter, (ChunkDecoder.decoded_decodeAll {} chunks).calls]
  have told := ChunkDecoder.callName_takeFragments (fragments chunks) [] index
  rw [List.append_nil] at told
  apply told
  intro fragment member same
  apply List.inj_on_of_nodup_map distinct _ known same
  exact List.mem_eraseDups.mpr (List.mem_map_of_mem member)

/-- The calls with their names. The first name at an index is the name of its call
exactly when a fragment that is heard has it: the first fragment of the call, or one
with arguments or with arguments after it. -/
theorem toolCalls_named_iff (chunks : List Chunk) (b : Builder)
    (added : Builder.empty.addAll (ChunkDecoder.decodeAll {} chunks).2 = .ok b)
    (distinct : ((indexes (fragments chunks)).map (callIdAt (fragments chunks))).Nodup) :
    b.response.toolCalls = ((indexes (fragments chunks)).map fun index =>
        { callId := callIdAt (fragments chunks) index
          toolName := heardNameAt (fragments chunks) index
          args := argumentsAt (fragments chunks) index }) ∧
      ∀ index ∈ indexes (fragments chunks), nameAt (fragments chunks) index ≠ "" →
        ((callIdAt (fragments chunks) index, nameAt (fragments chunks) index) ∈
            b.response.toolCalls.map (fun call => (call.callId, call.toolName)) ↔
          ∃ fragment ∈ heardAt (fragments chunks) index, fragment.name ≠ "") := by
  have calls : b.response.toolCalls = (indexes (fragments chunks)).map fun index =>
      { callId := callIdAt (fragments chunks) index
        toolName := heardNameAt (fragments chunks) index
        args := argumentsAt (fragments chunks) index } := by
    rw [toolCalls_decodeAll chunks b added, callIds_of_nodup _ distinct, List.map_map]
    apply List.map_congr_left
    intro index known
    rw [Function.comp_apply, streamedCall, callName_decodeAll chunks distinct index known,
      callDeltas_decodeAll, argumentsOf_callIdAt _ distinct index known]
  refine ⟨calls, fun index known named => ?_⟩
  have heard_ : heardNameAt (fragments chunks) index ≠ "" ↔
      ∃ fragment ∈ heardAt (fragments chunks) index, fragment.name ≠ "" := by
    rw [Ne, heardNameAt, Text.firstNonempty_eq_empty]
    simp
  rw [← heard_, calls, List.map_map, List.mem_map]
  constructor
  · rintro ⟨other, inside, same⟩
    obtain ⟨sameId, sameName⟩ := Prod.ext_iff.mp same
    have equal : other = index := List.inj_on_of_nodup_map distinct inside known sameId
    subst equal
    exact sameName.trans_ne named
  · intro told
    exact ⟨index, known, Prod.ext rfl (heardNameAt_eq _ index told).symm⟩

/-- The name of the first call comes before its arguments, that of the second after them. -/
def lateNames : List Chunk :=
  let fragment (index : UInt64) (id name arguments : Option String) : ToolCallFragment :=
    { index, id, function := some { name, arguments } }
  let part (fragments : List ToolCallFragment) : Chunk :=
    { choices := [{ delta := { toolCalls := some fragments } }] }
  [part [fragment 0 (some "a") none none, fragment 1 (some "b") none (some "[1]")],
    part [fragment 0 none (some "find") none, fragment 1 none (some "open") none],
    part [fragment 0 none none (some "[2]")]]

theorem toolCalls_lateNames :
    ∃ b, Builder.empty.addAll (ChunkDecoder.decodeAll {} lateNames).2 = .ok b ∧
      b.response.toolCalls =
        [{ callId := "a", toolName := "find", args := "[2]" }, { callId := "b", toolName := "", args := "[1]" }] := by
  obtain ⟨calls, -⟩ := toolCalls_named_iff lateNames _ rfl (by decide)
  exact ⟨_, rfl, calls.trans rfl⟩

theorem toolName_lost_lateNames :
    ¬ ∀ (chunks : List Chunk) (b : Builder),
      Builder.empty.addAll (ChunkDecoder.decodeAll {} chunks).2 = .ok b →
        ((indexes (fragments chunks)).map (callIdAt (fragments chunks))).Nodup →
          ∀ index ∈ indexes (fragments chunks), nameAt (fragments chunks) index ≠ "" →
            (callIdAt (fragments chunks) index, nameAt (fragments chunks) index) ∈
              b.response.toolCalls.map fun call => (call.callId, call.toolName) := by
  intro kept
  have member := kept lateNames _ rfl (by decide) 1 (by decide) (by decide)
  revert member
  decide

end Colloquy.Chat
