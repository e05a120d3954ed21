import Colloquy.Stream.History
import Mathlib.Data.List.Basic
import Mathlib.Data.List.Induction

/-! The spans of a history and their blocks when one more event comes at its end. -/
namespace Colloquy

theorem spans_concat (history : List Event) (event : Event) :
    spans (history ++ [event]) = Span.next (spans history) event := by
  simp [spans]

theorem Span.extendLast_concat (before : List Span) (last : Span) (event : Event) :
    extendLast event (before ++ [last]) = before ++ [last.extend event] := by
  simp [extendLast]

theorem Span.map_opener_extendLast (before : List Span) (event : Event) :
    (extendLast event before).map opener = before.map opener := by
  induction before using List.reverseRecOn with
  | nil => rfl
  | append_singleton before last _ => simp [extendLast_concat, extend]

theorem openers_concat (history : List Event) (event : Event) :
    openers (history ++ [event]) =
      if Span.opens (spans history) event then openers history ++ [event] else openers history := by
  rw [openers, spans_concat, Span.next]
  split
  next => simp [openers]
  next => rw [Span.map_opener_extendLast, openers]

theorem mem_of_mem_spans (history : List Event) (event : Event)
    (member : event ∈ (spans history).flatMap Span.events) : event ∈ history := by
  induction history using List.reverseRecOn with
  | nil => simp [spans] at member
  | append_singleton history last ih =>
    rw [spans_concat, Span.next] at member
    split at member
    next =>
      simp only [List.flatMap_append, List.mem_append, List.flatMap_singleton, Span.events,
        List.mem_singleton] at member
      rcases member with before | here
      · exact List.mem_append_left _ (ih before)
      · simp [here]
    next =>
      rcases (spans history).eq_nil_or_concat' with none_ | ⟨before, span, some_⟩
      · simp [none_, Span.extendLast] at member
      · rw [some_, Span.extendLast_concat] at member
        rw [some_] at ih
        simp only [List.flatMap_append, List.mem_append, List.flatMap_singleton, Span.events, Span.extend,
          List.mem_cons] at member ih ⊢
        tauto

theorem mem_spans_of_mem_openers (history : List Event) (event : Event)
    (member : event ∈ openers history) : event ∈ (spans history).flatMap Span.events := by
  obtain ⟨span, inside, rfl⟩ := List.mem_map.mp member
  exact List.mem_flatMap.mpr ⟨span, inside, List.mem_cons_self⟩

/-- A call that a history names has an event that opened it. -/
theorem exists_opener_of_named (history : List Event) (callId : String) (event : Event)
    (member : event ∈ history) (named : event.callId? = some callId) :
    ∃ opener ∈ openers history, opener.callId? = some callId := by
  induction history using List.reverseRecOn generalizing event with
  | nil => simp at member
  | append_singleton history last ih =>
    rw [openers_concat]
    rcases List.mem_append.mp member with before | here
    · obtain ⟨opener, inside, same⟩ := ih event before named
      refine ⟨opener, ?_, same⟩
      split
      next => exact List.mem_append_left _ inside
      next => exact inside
    · rw [List.mem_singleton.mp here] at named
      split
      next => exact ⟨last, by simp, named⟩
      next closed =>
        cases last with
        | toolCall id name args => simp [Span.opens] at closed
        | toolCallDelta id name delta =>
          simp only [Event.callId?, Option.some.injEq] at named
          subst named
          simp only [Span.opens, Bool.not_eq_true', Bool.not_eq_false, List.any_eq_true, beq_iff_eq]
            at closed
          obtain ⟨earlier, inside, same⟩ := closed
          exact ih earlier (mem_of_mem_spans history earlier inside) same
        | _ => simp [Event.callId?] at named

theorem opens_toolCallDelta (history : List Event) (callId toolName argsDelta : String) :
    Span.opens (spans history) (.toolCallDelta callId toolName argsDelta) = true ↔
      ∀ opener ∈ openers history, opener.callId? ≠ some callId := by
  simp only [Span.opens, Bool.not_eq_true', List.any_eq_false, beq_iff_eq]
  constructor
  · intro absent opener member
    exact absent opener (mem_spans_of_mem_openers history opener member)
  · intro absent event member named
    obtain ⟨opener, inside, same⟩ :=
      exists_opener_of_named history callId event (mem_of_mem_spans history event member) named
    exact absent opener inside same

theorem Event.toolName?_eq_none (event : Event) (callId : String)
    (other : event.callId? ≠ some callId) : event.toolName? callId = none := by
  cases event <;> simp_all [toolName?, callId?]

theorem Event.argsDelta?_eq_none (event : Event) (callId : String)
    (other : event.callId? ≠ some callId) : event.argsDelta? callId = none := by
  cases event <;> simp_all [argsDelta?, callId?]

theorem callName_concat (history : List Event) (event : Event) (callId : String) :
    callName (history ++ [event]) callId =
      if (callName history callId).isEmpty then (event.toolName? callId).getD ""
      else callName history callId := by
  unfold callName
  rw [List.filterMap_append, Text.firstNonempty_append]
  cases named : event.toolName? callId <;> simp [named]

theorem callDeltas_concat (history : List Event) (event : Event) (callId : String) :
    callDeltas (history ++ [event]) callId =
      callDeltas history callId ++ (event.argsDelta? callId).getD "" := by
  cases told : event.argsDelta? callId <;> simp [callDeltas, List.filterMap_append, told]

theorem callName_concat_other (history : List Event) (event : Event) (callId : String)
    (other : event.callId? ≠ some callId) :
    callName (history ++ [event]) callId = callName history callId := by
  rw [callName_concat, event.toolName?_eq_none callId other]
  split
  next empty => exact (String.isEmpty_iff.mp empty).symm
  next => rfl

theorem callDeltas_concat_other (history : List Event) (event : Event) (callId : String)
    (other : event.callId? ≠ some callId) :
    callDeltas (history ++ [event]) callId = callDeltas history callId := by
  rw [callDeltas_concat, event.argsDelta?_eq_none callId other, Option.getD_none, String.append_empty]

theorem streamedCall_concat_other (history : List Event) (event : Event) (callId : String)
    (other : event.callId? ≠ some callId) :
    streamedCall (history ++ [event]) callId = streamedCall history callId := by
  rw [streamedCall, callName_concat_other _ _ _ other, callDeltas_concat_other _ _ _ other, streamedCall]

/-- A call that is not named has no name and no arguments. -/
theorem call_of_unnamed (history : List Event) (callId : String)
    (absent : ∀ opener ∈ openers history, opener.callId? ≠ some callId) :
    callName history callId = "" ∧ callDeltas history callId = "" := by
  have unnamed (event : Event) (member : event ∈ history) : event.callId? ≠ some callId := by
    intro named
    obtain ⟨opener, inside, same⟩ := exists_opener_of_named history callId event member named
    exact absent opener inside same
  have names : history.filterMap (Event.toolName? callId) = [] :=
    List.filterMap_eq_nil_iff.mpr fun event member => event.toolName?_eq_none callId (unnamed event member)
  have deltas : history.filterMap (Event.argsDelta? callId) = [] :=
    List.filterMap_eq_nil_iff.mpr fun event member =>
      event.argsDelta?_eq_none callId (unnamed event member)
  simp [callName, callDeltas, names, deltas]

/-- An event about another call, or about none, leaves a block as it is. -/
theorem Span.block?_concat (history : List Event) (event : Event) (s : Span)
    (other : ∀ callId, event.callId? = some callId → s.opener.callId? ≠ some callId) :
    s.block? (history ++ [event]) = s.block? history := by
  have apart (callId : String) (named : s.opener.callId? = some callId) :
      event.callId? ≠ some callId := fun same => other callId same named
  unfold block?
  cases opened : s.opener with
  | toolCall callId name args =>
    have distinct := apart callId (by rw [opened]; rfl)
    simp only [callName_concat_other _ _ _ distinct, callDeltas_concat_other _ _ _ distinct]
  | toolCallDelta callId name delta =>
    have distinct := apart callId (by rw [opened]; rfl)
    simp only [streamedCall_concat_other _ _ _ distinct]
  | _ => rfl

theorem Span.map_block?_concat (history : List Event) (event : Event) (before : List Span)
    (other : ∀ callId, event.callId? = some callId →
      ∀ first ∈ before.map opener, first.callId? ≠ some callId) :
    before.map (block? (history ++ [event])) = before.map (block? history) := by
  apply List.map_congr_left
  intro span member
  apply block?_concat
  intro callId named
  exact other callId named span.opener (List.mem_map_of_mem member)

/-- What a span's last event adds to its block beside what a history says of calls. -/
def Span.tell (event : Event) : Block → Block
  | .text block => .text { block with text := block.text ++ event.textDelta?.getD "" }
  | .reasoning block =>
    .reasoning { block with
      text := block.text ++ event.reasoning?.getD ""
      signature := event.signature?.or block.signature }
  | other => other

theorem Span.block?_extend (history : List Event) (event : Event) (s : Span) :
    (s.extend event).block? history = (s.block? history).map (tell event) := by
  have opener_ : (s.extend event).opener = s.opener := rfl
  have events_ : (s.extend event).events = s.events ++ [event] := rfl
  unfold block?
  rw [opener_, events_]
  cases s.opener with
  | textDelta text =>
    cases told : event.textDelta? <;> simp [tell, List.filterMap_append, told]
  | reasoning text =>
    cases told : event.reasoning? <;> cases signed : event.signature? <;>
      simp [tell, List.filterMap_append, told, signed]
  | _ => rfl

/-- Only a text goes on a text, and only reasoning and its signature on reasoning. -/
theorem Span.tell_quiet (event : Event) (block : Block) (noText : event.textDelta? = none)
    (noReasoning : event.reasoning? = none) (noSignature : event.signature? = none) :
    tell event block = block := by
  cases block <;> simp [tell, noText, noReasoning, noSignature]

theorem Span.textDelta?_isSome (history : List Event) (s : Span) (block : Block)
    (told : s.block? history = some block) :
    s.opener.textDelta?.isSome = (block.kind == .text) := by
  unfold block? at told
  split at told <;> cases told <;> simp_all [Event.textDelta?, Block.kind]

theorem Span.reasoning?_isSome (history : List Event) (s : Span) (block : Block)
    (told : s.block? history = some block) :
    s.opener.reasoning?.isSome = (block.kind == .reasoning) := by
  unfold block? at told
  split at told <;> cases told <;> simp_all [Event.reasoning?, Block.kind]

namespace Span

variable {whole : List Event} {before : List Span} {blocks : List Block}

theorem exists_last (block : Block) (told : before.map (block? whole) = (blocks ++ [block]).map some) :
    ∃ earlier span, before = earlier ++ [span] ∧ earlier.map (block? whole) = blocks.map some ∧
      span.block? whole = some block := by
  rw [List.map_append, List.map_singleton] at told
  obtain ⟨earlier, last, rfl, early, late⟩ := List.map_eq_append_iff.mp told
  obtain ⟨span, rfl, same⟩ := List.map_eq_singleton_iff.mp late
  exact ⟨earlier, span, rfl, early, same⟩

theorem opens_textDelta (told : before.map (block? whole) = blocks.map some) (text : String) :
    opens before (.textDelta text) = !blocks.getLast?.any fun block => block.kind == .text := by
  rcases blocks.eq_nil_or_concat' with rfl | ⟨earlier, block, rfl⟩
  · rw [List.map_nil, List.map_eq_nil_iff] at told
    simp [opens, told]
  · obtain ⟨_, span, rfl, -, same⟩ := exists_last block told
    simp [opens, span.textDelta?_isSome whole block same]

theorem opens_reasoning (told : before.map (block? whole) = blocks.map some) (text : String) :
    opens before (.reasoning text) = !blocks.getLast?.any fun block => block.kind == .reasoning := by
  rcases blocks.eq_nil_or_concat' with rfl | ⟨earlier, block, rfl⟩
  · rw [List.map_nil, List.map_eq_nil_iff] at told
    simp [opens, told]
  · obtain ⟨_, span, rfl, -, same⟩ := exists_last block told
    simp [opens, span.reasoning?_isSome whole block same]

theorem map_block?_next_opens (told : before.map (block? whole) = blocks.map some) (event : Event)
    (block : Block) (opening : opens before event = true)
    (own : block? whole { opener := event } = some block) :
    (next before event).map (block? whole) = (blocks ++ [block]).map some := by
  rw [next, if_pos opening, List.map_append, told]
  simp [own]

theorem map_block?_next_tells (block : Block)
    (told : before.map (block? whole) = (blocks ++ [block]).map some) (event : Event)
    (stays : opens before event = false) :
    (next before event).map (block? whole) = (blocks ++ [tell event block]).map some := by
  obtain ⟨earlier, span, rfl, early, same⟩ := exists_last block told
  rw [next, if_neg (by simp [stays]), extendLast_concat, List.map_append, early]
  simp [block?_extend, same]

theorem map_block?_extendLast_quiet (event : Event) (noText : event.textDelta? = none)
    (noReasoning : event.reasoning? = none) (noSignature : event.signature? = none)
    (before : List Span) (whole : List Event) :
    (extendLast event before).map (block? whole) = before.map (block? whole) := by
  have same : tell event = id := by
    funext block
    exact tell_quiet event block noText noReasoning noSignature
  induction before using List.reverseRecOn with
  | nil => rfl
  | append_singleton before last _ =>
    rw [extendLast_concat]
    simp [block?_extend, same]

theorem map_block?_next_quiet (told : before.map (block? whole) = blocks.map some) (event : Event)
    (stays : opens before event = false) (noText : event.textDelta? = none)
    (noReasoning : event.reasoning? = none) (noSignature : event.signature? = none) :
    (next before event).map (block? whole) = blocks.map some := by
  rw [next, if_neg (by simp [stays]), map_block?_extendLast_quiet event noText noReasoning noSignature]
  exact told

end Span

end Colloquy
