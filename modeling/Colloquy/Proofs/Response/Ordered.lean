import Colloquy.Proofs.Response.Calls
import Colloquy.Proofs.Response.Draining

/-! Histories in which reasoning comes first, then text, then tool calls in pieces.
The blocks of such a history come in that order, and a builder accepts all of it. -/
namespace Colloquy

def Ordered (history : List Event) : Prop :=
  (history.filterMap Event.rank?).Pairwise (· ≤ ·)

/-- An event that has a place in an ordered history, or tells an identity. -/
def Event.Plain (event : Event) : Prop :=
  event.rank?.isSome ∨ event.info?.isSome

namespace Ordered

variable {history : List Event} {event : Event}

theorem before (ordered : Ordered (history ++ [event])) : Ordered history := by
  unfold Ordered at ordered
  rw [List.filterMap_append] at ordered
  exact (List.pairwise_append.mp ordered).1

theorem le_last (ordered : Ordered (history ++ [event])) (rank : Nat) (last : event.rank? = some rank)
    (earlier : Event) (member : earlier ∈ history) (place : Nat) (ranked : earlier.rank? = some place) :
    place ≤ rank := by
  unfold Ordered at ordered
  rw [List.filterMap_append] at ordered
  apply (List.pairwise_append.mp ordered).2.2 place
  · exact List.mem_filterMap.mpr ⟨earlier, member, ranked⟩
  · simp [last]

theorem no_text (ordered : Ordered (history ++ [event])) (first : event.rank? = some 0) :
    history.filterMap Event.textDelta? = [] := by
  rw [List.filterMap_eq_nil_iff]
  intro earlier member
  cases earlier with
  | textDelta text =>
    have late := ordered.le_last 0 first _ member 1 rfl
    omega
  | _ => rfl

theorem no_calls (ordered : Ordered (history ++ [event])) (rank : Nat) (place : event.rank? = some rank)
    (early : rank < 2) (plain : ∀ earlier ∈ history, earlier.Plain) : namedCalls history = [] := by
  have unnamed : history.filterMap Event.callId? = [] := by
    rw [List.filterMap_eq_nil_iff]
    intro earlier member
    cases earlier with
    | toolCallDelta callId toolName argsDelta =>
      have late := ordered.le_last rank place _ member 2 rfl
      omega
    | toolCall callId toolName args => simpa [Event.Plain, Event.rank?, Event.info?] using plain _ member
    | _ => rfl
  rw [namedCalls, unnamed, List.eraseDups_nil]

end Ordered

def joined (block : String → Block) (texts : List String) : List Block :=
  if texts.isEmpty then [] else [block (String.join texts)]

def reasoningBlock (text : String) : Block :=
  .reasoning { text }

def callBlocks (whole history : List Event) : List Block :=
  (namedCalls history).map fun callId => .toolCall (streamedCall whole callId)

/-- The blocks of an ordered history, with its calls as a longer history tells them. -/
def orderedBlocks (whole history : List Event) : List Block :=
  joined reasoningBlock (history.filterMap Event.reasoning?) ++
    joined Block.ofText (history.filterMap Event.textDelta?) ++ callBlocks whole history

@[simp] theorem joined_nil (block : String → Block) : joined block [] = [] := rfl

@[simp] theorem joined_concat (block : String → Block) (texts : List String) (text : String) :
    joined block (texts ++ [text]) = [block (String.join texts ++ text)] := by
  simp [joined]

theorem joined_of_ne_nil (block : String → Block) (texts : List String) (some_ : texts ≠ []) :
    joined block texts = [block (String.join texts)] := by
  simp [joined, some_]

/-- An event that goes on a block of its kind, or opens one after blocks of other kinds. -/
theorem Span.map_block?_next_joined {whole : List Event} {before : List Span} (kind : BlockKind)
    (block : String → Block) (others : List Block) (texts : List String) (event : Event) (text : String)
    (told : before.map (block? whole) = (others ++ joined block texts).map some)
    (opening : opens before event =
      !(others ++ joined block texts).getLast?.any fun block => block.kind == kind)
    (apart : ∀ other ∈ others, other.kind ≠ kind) (alike : ∀ text, (block text).kind = kind)
    (own : block? whole { opener := event } = some (block text))
    (grows : ∀ before, tell event (block before) = block (before ++ text)) :
    (next before event).map (block? whole) = (others ++ joined block (texts ++ [text])).map some := by
  rw [joined_concat]
  by_cases none_ : texts = []
  · subst none_
    rw [joined_nil, List.append_nil] at told opening
    have opens_ : opens before event = true := by
      rw [opening]
      cases last : others.getLast? with
      | none => rfl
      | some other => simp [apart other (List.mem_of_getLast? last)]
    have own_ : block? whole { opener := event } = some (block (String.join [] ++ text)) := by
      rw [own]
      simp
    exact map_block?_next_opens told event _ opens_ own_
  · rw [joined_of_ne_nil block texts none_] at told opening
    have stays : opens before event = false := by
      rw [opening, List.getLast?_concat]
      simp [alike]
    rw [map_block?_next_tells _ told event stays, grows]

theorem kind_of_mem_joined (block : String → Block) (kind : BlockKind)
    (alike : ∀ text, (block text).kind = kind) (texts : List String) (other : Block)
    (member : other ∈ joined block texts) : other.kind = kind := by
  unfold joined at member
  split at member
  next => cases member
  next =>
    rw [List.mem_singleton] at member
    rw [member, alike]

def Told (whole history : List Event) : Prop :=
  (spans history).map (Span.block? whole) = (orderedBlocks whole history).map some

namespace Told

variable {whole history : List Event}

theorem reasoning (told : Told whole history) (text : String)
    (noText : history.filterMap Event.textDelta? = []) (noCalls : namedCalls history = []) :
    Told whole (history ++ [.reasoning text]) := by
  have noCalls_ : namedCalls (history ++ [.reasoning text]) = [] := by
    rw [namedCalls_concat_unnamed history (.reasoning text) rfl, noCalls]
  unfold Told at told ⊢
  simp only [orderedBlocks, callBlocks, noText, noCalls, noCalls_, List.filterMap_append,
    List.filterMap_cons, List.filterMap_nil, Event.reasoning?, Event.textDelta?, List.append_nil,
    List.map_nil, joined_nil] at told ⊢
  rw [spans_concat]
  apply Span.map_block?_next_joined .reasoning reasoningBlock [] _ _ text told
  · exact Span.opens_reasoning told text
  · simp
  · intro text
    rfl
  · simp [Span.block?, Span.events, Event.reasoning?, Event.signature?, reasoningBlock]
  · intro before
    simp [Span.tell, Event.reasoning?, Event.signature?, reasoningBlock]

theorem textDelta (told : Told whole history) (text : String) (noCalls : namedCalls history = []) :
    Told whole (history ++ [.textDelta text]) := by
  have noCalls_ : namedCalls (history ++ [.textDelta text]) = [] := by
    rw [namedCalls_concat_unnamed history (.textDelta text) rfl, noCalls]
  unfold Told at told ⊢
  simp only [orderedBlocks, callBlocks, noCalls, noCalls_, List.filterMap_append, List.filterMap_cons,
    List.filterMap_nil, Event.reasoning?, Event.textDelta?, List.append_nil, List.map_nil] at told ⊢
  rw [spans_concat]
  apply Span.map_block?_next_joined .text Block.ofText _ _ _ text told
  · exact Span.opens_textDelta told text
  · intro other member
    rw [kind_of_mem_joined reasoningBlock .reasoning (fun _ => rfl) _ other member]
    simp
  · intro text
    rfl
  · simp [Span.block?, Span.events, Event.textDelta?, Block.ofText]
  · intro before
    simp [Span.tell, Event.textDelta?, Block.ofText]

theorem orderedBlocks_concat_other (event : Event) (noReasoning : event.reasoning? = none)
    (noText : event.textDelta? = none) :
    orderedBlocks whole (history ++ [event]) =
      joined reasoningBlock (history.filterMap Event.reasoning?) ++
        joined Block.ofText (history.filterMap Event.textDelta?) ++ callBlocks whole (history ++ [event]) := by
  simp [orderedBlocks, List.filterMap_append, noReasoning, noText]

theorem toolCallDelta (told : Told whole history) (callId toolName argsDelta : String) :
    Told whole (history ++ [.toolCallDelta callId toolName argsDelta]) := by
  have opens := opens_toolCallDelta_iff history callId toolName argsDelta
  have named := namedCalls_concat history (.toolCallDelta callId toolName argsDelta) callId rfl
  unfold Told at told ⊢
  rw [spans_concat, orderedBlocks_concat_other _ rfl rfl]
  by_cases known : callId ∈ namedCalls history
  · have stays : Span.opens (spans history) (.toolCallDelta callId toolName argsDelta) = false := by
      rw [Bool.eq_false_iff, Ne, opens]
      exact not_not_intro known
    rw [Span.map_block?_next_quiet told _ stays rfl rfl rfl, callBlocks, named, if_pos known]
    rfl
  · rw [Span.map_block?_next_opens told _ (.toolCall (streamedCall whole callId)) (opens.mpr known) rfl,
      callBlocks, named, if_neg known]
    simp [orderedBlocks, callBlocks]

theorem responseMetadata (told : Told whole history) (id modelId : String)
    (timestamp : Option Time.Timestamp) :
    Told whole (history ++ [.responseMetadata id modelId timestamp]) := by
  have unnamed := namedCalls_concat_unnamed history (.responseMetadata id modelId timestamp) rfl
  unfold Told at told ⊢
  rw [spans_concat, orderedBlocks_concat_other _ rfl rfl, Span.map_block?_next_quiet told _ rfl rfl rfl rfl,
    callBlocks, unnamed]
  rfl

end Told

theorem told_of_ordered (whole history : List Event) (ordered : Ordered history)
    (plain : ∀ event ∈ history, event.Plain) : Told whole history := by
  induction history using List.reverseRecOn with
  | nil => rfl
  | append_singleton history event ih =>
    have earlier : ∀ event ∈ history, event.Plain :=
      fun event member => plain event (List.mem_append_left _ member)
    have told := ih ordered.before earlier
    -- The calls are told by `whole`, so no later piece changes them under the induction.
    cases event with
    | reasoning text =>
      have noCalls := ordered.no_calls 0 rfl (by omega) earlier
      exact told.reasoning text (ordered.no_text rfl) noCalls
    | textDelta text => exact told.textDelta text (ordered.no_calls 1 rfl (by omega) earlier)
    | toolCallDelta callId toolName argsDelta => exact told.toolCallDelta callId toolName argsDelta
    | responseMetadata id modelId timestamp => exact told.responseMetadata id modelId timestamp
    | _ =>
      have outside := plain _ (List.mem_append_right _ (List.mem_singleton_self _))
      simp [Event.Plain, Event.rank?, Event.info?] at outside

/-- A builder that has taken an ordered history and nothing else. -/
structure Streamed (history : List Event) (b : Builder) : Prop where
  response : b.response =
    { content := b.content, responseInfo := (history.filterMap Event.info?).head? }
  unidentified : history.filterMap Event.info? = [] → b.responseId = none
  unfinished : b.phase ≠ .finished
  early : (∀ event ∈ history, ∀ rank, event.rank? = some rank → rank = 0) →
    b.phase = .none ∨ b.phase = .reasoning
  error : b.error = none

theorem any_isAnswer_of_ranks {history : List Event}
    (ranks : ∀ event ∈ history, ∀ rank, event.rank? = some rank → rank = 0) :
    history.any Event.isAnswer = false := by
  rw [List.any_eq_false]
  intro event member
  cases event with
  | textDelta text => cases ranks _ member 1 rfl
  | toolCallDelta callId toolName argsDelta => cases ranks _ member 2 rfl
  | _ => simp [Event.isAnswer]

theorem Ordered.timely {history : List Event} (ordered : Ordered history) : reasonsLate history = false := by
  induction history using List.reverseRecOn with
  | nil => rfl
  | append_singleton history event ih =>
    rw [reasonsLate_concat, ih ordered.before, Bool.false_or]
    cases event with
    | reasoning text =>
      have unanswered : history.any Event.isAnswer = false := by
        apply any_isAnswer_of_ranks
        intro earlier member rank place
        exact Nat.le_zero.mp (ordered.le_last 0 rfl earlier member rank place)
      rw [unanswered, Bool.false_and]
    | _ => simp [Event.reasoning?]

theorem lastError?_of_plain (history : List Event) (plain : ∀ event ∈ history, event.Plain) :
    lastError? history = none := by
  have none_ : history.filterMap Event.error? = [] := by
    rw [List.filterMap_eq_nil_iff]
    intro event member
    cases event with
    | error message => simpa [Event.Plain, Event.rank?, Event.info?] using plain _ member
    | _ => rfl
  rw [lastError?, none_, List.getLast?_nil]

theorem ResponseInfo.toldOf_none (told : Option ResponseInfo) : toldOf none told = told := by
  cases told with
  | none => rfl
  | some told =>
    obtain ⟨id, timestamp, modelId⟩ := told
    by_cases unnamed : modelId = "" <;> simp [toldOf, unnamed]

/-- Every event of an ordered history is accepted, as long as it tells one identity at
most. -/
theorem streamed_of_ordered (history : List Event) (ordered : Ordered history)
    (plain : ∀ event ∈ history, event.Plain) (single : (history.filterMap Event.info?).length ≤ 1) :
    ∃ b, Builder.empty.addAll history = .ok b ∧ Streamed history b := by
  have telling : Telling history :=
    { kinds := fun event member => (plain event member).imp_right Or.inl, single }
  obtain ⟨b, added, drained⟩ := drained_of_timely {} telling ordered.timely
  refine ⟨b, added,
    { response := ?_, unidentified := drained.unidentified, unfinished := drained.unfinished,
      early := ?_, error := ?_ }⟩
  · rw [drained.response, ResponseInfo.toldOf_none]
    rfl
  · exact fun ranks => (drained.early (any_isAnswer_of_ranks ranks)).1
  · rw [drained.error, lastError?_of_plain history plain]

theorem response_of_ordered (history : List Event) (ordered : Ordered history)
    (plain : ∀ event ∈ history, event.Plain) (single : (history.filterMap Event.info?).length ≤ 1) :
    ∃ b, Builder.empty.addAll history = .ok b ∧ b.phase ≠ .finished ∧ b.error = none ∧
      b.response =
        { content := orderedBlocks history history
          responseInfo := (history.filterMap Event.info?).head? } := by
  obtain ⟨b, added, streamed⟩ := streamed_of_ordered history ordered plain single
  have reads := Builder.reads_addAll Builder.reads_empty _ added
  rw [List.nil_append] at reads
  have content : b.content = orderedBlocks history history := by
    apply (List.map_inj_right fun _ _ => Option.some.inj).mp
    exact reads.content.trans (told_of_ordered history history ordered plain)
  refine ⟨b, added, streamed.unfinished, streamed.error, ?_⟩
  rw [streamed.response, content]

end Colloquy
