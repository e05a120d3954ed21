import Colloquy.Response.Builder
import Mathlib.Data.List.Basic

/-! What an event that is taken does to a builder, one case for each way. Facts about
all builders follow from these cases and need not look into the builder again. -/
namespace Colloquy.Builder

def kinds (b : Builder) : List BlockKind :=
  b.content.map Block.kind

/-- Either nothing of the answer has come yet, or only reasoning has. -/
def Early (b : Builder) : Prop :=
  b.phase = .none ∨ b.phase = .reasoning

inductive Effect (b : Builder) : Event → Builder → Prop
  | textJoined (text : String) (blocks : List Block) (last : TextBlock)
      (stands : b.content = blocks ++ [.text last]) :
      Effect b (.textDelta text)
        (b.withContent (blocks ++ [.text { last with text := last.text ++ text }]) .text)
  | textOpened (text : String) (apart : b.kinds.getLast? ≠ some .text) :
      Effect b (.textDelta text) (b.push (.ofText text) .text)
  | reasoningJoined (text : String) (blocks : List Block) (last : ReasoningBlock)
      (stands : b.content = blocks ++ [.reasoning last]) :
      Effect b (.reasoning text)
        (b.withContent (blocks ++ [.reasoning { last with text := last.text ++ text }]) .reasoning)
  | reasoningOpened (text : String) (apart : b.kinds.getLast? ≠ some .reasoning) (early : b.Early) :
      Effect b (.reasoning text) (b.push (.reasoning { text }) .reasoning)
  | signed (signature : String) (blocks : List Block) (last : ReasoningBlock)
      (stands : b.content = blocks ++ [.reasoning last]) :
      Effect b (.reasoningSignature signature)
        (b.withContent (blocks ++ [.reasoning { last with signature := some signature }]) b.phase)
  | redacted (data : String) (early : b.Early) :
      Effect b (.redactedReasoning data) (b.push (.redactedReasoning { data }) .reasoning)
  | callOpened (callId toolName args : String) (fresh : b.slots.find? callId = none) :
      Effect b (.toolCall callId toolName args) (b.pushToolCall callId toolName args)
  | pieceOpened (callId toolName argsDelta : String) (fresh : b.slots.find? callId = none) :
      Effect b (.toolCallDelta callId toolName argsDelta) (b.pushToolCall callId toolName argsDelta)
  | pieceJoined (callId toolName argsDelta : String) (slot : Nat) (found : b.slots.find? callId = some slot) :
      Effect b (.toolCallDelta callId toolName argsDelta)
        (b.withContent (b.content.modify slot (extendCall toolName argsDelta)) .toolCall)
  | source (cited : Source) : Effect b (.source cited) (b.push (.source cited.block) .source)
  | file (mediaType : String) (data : Text.Bytes) :
      Effect b (.file mediaType data)
        (b.push (.file { data := some data, mediaType := some mediaType }) .file)
  | identified (id modelId : String) (timestamp : Option Time.Timestamp)
      (agrees : ∀ expected, b.responseId = some expected → expected = id) :
      Effect b (.responseMetadata id modelId timestamp)
        (addResponseMetadata.record b id modelId timestamp
          (b.responseId.or (if id.isEmpty then none else some id)))
  | finished (told : Finish) : Effect b (.finish told) (b.addFinish told)
  | failed (message : String) : Effect b (.error message) { b with error := some message }

variable {b next : Builder}

theorem getLast?_kinds (b : Builder) : b.kinds.getLast? = b.content.getLast?.map Block.kind :=
  List.getLast?_map

/-- A builder's last block, when its content is not empty. -/
theorem getLast?_kinds_of_concat {blocks : List Block} {last : Block}
    (stands : b.content = blocks ++ [last]) : b.kinds.getLast? = some last.kind := by
  rw [getLast?_kinds, stands, List.getLast?_concat, Option.map_some]

theorem getLast?_kinds_withContent (b : Builder) (blocks : List Block) (last : Block) (phase : Phase) :
    (b.withContent (blocks ++ [last]) phase).kinds.getLast? = some last.kind :=
  getLast?_kinds_of_concat (content_withContent b _ phase)

theorem getLast?_kinds_push (b : Builder) (block : Block) (phase : Phase) :
    (b.push block phase).kinds.getLast? = some block.kind :=
  getLast?_kinds_withContent b b.content block phase

theorem kind_extendCall {toolName argsDelta : String} (block : Block) :
    (extendCall toolName argsDelta block).kind = block.kind := by
  cases block <;> rfl

theorem map_modify_extendCall {α : Type} {toolName argsDelta : String} (view : Block → α)
    (unseen : ∀ block, view (extendCall toolName argsDelta block) = view block) (content : List Block)
    (slot : Nat) : (content.modify slot (extendCall toolName argsDelta)).map view = content.map view := by
  apply List.ext_getElem?
  intro place
  simp only [List.getElem?_map, List.getElem?_modify]
  by_cases chosen : slot = place
  · simp [chosen, Option.map_map, Function.comp_def, unseen]
  · simp [chosen]

theorem effect_addText (b : Builder) (text : String) : Effect b (.textDelta text) (b.addText text) := by
  unfold addText
  rcases b.content.eq_nil_or_concat' with empty | ⟨blocks, last, stands⟩
  · rw [empty]
    exact .textOpened text (by simp [getLast?_kinds, empty])
  · have kind := getLast?_kinds_of_concat stands
    rw [stands, List.getLast?_concat]
    cases last with
    | text last =>
      have joined := Effect.textJoined text blocks last stands
      simpa [replaceLast, stands] using joined
    | _ => exact .textOpened text (by rw [kind]; simp [Block.kind])

theorem reasoningAllowed_of_early (early : b.Early) (kind : EventKind) :
    b.reasoningAllowed kind = .ok () := by
  rcases early with none_ | reasoning_
  · simp only [reasoningAllowed, none_]
  · simp only [reasoningAllowed, reasoning_]

theorem reasoningAllowed_of_late (late : ¬b.Early) (kind : EventKind) :
    b.reasoningAllowed kind = .error (.invalidTransition kind b.phase) := by
  unfold reasoningAllowed
  split
  next none_ => exact absurd (Or.inl none_) late
  next reasoning_ => exact absurd (Or.inr reasoning_) late
  next => rfl

theorem early_of_allowed {kind : EventKind} {block : Block}
    (added : (do b.reasoningAllowed kind; return b.push block .reasoning) = Except.ok next) :
    b.Early ∧ next = b.push block .reasoning := by
  by_cases early : b.Early
  · rw [reasoningAllowed_of_early early] at added
    cases added
    exact ⟨early, rfl⟩
  · rw [reasoningAllowed_of_late early] at added
    cases added

theorem addReasoning_early (early : b.Early) (text : String) :
    ∃ content, b.addReasoning text = .ok (b.withContent content .reasoning) := by
  unfold addReasoning
  split
  next => exact ⟨_, rfl⟩
  next =>
    rw [reasoningAllowed_of_early early]
    exact ⟨_, rfl⟩

theorem addReasoning_late (late : ¬b.Early) (apart : b.kinds.getLast? ≠ some .reasoning) (text : String) :
    b.addReasoning text = .error (.invalidTransition .reasoning b.phase) := by
  unfold addReasoning
  split
  next last stands => exact absurd (by rw [getLast?_kinds, stands]; rfl) apart
  next =>
    rw [reasoningAllowed_of_late late]
    rfl

theorem effect_addReasoning (text : String) (added : b.addReasoning text = .ok next) :
    Effect b (.reasoning text) next := by
  unfold addReasoning at added
  rcases b.content.eq_nil_or_concat' with empty | ⟨blocks, last, stands⟩
  · rw [empty] at added
    obtain ⟨early, rfl⟩ := early_of_allowed added
    exact .reasoningOpened text (by simp [getLast?_kinds, empty]) early
  · have kind := getLast?_kinds_of_concat stands
    rw [stands, List.getLast?_concat] at added
    cases last with
    | reasoning last =>
      cases added
      have joined := Effect.reasoningJoined text blocks last stands
      simpa [replaceLast, stands] using joined
    | _ =>
      obtain ⟨early, rfl⟩ := early_of_allowed added
      exact .reasoningOpened text (by rw [kind]; simp [Block.kind]) early

theorem effect_addSignature (signature : String) (added : b.addSignature signature = .ok next) :
    Effect b (.reasoningSignature signature) next := by
  unfold addSignature at added
  rcases b.content.eq_nil_or_concat' with empty | ⟨blocks, last, stands⟩
  · rw [empty] at added
    cases added
  · rw [stands, List.getLast?_concat] at added
    cases last with
    | reasoning last =>
      cases added
      have signed := Effect.signed signature blocks last stands
      simpa [replaceLast, stands] using signed
    | _ => cases added

theorem effect_addToolCall (callId toolName args : String)
    (added : b.addToolCall callId toolName args = .ok next) :
    Effect b (.toolCall callId toolName args) next := by
  unfold addToolCall at added
  split at added
  next => cases added
  next fresh =>
    cases added
    exact .callOpened callId toolName args (by simpa [Dictionary.contains] using fresh)

theorem effect_addToolCallDelta (b : Builder) (callId toolName argsDelta : String) :
    Effect b (.toolCallDelta callId toolName argsDelta)
      (b.addToolCallDelta callId toolName argsDelta) := by
  unfold addToolCallDelta
  cases found : b.slots.find? callId with
  | none => exact .pieceOpened callId toolName argsDelta found
  | some slot => exact .pieceJoined callId toolName argsDelta slot found

theorem effect_addResponseMetadata (id modelId : String) (timestamp : Option Time.Timestamp)
    (added : b.addResponseMetadata id modelId timestamp = .ok next) :
    Effect b (.responseMetadata id modelId timestamp) next := by
  unfold addResponseMetadata at added
  cases known : b.responseId with
  | none =>
    rw [known] at added
    cases added
    have told := Effect.identified (b := b) id modelId timestamp (by simp [known])
    rwa [known, Option.none_or] at told
  | some expected =>
    rw [known] at added
    dsimp only at added
    split at added
    next same =>
      cases added
      have told := Effect.identified (b := b) id modelId timestamp (by simp [known, same])
      rwa [known, Option.some_or] at told
    next => cases added

theorem effect_of_apply (event : Event) (added : b.apply event = .ok next) : Effect b event next := by
  cases event with
  | textDelta text => cases added; exact effect_addText b text
  | reasoning text => exact effect_addReasoning text added
  | reasoningSignature signature => exact effect_addSignature signature added
  | redactedReasoning data =>
    obtain ⟨early, rfl⟩ := early_of_allowed added
    exact .redacted data early
  | toolCall callId toolName args => exact effect_addToolCall callId toolName args added
  | toolCallDelta callId toolName argsDelta =>
    cases added
    exact effect_addToolCallDelta b callId toolName argsDelta
  | source cited => cases added; exact .source cited
  | file mediaType data => cases added; exact .file mediaType data
  | responseMetadata id modelId timestamp => exact effect_addResponseMetadata id modelId timestamp added
  | finish told => cases added; exact .finished told
  | error message => cases added; exact .failed message

theorem effect_of_add {event : Event} (added : b.add event = .ok next) :
    b.phase ≠ .finished ∧ Effect b event next := by
  unfold add at added
  split at added
  next => cases added
  next unfinished => exact ⟨unfinished, effect_of_apply event added⟩

end Colloquy.Builder
