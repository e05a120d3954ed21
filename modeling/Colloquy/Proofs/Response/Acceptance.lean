import Colloquy.Proofs.Response.Coherence
import Colloquy.Proofs.Response.Content
import Colloquy.Response.Verdict

/-! The verdict on an event against the history of the events that were taken. A builder
decides by its phase, its last block, its slots and the identifier it holds; each of
them is what the history says. -/
namespace Colloquy

section

variable (history : List Event) (event : Event)

theorem isOver_concat : isOver (history ++ [event]) = (isOver history || event.kind == .finish) := by
  simp [isOver]

theorem lastAnswer?_concat :
    lastAnswer? (history ++ [event]) = event.answerPhase?.or (lastAnswer? history) := by
  cases answers : event.answerPhase? <;> simp [lastAnswer?, List.filterMap_append, answers]

theorem lastReasoning?_concat :
    lastReasoning? (history ++ [event]) = event.reasoningKind?.or (lastReasoning? history) := by
  cases reasons : event.reasoningKind? <;> simp [lastReasoning?, List.filterMap_append, reasons]

theorem heldId?_concat (id : String) (told : event.responseId? = some id) :
    heldId? (history ++ [event]) = (heldId? history).or (if id.isEmpty then none else some id) := by
  cases empty : id.isEmpty <;>
    simp [heldId?, List.filterMap_append, List.find?_append, told, empty]

theorem heldId?_concat_untold (untold : event.responseId? = none) :
    heldId? (history ++ [event]) = heldId? history := by
  simp [heldId?, List.filterMap_append, untold]

end

theorem Event.answerPhase?_late (event : Event) (phase : Phase) (answers : event.answerPhase? = some phase) :
    phase ≠ .none ∧ phase ≠ .reasoning ∧ phase ≠ .finished := by
  cases event <;> cases answers <;> simp

theorem Event.blockKind?_of_answerPhase? (event : Event) (phase : Phase)
    (answers : event.answerPhase? = some phase) : event.blockKind?.isSome := by
  cases event <;> first | rfl | cases answers

theorem Event.blockKind?_of_reasoningKind? (event : Event) (kind : BlockKind)
    (reasons : event.reasoningKind? = some kind) : event.blockKind?.isSome ∧ event.answerPhase? = none := by
  cases event <;> first | exact ⟨rfl, rfl⟩ | cases reasons

/-- An event that bears content ends nothing and tells no identity. -/
theorem Event.ongoing_of_blockKind? (event : Event) (bears : event.blockKind?.isSome) :
    (event.kind == .finish) = false ∧ event.responseId? = none := by
  cases event <;> first | exact ⟨rfl, rfl⟩ | cases bears

theorem lastAnswer?_late {history : List Event} {phase : Phase} (last : lastAnswer? history = some phase) :
    phase ≠ .none ∧ phase ≠ .reasoning := by
  obtain ⟨event, -, answers⟩ := List.mem_filterMap.mp (List.mem_of_getLast? last)
  obtain ⟨notNone, notReasoning, -⟩ := event.answerPhase?_late phase answers
  exact ⟨notNone, notReasoning⟩

/-- A builder that has taken a history. -/
structure Follows (history : List Event) (b : Builder) : Prop where
  coherent : b.Coherent
  reads : Reads history b.content b.slots
  finished : b.phase = .finished ↔ isOver history = true
  answered : ∀ phase, lastAnswer? history = some phase → b.phase ≠ .finished → b.phase = phase
  early : lastAnswer? history = none → b.phase ≠ .finished → b.Early
  reasoning : lastAnswer? history = none → b.kinds.getLast? = lastReasoning? history
  identity : b.responseId = heldId? history

namespace Follows

variable {history : List Event} {b next : Builder}

theorem lastAnswer?_of_early (follows : Follows history b) (unfinished : b.phase ≠ .finished)
    (early : b.Early) : lastAnswer? history = none := by
  cases last : lastAnswer? history with
  | none => rfl
  | some phase =>
    obtain ⟨notNone, notReasoning⟩ := lastAnswer?_late last
    have same := follows.answered phase last unfinished
    rcases early with none_ | reasoning_
    · exact absurd (same.symm.trans none_) notNone
    · exact absurd (same.symm.trans reasoning_) notReasoning

/-- Reasoning goes to a reasoning block whatever the phase is; but where the last block is
one, the phase would have let it open another. -/
theorem early_of_lastReasoning (follows : Follows history b) (unfinished : b.phase ≠ .finished)
    (last : b.kinds.getLast? = some .reasoning) : b.Early := by
  have some_ : b.kinds ≠ [] := by
    rintro empty
    simp [empty] at last
  have all := follows.coherent.allReasoning_of_last last rfl
  exact Or.inr (follows.coherent.reasoning_iff.mpr ⟨unfinished, some_, all⟩)

theorem answering (follows : Follows history b) (event : Event) (coherent : next.Coherent)
    (reads : Reads (history ++ [event]) next.content next.slots) (unfinished : b.phase ≠ .finished)
    (answers : event.answerPhase? = some next.phase) (identity : next.responseId = b.responseId) :
    Follows (history ++ [event]) next where
  coherent := coherent
  reads := reads
  finished := by
    have going : isOver history = false := by simpa [follows.finished] using unfinished
    have bears := event.blockKind?_of_answerPhase? _ answers
    rw [isOver_concat, going, (event.ongoing_of_blockKind? bears).1]
    simpa using (event.answerPhase?_late _ answers).2.2
  answered := by
    intro phase last _
    rw [lastAnswer?_concat, answers, Option.some_or] at last
    exact Option.some.inj last
  early := by
    intro none_
    rw [lastAnswer?_concat, answers] at none_
    cases none_
  reasoning := by
    intro none_
    rw [lastAnswer?_concat, answers] at none_
    cases none_
  identity := by
    have bears := event.blockKind?_of_answerPhase? _ answers
    rw [heldId?_concat_untold _ _ (event.ongoing_of_blockKind? bears).2, identity, follows.identity]

theorem reasoned (follows : Follows history b) (event : Event) (coherent : next.Coherent)
    (reads : Reads (history ++ [event]) next.content next.slots) (unfinished : b.phase ≠ .finished)
    (early : b.Early) (kind : BlockKind) (reasons : event.reasoningKind? = some kind)
    (phase : next.phase = .reasoning) (last : next.kinds.getLast? = some kind)
    (identity : next.responseId = b.responseId) : Follows (history ++ [event]) next where
  coherent := coherent
  reads := reads
  finished := by
    have going : isOver history = false := by simpa [follows.finished] using unfinished
    have bears := (event.blockKind?_of_reasoningKind? kind reasons).1
    simp [isOver_concat, going, (event.ongoing_of_blockKind? bears).1, phase]
  answered := by
    intro answer told _
    have silent := (event.blockKind?_of_reasoningKind? kind reasons).2
    rw [lastAnswer?_concat, silent, Option.none_or, follows.lastAnswer?_of_early unfinished early] at told
    cases told
  early := fun _ _ => Or.inr phase
  reasoning := by
    intro _
    rw [lastReasoning?_concat, reasons, Option.some_or, last]
  identity := by
    have bears := (event.blockKind?_of_reasoningKind? kind reasons).1
    rw [heldId?_concat_untold _ _ (event.ongoing_of_blockKind? bears).2, identity, follows.identity]

/-- An event that bears no content, and one that only signs it. -/
theorem quiet (follows : Follows history b) (event : Event) (coherent : next.Coherent)
    (reads : Reads (history ++ [event]) next.content next.slots)
    (silent : event.answerPhase? = none) (unreasoned : event.reasoningKind? = none)
    (phase : next.phase = if event.kind = .finish then .finished else b.phase)
    (kinds : next.kinds = b.kinds) (identity : next.responseId = heldId? (history ++ [event])) :
    Follows (history ++ [event]) next := by
  have answer : lastAnswer? (history ++ [event]) = lastAnswer? history := by
    rw [lastAnswer?_concat, silent, Option.none_or]
  have reasoning_ : lastReasoning? (history ++ [event]) = lastReasoning? history := by
    rw [lastReasoning?_concat, unreasoned, Option.none_or]
  have same (unfinished : next.phase ≠ .finished) : next.phase = b.phase := by
    rw [phase] at unfinished ⊢
    split at unfinished
    next => exact absurd rfl unfinished
    next other => rw [if_neg other]
  refine
    { coherent, reads, identity, finished := ?_, answered := ?_, early := ?_, reasoning := ?_ }
  · rw [isOver_concat, phase]
    by_cases ends : event.kind = .finish
    · simp [ends]
    · simp [ends, follows.finished]
  · rw [answer]
    intro last told unfinished
    have kept := same unfinished
    rw [kept] at unfinished ⊢
    exact follows.answered last told unfinished
  · rw [answer]
    intro none_ unfinished
    have kept := same unfinished
    have early := follows.early none_ (kept ▸ unfinished)
    unfold Builder.Early
    rw [kept]
    exact early
  · rw [answer, kinds, reasoning_]
    exact follows.reasoning

theorem effect (follows : Follows history b) (unfinished : b.phase ≠ .finished) (event : Event)
    (coherent : next.Coherent) (reads : Reads (history ++ [event]) next.content next.slots)
    (effect : Builder.Effect b event next) : Follows (history ++ [event]) next := by
  have untold (silent : event.responseId? = none) : b.responseId = heldId? (history ++ [event]) := by
    rw [heldId?_concat_untold _ _ silent, follows.identity]
  cases effect with
  | textJoined text blocks last stands => exact follows.answering _ coherent reads unfinished rfl rfl
  | textOpened text apart => exact follows.answering _ coherent reads unfinished rfl rfl
  | reasoningJoined text blocks last stands =>
    have early := follows.early_of_lastReasoning unfinished (Builder.getLast?_kinds_of_concat stands)
    exact follows.reasoned _ coherent reads unfinished early .reasoning rfl rfl
      (b.getLast?_kinds_withContent blocks _ _) rfl
  | reasoningOpened text apart early =>
    exact follows.reasoned _ coherent reads unfinished early .reasoning rfl rfl
      (b.getLast?_kinds_push _ _) rfl
  | signed signature blocks last stands =>
    have kinds : (b.withContent (blocks ++ [.reasoning { last with signature := some signature }])
        b.phase).kinds = b.kinds := by
      simp [Builder.kinds, stands, Block.kind]
    exact follows.quiet _ coherent reads rfl rfl rfl kinds (untold rfl)
  | redacted data early =>
    exact follows.reasoned _ coherent reads unfinished early .redactedReasoning rfl rfl
      (b.getLast?_kinds_push _ _) rfl
  | callOpened callId toolName args fresh => exact follows.answering _ coherent reads unfinished rfl rfl
  | pieceOpened callId toolName argsDelta fresh =>
    exact follows.answering _ coherent reads unfinished rfl rfl
  | pieceJoined callId toolName argsDelta slot found =>
    exact follows.answering _ coherent reads unfinished rfl rfl
  | source cited => exact follows.answering _ coherent reads unfinished rfl rfl
  | file mediaType data => exact follows.answering _ coherent reads unfinished rfl rfl
  | identified id modelId timestamp agrees =>
    apply follows.quiet _ coherent reads rfl rfl rfl rfl
    rw [heldId?_concat _ _ id rfl, ← follows.identity]
    rfl
  | finished told => exact follows.quiet _ coherent reads rfl rfl rfl rfl (untold rfl)
  | failed message => exact follows.quiet _ coherent reads rfl rfl rfl rfl (untold rfl)

theorem add (follows : Follows history b) (event : Event) (added : b.add event = .ok next) :
    Follows (history ++ [event]) next := by
  obtain ⟨unfinished, effect⟩ := Builder.effect_of_add added
  exact follows.effect unfinished event (follows.coherent.effect effect)
    (Builder.reads_add follows.reads event added) effect

theorem addOpening (follows : Follows history b) (told : Opening) : Follows history (b.addOpening told) :=
  { follows with coherent := follows.coherent.addOpening told }

end Follows

namespace Builder

theorem follows_empty : Follows [] empty where
  coherent := coherent_empty
  reads := reads_empty
  finished := by simp [empty, isOver]
  answered := by simp [lastAnswer?]
  early := fun _ _ => Or.inl rfl
  reasoning := fun _ => rfl
  identity := rfl

theorem follows_feedAll (inputs : List Input) :
    Follows (empty.history inputs) (empty.feedAll inputs) := by
  apply feedAll_preserves (motive := Follows) _ _ [] empty follows_empty
  · intro history b event next follows added
    exact follows.add event added
  · intro history b told follows
    exact follows.addOpening told

end Builder

theorem Span.blockKind?_opener (history : List Event) (s : Span) (block : Block)
    (told : s.block? history = some block) : s.opener.blockKind? = some block.kind := by
  unfold block? at told
  split at told <;> cases told <;> simp_all [Event.blockKind?, Block.kind]

theorem spans_eq_nil_iff (history : List Event) :
    spans history = [] ↔ ∀ event ∈ history, event.blockKind? = none := by
  induction history using List.reverseRecOn with
  | nil => simp [spans]
  | append_singleton history event ih =>
    rw [spans_concat, Span.next, List.forall_mem_append, List.forall_mem_singleton, ← ih]
    split
    next opening =>
      have bears : event.blockKind? ≠ none := by cases event <;> simp_all [Span.opens, Event.blockKind?]
      simp [bears]
    next closed =>
      rcases (spans history).eq_nil_or_concat' with none_ | ⟨before, last, some_⟩
      · have silent : event.blockKind? = none := by
          cases event <;> simp_all [Span.opens, Event.blockKind?]
        simp [none_, Span.extendLast, silent]
      · simp [some_, Span.extendLast_concat]

theorem Reads.getLast?_kinds {history : List Event} {content : List Block} {slots : Dictionary Nat}
    (reads : Reads history content slots) : content.getLast?.map Block.kind = lastOpened? history := by
  rcases content.eq_nil_or_concat' with rfl | ⟨blocks, block, rfl⟩
  · have none_ : spans history = [] := List.map_eq_nil_iff.mp reads.content.symm
    simp [lastOpened?, openers, none_]
  · obtain ⟨earlier, span, whole, -, told⟩ := Span.exists_last block reads.content.symm
    simp [lastOpened?, openers, whole, span.blockKind?_opener history block told]

namespace Follows

variable {history : List Event} {b : Builder}

theorem add_eq (unfinished : b.phase ≠ .finished) (event : Event) : b.add event = b.apply event :=
  if_neg unfinished

theorem lastReasoning_iff (follows : Follows history b) (unfinished : b.phase ≠ .finished) :
    b.kinds.getLast? = some .reasoning ↔
      lastAnswer? history = none ∧ lastReasoning? history = some .reasoning := by
  constructor
  · intro last
    have none_ := follows.lastAnswer?_of_early unfinished (follows.early_of_lastReasoning unfinished last)
    exact ⟨none_, (follows.reasoning none_).symm.trans last⟩
  · rintro ⟨none_, last⟩
    exact (follows.reasoning none_).trans last

theorem content_eq_nil_iff (follows : Follows history b) :
    b.content = [] ↔ ∀ event ∈ history, event.blockKind? = none := by
  rw [← spans_eq_nil_iff, ← List.map_eq_nil_iff (f := some), follows.reads.content, List.map_eq_nil_iff]

theorem not_early (follows : Follows history b) (unfinished : b.phase ≠ .finished) {phase : Phase}
    (answer : lastAnswer? history = some phase) : ¬b.Early := by
  intro early
  rw [follows.lastAnswer?_of_early unfinished early] at answer
  cases answer

theorem verdict_reasoning (follows : Follows history b) (unfinished : b.phase ≠ .finished) (text : String) :
    (b.feed (.event (.reasoning text))).2 =
      (lastAnswer? history).map (.invalidTransition .reasoning) := by
  have taken := add_eq unfinished (.reasoning text)
  cases answer : lastAnswer? history with
  | none =>
    obtain ⟨content, added⟩ := Builder.addReasoning_early (follows.early answer unfinished) text
    rw [Builder.feed_of_ok (taken.trans added)]
    rfl
  | some phase =>
    have late := follows.not_early unfinished answer
    have apart : b.kinds.getLast? ≠ some .reasoning := fun last =>
      late (follows.early_of_lastReasoning unfinished last)
    have rejected := Builder.addReasoning_late late apart text
    rw [Builder.feed_of_error (taken.trans rejected), follows.answered phase answer unfinished]
    rfl

theorem verdict_redactedReasoning (follows : Follows history b) (unfinished : b.phase ≠ .finished)
    (data : String) :
    (b.feed (.event (.redactedReasoning data))).2 =
      (lastAnswer? history).map (.invalidTransition .redactedReasoning) := by
  have taken : b.add (.redactedReasoning data) = b.addRedactedReasoning data := add_eq unfinished _
  unfold Builder.addRedactedReasoning at taken
  cases answer : lastAnswer? history with
  | none =>
    rw [Builder.reasoningAllowed_of_early (follows.early answer unfinished)] at taken
    rw [Builder.feed_of_ok taken]
    rfl
  | some phase =>
    rw [Builder.reasoningAllowed_of_late (follows.not_early unfinished answer)] at taken
    rw [Builder.feed_of_error taken, follows.answered phase answer unfinished]
    rfl

theorem verdict_reasoningSignature (follows : Follows history b) (unfinished : b.phase ≠ .finished)
    (signature : String) :
    (b.feed (.event (.reasoningSignature signature))).2 =
      if lastAnswer? history = none ∧ lastReasoning? history = some .reasoning then none
      else if history.all fun earlier => earlier.blockKind?.isNone then some .noReasoningBlock
      else (lastOpened? history).map .lastBlockNotReasoning := by
  have taken : b.add (.reasoningSignature signature) = b.addSignature signature := add_eq unfinished _
  unfold Builder.addSignature at taken
  have silent : history.all (fun earlier => earlier.blockKind?.isNone) = true ↔ b.content = [] := by
    simp [follows.content_eq_nil_iff]
  have signable := follows.lastReasoning_iff unfinished
  have opened : b.kinds.getLast? = lastOpened? history :=
    b.getLast?_kinds.trans follows.reads.getLast?_kinds
  rcases b.content.eq_nil_or_concat' with empty | ⟨blocks, last, stands⟩
  · have unsigned := signable.not.mp (by simp [Builder.getLast?_kinds, empty])
    rw [empty] at taken
    rw [Builder.feed_of_error taken, if_neg unsigned, if_pos (silent.mpr empty)]
  · have kind := Builder.getLast?_kinds_of_concat stands
    have bears : b.content ≠ [] := by simp [stands]
    rw [stands, List.getLast?_concat] at taken
    cases last with
    | reasoning last => rw [Builder.feed_of_ok taken, if_pos (signable.mp kind)]
    | _ =>
      have unsigned := signable.not.mp (by rw [kind]; simp [Block.kind])
      rw [Builder.feed_of_error taken, if_neg unsigned, if_neg (silent.not.mpr bears), ← opened, kind]
      rfl

theorem known_iff (follows : Follows history b) (callId : String) :
    b.slots.contains callId = true ↔ callId ∈ history.filterMap Event.callId? := by
  rw [Dictionary.contains, List.mem_filterMap]
  constructor
  · intro known
    obtain ⟨place, found⟩ := Option.isSome_iff_exists.mp known
    have opened := (follows.reads.slots callId place).mp found
    obtain ⟨opener, stands, named⟩ := Option.bind_eq_some_iff.mp opened
    have inside := mem_spans_of_mem_openers history opener (List.mem_of_getElem? stands)
    exact ⟨opener, mem_of_mem_spans history opener inside, named⟩
  · rintro ⟨event, member, named⟩
    rw [Option.isSome_iff_ne_none]
    intro absent
    obtain ⟨opener, inside, same⟩ := exists_opener_of_named history callId event member named
    exact follows.reads.unnamed_of_find?_none callId absent opener inside same

theorem verdict_toolCall (follows : Follows history b) (unfinished : b.phase ≠ .finished)
    (callId toolName args : String) :
    (b.feed (.event (.toolCall callId toolName args))).2 =
      if callId ∈ history.filterMap Event.callId? then some (.duplicateToolCall callId) else none := by
  have taken : b.add (.toolCall callId toolName args) = b.addToolCall callId toolName args :=
    add_eq unfinished _
  rw [Builder.addToolCall] at taken
  by_cases known : b.slots.contains callId = true
  · rw [if_pos known] at taken
    rw [Builder.feed_of_error taken, if_pos ((follows.known_iff callId).mp known)]
  · rw [if_neg known] at taken
    rw [Builder.feed_of_ok taken, if_neg ((follows.known_iff callId).not.mp known)]

theorem verdict_responseMetadata (follows : Follows history b) (unfinished : b.phase ≠ .finished)
    (id modelId : String) (timestamp : Option Time.Timestamp) :
    (b.feed (.event (.responseMetadata id modelId timestamp))).2 =
      match heldId? history with
      | some expected => if expected = id then none else some (.responseIdMismatch expected id)
      | none => none := by
  have taken : b.add (.responseMetadata id modelId timestamp) =
      b.addResponseMetadata id modelId timestamp := add_eq unfinished _
  unfold Builder.addResponseMetadata at taken
  rw [follows.identity] at taken
  cases held : heldId? history with
  | none =>
    rw [held] at taken
    rw [Builder.feed_of_ok taken]
  | some expected =>
    rw [held] at taken
    dsimp only at taken ⊢
    by_cases same : expected = id
    · rw [if_pos same] at taken ⊢
      rw [Builder.feed_of_ok taken]
    · rw [if_neg same] at taken ⊢
      rw [Builder.feed_of_error taken]

/-- What is not asked about is always taken, as long as nothing has finished. -/
theorem verdict_eq (follows : Follows history b) (event : Event) :
    (b.feed (.event event)).2 = verdict history event := by
  unfold verdict
  by_cases ended : isOver history = true
  · have rejected : b.add event = .error (.afterFinish event.kind) := if_pos (follows.finished.mpr ended)
    rw [Builder.feed_of_error rejected, if_pos ended]
  · have unfinished : b.phase ≠ .finished := follows.finished.not.mpr ended
    rw [if_neg ended]
    cases event with
    | reasoning text => exact follows.verdict_reasoning unfinished text
    | redactedReasoning data => exact follows.verdict_redactedReasoning unfinished data
    | reasoningSignature signature => exact follows.verdict_reasoningSignature unfinished signature
    | toolCall callId toolName args => exact follows.verdict_toolCall unfinished callId toolName args
    | responseMetadata id modelId timestamp =>
      exact follows.verdict_responseMetadata unfinished id modelId timestamp
    | _ => rw [Builder.feed_of_ok (add_eq unfinished _)]

end Follows

/-- The verdict on whatever a builder is fed next is what its history says, and the last
block that is there is the one that the history opened last. -/
theorem Builder.verdict_feedAll (inputs : List Input) (event : Event) :
    ((empty.feedAll inputs).feed (.event event)).2 = verdict (empty.history inputs) event ∧
      (empty.feedAll inputs).content.getLast?.map Block.kind = lastOpened? (empty.history inputs) := by
  have follows := follows_feedAll inputs
  exact ⟨follows.verdict_eq event, follows.reads.getLast?_kinds⟩

end Colloquy
