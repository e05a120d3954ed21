import Colloquy.Proofs.Response.Content

/-! A builder that takes reasoning, text, pieces of tool calls, errors and at most one
identity, in any order. It rejects reasoning that comes after a part of the answer,
and nothing else. -/
namespace Colloquy

/-- A history of reasoning, text, pieces of tool calls and errors, with one identity at
most. -/
structure Telling (history : List Event) : Prop where
  kinds : ∀ event ∈ history, event.rank?.isSome ∨ event.info?.isSome ∨ event.error?.isSome
  single : (history.filterMap Event.info?).length ≤ 1

theorem Telling.before {history : List Event} {event : Event} (telling : Telling (history ++ [event])) :
    Telling history where
  kinds := fun earlier member => telling.kinds earlier (List.mem_append_left _ member)
  single := by
    have single := telling.single
    rw [List.filterMap_append, List.length_append] at single
    omega

theorem reasonsLate_concat (history : List Event) (event : Event) :
    reasonsLate (history ++ [event]) =
      (reasonsLate history || (history.any Event.isAnswer && event.reasoning?.isSome)) := by
  induction history with
  | nil => simp [reasonsLate]
  | cons first rest ih =>
    simp only [List.cons_append, reasonsLate, ih, List.any_append, List.any_cons, List.any_nil,
      Bool.or_false]
    cases first.isAnswer <;> cases event.reasoning?.isSome <;> simp

theorem any_isAnswer_concat (history : List Event) (event : Event) (unanswering : event.isAnswer = false) :
    (history ++ [event]).any Event.isAnswer = history.any Event.isAnswer := by
  simp [unanswering]

theorem lastError?_concat (history : List Event) (event : Event) :
    lastError? (history ++ [event]) = event.error?.or (lastError? history) := by
  cases told : event.error? <;> simp [lastError?, List.filterMap_append, told]

namespace Builder

def lastKind? (b : Builder) : Option BlockKind :=
  b.content.getLast?.map Block.kind

theorem addText_eq (b : Builder) (text : String) :
    ∃ content, b.addText text = b.withContent content .text ∧
      (b.addText text).lastKind? = some .text := by
  unfold addText
  split
  next => exact ⟨_, rfl, by simp [lastKind?, Block.kind]⟩
  next => exact ⟨_, rfl, by simp [lastKind?, Block.ofText, Block.kind]⟩

theorem lastKind?_extendCall (content : List Block) (slot : Nat) (toolName argsDelta : String) :
    (content.modify slot (extendCall toolName argsDelta)).getLast?.map Block.kind =
      content.getLast?.map Block.kind := by
  rw [← List.getLast?_map, map_modify_extendCall Block.kind kind_extendCall, List.getLast?_map]

/-- A call that is known is among the blocks already; another one makes a new block. -/
theorem addToolCallDelta_eq (b : Builder) (callId toolName argsDelta : String)
    (apart : b.slots = .empty ∨ b.lastKind? ≠ some .reasoning) :
    ∃ content slots, b.addToolCallDelta callId toolName argsDelta =
        { b.withContent content .toolCall with slots } ∧
      (b.addToolCallDelta callId toolName argsDelta).lastKind? ≠ some .reasoning := by
  unfold addToolCallDelta
  cases found : b.slots.find? callId with
  | none => exact ⟨_, _, rfl, by simp [lastKind?, pushToolCall, push, withContent, content, Block.kind]⟩
  | some slot =>
    refine ⟨_, _, rfl, ?_⟩
    rcases apart with empty | answered
    · rw [empty] at found
      cases found
    · rw [lastKind?, content_withContent, lastKind?_extendCall]
      exact answered

end Builder

/-- A builder that was opened and has taken a history with one identity at most and no
late reasoning. -/
structure Drained (opening : Opening) (history : List Event) (b : Builder) : Prop where
  response : b.response =
    { (Builder.empty.addOpening opening).response with
      content := b.content
      responseInfo := ResponseInfo.toldOf opening.responseInfo (history.filterMap Event.info?).head? }
  unidentified : history.filterMap Event.info? = [] → b.responseId = none
  early : history.any Event.isAnswer = false →
    (b.phase = .none ∨ b.phase = .reasoning) ∧ b.slots = .empty
  answered : history.any Event.isAnswer = true →
    (b.phase = .text ∨ b.phase = .toolCall) ∧ b.lastKind? ≠ some .reasoning
  error : b.error = lastError? history

namespace Drained

variable {opening : Opening} {history : List Event} {b : Builder}

theorem unfinished (drained : Drained opening history b) : b.phase ≠ .finished := by
  intro finished
  cases answers : history.any Event.isAnswer with
  | true => simpa [finished] using (drained.answered answers).1
  | false => simpa [finished] using (drained.early answers).1

theorem add_eq (drained : Drained opening history b) (event : Event) : b.add event = b.apply event :=
  if_neg drained.unfinished

theorem opened (opening : Opening) : Drained opening [] (Builder.empty.addOpening opening) where
  response := by
    cases told : opening.responseInfo <;>
      simp [Builder.addOpening, Builder.empty, Builder.content, ResponseInfo.toldOf, told]
  unidentified := fun _ => rfl
  early := fun _ => ⟨Or.inl rfl, rfl⟩
  answered := by simp
  error := rfl

/-- An event that changes content, slots and phase and nothing else. -/
theorem content (drained : Drained opening history b) (event : Event) (content : List Block)
    (slots : Dictionary Nat) (phase : Phase) (unidentifying : event.info? = none)
    (noError : event.error? = none)
    (early : history.any Event.isAnswer = false → event.isAnswer = false →
      (phase = .none ∨ phase = .reasoning) ∧ slots = .empty)
    (answered : (history ++ [event]).any Event.isAnswer = true →
      (phase = .text ∨ phase = .toolCall) ∧ content.getLast?.map Block.kind ≠ some .reasoning) :
    Drained opening (history ++ [event]) { b.withContent content phase with slots } where
  response := by
    change { b.response with content } = _
    rw [drained.response, List.filterMap_append, List.filterMap_cons_none unidentifying, List.filterMap_nil,
      List.append_nil]
    rfl
  unidentified := by
    intro none_
    apply drained.unidentified
    rw [List.filterMap_append] at none_
    exact (List.append_eq_nil_iff.mp none_).1
  early := by
    intro unanswered
    simp only [List.any_append, List.any_cons, List.any_nil, Bool.or_false, Bool.or_eq_false_iff] at unanswered
    exact early unanswered.1 unanswered.2
  answered := answered
  error := by
    rw [lastError?_concat, noError, Option.none_or]
    exact drained.error

theorem textDelta (drained : Drained opening history b) (text : String) :
    ∃ next, b.add (.textDelta text) = .ok next ∧ Drained opening (history ++ [.textDelta text]) next := by
  obtain ⟨content, shape, last⟩ := b.addText_eq text
  refine ⟨b.addText text, drained.add_eq _, ?_⟩
  rw [shape] at last ⊢
  apply drained.content _ content b.slots .text rfl rfl
  · simp [Event.isAnswer]
  · intro _
    have kind : content.getLast?.map Block.kind = some .text := last
    exact ⟨Or.inl rfl, by simp [kind]⟩

theorem reasoning (drained : Drained opening history b) (text : String)
    (unanswered : history.any Event.isAnswer = false) :
    ∃ next, b.add (.reasoning text) = .ok next ∧ Drained opening (history ++ [.reasoning text]) next := by
  obtain ⟨early, noSlots⟩ := drained.early unanswered
  obtain ⟨content, shape⟩ := Builder.addReasoning_early early text
  refine ⟨b.withContent content .reasoning, (drained.add_eq _).trans shape, ?_⟩
  apply drained.content _ content b.slots .reasoning rfl rfl
  · exact fun _ _ => ⟨Or.inr rfl, noSlots⟩
  · simp [unanswered, Event.isAnswer]

theorem reasoning_late (drained : Drained opening history b) (text : String)
    (answers : history.any Event.isAnswer = true) :
    ∃ phase, (phase = .text ∨ phase = .toolCall) ∧
      b.add (.reasoning text) = .error (.invalidTransition .reasoning phase) := by
  obtain ⟨late, apart⟩ := drained.answered answers
  have answering : ¬b.Early := by
    rintro (none_ | reasoning_)
    · simp [none_] at late
    · simp [reasoning_] at late
  rw [Builder.lastKind?, ← Builder.getLast?_kinds] at apart
  exact ⟨b.phase, late, (drained.add_eq _).trans (Builder.addReasoning_late answering apart text)⟩

theorem toolCallDelta (drained : Drained opening history b) (callId toolName argsDelta : String) :
    ∃ next, b.add (.toolCallDelta callId toolName argsDelta) = .ok next ∧
      Drained opening (history ++ [.toolCallDelta callId toolName argsDelta]) next := by
  have apart : b.slots = .empty ∨ b.lastKind? ≠ some .reasoning := by
    cases answers : history.any Event.isAnswer with
    | true => exact Or.inr (drained.answered answers).2
    | false => exact Or.inl (drained.early answers).2
  obtain ⟨content, slots, shape, last⟩ := b.addToolCallDelta_eq callId toolName argsDelta apart
  refine ⟨b.addToolCallDelta callId toolName argsDelta, drained.add_eq _, ?_⟩
  rw [shape] at last ⊢
  apply drained.content _ content slots .toolCall rfl rfl
  · simp [Event.isAnswer]
  · exact fun _ => ⟨Or.inr rfl, last⟩

theorem responseMetadata (drained : Drained opening history b) (id modelId : String)
    (timestamp : Option Time.Timestamp) (first : history.filterMap Event.info? = []) :
    ∃ next, b.add (.responseMetadata id modelId timestamp) = .ok next ∧
      Drained opening (history ++ [.responseMetadata id modelId timestamp]) next := by
  have told : (history ++ [Event.responseMetadata id modelId timestamp]).filterMap Event.info? =
      [({ id, timestamp, modelId } : ResponseInfo)] := by
    rw [List.filterMap_append, first]
    rfl
  have known : b.response.responseInfo = opening.responseInfo := by
    rw [drained.response, first]
    rfl
  refine ⟨Builder.addResponseMetadata.record b id modelId timestamp
    (if id.isEmpty then none else some id), ?_, ?_⟩
  · rw [drained.add_eq]
    simp only [Builder.apply, Builder.addResponseMetadata, drained.unidentified first]
  · refine
      { response := ?_, unidentified := ?_, early := ?_, answered := ?_, error := ?_ }
    · rw [told]
      simp only [Builder.addResponseMetadata.record, known]
      rw [drained.response]
      rfl
    · intro none_
      rw [told] at none_
      cases none_
    · rw [any_isAnswer_concat history _ rfl]
      exact drained.early
    · rw [any_isAnswer_concat history _ rfl]
      exact drained.answered
    · rw [lastError?_concat]
      exact drained.error

theorem failure (drained : Drained opening history b) (message : String) :
    ∃ next, b.add (.error message) = .ok next ∧ Drained opening (history ++ [.error message]) next := by
  have unidentifying : (history ++ [Event.error message]).filterMap Event.info? =
      history.filterMap Event.info? := by
    simp [List.filterMap_append, Event.info?]
  refine ⟨{ b with error := some message }, drained.add_eq _, ?_⟩
  refine { response := ?_, unidentified := ?_, early := ?_, answered := ?_, error := ?_ }
  · rw [unidentifying]
    exact drained.response
  · rw [unidentifying]
    exact drained.unidentified
  · rw [any_isAnswer_concat history _ rfl]
    exact drained.early
  · rw [any_isAnswer_concat history _ rfl]
    exact drained.answered
  · rw [lastError?_concat]
    rfl

/-- An event that comes in time is taken. -/
theorem add (drained : Drained opening history b) (event : Event)
    (telling : Telling (history ++ [event]))
    (timely : (history.any Event.isAnswer && event.reasoning?.isSome) = false) :
    ∃ next, b.add event = .ok next ∧ Drained opening (history ++ [event]) next := by
  have kind := telling.kinds event (by simp)
  cases event with
  | textDelta text => exact drained.textDelta text
  | reasoning text => exact drained.reasoning text (by simpa [Event.reasoning?] using timely)
  | toolCallDelta callId toolName argsDelta => exact drained.toolCallDelta callId toolName argsDelta
  | responseMetadata id modelId timestamp =>
    apply drained.responseMetadata id modelId timestamp
    have single := telling.single
    rw [List.filterMap_append, List.length_append] at single
    simp only [List.filterMap_cons, Event.info?, List.filterMap_nil, List.length_cons] at single
    exact List.length_eq_zero_iff.mp (by omega)
  | error message => exact drained.failure message
  | _ => simp [Event.rank?, Event.info?, Event.error?] at kind

end Drained

section

variable {history : List Event}

theorem drained_of_timely (opening : Opening) (telling : Telling history)
    (timely : reasonsLate history = false) :
    ∃ b, (Builder.empty.addOpening opening).addAll history = .ok b ∧ Drained opening history b := by
  induction history using List.reverseRecOn with
  | nil => exact ⟨_, rfl, Drained.opened opening⟩
  | append_singleton history event ih =>
    rw [reasonsLate_concat, Bool.or_eq_false_iff] at timely
    obtain ⟨b, added, drained⟩ := ih telling.before timely.1
    rw [Builder.addAll_concat _ b history event added]
    exact drained.add event telling timely.2

/-- Late reasoning ends the draining, whatever comes after it. -/
theorem collect_of_late (opening : Opening) (telling : Telling history)
    (late : reasonsLate history = true) :
    ∃ phase partial_, (phase = .text ∨ phase = .toolCall) ∧ ∀ rest,
      (Builder.empty.addOpening opening).collect (history ++ rest) =
        .error (.aggregation (.invalidTransition .reasoning phase) partial_) := by
  induction history using List.reverseRecOn with
  | nil => cases late
  | append_singleton history event ih =>
    -- Either a shorter history is late already, or this event is the first to be late.
    cases before : reasonsLate history with
    | true =>
      obtain ⟨phase, partial_, after_, ends⟩ := ih telling.before before
      refine ⟨phase, partial_, after_, fun rest => ?_⟩
      rw [List.append_assoc]
      exact ends _
    | false =>
      rw [reasonsLate_concat, before, Bool.false_or, Bool.and_eq_true] at late
      obtain ⟨b, added, drained⟩ := drained_of_timely opening telling.before before
      cases event with
      | reasoning text =>
        obtain ⟨phase, after_, rejected⟩ := drained.reasoning_late text late.1
        refine ⟨phase, b.response, after_, fun rest => ?_⟩
        rw [List.append_assoc, Builder.collect_append history _ added]
        simp [Builder.collect, rejected]
      | _ => simp [Event.reasoning?] at late

/-- What is taken as a whole has no late reasoning. -/
theorem timely_of_addAll (opening : Opening) (telling : Telling history) (rest : List Event) (b : Builder)
    (added : (Builder.empty.addOpening opening).addAll (history ++ rest) = .ok b) :
    reasonsLate history = false := by
  cases late : reasonsLate history with
  | false => rfl
  | true =>
    obtain ⟨phase, partial_, -, ends⟩ := collect_of_late opening telling late
    have drains := Builder.collect_of_addAll (history ++ rest) added
    rw [ends, Builder.build] at drains
    cases told : b.error with
    | none => simp [told, Except.mapError] at drains
    | some message => simp [told, Except.mapError] at drains

end

/-- What a result says of the events it comes from. -/
def Outcome (history : List Event) : Except Failure Response → Prop
  | .ok _ => reasonsLate history = false ∧ lastError? history = none
  | .error (.aggregation cause _) =>
    reasonsLate history = true ∧
      (cause = .invalidTransition .reasoning .text ∨ cause = .invalidTransition .reasoning .toolCall)
  | .error (.streamFailure fallen) =>
    reasonsLate history = false ∧ lastError? history = some fallen.message
  | .error _ => False

namespace Outcome

variable {history : List Event} {result : Except Failure Response}

theorem aggregation_iff (outcome : Outcome history result) :
    (∃ cause partial_, result = .error (.aggregation cause partial_)) ↔ reasonsLate history = true := by
  constructor
  · rintro ⟨cause, partial_, rfl⟩
    exact outcome.1
  · intro late
    cases result with
    | ok response => exact absurd late (by simp [outcome.1])
    | error failure =>
      cases failure with
      | aggregation cause partial_ => exact ⟨cause, partial_, rfl⟩
      | streamFailure fallen => exact absurd late (by simp [outcome.1])
      | _ => exact outcome.elim

theorem streamFailure_iff (outcome : Outcome history result) (message : String) :
    (∃ partial_, result = .error (.streamFailure ⟨message, partial_⟩)) ↔
      reasonsLate history = false ∧ lastError? history = some message := by
  constructor
  · rintro ⟨partial_, rfl⟩
    exact outcome
  · rintro ⟨timely, told⟩
    cases result with
    | ok response => exact absurd told (by simp [outcome.2])
    | error failure =>
      cases failure with
      | aggregation cause partial_ => exact absurd timely (by simp [outcome.1])
      | streamFailure fallen =>
        obtain ⟨other, partial_⟩ := fallen
        have same : other = message := Option.some.inj (outcome.2.symm.trans told)
        exact ⟨partial_, by rw [same]⟩
      | _ => exact outcome.elim

theorem ok_iff (outcome : Outcome history result) :
    (∃ response, result = .ok response) ↔ reasonsLate history = false ∧ lastError? history = none := by
  constructor
  · rintro ⟨response, rfl⟩
    exact outcome
  · rintro ⟨timely, told⟩
    cases result with
    | ok response => exact ⟨response, rfl⟩
    | error failure =>
      cases failure with
      | aggregation cause partial_ => exact absurd timely (by simp [outcome.1])
      | streamFailure fallen => exact absurd told (by simp [outcome.2])
      | _ => exact outcome.elim

theorem cause {cause : Rejection} {partial_ : Response}
    (outcome : Outcome history (.error (.aggregation cause partial_))) :
    cause = .invalidTransition .reasoning .text ∨ cause = .invalidTransition .reasoning .toolCall :=
  outcome.2

theorem failure {failure : Failure} (outcome : Outcome history (.error failure)) :
    (∃ cause partial_, failure = .aggregation cause partial_) ∨
      ∃ message partial_, failure = .streamFailure ⟨message, partial_⟩ := by
  cases failure with
  | aggregation cause partial_ => exact Or.inl ⟨cause, partial_, rfl⟩
  | streamFailure fallen => exact Or.inr ⟨fallen.message, fallen.response, rfl⟩
  | _ => exact outcome.elim

end Outcome

section

variable {opening : Opening} {history : List Event} {b : Builder}

theorem Drained.collect_error (drained : Drained opening history b) (message : String) :
    b.collect [.error message] = .error (.streamFailure ⟨message, b.response⟩) := by
  rw [Builder.collect, drained.add_eq]
  rfl

theorem Drained.collect_finish (drained : Drained opening history b) (told : Finish) :
    b.collect [.finish told] = ((b.addFinish told).build).mapError .streamFailure := by
  rw [Builder.collect, drained.add_eq]
  rfl

theorem Drained.outcome (drained : Drained opening history b) (timely : reasonsLate history = false)
    (last : Event) (terminal : last.kind = .error ∨ last.kind = .finish) :
    Outcome (history ++ [last]) (b.collect [last]) := by
  have timely_ : reasonsLate (history ++ [last]) = false := by
    rw [reasonsLate_concat, timely]
    cases last <;> simp_all [Event.kind, Event.reasoning?]
  cases last with
  | error message =>
    rw [drained.collect_error]
    exact ⟨timely_, lastError?_concat history _⟩
  | finish told =>
    have told_ : lastError? (history ++ [.finish told]) = b.error := by
      rw [lastError?_concat, drained.error]
      rfl
    rw [drained.collect_finish, Builder.build, Builder.addFinish]
    cases failed : b.error with
    | none => exact ⟨timely_, told_.trans failed⟩
    | some message => exact ⟨timely_, told_.trans failed⟩
  | _ => simp [Event.kind] at terminal

/-- Telling events and one event more that ends the stream. -/
theorem outcome_collect (opening : Opening) (telling : Telling history) (last : Event)
    (terminal : last.kind = .error ∨ last.kind = .finish) :
    Outcome (history ++ [last]) ((Builder.empty.addOpening opening).collect (history ++ [last])) := by
  cases late : reasonsLate history with
  | true =>
    obtain ⟨phase, partial_, after_, ends⟩ := collect_of_late opening telling late
    rw [ends]
    refine ⟨by rw [reasonsLate_concat, late, Bool.true_or], ?_⟩
    rcases after_ with rfl | rfl
    · exact Or.inl rfl
    · exact Or.inr rfl
  | false =>
    obtain ⟨b, added, drained⟩ := drained_of_timely opening telling late
    rw [Builder.collect_append history _ added]
    exact drained.outcome late last terminal

end

end Colloquy
