import Colloquy.Response.Update

/-! Work on a builder in place against the transition it stands for: the fields it
assigns come to the same, and it is rejected before it has assigned any. -/
namespace Colloquy.Update

open Time (Timestamp)

/-- What an update comes to that does as a transition says, or rejects and leaves the
builder as it was. -/
def settled (b : Builder) : Except Rejection Builder → EStateM.Result Rejection Builder Unit
  | .ok next => .ok () next
  | .error rejection => .error rejection b

@[simp] theorem settled_ok (b next : Builder) : settled b (.ok next) = .ok () next := rfl

@[simp] theorem settled_error (b : Builder) (rejection : Rejection) :
    settled b (.error rejection) = .error rejection b := rfl

section

variable (b : Builder) (block : Block) (content : List Block) (phase later : Phase)

@[simp] theorem phase_withContent : (b.withContent content phase).phase = phase := rfl

@[simp] theorem push_withContent :
    (b.withContent b.content phase).push block later = b.push block later := rfl

@[simp] theorem replaceLast_withContent :
    (b.withContent b.content phase).replaceLast block later = b.replaceLast block later := rfl

@[simp] theorem withContent_replaceLast :
    (b.replaceLast block phase).withContent (b.content.dropLast ++ [block]) later =
      b.replaceLast block later := rfl

/-- A block without arguments that takes its first piece is the block with that piece. -/
theorem modify_pushed (callId toolName argsDelta : String) :
    (content ++ [Block.toolCall { callId, toolName, args := "" }]).modify content.length
      (Builder.extendCall toolName argsDelta) =
      content ++ [Block.toolCall { callId, toolName, args := argsDelta }] := by
  rw [List.modify_eq_take_drop]
  simp [Builder.extendCall]

end

section

variable (b : Builder)

@[simp] theorem run_setPhase (phase : Phase) :
    (setPhase phase).run b = .ok () (b.withContent b.content phase) := rfl

@[simp] theorem run_modifyResponse (change : Response → Response) :
    (modifyResponse change).run b = .ok () { b with response := change b.response } := rfl

@[simp] theorem run_setContent (content : List Block) :
    (setContent content).run b = .ok () (b.withContent content b.phase) := rfl

@[simp] theorem run_push (block : Block) : (push block).run b = .ok () (b.push block b.phase) := rfl

@[simp] theorem run_setLast (block : Block) :
    (setLast block).run b = .ok () (b.replaceLast block b.phase) := rfl

@[simp] theorem run_pushToolCall (callId toolName args : String) :
    (pushToolCall callId toolName args).run b =
      .ok b.content.length
        { b.push (.toolCall { callId, toolName, args }) b.phase with
          slots := b.slots.insert callId b.content.length } := rfl

theorem run_addText (text : String) : (addText text).run b = .ok () (b.addText text) := by
  unfold Builder.addText
  cases last : b.content.getLast? with
  | none => simp [addText, last]
  | some block => cases block <;> simp [addText, last]

theorem run_ensureReasoningAllowed (event : EventKind) :
    (ensureReasoningAllowed event).run b = settled b ((b.reasoningAllowed event).map fun _ => b) := by
  unfold Builder.reasoningAllowed
  cases stands : b.phase <;> simp [ensureReasoningAllowed, stands, Except.map]

theorem run_openReasoning (event : EventKind) (block : Block) :
    (do
      ensureReasoningAllowed event
      setPhase .reasoning
      push block : Update Unit).run b =
      settled b (do
        b.reasoningAllowed event
        return b.push block .reasoning) := by
  rw [EStateM.run_bind, run_ensureReasoningAllowed]
  cases b.reasoningAllowed event <;> rfl

theorem run_addReasoning (text : String) :
    (addReasoning text).run b = settled b (b.addReasoning text) := by
  unfold Builder.addReasoning
  have opened := run_openReasoning b .reasoning (.reasoning { text })
  cases last : b.content.getLast? with
  | none => simpa [addReasoning, last] using opened
  | some block =>
    cases block with
    | reasoning block => simp [addReasoning, last]
    | _ => simpa [addReasoning, last] using opened

theorem run_addSignature (signature : String) :
    (addSignature signature).run b = settled b (b.addSignature signature) := by
  unfold Builder.addSignature
  cases last : b.content.getLast? with
  | none => simp [addSignature, last]
  | some block => cases block <;> simp [addSignature, last]

theorem run_addToolCall (callId toolName args : String) :
    (addToolCall callId toolName args).run b = settled b (b.addToolCall callId toolName args) := by
  unfold Builder.addToolCall
  cases known : b.slots.contains callId with
  | true => simp [addToolCall, known]
  | false =>
    rw [addToolCall, EStateM.run_bind, EStateM.run_get]
    simp only [known, Bool.false_eq_true, if_false]
    rfl

theorem run_addToolCallDelta (callId toolName argsDelta : String) :
    (addToolCallDelta callId toolName argsDelta).run b =
      .ok () (b.addToolCallDelta callId toolName argsDelta) := by
  unfold Builder.addToolCallDelta
  cases found : b.slots.find? callId with
  | some slot =>
    simp only [addToolCallDelta, EStateM.run_bind, run_setPhase, EStateM.run_get,
      Builder.slots_withContent, found]
    rfl
  | none =>
    -- The new block stands empty at first, and takes its piece at the place just given to it.
    have whole := modify_pushed b.content callId toolName argsDelta
    simp only [addToolCallDelta, EStateM.run_bind, run_setPhase, EStateM.run_get,
      Builder.slots_withContent, found, run_pushToolCall, run_setContent]
    simpa [Builder.pushToolCall, Builder.push, Builder.withContent, Builder.content] using whole

theorem run_keepIdentity (id : String) :
    (keepIdentity id).run b = match b.responseId with
      | some expected => if expected = id then .ok () b else .error (.responseIdMismatch expected id) b
      | none => .ok () { b with responseId := if id.isEmpty then none else some id } := by
  obtain ⟨response, slots, phase, responseId, error⟩ := b
  cases responseId with
  | none => cases empty : id.isEmpty <;> simp [keepIdentity, empty]
  | some expected => by_cases same : expected = id <;> simp [keepIdentity, same]

theorem run_tell (id modelId : String) (timestamp : Option Timestamp) :
    (do
      modifyInfo fun info => { info with id }
      if !modelId.isEmpty then modifyInfo fun info => { info with modelId }
      if timestamp.isSome then modifyInfo fun info => { info with timestamp } : Update Unit).run b =
      .ok () (Builder.addResponseMetadata.record b id modelId timestamp b.responseId) := by
  unfold Builder.addResponseMetadata.record
  cases modelId.isEmpty <;> cases timestamp <;> rfl

theorem run_addResponseMetadata (id modelId : String) (timestamp : Option Timestamp) :
    (addResponseMetadata id modelId timestamp).run b =
      settled b (b.addResponseMetadata id modelId timestamp) := by
  unfold Builder.addResponseMetadata addResponseMetadata
  rw [EStateM.run_bind, run_keepIdentity]
  cases known : b.responseId with
  | none => exact run_tell _ id modelId timestamp
  | some expected =>
    by_cases same : expected = id
    · simp only [same, if_true]
      exact (run_tell b id modelId timestamp).trans (by rw [known, same]; rfl)
    · simp only [same, if_false]
      rfl

theorem run_addFinish (told : Finish) : (addFinish told).run b = .ok () (b.addFinish told) := by
  unfold addFinish Builder.addFinish
  cases told.usage.filter fun usage => !usage.isZero <;> cases told.metadata <;> cases told.logProbs <;> rfl

end

theorem run_apply (b : Builder) (event : Event) : (apply event).run b = settled b (b.apply event) := by
  cases event with
  | textDelta text => exact run_addText b text
  | reasoning text => exact run_addReasoning b text
  | reasoningSignature signature => exact run_addSignature b signature
  | redactedReasoning data => exact run_openReasoning b _ _
  | toolCall callId toolName args => exact run_addToolCall b callId toolName args
  | toolCallDelta callId toolName argsDelta => exact run_addToolCallDelta b callId toolName argsDelta
  | responseMetadata id modelId timestamp => exact run_addResponseMetadata b id modelId timestamp
  | finish told => exact run_addFinish b told
  | _ => rfl

/-- An event that is rejected has assigned nothing, whichever field its rejection comes
from; one that is taken has assigned what the transition says. -/
theorem run_add (b : Builder) (event : Event) : (add event).run b = settled b (b.add event) := by
  unfold add Builder.add
  by_cases finished : b.phase = .finished
  · simp [finished]
  · simp [finished, run_apply]

end Colloquy.Update
