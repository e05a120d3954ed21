import Colloquy.Response.Rejection

/-! Folding stream events into one response. Events are taken in the order they
arrive. One that would leave the response inconsistent is rejected and changes
nothing. A tool call keeps the place where its identifier was first seen, and
later pieces for that identifier are appended to it there. -/
namespace Colloquy

open Text (Bytes)
open Time (Timestamp)

structure Builder where
  response : Response := {}
  /-- The place in the content of each tool call, by its identifier. -/
  slots : Dictionary Nat := .empty
  phase : Phase := .none
  /-- The first response identifier that was not empty. -/
  responseId : Option String := none
  /-- The last failure told by the stream. -/
  error : Option String := none

structure StreamFailure where
  message : String
  response : Response

namespace Builder

def empty : Builder := {}

def content (b : Builder) : List Block :=
  b.response.content

def withContent (b : Builder) (content : List Block) (phase : Phase) : Builder :=
  { b with response := { b.response with content }, phase }

def push (b : Builder) (block : Block) (phase : Phase) : Builder :=
  b.withContent (b.content ++ [block]) phase

def replaceLast (b : Builder) (block : Block) (phase : Phase) : Builder :=
  b.withContent (b.content.dropLast ++ [block]) phase

@[simp] theorem content_withContent (b : Builder) (content : List Block) (phase : Phase) :
    (b.withContent content phase).content = content := rfl

@[simp] theorem slots_withContent (b : Builder) (content : List Block) (phase : Phase) :
    (b.withContent content phase).slots = b.slots := rfl

@[simp] theorem content_push (b : Builder) (block : Block) (phase : Phase) :
    (b.push block phase).content = b.content ++ [block] := rfl

@[simp] theorem slots_push (b : Builder) (block : Block) (phase : Phase) :
    (b.push block phase).slots = b.slots := rfl

@[simp] theorem content_replaceLast (b : Builder) (block : Block) (phase : Phase) :
    (b.replaceLast block phase).content = b.content.dropLast ++ [block] := rfl

@[simp] theorem slots_replaceLast (b : Builder) (block : Block) (phase : Phase) :
    (b.replaceLast block phase).slots = b.slots := rfl

def addText (b : Builder) (text : String) : Builder :=
  match b.content.getLast? with
  | some (.text last) => b.replaceLast (.text { last with text := last.text ++ text }) .text
  | _ => b.push (.ofText text) .text

/-- Reasoning comes before everything else of a response. -/
def reasoningAllowed (b : Builder) (event : EventKind) : Except Rejection Unit :=
  match b.phase with
  | .none => .ok ()
  | .reasoning => .ok ()
  | other => .error (.invalidTransition event other)

def addReasoning (b : Builder) (text : String) : Except Rejection Builder :=
  match b.content.getLast? with
  | some (.reasoning last) =>
    .ok (b.replaceLast (.reasoning { last with text := last.text ++ text }) .reasoning)
  | _ => do
    b.reasoningAllowed .reasoning
    return b.push (.reasoning { text }) .reasoning

def addSignature (b : Builder) (signature : String) : Except Rejection Builder :=
  match b.content.getLast? with
  | none => .error .noReasoningBlock
  | some (.reasoning last) =>
    .ok (b.replaceLast (.reasoning { last with signature := some signature }) b.phase)
  | some other => .error (.lastBlockNotReasoning other.kind)

def addRedactedReasoning (b : Builder) (data : String) : Except Rejection Builder := do
  b.reasoningAllowed .redactedReasoning
  return b.push (.redactedReasoning { data }) .reasoning

def pushToolCall (b : Builder) (callId toolName args : String) : Builder :=
  { b.push (.toolCall { callId, toolName, args }) .toolCall with
    slots := b.slots.insert callId b.content.length }

def addToolCall (b : Builder) (callId toolName args : String) : Except Rejection Builder :=
  if b.slots.contains callId then .error (.duplicateToolCall callId)
  else .ok (b.pushToolCall callId toolName args)

def extendCall (toolName argsDelta : String) : Block → Block
  | .toolCall call =>
    .toolCall { call with
      toolName := if call.toolName.isEmpty then toolName else call.toolName
      args := call.args ++ argsDelta }
  | other => other

def addToolCallDelta (b : Builder) (callId toolName argsDelta : String) : Builder :=
  match b.slots.find? callId with
  | some slot => b.withContent (b.content.modify slot (extendCall toolName argsDelta)) .toolCall
  | none => b.pushToolCall callId toolName argsDelta

def addResponseMetadata (b : Builder) (id modelId : String) (timestamp : Option Timestamp) :
    Except Rejection Builder :=
  match b.responseId with
  | some expected =>
    if expected = id then .ok (record b.responseId) else .error (.responseIdMismatch expected id)
  | none => .ok (record (if id.isEmpty then none else some id))
where
  record (responseId : Option String) : Builder :=
    let info := b.response.responseInfo.getD {}
    let info : ResponseInfo :=
      { id
        modelId := if modelId.isEmpty then info.modelId else modelId
        timestamp := timestamp.or info.timestamp }
    { b with response := { b.response with responseInfo := some info }, responseId }

def addFinish (b : Builder) (told : Finish) : Builder :=
  { b with
    phase := .finished
    response := { b.response with
      finishReason := some told.reason
      usage := (told.usage.filter fun usage => !usage.isZero).getD b.response.usage
      metadata := told.metadata.or b.response.metadata
      logProbs := if told.logProbs.isEmpty then b.response.logProbs else told.logProbs } }

def apply (b : Builder) : Event → Except Rejection Builder
  | .textDelta text => .ok (b.addText text)
  | .reasoning text => b.addReasoning text
  | .reasoningSignature signature => b.addSignature signature
  | .redactedReasoning data => b.addRedactedReasoning data
  | .toolCall callId toolName args => b.addToolCall callId toolName args
  | .toolCallDelta callId toolName argsDelta => .ok (b.addToolCallDelta callId toolName argsDelta)
  | .source cited => .ok (b.push (.source cited.block) .source)
  | .file mediaType data => .ok (b.push (.file { data := some data, mediaType := some mediaType }) .file)
  | .responseMetadata id modelId timestamp => b.addResponseMetadata id modelId timestamp
  | .finish told => .ok (b.addFinish told)
  | .error message => .ok { b with error := some message }

/-- One event. After a finish every event is rejected. -/
def add (b : Builder) (event : Event) : Except Rejection Builder :=
  if b.phase = .finished then .error (.afterFinish event.kind) else b.apply event

/-- What is known at the opening, whenever it is told: warnings are appended,
metadata is merged, and the rest replaced by what is really there. -/
def addOpening (b : Builder) (opening : Opening) : Builder :=
  { b with response := { b.response with
      warnings := b.response.warnings ++ opening.warnings
      rawCall := if opening.rawCall.isEmpty then b.response.rawCall else opening.rawCall
      rawResponse := opening.rawResponse.or b.response.rawResponse
      requestInfo := opening.requestInfo.or b.response.requestInfo
      responseInfo := opening.responseInfo.or b.response.responseInfo
      metadata := match opening.metadata with
        | some added => some (Metadata.mergeInto b.response.metadata added)
        | none => b.response.metadata } }

def isFinished (b : Builder) : Bool :=
  b.phase = .finished

def build (b : Builder) : Except StreamFailure Response :=
  match b.error with
  | some message => .error ⟨message, b.response⟩
  | none => .ok b.response

/-- One event and the verdict on it; a rejected event leaves the builder as it is. -/
def offer (b : Builder) (event : Event) : Builder × Option Rejection :=
  match b.add event with
  | .ok next => (next, none)
  | .error rejection => (b, some rejection)

end Builder

end Colloquy
