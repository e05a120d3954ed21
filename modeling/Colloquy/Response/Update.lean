import Colloquy.Response.Builder

/-! The builder as it is worked on: its fields are assigned one after another, and a
rejection may come when some of them are assigned already. Nothing takes an
assignment back, so that a rejected event leaves no trace is a theorem here and no
matter of types. -/
namespace Colloquy

/-- Work on a builder. Where it is rejected, the builder stays as the work left it. -/
abbrev Update := EStateM Rejection Builder

namespace Update

open Time (Timestamp)

def setPhase (phase : Phase) : Update Unit :=
  modify fun b => { b with phase }

def modifyResponse (change : Response → Response) : Update Unit :=
  modify fun b => { b with response := change b.response }

def setContent (content : List Block) : Update Unit :=
  modifyResponse fun response => { response with content }

def push (block : Block) : Update Unit := do
  setContent ((← get).content ++ [block])

def setLast (block : Block) : Update Unit := do
  setContent ((← get).content.dropLast ++ [block])

def addText (text : String) : Update Unit := do
  setPhase .text
  match (← get).content.getLast? with
  | some (.text last) => setLast (.text { last with text := last.text ++ text })
  | _ => push (.ofText text)

def ensureReasoningAllowed (event : EventKind) : Update Unit := do
  match (← get).phase with
  | .none => pure ()
  | .reasoning => pure ()
  | other => throw (.invalidTransition event other)

def addReasoning (text : String) : Update Unit := do
  match (← get).content.getLast? with
  | some (.reasoning last) =>
    setLast (.reasoning { last with text := last.text ++ text })
    setPhase .reasoning
  | _ =>
    ensureReasoningAllowed .reasoning
    setPhase .reasoning
    push (.reasoning { text })

def addSignature (signature : String) : Update Unit := do
  match (← get).content.getLast? with
  | none => throw .noReasoningBlock
  | some (.reasoning last) => setLast (.reasoning { last with signature := some signature })
  | some other => throw (.lastBlockNotReasoning other.kind)

def addRedactedReasoning (data : String) : Update Unit := do
  ensureReasoningAllowed .redactedReasoning
  setPhase .reasoning
  push (.redactedReasoning { data })

/-- A new block for a call, and its place. -/
def pushToolCall (callId toolName args : String) : Update Nat := do
  let slot := (← get).content.length
  modify fun b => { b with slots := b.slots.insert callId slot }
  push (.toolCall { callId, toolName, args })
  return slot

def addToolCall (callId toolName args : String) : Update Unit := do
  if (← get).slots.contains callId then throw (.duplicateToolCall callId)
  setPhase .toolCall
  let _ ← pushToolCall callId toolName args

/-- The piece of a call that is not known makes a block without arguments first. -/
def addToolCallDelta (callId toolName argsDelta : String) : Update Unit := do
  setPhase .toolCall
  let slot ← match (← get).slots.find? callId with
    | some slot => pure slot
    | none => pushToolCall callId toolName ""
  setContent ((← get).content.modify slot (Builder.extendCall toolName argsDelta))

/-- The first identifier that is not empty is kept, and every later one compared with
it. -/
def keepIdentity (id : String) : Update Unit := do
  match (← get).responseId with
  | some expected => if expected ≠ id then throw (.responseIdMismatch expected id)
  | none => if !id.isEmpty then modify fun b => { b with responseId := some id }

def modifyInfo (change : ResponseInfo → ResponseInfo) : Update Unit :=
  modifyResponse fun response =>
    { response with responseInfo := some (change (response.responseInfo.getD {})) }

def addResponseMetadata (id modelId : String) (timestamp : Option Timestamp) : Update Unit := do
  keepIdentity id
  modifyInfo fun info => { info with id }
  if !modelId.isEmpty then modifyInfo fun info => { info with modelId }
  if timestamp.isSome then modifyInfo fun info => { info with timestamp }

def addFinish (told : Finish) : Update Unit := do
  setPhase .finished
  modifyResponse fun response => { response with finishReason := some told.reason }
  if let some usage := told.usage.filter fun usage => !usage.isZero then
    modifyResponse fun response => { response with usage }
  if told.metadata.isSome then
    modifyResponse fun response => { response with metadata := told.metadata }
  if !told.logProbs.isEmpty then
    modifyResponse fun response => { response with logProbs := told.logProbs }

def apply : Event → Update Unit
  | .textDelta text => addText text
  | .reasoning text => addReasoning text
  | .reasoningSignature signature => addSignature signature
  | .redactedReasoning data => addRedactedReasoning data
  | .toolCall callId toolName args => addToolCall callId toolName args
  | .toolCallDelta callId toolName argsDelta => addToolCallDelta callId toolName argsDelta
  | .source cited => do
    setPhase .source
    push (.source cited.block)
  | .file mediaType data => do
    setPhase .file
    push (.file { data := some data, mediaType := some mediaType })
  | .responseMetadata id modelId timestamp => addResponseMetadata id modelId timestamp
  | .finish told => addFinish told
  | .error message => modify fun b => { b with error := some message }

def add (event : Event) : Update Unit := do
  if (← get).phase = .finished then throw (.afterFinish event.kind)
  apply event

end Update

end Colloquy
