import Colloquy.Response.Rejection
import Colloquy.Stream.History

/-! Which event is taken after a history of events that were taken, and why another one
is not. It is told from the history alone. -/
namespace Colloquy

namespace Event

/-- The phase that a part of the answer leaves behind. Reasoning comes before all of
these. -/
def answerPhase? : Event → Option Phase
  | .textDelta _ => some .text
  | .toolCall _ _ _ => some .toolCall
  | .toolCallDelta _ _ _ => some .toolCall
  | .source _ => some .source
  | .file _ _ => some .file
  | _ => none

def reasoningKind? : Event → Option BlockKind
  | .reasoning _ => some .reasoning
  | .redactedReasoning _ => some .redactedReasoning
  | _ => none

/-- The kind of the block that an event opens or goes on; other events bear no content. -/
def blockKind? : Event → Option BlockKind
  | .textDelta _ => some .text
  | .reasoning _ => some .reasoning
  | .redactedReasoning _ => some .redactedReasoning
  | .toolCall _ _ _ => some .toolCall
  | .toolCallDelta _ _ _ => some .toolCall
  | .source _ => some .source
  | .file _ _ => some .file
  | _ => none

def responseId? : Event → Option String
  | .responseMetadata id _ _ => some id
  | _ => none

end Event

def isOver (history : List Event) : Bool :=
  history.any fun event => event.kind == .finish

def lastAnswer? (history : List Event) : Option Phase :=
  (history.filterMap Event.answerPhase?).getLast?

def lastReasoning? (history : List Event) : Option BlockKind :=
  (history.filterMap Event.reasoningKind?).getLast?

/-- The kind of the block that a history opens last. -/
def lastOpened? (history : List Event) : Option BlockKind :=
  (openers history).getLast?.bind Event.blockKind?

/-- The first identifier of the response that is not empty. -/
def heldId? (history : List Event) : Option String :=
  (history.filterMap Event.responseId?).find? fun id => !id.isEmpty

/-- The verdict on an event after a history; none when it is taken. -/
def verdict (history : List Event) (event : Event) : Option Rejection :=
  if isOver history then some (.afterFinish event.kind)
  else match event with
    | .reasoning _ => (lastAnswer? history).map (.invalidTransition .reasoning)
    | .redactedReasoning _ => (lastAnswer? history).map (.invalidTransition .redactedReasoning)
    | .reasoningSignature _ =>
      if lastAnswer? history = none ∧ lastReasoning? history = some .reasoning then none
      else if history.all fun earlier => earlier.blockKind?.isNone then some .noReasoningBlock
      else (lastOpened? history).map .lastBlockNotReasoning
    | .toolCall callId _ _ =>
      if callId ∈ history.filterMap Event.callId? then some (.duplicateToolCall callId) else none
    | .responseMetadata id _ _ =>
      match heldId? history with
      | some expected => if expected = id then none else some (.responseIdMismatch expected id)
      | none => none
    | _ => none

end Colloquy
