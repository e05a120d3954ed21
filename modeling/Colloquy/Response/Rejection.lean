import Colloquy.Stream.Event

/-! Why an event cannot be added to a response under construction. -/
namespace Colloquy

/-- What the last event that counts was about. -/
inductive Phase where
  | none
  | text
  | reasoning
  | toolCall
  | source
  | file
  | finished
  deriving DecidableEq, Repr

def Phase.name : Phase → String
  | .none => "none"
  | .text => "text"
  | .reasoning => "reasoning"
  | .toolCall => "tool-call"
  | .source => "source"
  | .file => "file"
  | .finished => "finished"

inductive Rejection where
  | afterFinish (event : EventKind)
  | invalidTransition (event : EventKind) (phase : Phase)
  | noReasoningBlock
  | lastBlockNotReasoning (found : BlockKind)
  | responseIdMismatch (expected actual : String)
  | duplicateToolCall (id : String)
  deriving DecidableEq, Repr

def Rejection.message : Rejection → String
  | .afterFinish event => s!"cannot add {event.name} event after finish event"
  | .invalidTransition event phase =>
    s!"invalid state transition: cannot add {event.name} in {phase.name} state"
  | .noReasoningBlock => "cannot add reasoning signature: no content blocks exist"
  | .lastBlockNotReasoning found =>
    s!"cannot add reasoning signature: last block is a {found.name} block"
  | .responseIdMismatch expected actual =>
    s!"response ID mismatch: expected {expected}, got {actual}"
  | .duplicateToolCall id => s!"duplicate tool call ID: {id}"

end Colloquy
