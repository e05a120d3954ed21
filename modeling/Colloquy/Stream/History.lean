import Colloquy.Stream.Event
import Colloquy.Text.Blank

/-! The blocks that a history of events stands for, told from the history alone.
Some events open a block; the events from one of them up to the next are a span.
A text is what its span says, a tool call what all events of the call say. -/
namespace Colloquy

namespace Event

def textDelta? : Event → Option String
  | .textDelta text => some text
  | _ => none

def reasoning? : Event → Option String
  | .reasoning text => some text
  | _ => none

def signature? : Event → Option String
  | .reasoningSignature signature => some signature
  | _ => none

def callId? : Event → Option String
  | .toolCall callId _ _ => some callId
  | .toolCallDelta callId _ _ => some callId
  | _ => none

def toolName? (callId : String) : Event → Option String
  | .toolCall id toolName _ => if id = callId then some toolName else none
  | .toolCallDelta id toolName _ => if id = callId then some toolName else none
  | _ => none

def argsDelta? (callId : String) : Event → Option String
  | .toolCallDelta id _ argsDelta => if id = callId then some argsDelta else none
  | _ => none

def info? : Event → Option ResponseInfo
  | .responseMetadata id modelId timestamp => some { id, timestamp, modelId }
  | _ => none

def error? : Event → Option String
  | .error message => some message
  | _ => none

/-- The place of an event in a reply that has reasoning first, then text, then tool
calls in pieces. -/
def rank? : Event → Option Nat
  | .reasoning _ => some 0
  | .textDelta _ => some 1
  | .toolCallDelta _ _ _ => some 2
  | _ => none

/-- A part of the answer, before which the reasoning has its place. -/
def isAnswer : Event → Bool
  | .textDelta _ => true
  | .toolCallDelta _ _ _ => true
  | _ => false

end Event

/-- Whether some reasoning comes after a part of the answer. -/
def reasonsLate : List Event → Bool
  | [] => false
  | event :: rest =>
    (event.isAnswer && rest.any fun later => later.reasoning?.isSome) || reasonsLate rest

/-- The failure that a history tells last. -/
def lastError? (history : List Event) : Option String :=
  (history.filterMap Event.error?).getLast?

/-- What is known of a response when its identity is told. A model or a time that is
not told stays as it is. -/
def ResponseInfo.toldOf (known told : Option ResponseInfo) : Option ResponseInfo :=
  match told with
  | none => known
  | some told =>
    let known := known.getD {}
    some {
      id := told.id
      timestamp := told.timestamp.or known.timestamp
      modelId := if told.modelId.isEmpty then known.modelId else told.modelId }

/-- An event that opens a block, and the events after it up to the next of these. -/
structure Span where
  opener : Event
  rest : List Event := []

namespace Span

def events (s : Span) : List Event :=
  s.opener :: s.rest

/-- Whether an event opens a block after the spans before it. -/
def opens (before : List Span) : Event → Bool
  | .redactedReasoning _ => true
  | .source _ => true
  | .file _ _ => true
  | .toolCall _ _ _ => true
  | .toolCallDelta callId _ _ =>
    !(before.flatMap events).any fun event => event.callId? == some callId
  | .textDelta _ => !before.getLast?.any fun last => last.opener.textDelta?.isSome
  | .reasoning _ => !before.getLast?.any fun last => last.opener.reasoning?.isSome
  | _ => false

def extend (s : Span) (event : Event) : Span :=
  { s with rest := s.rest ++ [event] }

def extendLast (event : Event) (before : List Span) : List Span :=
  match before.getLast? with
  | some last => before.dropLast ++ [last.extend event]
  | none => []

def next (before : List Span) (event : Event) : List Span :=
  if opens before event then before ++ [{ opener := event }] else extendLast event before

end Span

def spans (history : List Event) : List Span :=
  history.foldl Span.next []

def openers (history : List Event) : List Event :=
  (spans history).map Span.opener

/-- The first name of a tool call that is not empty. -/
def callName (history : List Event) (callId : String) : String :=
  Text.firstNonempty (history.filterMap (Event.toolName? callId))

def callDeltas (history : List Event) (callId : String) : String :=
  String.join (history.filterMap (Event.argsDelta? callId))

/-- The tool calls of a history, each where it is named first. -/
def namedCalls (history : List Event) : List String :=
  (history.filterMap Event.callId?).eraseDups

def streamedCall (history : List Event) (callId : String) : ToolCallBlock :=
  { callId, toolName := callName history callId, args := callDeltas history callId }

/-- The block of a span, if its first event opens one. -/
def Span.block? (history : List Event) (s : Span) : Option Block :=
  match s.opener with
  | .textDelta _ => some (.text { text := String.join (s.events.filterMap Event.textDelta?) })
  | .reasoning _ =>
    some (.reasoning {
      text := String.join (s.events.filterMap Event.reasoning?)
      signature := (s.events.filterMap Event.signature?).getLast? })
  | .redactedReasoning data => some (.redactedReasoning { data })
  | .toolCall callId _ args =>
    some (.toolCall {
      callId
      toolName := callName history callId
      args := args ++ callDeltas history callId })
  | .toolCallDelta callId _ _ =>
    some (.toolCall (streamedCall history callId))
  | .source cited => some (.source cited.block)
  | .file mediaType data => some (.file { data := some data, mediaType := some mediaType })
  | _ => none

end Colloquy
