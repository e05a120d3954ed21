import Colloquy.Conversation.Message

/-! Messages as the chat service takes them. A tool result is a message of its
own, and tool calls stand beside the assistant's text. -/
namespace Colloquy.Chat

structure FunctionCall where
  name : String := ""
  arguments : String := ""
  deriving DecidableEq, Repr

structure ToolCall where
  kind : String := "function"
  id : String := ""
  function : FunctionCall := {}
  deriving DecidableEq, Repr

inductive Part where
  | text (text : String)
  | imageUrl (url : String)
  deriving DecidableEq, Repr

inductive UserContent where
  | text (text : String)
  | parts (parts : List Part)
  deriving DecidableEq, Repr

inductive Message where
  | system (content : String)
  | user (content : UserContent)
  | assistant (content : String) (reasoning : Option String) (toolCalls : List ToolCall)
  | tool (content callId : String)
  deriving DecidableEq, Repr

namespace FunctionCall

def encode (f : FunctionCall) : Json :=
  Json.record [("name", some (.text f.name)), ("arguments", some (.text f.arguments))]

def decode? (d : Draft) : Option FunctionCall := do
  let r ← d.record? ["name", "arguments"]
  let name ← r.defaulted "name" "" Draft.text?
  let arguments ← r.defaulted "arguments" "" Draft.text?
  return { name, arguments }

end FunctionCall

namespace ToolCall

def encode (call : ToolCall) : Json :=
  Json.record [("type", some (.text call.kind)), ("id", some (.text call.id)),
    ("function", some call.function.encode)]

def decode? (d : Draft) : Option ToolCall := do
  let r ← d.record? ["type", "id", "function"]
  let kind ← r.defaulted "type" "function" Draft.text?
  let id ← r.defaulted "id" "" Draft.text?
  let function ← r.defaulted "function" {} FunctionCall.decode?
  return { kind, id, function }

end ToolCall

inductive PartKind where
  | text
  | imageUrl
  deriving DecidableEq, Repr

def PartKind.all : List PartKind :=
  [.text, .imageUrl]

def PartKind.name : PartKind → String
  | .text => "text"
  | .imageUrl => "image_url"

namespace Part

def kind : Part → PartKind
  | .text _ => .text
  | .imageUrl _ => .imageUrl

def content : Part → Json
  | .text value => .text value
  | .imageUrl url => Json.record [("url", some (.text url))]

def encode (part : Part) : Json :=
  Json.record [("type", some (.text part.kind.name)), (part.kind.name, some part.content)]

def url? (d : Draft) : Option String := do
  let r ← d.record? ["url"]
  r.required "url" Draft.text?

def decode? (d : Draft) : Option Part := do
  let (kind, content) ← d.tagged? .insideTagged "type" PartKind.all PartKind.name
  let r ← content.record? [kind.name]
  match kind with
  | .text => (r.required "text" Draft.text?).map .text
  | .imageUrl => (r.required "image_url" url?).map .imageUrl

end Part

namespace UserContent

def encode : UserContent → Json
  | .text value => .text value
  | .parts several => Json.ofList Part.encode several

def decode? : Draft → Option UserContent
  | .text value => some (.text value)
  | d => (d.list? Part.decode?).map .parts

end UserContent

namespace Message

def role : Message → Role
  | .system _ => .system
  | .user _ => .user
  | .assistant _ _ _ => .assistant
  | .tool _ _ => .tool

def members : Message → List (String × Option Json)
  | .system content => [("content", some (.text content))]
  | .user content => [("content", some content.encode)]
  | .assistant content reasoning toolCalls =>
    [("content", if content.isEmpty then none else some (.text content)),
      ("reasoning", reasoning.map .text), ("tool_calls", Json.ofNonempty ToolCall.encode toolCalls)]
  | .tool content callId => [("content", some (.text content)), ("tool_call_id", some (.text callId))]

def encode (m : Message) : Json :=
  Json.record (("role", some (.text m.role.name)) :: m.members)

def ofContent? (role : Role) (content : Draft) : Option Message :=
  match role with
  | .system => do
    let r ← content.record? ["content"]
    let content ← r.required "content" Draft.text?
    return .system content
  | .user => do
    let r ← content.record? ["content"]
    let content ← r.required "content" UserContent.decode?
    return .user content
  | .assistant => do
    let r ← content.record? ["content", "reasoning", "tool_calls"]
    let content ← r.defaulted "content" "" Draft.text?
    let reasoning ← r.optional "reasoning" Draft.text?
    let toolCalls ← r.defaulted "tool_calls" [] (Draft.list? ToolCall.decode?)
    return .assistant content reasoning toolCalls
  | .tool => do
    let r ← content.record? ["content", "tool_call_id"]
    let content ← r.required "content" Draft.text?
    let callId ← r.required "tool_call_id" Draft.text?
    return .tool content callId

def decode? (d : Draft) : Option Message := do
  let (role, content) ← d.tagged? .outside "role" Role.all Role.name
  ofContent? role content

end Message

end Colloquy.Chat
