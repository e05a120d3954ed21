import Colloquy.Conversation.Block

/-! One turn of a conversation. -/
namespace Colloquy

inductive Role where
  | system
  | user
  | assistant
  | tool
  deriving DecidableEq, Repr

namespace Role

def all : List Role :=
  [.system, .user, .assistant, .tool]

def name : Role → String
  | .system => "system"
  | .user => "user"
  | .assistant => "assistant"
  | .tool => "tool"

end Role

structure SystemMessage where
  content : String
  metadata : Option Metadata := none

structure UserMessage where
  content : List Block := []
  metadata : Option Metadata := none

structure AssistantMessage where
  content : List Block := []
  metadata : Option Metadata := none

structure ToolMessage where
  content : List ToolResultBlock := []
  metadata : Option Metadata := none

inductive Message where
  | system (message : SystemMessage)
  | user (message : UserMessage)
  | assistant (message : AssistantMessage)
  | tool (message : ToolMessage)

namespace Message

def role : Message → Role
  | .system _ => .system
  | .user _ => .user
  | .assistant _ => .assistant
  | .tool _ => .tool

def metadata : Message → Option Metadata
  | .system m => m.metadata
  | .user m => m.metadata
  | .assistant m => m.metadata
  | .tool m => m.metadata

def ofSystem (content : String) : Message :=
  .system { content }

def ofUser (content : List Block) : Message :=
  .user { content }

def ofUserText (text : String) : Message :=
  ofUser [.ofText text]

def ofAssistant (content : List Block) : Message :=
  .assistant { content }

def ofAssistantText (text : String) : Message :=
  ofAssistant [.ofText text]

def ofTool (content : List ToolResultBlock) : Message :=
  .tool { content }

def content : Message → Json
  | .system m => .text m.content
  | .user m => Json.ofList Block.encode m.content
  | .assistant m => Json.ofList Block.encode m.content
  | .tool m => Json.ofList ToolResultBlock.encode m.content

def encode (m : Message) : Json :=
  Json.record [("role", some (.text m.role.name)), ("content", some m.content),
    Json.metadata m.metadata]

def ofContent? (role : Role) (d : Draft) : Option Message := do
  let r ← d.record? ["content", "provider_metadata"]
  let metadata ← r.metadata?
  match role with
  | .system => do
    let content ← r.required "content" Draft.text?
    return .system { content, metadata }
  | .user => do
    let content ← r.defaulted "content" [] (Draft.list? (Block.decode? .insideTagged))
    return .user { content, metadata }
  | .assistant => do
    let content ← r.defaulted "content" [] (Draft.list? (Block.decode? .insideTagged))
    return .assistant { content, metadata }
  | .tool => do
    let content ← r.defaulted "content" [] (Draft.list? ToolResultBlock.decode?)
    return .tool { content, metadata }

def decode? (d : Draft) : Option Message := do
  let (role, content) ← d.tagged? .outside "role" Role.all Role.name
  ofContent? role content

end Message

end Colloquy
