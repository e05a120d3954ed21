import Colloquy.Conversation.Metadata
import Colloquy.Text.Base64

/-! Typed units of what is said: the blocks of messages and of responses. -/
namespace Colloquy

open Text (Bytes)

structure TextBlock where
  text : String
  metadata : Option Metadata := none

/-- An image by address or inline; the address wins. -/
structure ImageBlock where
  url : Option String := none
  data : Option Bytes := none
  mediaType : Option String := none
  metadata : Option Metadata := none

/-- A file by address or inline; the address wins. -/
structure FileBlock where
  filename : Option String := none
  url : Option String := none
  data : Option Bytes := none
  mediaType : Option String := none
  metadata : Option Metadata := none

/-- A tool that the model asks for. The arguments are JSON text as the model wrote
it, which may be malformed. -/
structure ToolCallBlock where
  callId : String
  toolName : String
  args : String := ""
  metadata : Option Metadata := none

structure ToolResultBlock where
  callId : String
  toolName : String
  result : Json := .null
  isError : Bool := false
  metadata : Option Metadata := none

structure ReasoningBlock where
  text : String
  signature : Option String := none
  metadata : Option Metadata := none

structure RedactedReasoningBlock where
  data : String
  metadata : Option Metadata := none

structure SourceBlock where
  id : String
  url : String
  title : Option String := none
  metadata : Option Metadata := none

inductive Block where
  | text (block : TextBlock)
  | image (block : ImageBlock)
  | file (block : FileBlock)
  | toolCall (block : ToolCallBlock)
  | toolResult (block : ToolResultBlock)
  | reasoning (block : ReasoningBlock)
  | redactedReasoning (block : RedactedReasoningBlock)
  | source (block : SourceBlock)

inductive BlockKind where
  | text
  | image
  | file
  | toolCall
  | toolResult
  | reasoning
  | redactedReasoning
  | source
  deriving DecidableEq, Repr

namespace BlockKind

def all : List BlockKind :=
  [.text, .image, .file, .toolCall, .toolResult, .reasoning, .redactedReasoning, .source]

def name : BlockKind → String
  | .text => "text"
  | .image => "image"
  | .file => "file"
  | .toolCall => "tool-call"
  | .toolResult => "tool-result"
  | .reasoning => "reasoning"
  | .redactedReasoning => "redacted-reasoning"
  | .source => "source"

end BlockKind

def Block.kind : Block → BlockKind
  | .text _ => .text
  | .image _ => .image
  | .file _ => .file
  | .toolCall _ => .toolCall
  | .toolResult _ => .toolResult
  | .reasoning _ => .reasoning
  | .redactedReasoning _ => .redactedReasoning
  | .source _ => .source

def Block.ofText (text : String) : Block :=
  .text { text }

def ImageBlock.ofUrl (url : String) : ImageBlock :=
  { url }

def ImageBlock.ofData (data : Bytes) (mediaType : Option String) : ImageBlock :=
  { data, mediaType }

def FileBlock.ofUrl (url : String) : FileBlock :=
  { url }

def FileBlock.ofData (data : Bytes) (mediaType : Option String) : FileBlock :=
  { data, mediaType }

def ToolResultBlock.ofResult (callId toolName : String) (result : Json) : ToolResultBlock :=
  { callId, toolName, result }

def Json.bytes (data : Bytes) : Json :=
  .text (Text.Base64.encode data)

def Draft.bytes? (d : Draft) : Option Bytes :=
  d.text?.bind Text.Base64.decode?

def Json.metadata (metadata : Option Metadata) : String × Option Json :=
  ("provider_metadata", metadata.map Metadata.encode)

def Record.metadata? (r : Record) : Option (Option Metadata) :=
  r.optional "provider_metadata" Metadata.decode?

namespace TextBlock

def members (b : TextBlock) : List (String × Option Json) :=
  [("text", some (.text b.text)), Json.metadata b.metadata]

def decode? (d : Draft) : Option TextBlock := do
  let r ← d.record? ["text", "provider_metadata"]
  let text ← r.required "text" Draft.text?
  let metadata ← r.metadata?
  return { text, metadata }

end TextBlock

namespace ImageBlock

def members (b : ImageBlock) : List (String × Option Json) :=
  [("url", b.url.map .text), ("data", b.data.map Json.bytes), ("media_type", b.mediaType.map .text),
    Json.metadata b.metadata]

def decode? (d : Draft) : Option ImageBlock := do
  let r ← d.record? ["url", "data", "media_type", "provider_metadata"]
  let url ← r.optional "url" Draft.text?
  let data ← r.optional "data" Draft.bytes?
  let mediaType ← r.optional "media_type" Draft.text?
  let metadata ← r.metadata?
  return { url, data, mediaType, metadata }

end ImageBlock

namespace FileBlock

def members (b : FileBlock) : List (String × Option Json) :=
  [("filename", b.filename.map .text), ("url", b.url.map .text), ("data", b.data.map Json.bytes),
    ("media_type", b.mediaType.map .text), Json.metadata b.metadata]

def decode? (d : Draft) : Option FileBlock := do
  let r ← d.record? ["filename", "url", "data", "media_type", "provider_metadata"]
  let filename ← r.optional "filename" Draft.text?
  let url ← r.optional "url" Draft.text?
  let data ← r.optional "data" Draft.bytes?
  let mediaType ← r.optional "media_type" Draft.text?
  let metadata ← r.metadata?
  return { filename, url, data, mediaType, metadata }

end FileBlock

namespace ToolCallBlock

def members (b : ToolCallBlock) : List (String × Option Json) :=
  [("tool_call_id", some (.text b.callId)), ("tool_name", some (.text b.toolName)),
    ("args", some (.text b.args)), Json.metadata b.metadata]

def encode (b : ToolCallBlock) : Json :=
  Json.record b.members

def decode? (d : Draft) : Option ToolCallBlock := do
  let r ← d.record? ["tool_call_id", "tool_name", "args", "provider_metadata"]
  let callId ← r.required "tool_call_id" Draft.text?
  let toolName ← r.required "tool_name" Draft.text?
  let args ← r.defaulted "args" "" Draft.text?
  let metadata ← r.metadata?
  return { callId, toolName, args, metadata }

end ToolCallBlock

namespace ToolResultBlock

def members (b : ToolResultBlock) : List (String × Option Json) :=
  [("tool_call_id", some (.text b.callId)), ("tool_name", some (.text b.toolName)),
    ("result", some b.result), ("is_error", if b.isError then some (.bool true) else none),
    Json.metadata b.metadata]

def encode (b : ToolResultBlock) : Json :=
  Json.record b.members

def decode? (d : Draft) : Option ToolResultBlock := do
  let r ← d.record? ["tool_call_id", "tool_name", "result", "is_error", "provider_metadata"]
  let callId ← r.required "tool_call_id" Draft.text?
  let toolName ← r.required "tool_name" Draft.text?
  let result ← r.defaulted "result" .null Draft.json?
  let isError ← r.defaulted "is_error" false Draft.bool?
  let metadata ← r.metadata?
  return { callId, toolName, result, isError, metadata }

end ToolResultBlock

namespace ReasoningBlock

def members (b : ReasoningBlock) : List (String × Option Json) :=
  [("text", some (.text b.text)), ("signature", b.signature.map .text), Json.metadata b.metadata]

def encode (b : ReasoningBlock) : Json :=
  Json.record b.members

def decode? (d : Draft) : Option ReasoningBlock := do
  let r ← d.record? ["text", "signature", "provider_metadata"]
  let text ← r.required "text" Draft.text?
  let signature ← r.optional "signature" Draft.text?
  let metadata ← r.metadata?
  return { text, signature, metadata }

end ReasoningBlock

namespace RedactedReasoningBlock

def members (b : RedactedReasoningBlock) : List (String × Option Json) :=
  [("data", some (.text b.data)), Json.metadata b.metadata]

def decode? (d : Draft) : Option RedactedReasoningBlock := do
  let r ← d.record? ["data", "provider_metadata"]
  let data ← r.required "data" Draft.text?
  let metadata ← r.metadata?
  return { data, metadata }

end RedactedReasoningBlock

namespace SourceBlock

def members (b : SourceBlock) : List (String × Option Json) :=
  [("id", some (.text b.id)), ("url", some (.text b.url)), ("title", b.title.map .text),
    Json.metadata b.metadata]

def decode? (d : Draft) : Option SourceBlock := do
  let r ← d.record? ["id", "url", "title", "provider_metadata"]
  let id ← r.required "id" Draft.text?
  let url ← r.required "url" Draft.text?
  let title ← r.optional "title" Draft.text?
  let metadata ← r.metadata?
  return { id, url, title, metadata }

end SourceBlock

namespace Block

def members : Block → List (String × Option Json)
  | .text b => b.members
  | .image b => b.members
  | .file b => b.members
  | .toolCall b => b.members
  | .toolResult b => b.members
  | .reasoning b => b.members
  | .redactedReasoning b => b.members
  | .source b => b.members

def encode (b : Block) : Json :=
  Json.record (("type", some (.text b.kind.name)) :: b.members)

def ofContent? (kind : BlockKind) (content : Draft) : Option Block :=
  match kind with
  | .text => (TextBlock.decode? content).map .text
  | .image => (ImageBlock.decode? content).map .image
  | .file => (FileBlock.decode? content).map .file
  | .toolCall => (ToolCallBlock.decode? content).map .toolCall
  | .toolResult => (ToolResultBlock.decode? content).map .toolResult
  | .reasoning => (ReasoningBlock.decode? content).map .reasoning
  | .redactedReasoning => (RedactedReasoningBlock.decode? content).map .redactedReasoning
  | .source => (SourceBlock.decode? content).map .source

def decode? (place : Draft.Place) (d : Draft) : Option Block := do
  let (kind, content) ← d.tagged? place "type" BlockKind.all BlockKind.name
  ofContent? kind content

end Block

end Colloquy
