import Colloquy.Chat.Explanation
import Colloquy.Chat.Usage

/-! The pieces in which the chat service streams a reply. -/
namespace Colloquy.Chat

structure FunctionFragment where
  name : Option String := none
  arguments : Option String := none

/-- A piece of the tool call with this index. Only the first piece of an index
need have the identifier and the name. -/
structure ToolCallFragment where
  index : UInt64 := 0
  id : Option String := none
  kind : Option String := none
  function : Option FunctionFragment := none

structure Delta where
  role : Option String := none
  content : Option String := none
  reasoning : Option String := none
  toolCalls : Option (List ToolCallFragment) := none

structure ChunkChoice where
  index : UInt64 := 0
  delta : Delta := {}
  scores : Option Scores := none
  finishReason : Option String := none

structure Chunk where
  id : Option String := none
  model : Option String := none
  created : Option Int := none
  choices : List ChunkChoice := []
  usage : Option TokenReport := none
  /-- A failure in the middle of the stream, in place of all else. -/
  error : Option Explanation := none

namespace FunctionFragment

def encode (f : FunctionFragment) : Json :=
  Json.record [("name", some (Json.orNull .text f.name)),
    ("arguments", some (Json.orNull .text f.arguments))]

def decode? (d : Draft) : Option FunctionFragment := do
  let r ← d.record? ["name", "arguments"]
  let name ← r.optional "name" Draft.text?
  let arguments ← r.optional "arguments" Draft.text?
  return { name, arguments }

end FunctionFragment

namespace ToolCallFragment

def encode (f : ToolCallFragment) : Json :=
  Json.record [("index", word64 f.index), ("id", some (Json.orNull .text f.id)),
    ("type", some (Json.orNull .text f.kind)),
    ("function", some (Json.orNull FunctionFragment.encode f.function))]

def decode? (d : Draft) : Option ToolCallFragment := do
  let r ← d.record? ["index", "id", "type", "function"]
  let index ← r.defaulted "index" 0 Draft.word64?
  let id ← r.optional "id" Draft.text?
  let kind ← r.optional "type" Draft.text?
  let function ← r.optional "function" FunctionFragment.decode?
  return { index, id, kind, function }

end ToolCallFragment

namespace Delta

def encode (delta : Delta) : Json :=
  Json.record [("role", some (Json.orNull .text delta.role)),
    ("content", some (Json.orNull .text delta.content)),
    ("reasoning", some (Json.orNull .text delta.reasoning)),
    ("tool_calls", some (Json.orNull (Json.ofList ToolCallFragment.encode) delta.toolCalls))]

def decode? (d : Draft) : Option Delta := do
  let r ← d.record? ["role", "content", "reasoning", "tool_calls"]
  let role ← r.optional "role" Draft.text?
  let content ← r.optional "content" Draft.text?
  let reasoning ← r.optional "reasoning" Draft.text?
  let toolCalls ← r.optional "tool_calls" (Draft.list? ToolCallFragment.decode?)
  return { role, content, reasoning, toolCalls }

end Delta

namespace ChunkChoice

def encode (choice : ChunkChoice) : Json :=
  Json.record [("index", word64 choice.index), ("delta", some choice.delta.encode),
    ("logprobs", some (Json.orNull Scores.encode choice.scores)),
    ("finish_reason", some (Json.orNull .text choice.finishReason))]

def decode? (d : Draft) : Option ChunkChoice := do
  let r ← d.record? ["index", "delta", "logprobs", "finish_reason"]
  let index ← r.defaulted "index" 0 Draft.word64?
  let delta ← r.defaulted "delta" {} Delta.decode?
  let scores ← r.optional "logprobs" Scores.decode?
  let finishReason ← r.optional "finish_reason" Draft.text?
  return { index, delta, scores, finishReason }

end ChunkChoice

namespace Chunk

def encode (chunk : Chunk) : Json :=
  Json.record [("id", some (Json.orNull .text chunk.id)), ("model", some (Json.orNull .text chunk.model)),
    ("created", some (Json.orNull .whole chunk.created)),
    ("choices", some (Json.ofList ChunkChoice.encode chunk.choices)),
    ("usage", some (Json.orNull TokenReport.encode chunk.usage)),
    ("error", some (Json.orNull Explanation.encode chunk.error))]

def decode? (d : Draft) : Option Chunk := do
  let r ← d.record? ["id", "model", "created", "choices", "usage", "error"]
  let id ← r.optional "id" Draft.text?
  let model ← r.optional "model" Draft.text?
  let created ← r.optional "created" Draft.signed64?
  let choices ← r.defaulted "choices" [] (Draft.list? ChunkChoice.decode?)
  let usage ← r.optional "usage" TokenReport.decode?
  let error ← r.optional "error" Explanation.decode?
  return { id, model, created, choices, usage, error }

def parse? (text : String) : Option Chunk :=
  (Draft.parse? text).bind decode?

end Chunk

end Colloquy.Chat
