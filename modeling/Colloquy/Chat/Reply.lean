import Colloquy.Chat.Message
import Colloquy.Chat.Usage
import Colloquy.Failure
import Colloquy.Text.Blank

/-! The reply of the chat service in one piece, and the response that it holds. -/
namespace Colloquy.Chat

open Time (Timestamp)

structure ReplyMessage where
  role : Option String := none
  content : Option String := none
  reasoning : Option String := none
  toolCalls : Option (List ToolCall) := none

structure Choice where
  index : UInt64 := 0
  message : ReplyMessage := {}
  scores : Option Scores := none
  finishReason : Option String := none

structure Reply where
  id : String := ""
  model : String := ""
  created : Option Int := none
  choices : List Choice := []
  usage : Option TokenReport := none
  fingerprint : Option String := none

namespace ReplyMessage

def encode (m : ReplyMessage) : Json :=
  Json.record [("role", some (Json.orNull .text m.role)), ("content", some (Json.orNull .text m.content)),
    ("reasoning", some (Json.orNull .text m.reasoning)),
    ("tool_calls", some (Json.orNull (Json.ofList ToolCall.encode) m.toolCalls))]

def decode? (d : Draft) : Option ReplyMessage := do
  let r ← d.record? ["role", "content", "reasoning", "tool_calls"]
  let role ← r.optional "role" Draft.text?
  let content ← r.optional "content" Draft.text?
  let reasoning ← r.optional "reasoning" Draft.text?
  let toolCalls ← r.optional "tool_calls" (Draft.list? ToolCall.decode?)
  return { role, content, reasoning, toolCalls }

end ReplyMessage

namespace Choice

def encode (choice : Choice) : Json :=
  Json.record [("index", word64 choice.index), ("message", some choice.message.encode),
    ("logprobs", some (Json.orNull Scores.encode choice.scores)),
    ("finish_reason", some (Json.orNull .text choice.finishReason))]

def decode? (d : Draft) : Option Choice := do
  let r ← d.record? ["index", "message", "logprobs", "finish_reason"]
  let index ← r.defaulted "index" 0 Draft.word64?
  let message ← r.defaulted "message" {} ReplyMessage.decode?
  let scores ← r.optional "logprobs" Scores.decode?
  let finishReason ← r.optional "finish_reason" Draft.text?
  return { index, message, scores, finishReason }

end Choice

namespace Reply

def encode (reply : Reply) : Json :=
  Json.record [("id", some (.text reply.id)), ("model", some (.text reply.model)),
    ("created", some (Json.orNull .whole reply.created)),
    ("choices", some (Json.ofList Choice.encode reply.choices)),
    ("usage", some (Json.orNull TokenReport.encode reply.usage)),
    ("system_fingerprint", some (Json.orNull .text reply.fingerprint))]

def decode? (d : Draft) : Option Reply := do
  let r ← d.record? ["id", "model", "created", "choices", "usage", "system_fingerprint"]
  let id ← r.defaulted "id" "" Draft.text?
  let model ← r.defaulted "model" "" Draft.text?
  let created ← r.optional "created" Draft.signed64?
  let choices ← r.defaulted "choices" [] (Draft.list? Choice.decode?)
  let usage ← r.optional "usage" TokenReport.decode?
  let fingerprint ← r.optional "system_fingerprint" Draft.text?
  return { id, model, created, choices, usage, fingerprint }

end Reply

def ToolCall.block (call : ToolCall) : Block :=
  .toolCall { callId := call.id, toolName := call.function.name, args := call.function.arguments }

/-- Reasoning, then text, then tool calls. -/
def ReplyMessage.blocks (m : ReplyMessage) : List Block :=
  ((Text.nonempty? m.reasoning).map fun text => Block.reasoning { text }).toList ++
    ((Text.nonempty? m.content).map Block.ofText).toList ++ (m.toolCalls.getD []).map ToolCall.block

namespace Reply

def response (reply : Reply) : Except Failure Response :=
  match reply.choices with
  | [] => .error (.noContent "no choices in response")
  | choice :: _ =>
    .ok {
      content := choice.message.blocks
      finishReason := some (finishReason choice.finishReason)
      usage := (reply.usage.map TokenReport.usage).getD {}
      logProbs := logProbs choice.scores
      responseInfo := some {
        id := reply.id
        timestamp := reply.created.bind Timestamp.ofUnixSeconds?
        modelId := reply.model } }

def parse (body : String) : Except Failure Reply :=
  match (Draft.parse? body).bind decode? with
  | some reply => .ok reply
  | none => .error (.malformedJson body)

def responseOfText (body : String) : Except Failure Response := do
  let reply ← parse body
  reply.response

end Reply

end Colloquy.Chat
