import Colloquy.Conversation.Block
import Colloquy.Response.Exchange
import Colloquy.Response.Usage

/-! The whole result of a generation. -/
namespace Colloquy

structure Response where
  content : List Block := []
  finishReason : Option FinishReason := none
  usage : Usage := {}
  warnings : List Warning := []
  metadata : Option Metadata := none
  logProbs : List LogProb := []
  rawCall : RawCall := {}
  rawResponse : Option RawResponse := none
  requestInfo : Option RequestInfo := none
  responseInfo : Option ResponseInfo := none

namespace Response

def textOf? : Block → Option String
  | .text block => some block.text
  | _ => none

def toolCallOf? : Block → Option ToolCallBlock
  | .toolCall block => some block
  | _ => none

def reasoningOf? : Block → Option ReasoningBlock
  | .reasoning block => some block
  | _ => none

def text (r : Response) : String :=
  String.join (r.content.filterMap textOf?)

def toolCalls (r : Response) : List ToolCallBlock :=
  r.content.filterMap toolCallOf?

def reasoning (r : Response) : List ReasoningBlock :=
  r.content.filterMap reasoningOf?

def encode (r : Response) : Json :=
  Json.record [("content", some (Json.ofList Block.encode r.content)),
    ("finish_reason", r.finishReason.map FinishReason.encode),
    ("usage", some r.usage.encode),
    ("warnings", Json.ofNonempty Warning.encode r.warnings),
    Json.metadata r.metadata,
    ("log_probs", Json.ofNonempty LogProb.encode r.logProbs),
    ("raw_call", some r.rawCall.encode),
    ("raw_response", r.rawResponse.map RawResponse.encode),
    ("request_info", r.requestInfo.map RequestInfo.encode),
    ("response_info", r.responseInfo.map ResponseInfo.encode)]

def decode? (d : Draft) : Option Response := do
  let r ← d.record? ["content", "finish_reason", "usage", "warnings", "provider_metadata", "log_probs",
    "raw_call", "raw_response", "request_info", "response_info"]
  let content ← r.defaulted "content" [] (Draft.list? (Block.decode? .outside))
  let finishReason ← r.optional "finish_reason" (FinishReason.decode? .outside)
  let usage ← r.defaulted "usage" {} Usage.decode?
  let warnings ← r.defaulted "warnings" [] (Draft.list? Warning.decode?)
  let metadata ← r.metadata?
  let logProbs ← r.defaulted "log_probs" [] (Draft.list? LogProb.decode?)
  let rawCall ← r.defaulted "raw_call" {} RawCall.decode?
  let rawResponse ← r.optional "raw_response" RawResponse.decode?
  let requestInfo ← r.optional "request_info" RequestInfo.decode?
  let responseInfo ← r.optional "response_info" ResponseInfo.decode?
  return { content, finishReason, usage, warnings, metadata, logProbs, rawCall, rawResponse,
           requestInfo, responseInfo }

end Response

end Colloquy
