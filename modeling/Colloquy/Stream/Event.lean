import Colloquy.Response.Basic

/-! What a streamed generation delivers piece by piece, and what is known when it
opens. -/
namespace Colloquy

open Text (Bytes)
open Time (Timestamp)

structure Source where
  sourceType : String := "url"
  id : String
  url : String
  title : Option String := none
  metadata : Option Metadata := none

namespace Source

def ofUrl (id url : String) : Source :=
  { id, url }

def block (s : Source) : SourceBlock :=
  { id := s.id, url := s.url, title := s.title, metadata := s.metadata }

def encode (s : Source) : Json :=
  Json.record [("source_type", some (.text s.sourceType)), ("id", some (.text s.id)),
    ("url", some (.text s.url)), ("title", s.title.map .text), Json.metadata s.metadata]

def decode? (d : Draft) : Option Source := do
  let r ← d.record? ["source_type", "id", "url", "title", "provider_metadata"]
  let sourceType ← r.defaulted "source_type" "url" Draft.text?
  let id ← r.required "id" Draft.text?
  let url ← r.required "url" Draft.text?
  let title ← r.optional "title" Draft.text?
  let metadata ← r.metadata?
  return { sourceType, id, url, title, metadata }

end Source

structure Finish where
  reason : FinishReason
  usage : Option Usage := none
  metadata : Option Metadata := none
  logProbs : List LogProb := []

inductive Event where
  | textDelta (text : String)
  | reasoning (text : String)
  | reasoningSignature (signature : String)
  | redactedReasoning (data : String)
  | toolCall (callId toolName args : String)
  | toolCallDelta (callId toolName argsDelta : String)
  | source (cited : Source)
  | file (mediaType : String) (data : Bytes)
  | responseMetadata (id modelId : String) (timestamp : Option Timestamp)
  | finish (told : Finish)
  | error (message : String)

inductive EventKind where
  | textDelta
  | reasoning
  | reasoningSignature
  | redactedReasoning
  | toolCall
  | toolCallDelta
  | source
  | file
  | responseMetadata
  | finish
  | error
  deriving DecidableEq, Repr

namespace EventKind

def all : List EventKind :=
  [.textDelta, .reasoning, .reasoningSignature, .redactedReasoning, .toolCall, .toolCallDelta, .source,
    .file, .responseMetadata, .finish, .error]

def name : EventKind → String
  | .textDelta => "text-delta"
  | .reasoning => "reasoning"
  | .reasoningSignature => "reasoning-signature"
  | .redactedReasoning => "redacted-reasoning"
  | .toolCall => "tool-call"
  | .toolCallDelta => "tool-call-delta"
  | .source => "source"
  | .file => "file"
  | .responseMetadata => "response-metadata"
  | .finish => "finish"
  | .error => "error"

end EventKind

namespace Event

def kind : Event → EventKind
  | .textDelta _ => .textDelta
  | .reasoning _ => .reasoning
  | .reasoningSignature _ => .reasoningSignature
  | .redactedReasoning _ => .redactedReasoning
  | .toolCall _ _ _ => .toolCall
  | .toolCallDelta _ _ _ => .toolCallDelta
  | .source _ => .source
  | .file _ _ => .file
  | .responseMetadata _ _ _ => .responseMetadata
  | .finish _ => .finish
  | .error _ => .error

def ofReason (reason : FinishReason) : Event :=
  .finish { reason }

def members : Event → List (String × Option Json)
  | .textDelta text => [("text", some (.text text))]
  | .reasoning text => [("text", some (.text text))]
  | .reasoningSignature signature => [("signature", some (.text signature))]
  | .redactedReasoning data => [("data", some (.text data))]
  | .toolCall callId toolName args =>
    [("tool_call_id", some (.text callId)), ("tool_name", some (.text toolName)),
      ("args", some (.text args))]
  | .toolCallDelta callId toolName argsDelta =>
    [("tool_call_id", some (.text callId)), ("tool_name", some (.text toolName)),
      ("args_delta", some (.text argsDelta))]
  | .source cited => [("source", some cited.encode)]
  | .file mediaType data => [("media_type", some (.text mediaType)), ("data", some (Json.bytes data))]
  | .responseMetadata id modelId timestamp =>
    [("id", some (.text id)), ("model_id", some (.text modelId)),
      ("timestamp", timestamp.map Json.timestamp)]
  | .finish told =>
    [("finish_reason", some told.reason.encode), ("usage", told.usage.map Usage.encode),
      Json.metadata told.metadata, ("log_probs", Json.ofNonempty LogProb.encode told.logProbs)]
  | .error message => [("message", some (.text message))]

def encode (e : Event) : Json :=
  Json.record (("type", some (.text e.kind.name)) :: e.members)

def finish? (content : Draft) : Option Finish := do
  let r ← content.record? ["finish_reason", "usage", "provider_metadata", "log_probs"]
  let reason ← r.required "finish_reason" (FinishReason.decode? .insideTagged)
  let usage ← r.optional "usage" Usage.decode?
  let metadata ← r.metadata?
  let logProbs ← r.defaulted "log_probs" [] (Draft.list? LogProb.decode?)
  return { reason, usage, metadata, logProbs }

def ofContent? (kind : EventKind) (content : Draft) : Option Event :=
  match kind with
  | .textDelta => do
    let r ← content.record? ["text"]
    let text ← r.required "text" Draft.text?
    return .textDelta text
  | .reasoning => do
    let r ← content.record? ["text"]
    let text ← r.required "text" Draft.text?
    return .reasoning text
  | .reasoningSignature => do
    let r ← content.record? ["signature"]
    let signature ← r.required "signature" Draft.text?
    return .reasoningSignature signature
  | .redactedReasoning => do
    let r ← content.record? ["data"]
    let data ← r.required "data" Draft.text?
    return .redactedReasoning data
  | .toolCall => do
    let r ← content.record? ["tool_call_id", "tool_name", "args"]
    let callId ← r.required "tool_call_id" Draft.text?
    let toolName ← r.required "tool_name" Draft.text?
    let args ← r.required "args" Draft.text?
    return .toolCall callId toolName args
  | .toolCallDelta => do
    let r ← content.record? ["tool_call_id", "tool_name", "args_delta"]
    let callId ← r.required "tool_call_id" Draft.text?
    let toolName ← r.required "tool_name" Draft.text?
    let argsDelta ← r.required "args_delta" Draft.text?
    return .toolCallDelta callId toolName argsDelta
  | .source => do
    let r ← content.record? ["source"]
    let cited ← r.required "source" Source.decode?
    return .source cited
  | .file => do
    let r ← content.record? ["media_type", "data"]
    let mediaType ← r.required "media_type" Draft.text?
    let data ← r.required "data" Draft.bytes?
    return .file mediaType data
  | .responseMetadata => do
    let r ← content.record? ["id", "model_id", "timestamp"]
    let id ← r.defaulted "id" "" Draft.text?
    let modelId ← r.defaulted "model_id" "" Draft.text?
    let timestamp ← r.optional "timestamp" Draft.timestamp?
    return .responseMetadata id modelId timestamp
  | .finish => (finish? content).map .finish
  | .error => do
    let r ← content.record? ["message"]
    let message ← r.required "message" Draft.text?
    return .error message

def decode? (d : Draft) : Option Event := do
  let (kind, content) ← d.tagged? .outside "type" EventKind.all EventKind.name
  ofContent? kind content

end Event

/-- What is known of a generation when its stream opens. -/
structure Opening where
  rawCall : RawCall := {}
  rawResponse : Option RawResponse := none
  requestInfo : Option RequestInfo := none
  responseInfo : Option ResponseInfo := none
  warnings : List Warning := []
  metadata : Option Metadata := none

namespace Opening

def encode (o : Opening) : Json :=
  Json.record [("raw_call", some o.rawCall.encode),
    ("raw_response", o.rawResponse.map RawResponse.encode),
    ("request_info", o.requestInfo.map RequestInfo.encode),
    ("response_info", o.responseInfo.map ResponseInfo.encode),
    ("warnings", Json.ofNonempty Warning.encode o.warnings),
    Json.metadata o.metadata]

def decode? (d : Draft) : Option Opening := do
  let r ← d.record? ["raw_call", "raw_response", "request_info", "response_info", "warnings",
    "provider_metadata"]
  let rawCall ← r.defaulted "raw_call" {} RawCall.decode?
  let rawResponse ← r.optional "raw_response" RawResponse.decode?
  let requestInfo ← r.optional "request_info" RequestInfo.decode?
  let responseInfo ← r.optional "response_info" ResponseInfo.decode?
  let warnings ← r.defaulted "warnings" [] (Draft.list? Warning.decode?)
  let metadata ← r.metadata?
  return { rawCall, rawResponse, requestInfo, responseInfo, warnings, metadata }

end Opening

end Colloquy
