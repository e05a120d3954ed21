import Colloquy.Json.Record
import Colloquy.Time.Timestamp

/-! What is known of the exchange behind a response: what was sent, what came back
beside the content, and what the service warned about. -/
namespace Colloquy

open Time (Timestamp)

inductive Warning where
  | unsupportedSetting (setting : String) (details : Option String)
  | unsupportedTool (tool : String) (details : Option String)
  | other (message : String)

inductive WarningKind where
  | unsupportedSetting
  | unsupportedTool
  | other
  deriving DecidableEq, Repr

namespace WarningKind

def all : List WarningKind :=
  [.unsupportedSetting, .unsupportedTool, .other]

def name : WarningKind → String
  | .unsupportedSetting => "unsupported-setting"
  | .unsupportedTool => "unsupported-tool"
  | .other => "other"

end WarningKind

namespace Warning

def kind : Warning → WarningKind
  | .unsupportedSetting _ _ => .unsupportedSetting
  | .unsupportedTool _ _ => .unsupportedTool
  | .other _ => .other

def members : Warning → List (String × Option Json)
  | .unsupportedSetting setting details =>
    [("setting", some (.text setting)), ("details", details.map .text)]
  | .unsupportedTool tool details => [("tool", some (.text tool)), ("details", details.map .text)]
  | .other message => [("message", some (.text message))]

def encode (w : Warning) : Json :=
  Json.record (("type", some (.text w.kind.name)) :: w.members)

def ofContent? (kind : WarningKind) (content : Draft) : Option Warning :=
  match kind with
  | .unsupportedSetting => do
    let r ← content.record? ["setting", "details"]
    let setting ← r.required "setting" Draft.text?
    let details ← r.optional "details" Draft.text?
    return .unsupportedSetting setting details
  | .unsupportedTool => do
    let r ← content.record? ["tool", "details"]
    let tool ← r.required "tool" Draft.text?
    let details ← r.optional "details" Draft.text?
    return .unsupportedTool tool details
  | .other => do
    let r ← content.record? ["message"]
    let message ← r.required "message" Draft.text?
    return .other message

def decode? (d : Draft) : Option Warning := do
  let (kind, content) ← d.tagged? .outside "type" WarningKind.all WarningKind.name
  ofContent? kind content

end Warning

structure RawCall where
  prompt : Option Json := none
  settings : Dictionary Json := .empty

namespace RawCall

def isEmpty (c : RawCall) : Bool :=
  c.prompt.isNone && c.settings.isEmpty

def encode (c : RawCall) : Json :=
  Json.record [("raw_prompt", c.prompt),
    ("raw_settings", if c.settings.isEmpty then none else some (Json.ofDictionary id c.settings))]

def decode? (d : Draft) : Option RawCall := do
  let r ← d.record? ["raw_prompt", "raw_settings"]
  let prompt ← r.optional "raw_prompt" Draft.json?
  let settings ← r.defaulted "raw_settings" .empty (Draft.dictionary? Draft.json?)
  return { prompt, settings }

end RawCall

structure RawResponse where
  headers : Dictionary String := .empty

namespace RawResponse

def encode (raw : RawResponse) : Json :=
  Json.record [("headers",
    if raw.headers.isEmpty then none else some (Json.ofDictionary .text raw.headers))]

def decode? (d : Draft) : Option RawResponse := do
  let r ← d.record? ["headers"]
  let headers ← r.defaulted "headers" .empty (Draft.dictionary? Draft.text?)
  return { headers }

end RawResponse

structure RequestInfo where
  body : String := ""

namespace RequestInfo

def encode (info : RequestInfo) : Json :=
  Json.record [("body", some (.text info.body))]

def decode? (d : Draft) : Option RequestInfo := do
  let r ← d.record? ["body"]
  let body ← r.defaulted "body" "" Draft.text?
  return { body }

end RequestInfo

def Json.timestamp (t : Timestamp) : Json :=
  .text t.render

def Draft.timestamp? (d : Draft) : Option Timestamp :=
  d.text?.bind Timestamp.parse?

structure ResponseInfo where
  id : String := ""
  timestamp : Option Timestamp := none
  modelId : String := ""

namespace ResponseInfo

def encode (info : ResponseInfo) : Json :=
  Json.record [("id", some (.text info.id)), ("timestamp", info.timestamp.map Json.timestamp),
    ("model_id", some (.text info.modelId))]

def decode? (d : Draft) : Option ResponseInfo := do
  let r ← d.record? ["id", "timestamp", "model_id"]
  let id ← r.defaulted "id" "" Draft.text?
  let timestamp ← r.optional "timestamp" Draft.timestamp?
  let modelId ← r.defaulted "model_id" "" Draft.text?
  return { id, timestamp, modelId }

end ResponseInfo

end Colloquy
