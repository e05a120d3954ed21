import Colloquy.Response.Usage

/-! Token counts, log probabilities and finish reasons as the chat service reports
them, and what they mean. -/
namespace Colloquy.Chat

def word64 (value : UInt64) : Option Json :=
  some (Json.word64 value)

structure InputDetails where
  cachedTokens : UInt64 := 0
  deriving DecidableEq, Repr

structure OutputDetails where
  reasoningTokens : UInt64 := 0
  deriving DecidableEq, Repr

structure TokenReport where
  inputTokens : UInt64 := 0
  outputTokens : UInt64 := 0
  totalTokens : UInt64 := 0
  inputDetails : Option InputDetails := none
  outputDetails : Option OutputDetails := none
  deriving DecidableEq, Repr

namespace InputDetails

def encode (details : InputDetails) : Json :=
  Json.record [("cached_tokens", word64 details.cachedTokens)]

def decode? (d : Draft) : Option InputDetails := do
  let r ← d.record? ["cached_tokens"]
  let cachedTokens ← r.defaulted "cached_tokens" 0 Draft.word64?
  return { cachedTokens }

end InputDetails

namespace OutputDetails

def encode (details : OutputDetails) : Json :=
  Json.record [("reasoning_tokens", word64 details.reasoningTokens)]

def decode? (d : Draft) : Option OutputDetails := do
  let r ← d.record? ["reasoning_tokens"]
  let reasoningTokens ← r.defaulted "reasoning_tokens" 0 Draft.word64?
  return { reasoningTokens }

end OutputDetails

namespace TokenReport

def encode (report : TokenReport) : Json :=
  Json.record [("prompt_tokens", word64 report.inputTokens),
    ("completion_tokens", word64 report.outputTokens), ("total_tokens", word64 report.totalTokens),
    ("prompt_tokens_details", some (Json.orNull InputDetails.encode report.inputDetails)),
    ("completion_tokens_details", some (Json.orNull OutputDetails.encode report.outputDetails))]

def decode? (d : Draft) : Option TokenReport := do
  let r ← d.record? ["prompt_tokens", "completion_tokens", "total_tokens", "prompt_tokens_details",
    "completion_tokens_details"]
  let inputTokens ← r.defaulted "prompt_tokens" 0 Draft.word64?
  let outputTokens ← r.defaulted "completion_tokens" 0 Draft.word64?
  let totalTokens ← r.defaulted "total_tokens" 0 Draft.word64?
  let inputDetails ← r.optional "prompt_tokens_details" InputDetails.decode?
  let outputDetails ← r.optional "completion_tokens_details" OutputDetails.decode?
  return { inputTokens, outputTokens, totalTokens, inputDetails, outputDetails }

/-- The counts themselves; the reported total is not used. -/
def usage (report : TokenReport) : Usage :=
  { inputTokens := report.inputTokens
    outputTokens := report.outputTokens
    reasoningTokens := (report.outputDetails.map (·.reasoningTokens)).getD 0
    cachedTokens := (report.inputDetails.map (·.cachedTokens)).getD 0 }

end TokenReport

/-- Reasons that are missing or not known become one. -/
def finishReason (reported : Option String) : FinishReason :=
  match reported with
  | some "stop" => .stop
  | some "length" => .length
  | some "content_filter" => .contentFilter
  | some "function_call" => .toolCalls
  | some "tool_calls" => .toolCalls
  | _ => .unknown

structure Alternative where
  token : String
  logProb : Float := 0

structure TokenScore where
  token : String
  logProb : Float := 0
  alternatives : Option (List Alternative) := none

structure Scores where
  content : Option (List TokenScore) := none

namespace Alternative

def encode (a : Alternative) : Json :=
  Json.record [("token", some (.text a.token)), ("logprob", some (Json.real a.logProb))]

def decode? (d : Draft) : Option Alternative := do
  let r ← d.record? ["token", "logprob"]
  let token ← r.required "token" Draft.text?
  let logProb ← r.defaulted "logprob" 0 Draft.real?
  return { token, logProb }

def logProbOf (a : Alternative) : TokenLogProb :=
  ⟨a.token, a.logProb⟩

end Alternative

namespace TokenScore

def encode (score : TokenScore) : Json :=
  Json.record [("token", some (.text score.token)), ("logprob", some (Json.real score.logProb)),
    ("top_logprobs", some (Json.orNull (Json.ofList Alternative.encode) score.alternatives))]

def decode? (d : Draft) : Option TokenScore := do
  let r ← d.record? ["token", "logprob", "top_logprobs"]
  let token ← r.required "token" Draft.text?
  let logProb ← r.defaulted "logprob" 0 Draft.real?
  let alternatives ← r.optional "top_logprobs" (Draft.list? Alternative.decode?)
  return { token, logProb, alternatives }

def logProbOf (score : TokenScore) : LogProb :=
  { token := score.token
    logProb := score.logProb
    top := (score.alternatives.getD []).map Alternative.logProbOf }

end TokenScore

namespace Scores

def encode (scores : Scores) : Json :=
  Json.record [("content", some (Json.orNull (Json.ofList TokenScore.encode) scores.content))]

def decode? (d : Draft) : Option Scores := do
  let r ← d.record? ["content"]
  let content ← r.optional "content" (Draft.list? TokenScore.decode?)
  return { content }

end Scores

def logProbs (scores : Option Scores) : List LogProb :=
  ((scores.bind (·.content)).getD []).map TokenScore.logProbOf

end Colloquy.Chat
