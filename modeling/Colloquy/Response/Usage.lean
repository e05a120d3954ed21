import Colloquy.Json.Record

/-! Why a model stopped, what it consumed, and how likely its tokens were. -/
namespace Colloquy

inductive FinishReason where
  | stop
  | length
  | contentFilter
  | toolCalls
  /-- No reason was reported, or none that is known. -/
  | unknown
  deriving DecidableEq, Repr

namespace FinishReason

def all : List FinishReason :=
  [.stop, .length, .contentFilter, .toolCalls, .unknown]

def name : FinishReason → String
  | .stop => "stop"
  | .length => "length"
  | .contentFilter => "content-filter"
  | .toolCalls => "tool-calls"
  | .unknown => "unknown"

def encode (reason : FinishReason) : Json :=
  .text reason.name

def decode? (place : Draft.Place) (d : Draft) : Option FinishReason :=
  d.choice? place all name

end FinishReason

def Json.word64 (value : UInt64) : Json :=
  .natural value.toNat

/-- Token counts of one call. The reasoning tokens are part of the output, the
cached tokens part of the input. -/
structure Usage where
  inputTokens : UInt64 := 0
  outputTokens : UInt64 := 0
  reasoningTokens : UInt64 := 0
  cachedTokens : UInt64 := 0
  deriving DecidableEq, Repr

namespace Usage

def isZero (u : Usage) : Bool :=
  u == {}

/-- Input and output tokens together. The addition is checked: where a word cannot hold
them there is no total, and whoever asks for it is stopped. -/
def totalTokens? (u : Usage) : Option UInt64 :=
  if u.inputTokens.toNat + u.outputTokens.toNat < UInt64.size then some (u.inputTokens + u.outputTokens)
  else none

def encode (u : Usage) : Json :=
  Json.record [("input_tokens", some (Json.word64 u.inputTokens)),
    ("output_tokens", some (Json.word64 u.outputTokens)),
    ("reasoning_tokens", some (Json.word64 u.reasoningTokens)),
    ("cached_tokens", some (Json.word64 u.cachedTokens))]

def decode? (d : Draft) : Option Usage := do
  let r ← d.record? ["input_tokens", "output_tokens", "reasoning_tokens", "cached_tokens"]
  let inputTokens ← r.defaulted "input_tokens" 0 Draft.word64?
  let outputTokens ← r.defaulted "output_tokens" 0 Draft.word64?
  let reasoningTokens ← r.defaulted "reasoning_tokens" 0 Draft.word64?
  let cachedTokens ← r.defaulted "cached_tokens" 0 Draft.word64?
  return { inputTokens, outputTokens, reasoningTokens, cachedTokens }

end Usage

structure TokenLogProb where
  token : String
  logProb : Float

structure LogProb where
  token : String
  logProb : Float
  top : List TokenLogProb := []

namespace TokenLogProb

def encode (p : TokenLogProb) : Json :=
  Json.record [("token", some (.text p.token)), ("logprob", some (Json.real p.logProb))]

def decode? (d : Draft) : Option TokenLogProb := do
  let r ← d.record? ["token", "logprob"]
  let token ← r.required "token" Draft.text?
  let logProb ← r.required "logprob" Draft.real?
  return { token, logProb }

end TokenLogProb

namespace LogProb

def encode (p : LogProb) : Json :=
  Json.record [("token", some (.text p.token)), ("logprob", some (Json.real p.logProb)),
    ("top_log_probs", some (Json.ofList TokenLogProb.encode p.top))]

def decode? (d : Draft) : Option LogProb := do
  let r ← d.record? ["token", "logprob", "top_log_probs"]
  let token ← r.required "token" Draft.text?
  let logProb ← r.required "logprob" Draft.real?
  let top ← r.defaulted "top_log_probs" [] (Draft.list? TokenLogProb.decode?)
  return { token, logProb, top }

end LogProb

end Colloquy
