import Colloquy.Json.Basic
import Colloquy.Text.Ascii

/-! A failure status of the service, as far as its answer explains it. -/
namespace Colloquy

structure ApiFailure where
  message : String
  status : UInt16
  url : String
  /-- Advice only; nothing here tries again by itself. -/
  retryable : Bool
  /-- Seconds to wait, where the service named a number. -/
  retryAfter : Option UInt64 := none
  errorType : Option String := none
  code : Option String := none
  /-- The explanation itself, when the answer was one. -/
  data : Option Json := none

namespace ApiFailure

def tokenLimitCodes : List String :=
  ["context_length_exceeded", "max_context_length_exceeded", "prompt_tokens_exceeded",
    "context_window_exceeded"]

def tokenLimitPhrases : List String :=
  ["context length", "context window", "token limit", "maximum context", "prompt is too long"]

/-- Whether the code, or else the message, says that the context is too long. -/
def isTokenLimit (f : ApiFailure) : Bool :=
  (f.code.any fun code => tokenLimitCodes.contains (Text.asciiLower code)) ||
    tokenLimitPhrases.any (Text.holds (Text.asciiLower f.message))

def text (f : ApiFailure) : String :=
  s!"API call to {f.url} failed with status {f.status.toNat}: {f.message}"

end ApiFailure

end Colloquy
