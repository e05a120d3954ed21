import Colloquy.Chat.Refusal
import Colloquy.Json.Measure

/-! What a failure tells of a refusal: some of it whatever the body is, and the rest as
far as the body explains anything. -/
namespace Colloquy

/-- A text up to its last character that is no blank. -/
structure Text.TrimmedRight (text line : String) : Prop where
  blanks : ∃ rest : List Char, text.toList = line.toList ++ rest ∧ ∀ c ∈ rest, Text.isBlank c = true
  solid : ∀ c ∈ line.toList.getLast?, Text.isBlank c = false

namespace Chat.Refusal

/-- What only the status and the headers decide. -/
structure Classifies (r : Refusal) (f : ApiFailure) : Prop where
  status : f.status = r.status
  url : f.url = r.url
  retryable : f.retryable = true ↔ r.status = 429 ∨ 500 ≤ r.status
  retryAfter : f.retryAfter = retryAfter r.headers

/-- The code of a failure as a text, from any value that stands for one. -/
inductive Codes : Option Json → Option String → Prop where
  | absent : Codes none none
  | null : Codes (some .null) none
  | text (code : String) : Codes (some (.text code)) (some code)
  | other (value : Json) (present : value ≠ .null) (untold : ∀ code, value ≠ .text code) :
      Codes (some value) (some value.render)

/-- What the body decides. An explanation without a message leaves the status line. -/
structure Explains (r : Refusal) (f : ApiFailure) : Prop where
  message : f.message ≠ ""
  given : ∀ body, r.explanation? = some body → body.error.message ≠ "" → f.message = body.error.message
  line : (∀ body, r.explanation? = some body → body.error.message = "") →
    Text.TrimmedRight s!"{r.status.toNat} {r.statusText}" f.message
  nothing : r.explanation? = none → f.errorType = none ∧ f.code = none
  errorType : ∀ body, r.explanation? = some body → f.errorType = body.error.errorType
  code : ∀ body, r.explanation? = some body → Codes body.error.code f.code
  kept : ∀ body, r.explanation? = some body → f.data = some body.encode.sorted
  data : f.data.isSome = r.explanation?.isSome

end Chat.Refusal

end Colloquy
