import Colloquy.ApiFailure
import Colloquy.Chat.Explanation
import Colloquy.Text.Blank
import Colloquy.Text.Utf8

/-! A failure status of the chat service, and what follows from it. -/
namespace Colloquy

/-- Whether a status is worth another try: too many requests, or a fault of the
server. -/
def isRetryableStatus (status : UInt16) : Bool :=
  status == 429 || status ≥ 500

/-- A number of seconds in decimal digits, with at most one plus sign before and
blanks around. -/
def seconds? (value : String) : Option UInt64 :=
  let digits := match (Text.trim value).toList with
    | '+' :: rest => rest
    | chars => chars
  let number := digits.foldl (fun number c => number * 10 + (c.toNat - 48)) 0
  if digits.isEmpty || !digits.all Char.isDigit || number ≥ UInt64.size then none
  else some (UInt64.ofNat number)

/-- The advised wait, from the first header of that name in the order in which the
headers are listed. A date is not read. -/
def retryAfter (headers : List (String × String)) : Option UInt64 :=
  (headers.find? fun header => Text.equalIgnoringAsciiCase header.1 "retry-after").bind fun header =>
    seconds? header.2

namespace Chat

structure Refusal where
  url : String
  status : UInt16
  statusText : String
  headers : List (String × String)
  body : Text.Bytes

namespace Refusal

def statusLine (r : Refusal) : String :=
  Text.trimRight s!"{r.status.toNat} {r.statusText}"

def unexplained (r : Refusal) : ApiFailure :=
  { message := r.statusLine
    status := r.status
    url := r.url
    retryable := isRetryableStatus r.status
    retryAfter := retryAfter r.headers }

def explanation? (r : Refusal) : Option ErrorBody :=
  (Draft.parseBytes? r.body).bind ErrorBody.decode?

def failure (r : Refusal) : ApiFailure :=
  match r.explanation? with
  | none => r.unexplained
  | some body =>
    { r.unexplained with
      message := if body.error.message.isEmpty then r.statusLine else body.error.message
      errorType := body.error.errorType
      code := body.error.codeText
      data := some body.encode.sorted }

end Refusal

end Chat

end Colloquy
