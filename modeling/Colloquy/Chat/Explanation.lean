import Colloquy.Json.Record
import Colloquy.Json.Writer

/-! How the chat service explains a failure. -/
namespace Colloquy.Chat

structure Explanation where
  message : String := ""
  errorType : Option String := none
  param : Option Json := none
  /-- A text from some services, a number from others. -/
  code : Option Json := none

namespace Explanation

def encode (e : Explanation) : Json :=
  Json.record [("message", some (.text e.message)), ("type", some (Json.orNull .text e.errorType)),
    ("param", some (Json.orNull id e.param)), ("code", some (Json.orNull id e.code))]

def decode? (d : Draft) : Option Explanation := do
  let r ← d.record? ["message", "type", "param", "code"]
  let message ← r.defaulted "message" "" Draft.text?
  let errorType ← r.optional "type" Draft.text?
  let param ← r.optional "param" Draft.json?
  let code ← r.optional "code" Draft.json?
  return { message, errorType, param, code }

def codeText (e : Explanation) : Option String :=
  e.code.bind fun
    | .null => none
    | .text code => some code
    | other => some other.render

end Explanation

/-- The body of a failure, which has an explanation as its only member. -/
structure ErrorBody where
  error : Explanation

namespace ErrorBody

def encode (body : ErrorBody) : Json :=
  Json.record [("error", some body.error.encode)]

def decode? (d : Draft) : Option ErrorBody := do
  let r ← d.record? ["error"]
  let error ← r.required "error" Explanation.decode?
  return { error }

end ErrorBody

end Colloquy.Chat
