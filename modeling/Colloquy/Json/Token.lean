import Colloquy.Json.Numeral
import Colloquy.Text.Utf8

/-! JSON tokens. Characters are read one at a time; a character that could not
be decoded may stand in a quoted text only. A token may be well-formed and yet
have no value: a text with an unpaired surrogate or an undecodable part, or a
number beyond the doubles. -/
namespace Colloquy.Json

inductive Token where
  | openArray
  | closeArray
  | openObject
  | closeObject
  | comma
  | colon
  | null
  | bool (value : Bool)
  | text (value : Option String)
  | number (value : Option Number)

/-- A part of a quoted text: a character, a UTF-16 unit written as an escape, or
a part that is no character. -/
inductive Part where
  | char (c : Char)
  | unit (value : Nat)
  | undecodable
  deriving DecidableEq, Repr

namespace Part

def isHigh (unit : Nat) : Bool :=
  0xD800 ≤ unit && unit < 0xDC00

def isLow (unit : Nat) : Bool :=
  0xDC00 ≤ unit && unit < 0xE000

/-- The characters of parts put before given ones; a high surrogate needs a low
one right after it. The parts are given from the last to the first. -/
def join? (after : List Char) : List Part → Option (List Char)
  | [] => some after
  | .char c :: before => join? (c :: after) before
  | .unit low :: .unit high :: before =>
    if isLow low then
      if isHigh high then
        join? (Char.ofNat (0x10000 + (high - 0xD800) * 0x400 + (low - 0xDC00)) :: after) before
      else none
    else if isHigh low then none
    else join? (Char.ofNat low :: after) (.unit high :: before)
  | .unit value :: before =>
    if isLow value || isHigh value then none else join? (Char.ofNat value :: after) before
  | .undecodable :: _ => none

def text? (parts : List Part) : Option String :=
  (join? [] parts).map String.ofList

end Part

/-- Where the lexer stands. Characters and parts gathered so far are kept from
the last to the first. -/
inductive Lexer where
  | between
  | word (letters : List Char)
  | numeral (chars : List Char)
  | quoted (parts : List Part)
  | escape (parts : List Part)
  | unit (parts : List Part) (value owed : Nat)

namespace Lexer

def isSpace (c : Char) : Bool :=
  c == ' ' || c == '\t' || c == '\n' || c == '\r'

def isNumeralChar (c : Char) : Bool :=
  c.isDigit || c == '-' || c == '+' || c == '.' || c == 'e' || c == 'E'

def keyword? (letters : List Char) : Option Token :=
  if letters = "null".toList then some .null
  else if letters = "true".toList then some (.bool true)
  else if letters = "false".toList then some (.bool false)
  else none

def hexValue? (c : Char) : Option Nat :=
  if c.isDigit then some (c.toNat - 48)
  else if 'a' ≤ c ∧ c ≤ 'f' then some (c.toNat - 87)
  else if 'A' ≤ c ∧ c ≤ 'F' then some (c.toNat - 55)
  else none

def unescape? : Char → Option Char
  | '"' => some '"'
  | '\\' => some '\\'
  | '/' => some '/'
  | 'b' => some '\x08'
  | 'f' => some '\x0c'
  | 'n' => some '\n'
  | 'r' => some '\r'
  | 't' => some '\t'
  | _ => none

def start? (c : Char) : Option (Lexer × List Token) :=
  if isSpace c then some (.between, [])
  else if c = '[' then some (.between, [.openArray])
  else if c = ']' then some (.between, [.closeArray])
  else if c = '{' then some (.between, [.openObject])
  else if c = '}' then some (.between, [.closeObject])
  else if c = ',' then some (.between, [.comma])
  else if c = ':' then some (.between, [.colon])
  else if c = '"' then some (.quoted [], [])
  else if c = '-' ∨ c.isDigit then some (.numeral [c], [])
  else if c.isLower then some (.word [c], [])
  else none

def finish? : Lexer → Option (List Token)
  | .between => some []
  | .word letters => (keyword? letters.reverse).map ([·])
  | .numeral chars => (Numeral.ofChars? chars.reverse).map fun numeral => [.number numeral.value?]
  | _ => none

def startAfter? (lexer : Lexer) (c : Char) : Option (Lexer × List Token) := do
  let ended ← lexer.finish?
  let (next, started) ← start? c
  return (next, ended ++ started)

def step? : Lexer → Option Char → Option (Lexer × List Token)
  | .quoted parts, none => some (.quoted (.undecodable :: parts), [])
  | _, none => none
  | .between, some c => start? c
  | .word letters, some c =>
    if c.isLower then some (.word (c :: letters), []) else startAfter? (.word letters) c
  | .numeral chars, some c =>
    if isNumeralChar c then some (.numeral (c :: chars), []) else startAfter? (.numeral chars) c
  | .quoted parts, some c =>
    if c = '"' then some (.between, [.text (Part.text? parts)])
    else if c = '\\' then some (.escape parts, [])
    else if c.val < 0x20 then none
    else some (.quoted (.char c :: parts), [])
  | .escape parts, some c =>
    if c = 'u' then some (.unit parts 0 4, [])
    else (unescape? c).map fun meant => (.quoted (.char meant :: parts), [])
  | .unit parts value owed, some c => do
    let digit ← hexValue? c
    let value := value * 16 + digit
    return if owed ≤ 1 then (.quoted (.unit value :: parts), []) else (.unit parts value (owed - 1), [])

end Lexer

/-- The tokens after those already found, which are given from the last to the
first. -/
def tokensFrom? (lexer : Lexer) (found : List Token) : List (Option Char) → Option (List Token)
  | [] => lexer.finish?.map fun ended => (ended.reverse ++ found).reverse
  | c :: rest =>
    match lexer.step? c with
    | none => none
    | some (next, completed) => tokensFrom? next (completed.reverse ++ found) rest

def tokens? (chars : List (Option Char)) : Option (List Token) :=
  tokensFrom? .between [] chars

end Colloquy.Json
