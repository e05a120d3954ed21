import Colloquy.Decimal.Layout
import Colloquy.Json.Basic

/-! JSON text: no spaces, members in the order they are held, and only those
characters escaped that must be. -/
namespace Colloquy.Json

def hexDigit (value : Nat) : Char :=
  if value < 10 then Char.ofNat (value + 48) else Char.ofNat (value + 87)

def escape (c : Char) : List Char :=
  match c with
  | '"' => ['\\', '"']
  | '\\' => ['\\', '\\']
  | '\x08' => ['\\', 'b']
  | '\x0c' => ['\\', 'f']
  | '\n' => ['\\', 'n']
  | '\r' => ['\\', 'r']
  | '\t' => ['\\', 't']
  | c =>
    if c.val < 0x20 then
      ['\\', 'u', '0', '0', hexDigit (c.toNat / 16), hexDigit (c.toNat % 16)]
    else [c]

def quoted (value : String) : List Char :=
  '"' :: (value.toList.flatMap escape ++ ['"'])

def writeNumber : Number → List Char
  | .whole value => Decimal.signed value
  | .real value _ => Decimal.Layout.document.write value

mutual

def write : Json → List Char
  | .null => "null".toList
  | .bool true => "true".toList
  | .bool false => "false".toList
  | .number value => writeNumber value
  | .text value => quoted value
  | .array [] => ['[', ']']
  | .array (item :: rest) => '[' :: (write item ++ writeItems rest)
  | .object [] => ['{', '}']
  | .object ((name, value) :: rest) => '{' :: (quoted name ++ ':' :: (write value ++ writeMembers rest))

def writeItems : List Json → List Char
  | [] => [']']
  | item :: rest => ',' :: (write item ++ writeItems rest)

def writeMembers : List (String × Json) → List Char
  | [] => ['}']
  | (name, value) :: rest => ',' :: (quoted name ++ ':' :: (write value ++ writeMembers rest))

end

def render (value : Json) : String :=
  String.ofList value.write

end Colloquy.Json
