/-! UTF-8. Bytes are cut into characters and ill-formed parts, where a part is as
long as some well-formed sequence could still begin with it. Every reading of
bytes (strict, lossy, or with marks for what cannot be read) is a view of those
pieces. -/
namespace Colloquy.Text

abbrev Bytes := List UInt8

namespace Utf8

inductive Piece where
  | char (c : Char)
  | broken (length : Nat)
  | unfinished (length : Nat)
  deriving DecidableEq, Repr

/-- A sequence that has begun: how many bytes it still owes, what the next of
them may be, the scalar value so far, and the number of bytes seen. -/
structure Pending where
  owed : Nat
  least : UInt8 := 0x80
  greatest : UInt8 := 0xBF
  value : Nat
  seen : Nat := 1
  deriving DecidableEq, Repr

inductive Lead where
  | whole (c : Char)
  | opens (pending : Pending)
  | refused

/-- What a byte means at the start of a character. The bounds on the second byte
keep out overlong forms, surrogates and values above U+10FFFF. -/
def lead (byte : UInt8) : Lead :=
  if byte < 0x80 then .whole (Char.ofNat byte.toNat)
  else if byte < 0xC2 then .refused
  else if byte < 0xE0 then .opens { owed := 1, value := byte.toNat - 0xC0 }
  else if byte < 0xF0 then
    .opens { owed := 2, value := byte.toNat - 0xE0
             least := if byte == 0xE0 then 0xA0 else 0x80
             greatest := if byte == 0xED then 0x9F else 0xBF }
  else if byte < 0xF5 then
    .opens { owed := 3, value := byte.toNat - 0xF0
             least := if byte == 0xF0 then 0x90 else 0x80
             greatest := if byte == 0xF4 then 0x8F else 0xBF }
  else .refused

def Pending.admits (pending : Pending) (byte : UInt8) : Bool :=
  pending.least ≤ byte && byte ≤ pending.greatest

def Pending.advance (pending : Pending) (byte : UInt8) : Pending :=
  { owed := pending.owed - 1
    value := pending.value * 64 + (byte.toNat - 0x80)
    seen := pending.seen + 1 }

/-- The pieces of a byte sequence, from between characters (`none`) or inside one. -/
def pieces : Option Pending → Bytes → List Piece
  | none, [] => []
  | some pending, [] => [.unfinished pending.seen]
  | none, byte :: rest =>
    match lead byte with
    | .whole c => .char c :: pieces none rest
    | .opens pending => pieces (some pending) rest
    | .refused => .broken 1 :: pieces none rest
  | some pending, byte :: rest =>
    if pending.admits byte then
      if pending.owed ≤ 1 then
        .char (Char.ofNat (pending.advance byte).value) :: pieces none rest
      else pieces (some (pending.advance byte)) rest
    else
      .broken pending.seen ::
        match lead byte with
        | .whole c => .char c :: pieces none rest
        | .opens next => pieces (some next) rest
        | .refused => .broken 1 :: pieces none rest

/-- Why bytes are no text, and how many bytes before it are. -/
inductive Fault where
  | invalid (length index : Nat)
  | incomplete (index : Nat)
  deriving DecidableEq, Repr

def Fault.message : Fault → String
  | .invalid length index => s!"invalid utf-8 sequence of {length} bytes from index {index}"
  | .incomplete index => s!"incomplete utf-8 byte sequence from index {index}"

def assemble (index : Nat) (chars : List Char) : List Piece → Except Fault (List Char)
  | [] => .ok chars.reverse
  | .char c :: rest => assemble (index + c.utf8Size) (c :: chars) rest
  | .broken length :: _ => .error (.invalid length index)
  | .unfinished _ :: _ => .error (.incomplete index)

/-- Strict reading: the first ill-formed part is the fault. -/
def decode (bytes : Bytes) : Except Fault String :=
  (assemble 0 [] (pieces none bytes)).map String.ofList

def symbols (bytes : Bytes) : List (Option Char) :=
  (pieces none bytes).map fun
    | .char c => some c
    | _ => none

/-- Lossy reading: each ill-formed part becomes one replacement character. -/
def decodeLossy (bytes : Bytes) : String :=
  String.ofList ((symbols bytes).map (·.getD '\uFFFD'))

def encode (text : String) : Bytes :=
  text.toUTF8.toList

end Utf8

end Colloquy.Text
