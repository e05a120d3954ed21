import Colloquy.Text.Utf8

/-! What keeps bytes from being a text, told by the bytes of characters alone: the bytes are
a text up to some place, and there nothing that has begun is completed. -/
namespace Colloquy.Text.Utf8

/-- Some character has these bytes and then this one. -/
def GoesOn (part : Bytes) (byte : UInt8) : Prop :=
  ∃ c rest, String.utf8EncodeChar c = part ++ byte :: rest

inductive FaultOf : Bytes → Fault → Prop where
  /-- A part that could have become a character, and a byte with which it cannot. A byte
  that begins no character is a part of its own. -/
  | invalid (text : String) (part : Bytes) (expected next : UInt8) (rest : Bytes)
      (begun : GoesOn part expected) (stops : ¬ GoesOn part next) :
      FaultOf (encode text ++ part ++ next :: rest) (.invalid (max 1 part.length) (encode text).length)
  | incomplete (text : String) (part : Bytes) (expected : UInt8) (present : part ≠ [])
      (begun : GoesOn part expected) : FaultOf (encode text ++ part) (.incomplete (encode text).length)

end Colloquy.Text.Utf8
