/-! Comparing and searching texts up to the case of ASCII letters. Letters
outside ASCII keep their case, so a Kelvin sign is not a `k`. -/
namespace Colloquy.Text

def asciiLower (text : String) : String :=
  String.ofList (text.toList.map Char.toLower)

def equalIgnoringAsciiCase (left right : String) : Bool :=
  asciiLower left == asciiLower right

def occursIn (pattern : List Char) : List Char → Bool
  | [] => pattern.isEmpty
  | c :: rest => pattern.isPrefixOf (c :: rest) || occursIn pattern rest

def holds (text pattern : String) : Bool :=
  occursIn pattern.toList text.toList

end Colloquy.Text
