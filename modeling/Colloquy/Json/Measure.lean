import Colloquy.Json.Draft

/-! What can be said of a document without decoding it: how deep its containers
nest, and whether all its numbers are integers of a machine word. -/
namespace Colloquy

/-- Numbers that are written as an integer and fit a signed or unsigned 64-bit
word. Minus zero is written as one too, and held as a double. -/
def Number.IsInteger : Number → Prop
  | .whole value => Int64.minValue.toInt ≤ value ∧ value < UInt64.size
  | .real value _ => value = -0.0

namespace Draft

mutual

def depth : Draft → Nat
  | .array items => depthOfItems items + 1
  | .object members => depthOfMembers members + 1
  | _ => 0

def depthOfItems : List Draft → Nat
  | [] => 0
  | item :: rest => max (depth item) (depthOfItems rest)

def depthOfMembers : List (String × Draft) → Nat
  | [] => 0
  | (_, value) :: rest => max (depth value) (depthOfMembers rest)

end

mutual

def HasIntegers : Draft → Prop
  | .number value => value.IsInteger
  | .array items => ItemsHaveIntegers items
  | .object members => MembersHaveIntegers members
  | _ => True

def ItemsHaveIntegers : List Draft → Prop
  | [] => True
  | item :: rest => HasIntegers item ∧ ItemsHaveIntegers rest

def MembersHaveIntegers : List (String × Draft) → Prop
  | [] => True
  | (_, value) :: rest => HasIntegers value ∧ MembersHaveIntegers rest

end

end Draft

end Colloquy
