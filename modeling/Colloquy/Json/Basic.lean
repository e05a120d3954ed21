import Colloquy.Dictionary

/-! JSON values. A number is whole when it was written without point and
exponent and fits a signed or unsigned 64-bit word, and a finite double otherwise;
the two never compare equal. -/
namespace Colloquy

inductive Number where
  | whole (value : Int)
  | real (value : Float) (finite : value.isFinite)

def Number.ofFloat? (value : Float) : Option Number :=
  if finite : value.isFinite then some (.real value finite) else none

inductive Json where
  | null
  | bool (value : Bool)
  | number (value : Number)
  | text (value : String)
  | array (items : List Json)
  | object (members : List (String × Json))

namespace Json

instance : Inhabited Json := ⟨null⟩

def whole (value : Int) : Json :=
  .number (.whole value)

def natural (value : Nat) : Json :=
  .number (.whole value)

/-- A double as a value; one that is not finite has no number and becomes null. -/
def real (value : Float) : Json :=
  ((Number.ofFloat? value).map .number).getD .null

def record (members : List (String × Option Json)) : Json :=
  .object (members.filterMap fun member => member.2.map (member.1, ·))

def ofDictionary {α : Type} (encode : α → Json) (d : Dictionary α) : Json :=
  .object (d.entries.map fun entry => (entry.1, encode entry.2))

def ofList {α : Type} (encode : α → Json) (items : List α) : Json :=
  .array (items.map encode)

def ofNonempty {α : Type} (encode : α → Json) (items : List α) : Option Json :=
  if items.isEmpty then none else some (ofList encode items)

def orNull {α : Type} (encode : α → Json) (value : Option α) : Json :=
  (value.map encode).getD .null

mutual

/-- The same value with the members of every object in ascending order of their
names, the last of several with one name. -/
def sorted : Json → Json
  | .array items => .array (sortedItems items)
  | .object members => .object (Entries.insertAll [] (sortedMembers members))
  | other => other

def sortedItems : List Json → List Json
  | [] => []
  | item :: rest => sorted item :: sortedItems rest

def sortedMembers : List (String × Json) → List (String × Json)
  | [] => []
  | (name, value) :: rest => (name, sorted value) :: sortedMembers rest

end

end Json

end Colloquy
