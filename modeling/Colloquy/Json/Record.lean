import Colloquy.Json.Draft

/-! Decoding documents. A record is an object, whose unknown members are passed
over, or an array of its members' values in their declared order. A tagged
value names its variant in one more member. An entry point exists for each way a
member may be missing. -/
namespace Colloquy

namespace Draft

def text? : Draft → Option String
  | .text value => some value
  | _ => none

def bool? : Draft → Option Bool
  | .bool value => some value
  | _ => none

def integer? : Draft → Option Int
  | .number (.whole value) => some value
  | _ => none

def natural? (bound : Nat) (d : Draft) : Option Nat := do
  let value ← d.integer?
  if 0 ≤ value ∧ value < bound then some value.toNat else none

def word16? (d : Draft) : Option UInt16 :=
  (d.natural? UInt16.size).map UInt16.ofNat

def word32? (d : Draft) : Option UInt32 :=
  (d.natural? UInt32.size).map UInt32.ofNat

def word64? (d : Draft) : Option UInt64 :=
  (d.natural? UInt64.size).map UInt64.ofNat

def signed64? (d : Draft) : Option Int := do
  let value ← d.integer?
  if Int64.minValue.toInt ≤ value ∧ value ≤ Int64.maxValue.toInt then some value else none

def real? : Draft → Option Float
  | .number (.whole (.ofNat value)) => some (UInt64.ofNat value).toFloat
  | .number (.whole (.negSucc value)) => some (-(UInt64.ofNat (value + 1)).toFloat)
  | .number (.real value _) => some value
  | _ => none

/-- A single-precision number, rounded once from what was read. -/
def single? : Draft → Option Float32
  | .number (.whole (.ofNat value)) => some (UInt64.ofNat value).toFloat32
  | .number (.whole (.negSucc value)) => some (-(UInt64.ofNat (value + 1)).toFloat32)
  | .number (.real value _) => some value.toFloat32
  | _ => none

def list? {α : Type} (decode? : Draft → Option α) : Draft → Option (List α)
  | .array items => items.mapM decode?
  | _ => none

def orNull? {α : Type} (decode? : Draft → Option α) : Draft → Option (Option α)
  | .null => some none
  | d => (decode? d).map some

def dictionary? {α : Type} (decode? : Draft → Option α) : Draft → Option (Dictionary α)
  | .object members =>
    (members.mapM fun member => (decode? member.2).map (member.1, ·)).map Dictionary.ofList
  | _ => none

mutual

def json? : Draft → Option Json
  | .null => some .null
  | .bool value => some (.bool value)
  | .number value => some (.number value)
  | .text value => some (.text value)
  | .array items => (jsonItems? items).map .array
  | .object members => (jsonMembers? members).map fun members => .object (Entries.insertAll [] members)
  | .unreadable => none

def jsonItems? : List Draft → Option (List Json)
  | [] => some []
  | item :: rest => do
    let item ← json? item
    let rest ← jsonItems? rest
    return item :: rest

def jsonMembers? : List (String × Draft) → Option (List (String × Json))
  | [] => some []
  | (name, value) :: rest => do
    let value ← json? value
    let rest ← jsonMembers? rest
    return (name, value) :: rest

end

mutual

def isReadable : Draft → Bool
  | .array items => areReadable items
  | .object members => membersReadable members
  | .unreadable => false
  | _ => true

def areReadable : List Draft → Bool
  | [] => true
  | item :: rest => isReadable item && areReadable rest

def membersReadable : List (String × Draft) → Bool
  | [] => true
  | (_, value) :: rest => isReadable value && membersReadable rest

end

mutual

def ofJson : Json → Draft
  | .null => .null
  | .bool value => .bool value
  | .number value => .number value
  | .text value => .text value
  | .array items => .array (ofItems items)
  | .object members => .object (ofMembers members)

def ofItems : List Json → List Draft
  | [] => []
  | item :: rest => ofJson item :: ofItems rest

def ofMembers : List (String × Json) → List (String × Draft)
  | [] => []
  | (name, value) :: rest => (name, ofJson value) :: ofMembers rest

end

end Draft

structure Record where
  members : List (String × Draft)

namespace Record

def find? (r : Record) (name : String) : Option Draft :=
  Entries.find? name r.members

def required {α : Type} (r : Record) (name : String) (decode? : Draft → Option α) : Option α :=
  (r.find? name).bind decode?

def defaulted {α : Type} (r : Record) (name : String) (default : α) (decode? : Draft → Option α) :
    Option α :=
  match r.find? name with
  | some d => decode? d
  | none => some default

def optional {α : Type} (r : Record) (name : String) (decode? : Draft → Option α) :
    Option (Option α) :=
  r.defaulted name none (Draft.orNull? decode?)

end Record

namespace Draft

/-- A record with the given member names. A known member stands at most once. -/
def record? (names : List String) : Draft → Option Record
  | .object members =>
    let known := members.filter fun member => names.contains member.1
    if (known.map (·.1)).Nodup then some ⟨known⟩ else none
  | .array items =>
    if items.length ≤ names.length then some ⟨names.zip items⟩ else none
  | _ => none

/-- How much freedom a choice has. Inside a tagged value the variant may also be
given by its position, and what stands beside a bare name may be an empty object. -/
inductive Place where
  | outside
  | insideTagged
  deriving DecidableEq, Repr

def variant? {α : Type} (place : Place) (all : List α) (name : α → String) : Draft → Option α
  | .text value => all.find? fun one => name one == value
  | .number (.whole (.ofNat position)) =>
    match place with
    | .outside => none
    | .insideTagged => all[position]?
  | _ => none

/-- The variant of a tagged value and the document of its content. The tag is one
member of an object, wherever it stands, or the first item of an array. -/
def tagged? {α : Type} (place : Place) (tag : String) (all : List α) (name : α → String) (d : Draft) :
    Option (α × Draft) :=
  if !d.isReadable then none
  else match d with
    | .object members =>
      match members.filter fun member => member.1 == tag with
      | [(_, chosen)] => do
        let variant ← variant? place all name chosen
        return (variant, .object (members.filter fun member => member.1 != tag))
      | _ => none
    | .array (chosen :: items) => do
      let variant ← variant? place all name chosen
      return (variant, .array items)
    | _ => none

/-- A variant without content: its name, or an object with that one member and
nothing in it. -/
def choice? {α : Type} (place : Place) (all : List α) (name : α → String) : Draft → Option α
  | .text value => all.find? fun one => name one == value
  | .object [(value, .null)] => all.find? fun one => name one == value
  | .object [(value, .object [])] =>
    match place with
    | .outside => none
    | .insideTagged => all.find? fun one => name one == value
  | _ => none

end Draft

end Colloquy
