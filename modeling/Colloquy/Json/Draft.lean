import Colloquy.Json.Token

/-! JSON documents as read, before anything is decoded from them. Members keep
their order and their repetitions. A part that is well-formed but has no value
is `unreadable`; it spoils only what is decoded from it, so an unreadable member
that nobody asks for does no harm. -/
namespace Colloquy

inductive Draft where
  | null
  | bool (value : Bool)
  | number (value : Number)
  | text (value : String)
  | array (items : List Draft)
  | object (members : List (String × Draft))
  | unreadable

namespace Draft

instance : Inhabited Draft := ⟨unreadable⟩

/-- Containers nested deeper than this are unreadable. -/
def depthLimit : Nat := 127

/-- A container that is still open, with what it holds so far from the last to
the first. A member whose value is awaited has its name in `named`. -/
inductive Level where
  | items (held : List Draft)
  | members (held : List (Option String × Draft))
  | named (held : List (Option String × Draft)) (name : Option String)

/-- What is expected next, inside the given open containers. -/
inductive Reading where
  | expectValue (inside : List Level)
  | opened (inside : List Level)
  | expectName (held : List (Option String × Draft)) (outer : List Level)
  | expectColon (held : List (Option String × Draft)) (name : Option String) (outer : List Level)
  | expectSeparator (inside : List Level)
  | complete (document : Draft)

namespace Reading

def deliver (document : Draft) : List Level → Option Reading
  | [] => some (.complete document)
  | .items held :: outer => some (.expectSeparator (.items (document :: held) :: outer))
  | .named held name :: outer => some (.expectSeparator (.members ((name, document) :: held) :: outer))
  | .members _ :: _ => none

def nameMembers? : List (Option String × Draft) → Option (List (String × Draft))
  | [] => some []
  | (name, value) :: rest => do
    let name ← name
    let rest ← nameMembers? rest
    return (name, value) :: rest

def closed (container : Draft) (outer : List Level) : Option Reading :=
  deliver (if (outer.drop (depthLimit - 1)).isEmpty then container else .unreadable) outer

def closeArray : List Level → Option Reading
  | .items held :: outer => closed (.array held.reverse) outer
  | _ => none

def closeObject : List Level → Option Reading
  | .members held :: outer =>
    closed (((nameMembers? held.reverse).map Draft.object).getD .unreadable) outer
  | _ => none

def value? (inside : List Level) : Json.Token → Option Reading
  | .null => deliver .null inside
  | .bool value => deliver (.bool value) inside
  | .number value => deliver ((value.map Draft.number).getD .unreadable) inside
  | .text value => deliver ((value.map Draft.text).getD .unreadable) inside
  | .openArray => some (.opened (.items [] :: inside))
  | .openObject => some (.opened (.members [] :: inside))
  | _ => none

def step? : Reading → Json.Token → Option Reading
  | .expectValue inside, token => value? inside token
  | .opened (.items held :: outer), .closeArray => closeArray (.items held :: outer)
  | .opened (.items held :: outer), token => value? (.items held :: outer) token
  | .opened (.members held :: outer), .closeObject => closeObject (.members held :: outer)
  | .opened (.members held :: outer), .text name => some (.expectColon held name outer)
  | .expectName held outer, .text name => some (.expectColon held name outer)
  | .expectColon held name outer, .colon => some (.expectValue (.named held name :: outer))
  | .expectSeparator (.items held :: outer), .comma => some (.expectValue (.items held :: outer))
  | .expectSeparator (.members held :: outer), .comma => some (.expectName held outer)
  | .expectSeparator inside, .closeArray => closeArray inside
  | .expectSeparator inside, .closeObject => closeObject inside
  | _, _ => none

def run? (reading : Reading) : List Json.Token → Option Reading
  | [] => some reading
  | token :: rest =>
    match reading.step? token with
    | none => none
    | some next => next.run? rest

def document? : Reading → Option Draft
  | .complete document => some document
  | _ => none

end Reading

def ofTokens? (tokens : List Json.Token) : Option Draft := do
  let reading ← (Reading.expectValue []).run? tokens
  reading.document?

def parse? (text : String) : Option Draft :=
  (Json.tokens? (text.toList.map some)).bind ofTokens?

/-- A document from bytes. Bytes that are no characters may stand in quoted texts,
which they make unreadable. -/
def parseBytes? (bytes : Text.Bytes) : Option Draft :=
  (Json.tokens? (Text.Utf8.symbols bytes)).bind ofTokens?

end Draft

/-- Whether a text is a JSON document. Only its grammar counts: it may nest to any
depth and hold any number and any escape. -/
def Json.isDocument (text : String) : Bool :=
  (Draft.parse? text).isSome

end Colloquy
