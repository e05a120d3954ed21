import Colloquy.Json.Record

/-! Extensions of one service or another, by the service's name. The library
carries them along and never reads them. -/
namespace Colloquy

abbrev Metadata := Dictionary Json

namespace Metadata

def encode (metadata : Metadata) : Json :=
  Json.ofDictionary id metadata

def decode? (d : Draft) : Option Metadata :=
  d.dictionary? Draft.json?

def findAs? {α : Type} (metadata : Metadata) (service : String) (decode? : Draft → Option α) :
    Option α :=
  (metadata.find? service).bind fun value => decode? (Draft.ofJson value)

def mergeInto (metadata : Option Metadata) (added : Metadata) : Metadata :=
  (metadata.getD Dictionary.empty).merge added

end Metadata

end Colloquy
