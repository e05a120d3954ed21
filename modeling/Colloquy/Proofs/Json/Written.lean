import Colloquy.Proofs.Json.Survival
import Colloquy.Proofs.Json.Text

/-! Records as they are written. A decoder finds in them what was put under each name, and
the text of a record is read as the record. -/
namespace Colloquy

theorem Json.exists_record (members : List (String × Option Json)) (names : List String)
    (distinct : (members.map Prod.fst).Nodup) :
    ∃ r : Record, (Json.record members).document.record? names = some r ∧ r.Holds names members :=
  (shows_heldMembers distinct).record? names

namespace Record.Holds

variable {α : Type} {decode? : Draft → Option α} {r : Record} {names : List String}
  {members : List (String × Option Json)} {name : String}

theorem read_written (holds : r.Holds names members) {written : Json} {value default : α}
    (read : decode? written.document = some value) (known : name ∈ names)
    (given : Json.given? name members = some written) : r.defaulted name default decode? = some value := by
  rw [Record.defaulted, holds name known, given]
  exact read

theorem read_nullable (holds : r.Holds names members) {encode : α → Json} {value : Option α}
    (read : ∀ value, decode? (encode value).document = some value) (filled : ∀ value, encode value ≠ .null)
    (known : name ∈ names) (given : Json.given? name members = some (Json.orNull encode value)) :
    r.optional name decode? = some value := by
  apply holds.read_written _ known given
  cases value with
  | none => rfl
  | some value =>
    have notNull := Json.document_ne_null (filled value)
    exact (Draft.orNull?_of_ne_null decode? notNull).trans (congrArg (Option.map some) (read value))

theorem read_absent (holds : r.Holds names members) (name : String) (default : α) (known : name ∈ names)
    (absent : Json.given? name members = none) : r.defaulted name default decode? = some default := by
  rw [Record.defaulted, holds name known, absent]
  rfl

end Record.Holds

/-- A document with integers alone for its numbers, and with no more levels than these. -/
structure Draft.Printable (levels : Nat) (d : Draft) : Prop where
  shallow : d.depth ≤ levels
  integers : d.HasIntegers

namespace Draft.Printable

theorem word64 (levels : Nat) (value : UInt64) : Printable levels (Json.word64 value).document where
  shallow := Nat.zero_le levels
  integers := by
    have small := value.toNat_lt_size
    exact ⟨Int.le_trans (by decide) (Int.natCast_nonneg value.toNat), Int.ofNat_lt.mpr small⟩

theorem orNull {α : Type} {levels : Nat} {encode : α → Json}
    (each : ∀ value, Printable levels (encode value).document) (value : Option α) :
    Printable levels (Json.orNull encode value).document := by
  cases value with
  | none => exact ⟨Nat.zero_le levels, trivial⟩
  | some value => exact each value

theorem record {levels : Nat} {members : List (String × Option Json)}
    (each : ∀ name value, (name, some value) ∈ members → Printable levels value.document) :
    Printable (levels + 1) (Json.record members).document := by
  have parts : ∀ part ∈ (Json.record members).document.parts, Printable levels part := by
    intro part inside
    obtain ⟨member, held, rfl⟩ := List.mem_map.mp inside
    obtain ⟨value, listed, same⟩ := Json.exists_of_mem_heldMembers held
    rw [same]
    exact each member.1 value listed
  constructor
  · exact (depth_le_succ_iff _ levels).mpr fun part inside => (parts part inside).shallow
  · exact (hasIntegers_iff (depth_object_pos _)).mpr fun part inside => (parts part inside).integers

theorem parse?_render {levels : Nat} {value : Json} (printable : Printable levels value.document)
    (room : levels ≤ depthLimit) : parse? value.sorted.render = some value.document :=
  Draft.parse?_render printable.integers (Nat.le_trans printable.shallow room)

end Draft.Printable

end Colloquy
