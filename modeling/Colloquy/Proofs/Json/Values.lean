import Colloquy.Json.Record
import Colloquy.Proofs.Dictionary

/-! Opaque JSON values. What is read of them has the members of every object in ascending
order, and is read from itself again. -/
namespace Colloquy

namespace Json

theorem sortedItems_eq_map (items : List Json) : sortedItems items = items.map sorted := by
  induction items with
  | nil => rfl
  | cons item rest ih => rw [sortedItems, ih, List.map_cons]

theorem sortedMembers_eq_map (members : List (String × Json)) :
    sortedMembers members = members.map fun member => (member.1, sorted member.2) := by
  induction members with
  | nil => rfl
  | cons member rest ih =>
    obtain ⟨name, value⟩ := member
    rw [sortedMembers, ih, List.map_cons]

end Json

namespace Draft

theorem ofItems_eq_map (items : List Json) : ofItems items = items.map ofJson := by
  induction items with
  | nil => rfl
  | cons item rest ih => rw [ofItems, ih, List.map_cons]

theorem ofMembers_eq_map (members : List (String × Json)) :
    ofMembers members = members.map fun member => (member.1, ofJson member.2) := by
  induction members with
  | nil => rfl
  | cons member rest ih =>
    obtain ⟨name, value⟩ := member
    rw [ofMembers, ih, List.map_cons]

theorem membersReadable_eq_all (members : List (String × Draft)) :
    membersReadable members = members.all fun member => isReadable member.2 := by
  induction members with
  | nil => rfl
  | cons member rest ih =>
    obtain ⟨name, value⟩ := member
    rw [membersReadable, ih, List.all_cons]

mutual

theorem isReadable_ofJson (value : Json) : (ofJson value).isReadable = true := by
  cases value with
  | array items => exact areReadable_ofItems items
  | object members => exact membersReadable_ofMembers members
  | _ => rfl

theorem areReadable_ofItems (items : List Json) : areReadable (ofItems items) = true := by
  cases items with
  | nil => rfl
  | cons item rest => simp [ofItems, areReadable, isReadable_ofJson item, areReadable_ofItems rest]

theorem membersReadable_ofMembers (members : List (String × Json)) :
    membersReadable (ofMembers members) = true := by
  match members with
  | [] => rfl
  | (name, value) :: rest =>
    simp [ofMembers, membersReadable, isReadable_ofJson value, membersReadable_ofMembers rest]

end

end Draft

namespace Json

/-- A value that is in order already, and is read from itself. -/
structure Settled (value : Json) : Prop where
  ordered : value.sorted = value
  again : Draft.json? (.ofJson value) = some value

namespace Settled

theorem array {items : List Json} (settled : ∀ item ∈ items, Settled item) : Settled (.array items) where
  ordered := by
    have each : ∀ item ∈ items, sorted item = id item := fun item member => (settled item member).ordered
    rw [sorted, sortedItems_eq_map, List.map_congr_left each, List.map_id]
  again := by
    have read : Draft.jsonItems? (Draft.ofItems items) = some items := by
      induction items with
      | nil => rfl
      | cons item rest ih =>
        have first := (settled item List.mem_cons_self).again
        have later := ih fun item member => settled item (List.mem_cons_of_mem _ member)
        simp [Draft.ofItems, Draft.jsonItems?, first, later]
    rw [Draft.ofJson, Draft.json?, read]
    rfl

theorem object {members : List (String × Json)} (ascending : Entries.Ascending members)
    (settled : ∀ member ∈ members, Settled member.2) : Settled (.object members) where
  ordered := by
    have each : ∀ member ∈ members, (member.1, sorted member.2) = id member := by
      intro member inside
      rw [(settled member inside).ordered]
      rfl
    rw [sorted, sortedMembers_eq_map, List.map_congr_left each, List.map_id,
      Entries.insertAll_nil_of_ascending ascending]
  again := by
    have read : Draft.jsonMembers? (Draft.ofMembers members) = some members := by
      clear ascending
      induction members with
      | nil => rfl
      | cons member rest ih =>
        obtain ⟨name, value⟩ := member
        have first := (settled (name, value) List.mem_cons_self).again
        have later := ih fun member inside => settled member (List.mem_cons_of_mem _ inside)
        simp [Draft.ofMembers, Draft.jsonMembers?, first, later]
    rw [Draft.ofJson, Draft.json?, read, Option.map_some, Entries.insertAll_nil_of_ascending ascending]

end Settled

end Json

namespace Draft

/-- A relation that holds of a document and a value when it holds of their parts: what is
read as an opaque value has a part of the document for each of its own. -/
structure Compositional (holds : Draft → Json → Prop) : Prop where
  null : holds .null .null
  bool (value : Bool) : holds (.bool value) (.bool value)
  number (value : Number) : holds (.number value) (.number value)
  text (value : String) : holds (.text value) (.text value)
  array (items : List Draft) (values : List Json) (parts : ∀ value ∈ values, ∃ item ∈ items, holds item value) :
    holds (.array items) (.array values)
  object (members : List (String × Draft)) (entries : List (String × Json))
    (ascending : Entries.Ascending entries) (parts : ∀ entry ∈ entries, ∃ member ∈ members, holds member.2 entry.2) :
    holds (.object members) (.object entries)

namespace Compositional

variable {holds : Draft → Json → Prop}

mutual

theorem of_json? (compositional : Compositional holds) (d : Draft) (value : Json) (read : json? d = some value) :
    holds d value := by
  cases d with
  | null => cases read; exact compositional.null
  | bool value => cases read; exact compositional.bool value
  | number value => cases read; exact compositional.number value
  | text value => cases read; exact compositional.text value
  | array items =>
    obtain ⟨values, readItems, told⟩ := Option.map_eq_some_iff.mp read
    subst told
    exact compositional.array items values (compositional.of_jsonItems? items values readItems)
  | object members =>
    obtain ⟨entries, readMembers, told⟩ := Option.map_eq_some_iff.mp read
    subst told
    apply compositional.object _ _ (Entries.ascending_insertAll List.Pairwise.nil)
    intro entry inside
    have listed := (Entries.mem_insertAll inside).resolve_right List.not_mem_nil
    exact compositional.of_jsonMembers? members entries readMembers entry listed
  | unreadable => cases read

theorem of_jsonItems? (compositional : Compositional holds) (items : List Draft) (values : List Json)
    (read : jsonItems? items = some values) : ∀ value ∈ values, ∃ item ∈ items, holds item value := by
  cases items with
  | nil => cases read; exact fun _ member => absurd member List.not_mem_nil
  | cons item rest =>
    simp only [jsonItems?, Option.bind_eq_bind, Option.bind_eq_some_iff] at read
    obtain ⟨first, readFirst, later, readLater, told⟩ := read
    cases told
    intro value member
    rcases List.mem_cons.mp member with rfl | inside
    · exact ⟨item, List.mem_cons_self, compositional.of_json? item _ readFirst⟩
    · obtain ⟨source, there, held⟩ := compositional.of_jsonItems? rest later readLater value inside
      exact ⟨source, List.mem_cons_of_mem _ there, held⟩

theorem of_jsonMembers? (compositional : Compositional holds) (members : List (String × Draft))
    (entries : List (String × Json)) (read : jsonMembers? members = some entries) :
    ∀ entry ∈ entries, ∃ member ∈ members, holds member.2 entry.2 := by
  match members with
  | [] => cases read; exact fun _ member => absurd member List.not_mem_nil
  | (name, value) :: rest =>
    simp only [jsonMembers?, Option.bind_eq_bind, Option.bind_eq_some_iff] at read
    obtain ⟨first, readFirst, later, readLater, told⟩ := read
    cases told
    intro entry member
    rcases List.mem_cons.mp member with rfl | inside
    · exact ⟨(name, value), List.mem_cons_self, compositional.of_json? value first readFirst⟩
    · obtain ⟨source, there, held⟩ := compositional.of_jsonMembers? rest later readLater entry inside
      exact ⟨source, List.mem_cons_of_mem _ there, held⟩

end

end Compositional

theorem compositional_settled : Compositional fun _ value => value.Settled where
  null := ⟨rfl, rfl⟩
  bool _ := ⟨rfl, rfl⟩
  number _ := ⟨rfl, rfl⟩
  text _ := ⟨rfl, rfl⟩
  array _ _ parts := .array fun value inside => (parts value inside).elim fun _ part => part.2
  object _ _ ascending parts := .object ascending fun entry inside => (parts entry inside).elim fun _ part => part.2

theorem settled_of_json? (d : Draft) (value : Json) (read : json? d = some value) : value.Settled :=
  compositional_settled.of_json? d value read

/-- Nothing but null is read as null. -/
theorem eq_null_of_json? {d : Draft} (read : json? d = some .null) : d = .null := by
  cases d with
  | null => rfl
  | array items =>
    obtain ⟨_, -, told⟩ := Option.map_eq_some_iff.mp read
    cases told
  | object members =>
    obtain ⟨_, -, told⟩ := Option.map_eq_some_iff.mp read
    cases told
  | _ => cases read

end Draft

end Colloquy
