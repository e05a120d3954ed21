import Colloquy.Json.Measure
import Colloquy.Proofs.Json.Values

/-! What is read of a document is no deeper than it and has no numbers of another kind.
No document that is read nests deeper than the limit: what does is unreadable, and has
no depth of its own. -/
namespace Colloquy.Draft

/-- What stands right inside a container. -/
def parts : Draft → List Draft
  | .array items => items
  | .object members => members.map Prod.snd
  | _ => []

theorem depthOfItems_le_iff (items : List Draft) (limit : Nat) :
    depthOfItems items ≤ limit ↔ ∀ item ∈ items, item.depth ≤ limit := by
  induction items with
  | nil => simp [depthOfItems]
  | cons item rest ih => rw [depthOfItems, Nat.max_le, ih, List.forall_mem_cons]

theorem depthOfMembers_eq (members : List (String × Draft)) :
    depthOfMembers members = depthOfItems (members.map Prod.snd) := by
  induction members with
  | nil => rfl
  | cons member rest ih => rw [depthOfMembers, ih, List.map_cons, depthOfItems]

theorem depth_le_succ_iff (d : Draft) (limit : Nat) :
    d.depth ≤ limit + 1 ↔ ∀ part ∈ d.parts, part.depth ≤ limit := by
  cases d with
  | array items => rw [depth, Nat.add_le_add_iff_right, depthOfItems_le_iff, parts]
  | object members =>
    rw [depth, Nat.add_le_add_iff_right, depthOfMembers_eq, depthOfItems_le_iff, parts]
  | _ => simp [depth, parts]

theorem itemsHaveIntegers_iff (items : List Draft) :
    ItemsHaveIntegers items ↔ ∀ item ∈ items, item.HasIntegers := by
  induction items with
  | nil => simp [ItemsHaveIntegers]
  | cons item rest ih => rw [ItemsHaveIntegers, ih, List.forall_mem_cons]

theorem membersHaveIntegers_iff (members : List (String × Draft)) :
    MembersHaveIntegers members ↔ ItemsHaveIntegers (members.map Prod.snd) := by
  induction members with
  | nil => rfl
  | cons member rest ih => rw [MembersHaveIntegers, ih, List.map_cons, ItemsHaveIntegers]

theorem hasIntegers_iff {d : Draft} (container : 0 < d.depth) :
    d.HasIntegers ↔ ∀ part ∈ d.parts, part.HasIntegers := by
  cases d with
  | array items => rw [HasIntegers, itemsHaveIntegers_iff, parts]
  | object members => rw [HasIntegers, membersHaveIntegers_iff, itemsHaveIntegers_iff, parts]
  | _ => exact absurd container (Nat.lt_irrefl 0)

/-- No deeper, and without numbers of another kind. -/
structure Within (value d : Draft) : Prop where
  depth : value.depth ≤ d.depth
  integers : d.HasIntegers → value.HasIntegers

theorem Within.refl (d : Draft) : d.Within d :=
  ⟨Nat.le_refl _, id⟩

/-- A part that no part of the other container accounts for is a scalar without a number. -/
theorem Within.of_parts {value d : Draft} (inner : 0 < value.depth) (outer : 0 < d.depth)
    (each : ∀ part ∈ value.parts, ∃ source, (source = .null ∨ source ∈ d.parts) ∧ part.Within source) :
    value.Within d where
  depth := by
    obtain ⟨limit, deep⟩ : ∃ limit, d.depth = limit + 1 := ⟨d.depth - 1, by omega⟩
    have shallow := (depth_le_succ_iff d limit).mp (Nat.le_of_eq deep)
    rw [deep, depth_le_succ_iff]
    intro part inside
    obtain ⟨source, rfl | there, within⟩ := each part inside
    · exact Nat.le_trans within.depth (Nat.zero_le _)
    · exact Nat.le_trans within.depth (shallow source there)
  integers := by
    rw [hasIntegers_iff inner, hasIntegers_iff outer]
    intro integers part inside
    obtain ⟨source, rfl | there, within⟩ := each part inside
    · exact within.integers trivial
    · exact within.integers (integers source there)

theorem depth_array_pos (items : List Draft) : 0 < (Draft.array items).depth :=
  Nat.succ_pos _

theorem depth_object_pos (members : List (String × Draft)) : 0 < (Draft.object members).depth :=
  Nat.succ_pos _

theorem compositional_within : Compositional fun d value => (ofJson value).Within d where
  null := .refl _
  bool _ := .refl _
  number _ := .refl _
  text _ := .refl _
  array items values each := by
    apply Within.of_parts (depth_array_pos _) (depth_array_pos _)
    intro part inside
    rw [parts, ofItems_eq_map] at inside
    obtain ⟨value, listed, rfl⟩ := List.mem_map.mp inside
    obtain ⟨item, there, within⟩ := each value listed
    exact ⟨item, .inr there, within⟩
  object members entries _ each := by
    apply Within.of_parts (depth_object_pos _) (depth_object_pos _)
    intro part inside
    rw [parts, ofMembers_eq_map, List.map_map] at inside
    obtain ⟨entry, listed, rfl⟩ := List.mem_map.mp inside
    obtain ⟨member, there, within⟩ := each entry listed
    exact ⟨member.2, .inr (List.mem_map_of_mem there), within⟩

theorem within_of_json? {d : Draft} {value : Json} (read : json? d = some value) :
    (ofJson value.sorted).Within d := by
  rw [(settled_of_json? d value read).ordered]
  exact compositional_within.of_json? d value read

def Level.drafts : Level → List Draft
  | .items held => held
  | .members held => held.map Prod.snd
  | .named held _ => held.map Prod.snd

/-- What an open container holds leaves room for the containers around it. -/
def Roomy : List Level → Prop
  | [] => True
  | level :: outer => (∀ d ∈ level.drafts, d.depth ≤ depthLimit - (outer.length + 1)) ∧ Roomy outer

def Reading.Shallow : Reading → Prop
  | .expectValue inside => Roomy inside
  | .opened inside => Roomy inside
  | .expectName held outer => Roomy (.members held :: outer)
  | .expectColon held name outer => Roomy (.named held name :: outer)
  | .expectSeparator inside => Roomy inside
  | .complete document => document.depth ≤ depthLimit

namespace Reading

theorem shallow_deliver {document : Draft} {inside : List Level} {next : Reading} (roomy : Roomy inside)
    (small : document.depth ≤ depthLimit - inside.length) (delivered : deliver document inside = some next) :
    next.Shallow := by
  match inside with
  | [] =>
    cases delivered
    exact small
  | .items held :: outer =>
    cases delivered
    exact ⟨List.forall_mem_cons.mpr ⟨small, roomy.1⟩, roomy.2⟩
  | .named held name :: outer =>
    cases delivered
    exact ⟨List.forall_mem_cons.mpr ⟨small, roomy.1⟩, roomy.2⟩
  | .members held :: outer => cases delivered

theorem shallow_closed {container : Draft} {outer : List Level} {next : Reading} (roomy : Roomy outer)
    (small : container.depth ≤ depthLimit - (outer.length + 1) + 1)
    (closes : closed container outer = some next) : next.Shallow := by
  apply shallow_deliver roomy _ closes
  split
  next room =>
    rw [List.isEmpty_iff, List.drop_eq_nil_iff] at room
    unfold depthLimit at *
    omega
  next => exact Nat.zero_le _

theorem shallow_closeArray {inside : List Level} {next : Reading} (roomy : Roomy inside)
    (closes : closeArray inside = some next) : next.Shallow := by
  match inside with
  | .items held :: outer =>
    apply shallow_closed roomy.2 _ closes
    rw [depth_le_succ_iff]
    exact fun item member => roomy.1 item (List.mem_reverse.mp member)
  | [] | .members _ :: _ | .named _ _ :: _ => cases closes

theorem mem_of_nameMembers? {held : List (Option String × Draft)} {members : List (String × Draft)}
    (named : nameMembers? held = some members) {member : String × Draft} (inside : member ∈ members) :
    member.2 ∈ held.map Prod.snd := by
  induction held generalizing members with
  | nil =>
    cases named
    exact absurd inside List.not_mem_nil
  | cons first rest ih =>
    simp only [nameMembers?, Option.bind_eq_bind, Option.bind_eq_some_iff] at named
    obtain ⟨name, -, later, namedLater, told⟩ := named
    cases told
    rcases List.mem_cons.mp inside with rfl | further
    · exact List.mem_cons_self
    · exact List.mem_cons_of_mem _ (ih namedLater further)

theorem shallow_closeObject {inside : List Level} {next : Reading} (roomy : Roomy inside)
    (closes : closeObject inside = some next) : next.Shallow := by
  match inside with
  | .members held :: outer =>
    apply shallow_closed roomy.2 _ closes
    cases named : nameMembers? held.reverse with
    | none => exact Nat.zero_le _
    | some members =>
      rw [Option.map_some, Option.getD_some, depth_le_succ_iff]
      intro part within
      obtain ⟨member, listed, rfl⟩ := List.mem_map.mp within
      have there := mem_of_nameMembers? named listed
      rw [List.map_reverse, List.mem_reverse] at there
      exact roomy.1 member.2 there
  | [] | .items _ :: _ | .named _ _ :: _ => cases closes

theorem shallow_value? {inside : List Level} {token : Json.Token} {next : Reading} (roomy : Roomy inside)
    (read : value? inside token = some next) : next.Shallow := by
  cases token with
  | null => exact shallow_deliver roomy (Nat.zero_le _) read
  | bool value => exact shallow_deliver roomy (Nat.zero_le _) read
  | number value => cases value <;> exact shallow_deliver roomy (Nat.zero_le _) read
  | text value => cases value <;> exact shallow_deliver roomy (Nat.zero_le _) read
  | openArray =>
    cases read
    exact ⟨fun _ member => absurd member List.not_mem_nil, roomy⟩
  | openObject =>
    cases read
    exact ⟨fun _ member => absurd member List.not_mem_nil, roomy⟩
  | _ => cases read

theorem shallow_step? {reading next : Reading} {token : Json.Token} (shallow : reading.Shallow)
    (read : reading.step? token = some next) : next.Shallow := by
  unfold step? at read
  split at read
  case h_1 => exact shallow_value? shallow read
  case h_2 => exact shallow_closeArray shallow read
  case h_3 => exact shallow_value? shallow read
  case h_4 => exact shallow_closeObject shallow read
  case h_10 => exact shallow_closeArray shallow read
  case h_11 => exact shallow_closeObject shallow read
  case h_12 => cases read
  all_goals cases read; exact shallow

theorem shallow_run? {reading next : Reading} {tokens : List Json.Token} (shallow : reading.Shallow)
    (read : reading.run? tokens = some next) : next.Shallow := by
  induction tokens generalizing reading with
  | nil =>
    cases read
    exact shallow
  | cons token rest ih =>
    unfold run? at read
    split at read
    next => cases read
    next stepped => exact ih (shallow_step? shallow stepped) read

end Reading

theorem depth_le_of_ofTokens? {tokens : List Json.Token} {d : Draft} (read : ofTokens? tokens = some d) :
    d.depth ≤ depthLimit := by
  obtain ⟨reading, ran, finished⟩ := Option.bind_eq_some_iff.mp read
  have start : (Reading.expectValue []).Shallow := trivial
  have shallow : reading.Shallow := Reading.shallow_run? start ran
  cases reading with
  | complete document =>
    cases finished
    exact shallow
  | _ => cases finished

theorem depth_le_of_parseBytes? {bytes : Text.Bytes} {d : Draft} (read : parseBytes? bytes = some d) :
    d.depth ≤ depthLimit := by
  obtain ⟨tokens, -, built⟩ := Option.bind_eq_some_iff.mp read
  exact depth_le_of_ofTokens? built

end Colloquy.Draft
