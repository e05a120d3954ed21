import Colloquy.Conversation.Block
import Colloquy.Proofs.Json.Doubles
import Colloquy.Proofs.Json.Values
import Colloquy.Proofs.Text.Base64
import Colloquy.Proofs.Time.Timestamp
import Colloquy.Response.Exchange
import Colloquy.Response.Usage

/-! What a decoder has read it reads again from what the encoder writes for it. A decoder
only looks members up by their names, so the order in which they stand does not matter. -/
namespace Colloquy

/-- A value as a document, with the members of every object in ascending order. -/
def Json.document (value : Json) : Draft :=
  .ofJson value.sorted

theorem Json.document_ne_null {value : Json} (filled : value ≠ .null) : value.document ≠ .null := by
  cases value with
  | null => exact absurd rfl filled
  | _ => exact Draft.noConfusion

theorem Draft.orNull?_of_ne_null {α : Type} {d : Draft} (decode? : Draft → Option α) (filled : d ≠ .null) :
    orNull? decode? d = (decode? d).map some := by
  cases d with
  | null => exact absurd rfl filled
  | _ => rfl

theorem Draft.of_orNull? {α : Type} {d : Draft} {decode? : Draft → Option α} {value : α}
    (read : orNull? decode? d = some (some value)) : d ≠ .null ∧ decode? d = some value := by
  have filled : d ≠ .null := by
    rintro rfl
    cases read
  rw [orNull?_of_ne_null decode? filled, Option.map_eq_some_iff] at read
  obtain ⟨_, decoded, told⟩ := read
  exact ⟨filled, decoded.trans told⟩

/-- What was read is read again from what is written for it, and what was not null is not
written as null. -/
structure Survives {α : Type} (decode? : Draft → Option α) (encode : α → Json) : Prop where
  again : ∀ d value, decode? d = some value → decode? (encode value).document = some value
  filled : ∀ d value, d ≠ .null → decode? d = some value → encode value ≠ .null

/-- The value under a name among members that may be left out. -/
def Json.given? (name : String) : List (String × Option Json) → Option Json
  | [] => none
  | (other, value) :: rest => if other = name then value else given? name rest

/-- The members of an object that are those given, in any order. -/
structure Shows (held : List (String × Draft)) (members : List (String × Option Json)) : Prop where
  distinct : (Entries.names held).Nodup
  readable : ∀ member ∈ held, member.2.isReadable = true
  lookup : ∀ name, Entries.find? name held = (Json.given? name members).map Json.document

namespace Json

theorem given?_eq_none {name : String} {members : List (String × Option Json)}
    (absent : name ∉ members.map Prod.fst) : given? name members = none := by
  induction members with
  | nil => rfl
  | cons member rest ih =>
    obtain ⟨other, value⟩ := member
    rw [List.map_cons, List.mem_cons, not_or] at absent
    rw [given?, if_neg (Ne.symm absent.1), ih absent.2]

/-- The members that are there. -/
def present (members : List (String × Option Json)) : List (String × Json) :=
  members.filterMap fun member => member.2.map (member.1, ·)

theorem names_present (members : List (String × Option Json)) :
    (Entries.names (present members)).Sublist (members.map Prod.fst) := by
  induction members with
  | nil => exact List.Sublist.slnil
  | cons member rest ih =>
    obtain ⟨name, value⟩ := member
    cases value with
    | none => exact ih.cons name
    | some value => exact ih.cons_cons name

theorem find?_present (name : String) (members : List (String × Option Json))
    (distinct : (members.map Prod.fst).Nodup) : Entries.find? name (present members) = given? name members := by
  induction members with
  | nil => rfl
  | cons member rest ih =>
    obtain ⟨other, value⟩ := member
    rw [List.map_cons, List.nodup_cons] at distinct
    by_cases same : other = name
    · subst same
      have absent : Entries.find? other (present rest) = none := by
        rw [ih distinct.2, given?_eq_none distinct.1]
      cases value with
      | none => simpa [present, given?] using absent
      | some value => simp [present, given?, Entries.find?]
    · cases value with
      | none => simpa [present, given?, same] using ih distinct.2
      | some value => simpa [present, given?, Entries.find?, same] using ih distinct.2

/-- The members of a record as a document has them. -/
def heldMembers (members : List (String × Option Json)) : List (String × Draft) :=
  Draft.ofMembers (Entries.insertAll [] (sortedMembers (present members)))

theorem document_record (members : List (String × Option Json)) :
    (record members).document = .object (heldMembers members) := rfl

theorem exists_of_mem_heldMembers {members : List (String × Option Json)} {member : String × Draft}
    (inside : member ∈ heldMembers members) :
    ∃ value, (member.1, some value) ∈ members ∧ member.2 = value.document := by
  rw [heldMembers, Draft.ofMembers_eq_map] at inside
  obtain ⟨entry, listed, rfl⟩ := List.mem_map.mp inside
  have sorted := (Entries.mem_insertAll listed).resolve_right List.not_mem_nil
  rw [sortedMembers_eq_map] at sorted
  obtain ⟨⟨name, value⟩, there, rfl⟩ := List.mem_map.mp sorted
  obtain ⟨⟨other, given⟩, source, told⟩ := List.mem_filterMap.mp there
  obtain ⟨kept, rfl, same⟩ := Option.map_eq_some_iff.mp told
  cases same
  exact ⟨value, source, rfl⟩

theorem shows_heldMembers {members : List (String × Option Json)} (distinct : (members.map Prod.fst).Nodup) :
    Shows (heldMembers members) members where
  distinct := by
    have ascending : Entries.Ascending (Entries.insertAll [] (sortedMembers (present members))) :=
      Entries.ascending_insertAll List.Pairwise.nil
    rw [heldMembers, Draft.ofMembers_eq_map, Entries.names, List.map_map]
    exact Entries.nodup_of_ascending ascending
  readable := by
    have readable := Draft.membersReadable_ofMembers (Entries.insertAll [] (sortedMembers (present members)))
    rw [Draft.membersReadable_eq_all, List.all_eq_true] at readable
    exact readable
  lookup := by
    intro name
    have apart : (Entries.names (sortedMembers (present members))).Nodup := by
      rw [sortedMembers_eq_map, Entries.names, List.map_map]
      exact (names_present members).nodup distinct
    rw [heldMembers, Draft.ofMembers_eq_map, Entries.find?_map, Entries.find?_insertAll,
      Entries.find?_reverse_of_nodup _ _ apart, sortedMembers_eq_map, Entries.find?_map,
      find?_present name members distinct]
    cases given? name members <;> rfl

end Json

/-- What a record tells under each of some names. -/
def Record.Holds (r : Record) (names : List String) (members : List (String × Option Json)) : Prop :=
  ∀ name ∈ names, r.find? name = (Json.given? name members).map Json.document

theorem Shows.record? {held : List (String × Draft)} {members : List (String × Option Json)}
    (shows : Shows held members) (names : List String) :
    ∃ r : Record, (Draft.object held).record? names = some r ∧ r.Holds names members := by
  have distinct : ((held.filter fun member => names.contains member.1).map (·.1)).Nodup :=
    (List.filter_sublist.map Prod.fst).nodup shows.distinct
  refine ⟨⟨held.filter fun member => names.contains member.1⟩, if_pos distinct, ?_⟩
  intro name known
  rw [Record.find?, Entries.find?_filter name names.contains, if_pos (List.contains_iff_mem.mpr known),
    shows.lookup]

/-- Null would have been read as a value that is not there. -/
theorem Record.exists_of_optional {α : Type} {r : Record} {name : String} {decode? : Draft → Option α}
    {value : α} (read : r.optional name decode? = some (some value)) :
    ∃ d, r.find? name = some d ∧ d ≠ .null ∧ decode? d = some value := by
  unfold Record.optional Record.defaulted at read
  cases found : r.find? name with
  | none => rw [found] at read; cases read
  | some d => rw [found] at read; exact ⟨d, rfl, Draft.of_orNull? read⟩

namespace Record.Holds

variable {α : Type} {decode? : Draft → Option α} {encode : α → Json} {r s : Record} {names : List String}
  {members : List (String × Option Json)} {name : String}

theorem required (holds : s.Holds names members) (survives : Survives decode? encode) {value : α}
    (read : r.required name decode? = some value) (known : name ∈ names)
    (given : Json.given? name members = some (encode value)) : s.required name decode? = some value := by
  obtain ⟨d, -, decoded⟩ := Option.bind_eq_some_iff.mp read
  rw [Record.required, holds name known, given]
  exact survives.again d value decoded

/-- A default is read again like any other value; so it may be written or left out. -/
theorem defaulted (holds : s.Holds names members) (survives : Survives decode? encode) {value default : α}
    (start : decode? (encode default).document = some default)
    (read : r.defaulted name default decode? = some value) (known : name ∈ names) (skip : Bool)
    (blank : skip = true → value = default)
    (given : Json.given? name members = if skip then none else some (encode value)) :
    s.defaulted name default decode? = some value := by
  rw [Record.defaulted, holds name known, given]
  cases skip with
  | true => exact congrArg some (blank rfl).symm
  | false =>
    unfold Record.defaulted at read
    cases found : r.find? name with
    | none =>
      rw [found] at read
      cases read
      exact start
    | some d =>
      rw [found] at read
      exact survives.again d value read

theorem written (holds : s.Holds names members) (survives : Survives decode? encode) {value default : α}
    (start : decode? (encode default).document = some default)
    (read : r.defaulted name default decode? = some value) (known : name ∈ names)
    (given : Json.given? name members = some (encode value)) : s.defaulted name default decode? = some value :=
  holds.defaulted survives start read known false (fun left => absurd left Bool.false_ne_true) given

theorem optional (holds : s.Holds names members) (survives : Survives decode? encode) {value : Option α}
    (read : r.optional name decode? = some value) (known : name ∈ names)
    (given : Json.given? name members = value.map encode) : s.optional name decode? = some value := by
  rw [Record.optional, Record.defaulted, holds name known, given]
  cases value with
  | none => rfl
  | some value =>
    obtain ⟨d, -, there, decoded⟩ := Record.exists_of_optional read
    have written := Json.document_ne_null (survives.filled d value there decoded)
    simp [Draft.orNull?_of_ne_null decode? written, survives.again d value decoded]

/-- What is not there may also be written as null. -/
theorem nullable (holds : s.Holds names members) (survives : Survives decode? encode) {value : Option α}
    (read : r.optional name decode? = some value) (known : name ∈ names)
    (given : Json.given? name members = some (Json.orNull encode value)) : s.optional name decode? = some value := by
  cases value with
  | none =>
    rw [Record.optional, Record.defaulted, holds name known, given]
    rfl
  | some value => exact holds.optional survives read known given

end Record.Holds

section

variable {α : Type} {all : List α} {name : α → String} {kind : α}

theorem variant?_document (place : Draft.Place) (found : (all.find? fun one => name one == name kind) = some kind) :
    Draft.variant? place all name (Json.text (name kind)).document = some kind :=
  found

theorem Shows.tagged? {held : List (String × Draft)} {tag : String} {members : List (String × Option Json)}
    (shows : Shows held ((tag, some (.text (name kind))) :: members)) (apart : tag ∉ members.map Prod.fst)
    (place : Draft.Place) (found : (all.find? fun one => name one == name kind) = some kind) :
    ∃ content, (Draft.object held).tagged? place tag all name = some (kind, .object content) ∧
      Shows content members := by
  have readable : (Draft.object held).isReadable = true := by
    rw [Draft.isReadable, Draft.membersReadable_eq_all, List.all_eq_true]
    exact shows.readable
  have chosen : (held.filter fun member => member.1 == tag) = [(tag, (Json.text (name kind)).document)] := by
    apply Entries.filter_of_find? shows.distinct
    rw [shows.lookup, Json.given?, if_pos rfl]
    rfl
  refine ⟨held.filter fun member => member.1 != tag, ?_, ?_⟩
  · simp only [Draft.tagged?, readable, chosen, variant?_document place found]
    rfl
  · refine ⟨(List.filter_sublist.map Prod.fst).nodup shows.distinct, ?_, ?_⟩
    · intro member inside
      exact shows.readable member (List.mem_filter.mp inside).1
    · intro name
      rw [Entries.find?_filter name (· != tag), shows.lookup, Json.given?]
      by_cases same : tag = name
      · subst same
        simp [Json.given?_eq_none apart]
      · simp [same, Ne.symm same]

end

theorem exists_of_mapM {β γ : Type} {read? : β → Option γ} {items : List β} {values : List γ}
    (read : items.mapM read? = some values) : ∀ value ∈ values, ∃ item, read? item = some value := by
  induction items generalizing values with
  | nil =>
    cases read
    exact fun _ member => absurd member List.not_mem_nil
  | cons item rest ih =>
    simp only [List.mapM_cons, Option.bind_eq_bind, Option.bind_eq_some_iff] at read
    obtain ⟨first, readFirst, later, readLater, told⟩ := read
    cases told
    intro value member
    rcases List.mem_cons.mp member with rfl | inside
    · exact ⟨item, readFirst⟩
    · exact ih readLater value inside

theorem mapM_map {β γ : Type} {read? : β → Option γ} {write : γ → β} {values : List γ}
    (each : ∀ value ∈ values, read? (write value) = some value) : (values.map write).mapM read? = some values := by
  induction values with
  | nil => rfl
  | cons value rest ih =>
    rw [List.map_cons, List.mapM_cons, each value List.mem_cons_self,
      ih fun later member => each later (List.mem_cons_of_mem _ member)]
    rfl

namespace Survives

variable {α : Type} {decode? : Draft → Option α} {encode : α → Json}

theorem of_always (always : ∀ value, decode? (encode value).document = some value)
    (filled : ∀ value, encode value ≠ .null) : Survives decode? encode where
  again _ value _ := always value
  filled _ value _ _ := filled value

theorem text : Survives Draft.text? Json.text :=
  of_always (fun _ => rfl) (fun _ => Json.noConfusion)

theorem bool : Survives Draft.bool? Json.bool :=
  of_always (fun _ => rfl) (fun _ => Json.noConfusion)

theorem json : Survives Draft.json? id where
  again d value read := by
    have settled := Draft.settled_of_json? d value read
    rw [id, Json.document, settled.ordered]
    exact settled.again
  filled d value there read := by
    rintro rfl
    exact there (Draft.eq_null_of_json? read)

theorem real : Survives Draft.real? Json.real where
  again d value read := by
    have finite := Draft.isFinite_of_real? read
    rw [Json.real, Number.ofFloat?_of_isFinite finite]
    rfl
  filled d value _ read := by
    have finite := Draft.isFinite_of_real? read
    rw [Json.real, Number.ofFloat?_of_isFinite finite]
    exact Json.noConfusion

theorem natural?_whole {bound value : Nat} (small : value < bound) :
    Draft.natural? bound (.number (.whole value)) = some value := by
  unfold Draft.natural? Draft.integer?
  simp [small]

theorem word64?_document (value : UInt64) : Draft.word64? (Json.word64 value).document = some value := by
  have whole : (Json.word64 value).document = .number (.whole value.toNat) := rfl
  rw [whole, Draft.word64?, natural?_whole value.toNat_lt_size, Option.map_some, UInt64.ofNat_toNat]

theorem word64 : Survives Draft.word64? Json.word64 :=
  of_always word64?_document fun _ => Json.noConfusion

theorem bytes : Survives Draft.bytes? Json.bytes := by
  apply of_always
  · intro data
    have text : (Json.bytes data).document = .text (Text.Base64.encode data) := rfl
    rw [text, Draft.bytes?, Draft.text?, Option.bind_some]
    exact (Text.Base64.decode?_eq_some_iff _ data).mpr rfl
  · exact fun _ => Json.noConfusion

theorem timestamp : Survives Draft.timestamp? Json.timestamp := by
  apply of_always
  · intro t
    have text : (Json.timestamp t).document = .text t.render := rfl
    rw [text, Draft.timestamp?, Draft.text?, Option.bind_some]
    exact t.parse?_render
  · exact fun _ => Json.noConfusion

theorem document_ofList (encode : α → Json) (values : List α) :
    (Json.ofList encode values).document = .array (values.map fun value => (encode value).document) := by
  rw [Json.ofList, Json.document, Json.sorted, Json.sortedItems_eq_map, Draft.ofJson, Draft.ofItems_eq_map,
    List.map_map, List.map_map]
  rfl

theorem list (survives : Survives decode? encode) : Survives (Draft.list? decode?) (Json.ofList encode) where
  again d values read := by
    have each : ∀ value ∈ values, decode? (encode value).document = some value := by
      intro value member
      cases d with
      | array items =>
        obtain ⟨item, decoded⟩ := exists_of_mapM read value member
        exact survives.again item value decoded
      | _ => cases read
    rw [document_ofList, Draft.list?]
    exact mapM_map each
  filled _ _ _ _ := Json.noConfusion

theorem document_ofDictionary (encode : α → Json) (d : Dictionary α) :
    (Json.ofDictionary encode d).document =
      .object (d.entries.map fun entry => (entry.1, (encode entry.2).document)) := by
  have ascending : Entries.Ascending (d.entries.map fun entry => (entry.1, (encode entry.2).sorted)) :=
    List.pairwise_map.mpr d.ascending
  have sorted : Json.sortedMembers (d.entries.map fun entry => (entry.1, encode entry.2)) =
      d.entries.map fun entry => (entry.1, (encode entry.2).sorted) := by
    rw [Json.sortedMembers_eq_map, List.map_map]
    rfl
  rw [Json.ofDictionary, Json.document, Json.sorted, sorted, Entries.insertAll_nil_of_ascending ascending,
    Draft.ofJson, Draft.ofMembers_eq_map, List.map_map]
  rfl

theorem dictionary (survives : Survives decode? encode) :
    Survives (Draft.dictionary? decode?) (Json.ofDictionary encode) where
  again d value read := by
    have each : ∀ entry ∈ value.entries, decode? (encode entry.2).document = some entry.2 := by
      intro entry member
      cases d with
      | object members =>
        obtain ⟨entries, readMembers, rfl⟩ := Option.map_eq_some_iff.mp read
        obtain ⟨source, decoded⟩ := exists_of_mapM readMembers entry (Dictionary.mem_of_mem_ofList member)
        obtain ⟨kept, inner, rfl⟩ := Option.map_eq_some_iff.mp decoded
        exact survives.again source.2 kept inner
      | _ => cases read
    rw [document_ofDictionary, Draft.dictionary?, mapM_map, Option.map_some, value.ofList_entries]
    intro entry member
    rw [each entry member, Option.map_some]
  filled _ _ _ _ := Json.noConfusion

theorem record {members : α → List (String × Option Json)}
    (distinct : ∀ value, ((members value).map Prod.fst).Nodup)
    (reads : ∀ d value held, decode? d = some value → Shows held (members value) →
      decode? (.object held) = some value) :
    Survives decode? fun value => Json.record (members value) where
  again d value read := by
    rw [Json.document_record]
    exact reads d value _ read (Json.shows_heldMembers (distinct value))
  filled _ _ _ _ := Json.noConfusion

/-- A tagged value survives when the content of each kind does. -/
theorem tagged {κ : Type} (place : Draft.Place) (tag : String) (all : List κ) (name : κ → String)
    (kind : α → κ) (members : α → List (String × Option Json)) (ofContent? : κ → Draft → Option α)
    (found : ∀ kind, (all.find? fun one => name one == name kind) = some kind)
    (distinct : ∀ value, (tag :: (members value).map Prod.fst).Nodup)
    (again : ∀ chosen content value held, ofContent? chosen content = some value → Shows held (members value) →
      kind value = chosen ∧ ofContent? chosen (.object held) = some value) :
    Survives (fun d => (d.tagged? place tag all name).bind fun told => ofContent? told.1 told.2)
      fun value => Json.record ((tag, some (.text (name (kind value)))) :: members value) := by
  apply record
  · exact distinct
  · intro d value held read shows
    obtain ⟨⟨chosen, content⟩, -, readContent⟩ := Option.bind_eq_some_iff.mp read
    have apart : tag ∉ (members value).map Prod.fst := (List.nodup_cons.mp (distinct value)).1
    obtain ⟨rest, told, shown⟩ := shows.tagged? apart place (found (kind value))
    obtain ⟨same, readAgain⟩ := again chosen content value rest readContent shown
    rw [told, same]
    exact readAgain

end Survives

theorem Shows.map_again {α β : Type} {decode? : Draft → Option α} {wrap : α → β} {d : Draft}
    {held : List (String × Draft)} {members : β → List (String × Option Json)} {value : β}
    (shows : Shows held (members value)) (read : (decode? d).map wrap = some value)
    (again : ∀ inner, decode? d = some inner → Shows held (members (wrap inner)) →
      decode? (.object held) = some inner) : (decode? (.object held)).map wrap = some value := by
  obtain ⟨inner, readInner, rfl⟩ := Option.map_eq_some_iff.mp read
  rw [again inner readInner shows, Option.map_some]

/-- Content that is a single text. -/
theorem Shows.single {α : Type} {d : Draft} {held : List (String × Draft)}
    {members : α → List (String × Option Json)} {value : α} (shows : Shows held (members value))
    (name : String) (wrap : String → α)
    (read : (do let r ← d.record? [name]; let text ← r.required name Draft.text?; return wrap text) = some value)
    (alone : ∀ text, members (wrap text) = [(name, some (.text text))]) :
    (∃ text, wrap text = value) ∧
      (do let r ← (Draft.object held).record? [name]; let text ← r.required name Draft.text?; return wrap text) =
        some value := by
  simp only [Option.bind_eq_bind, Option.bind_eq_some_iff] at read ⊢
  obtain ⟨r, -, text, readText, told⟩ := read
  cases told
  rw [alone] at shows
  obtain ⟨s, recorded, holds⟩ := shows.record? [name]
  have text_ := holds.required .text readText (by simp) (if_pos rfl)
  exact ⟨⟨text, rfl⟩, s, recorded, text, text_, rfl⟩

end Colloquy
