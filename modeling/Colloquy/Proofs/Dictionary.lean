import Colloquy.Dictionary
import Mathlib.Data.List.Basic

/-! Looking up entries after some were put in their places, one by one: the last of several
with one name is found. Entries that are in ascending order stay as they are. -/
namespace Colloquy

namespace Entries

variable {α β : Type}

def names (entries : List (String × α)) : List String :=
  entries.map Prod.fst

theorem find?_append (key : String) (entries more : List (String × α)) :
    find? key (entries ++ more) = (find? key entries).or (find? key more) := by
  induction entries with
  | nil => rfl
  | cons entry rest ih =>
    obtain ⟨other, value⟩ := entry
    rw [List.cons_append, find?, find?, ih]
    split <;> rfl

theorem find?_eq_none_iff (key : String) (entries : List (String × α)) :
    find? key entries = none ↔ key ∉ names entries := by
  induction entries with
  | nil => simp [find?, names]
  | cons entry rest ih =>
    obtain ⟨other, value⟩ := entry
    have names_cons : names ((other, value) :: rest) = other :: names rest := rfl
    rw [find?, names_cons, List.mem_cons, not_or]
    split
    next same => simp [same]
    next different => simpa [Ne.symm different] using ih

theorem mem_of_find? {key : String} {value : α} {entries : List (String × α)}
    (found : find? key entries = some value) : (key, value) ∈ entries := by
  induction entries with
  | nil => cases found
  | cons entry rest ih =>
    obtain ⟨other, kept⟩ := entry
    rw [find?] at found
    split at found
    next same =>
      cases found
      exact same ▸ List.mem_cons_self
    next => exact List.mem_cons_of_mem _ (ih found)

theorem find?_insertAll (key : String) (entries added : List (String × α)) :
    find? key (insertAll entries added) = (find? key added.reverse).or (find? key entries) := by
  induction added generalizing entries with
  | nil => rfl
  | cons entry rest ih =>
    obtain ⟨other, value⟩ := entry
    have step : insertAll entries ((other, value) :: rest) = insertAll (insert other value entries) rest := rfl
    rw [step, ih, List.reverse_cons, find?_append, Option.or_assoc, find?]
    by_cases same : other = key
    · subst same
      rw [find?_insert_self, if_pos rfl, Option.some_or]
    · rw [find?_insert_other value same, if_neg same]
      rfl

theorem isSome_find?_insertAll (key : String) (entries added : List (String × α)) :
    (find? key (insertAll entries added)).isSome =
      ((find? key added).isSome || (find? key entries).isSome) := by
  have same : (find? key added.reverse).isSome = (find? key added).isSome := by
    rw [Bool.eq_iff_iff, ← Option.ne_none_iff_isSome, ← Option.ne_none_iff_isSome, ne_eq, ne_eq,
      find?_eq_none_iff, find?_eq_none_iff, names, List.map_reverse, List.mem_reverse, names]
  rw [find?_insertAll, Option.isSome_or, same]

theorem find?_reverse_of_nodup (key : String) (entries : List (String × α)) (distinct : (names entries).Nodup) :
    find? key entries.reverse = find? key entries := by
  induction entries with
  | nil => rfl
  | cons entry rest ih =>
    obtain ⟨other, value⟩ := entry
    rw [names, List.map_cons, List.nodup_cons] at distinct
    rw [List.reverse_cons, find?_append, ih distinct.2]
    by_cases same : other = key
    · subst same
      have absent : find? other rest = none := (find?_eq_none_iff _ _).mpr distinct.1
      simp [find?, absent]
    · simp [find?, same]

theorem find?_map (key : String) (view : α → β) (entries : List (String × α)) :
    find? key (entries.map fun entry => (entry.1, view entry.2)) = (find? key entries).map view := by
  induction entries with
  | nil => rfl
  | cons entry rest ih =>
    obtain ⟨other, value⟩ := entry
    rw [List.map_cons, find?, find?, ih]
    split <;> rfl

theorem find?_filter (key : String) (kept : String → Bool) (entries : List (String × α)) :
    find? key (entries.filter fun entry => kept entry.1) = if kept key then find? key entries else none := by
  induction entries with
  | nil => simp [find?]
  | cons entry rest ih =>
    obtain ⟨other, value⟩ := entry
    rw [List.filter_cons, find?]
    by_cases same : other = key
    · subst same
      cases chosen : kept other
      · rw [chosen] at ih
        simpa using ih
      · simp [find?]
    · rw [if_neg same]
      split
      next => rw [find?, if_neg same, ih]
      next => exact ih

theorem filter_of_find? {key : String} {value : α} {entries : List (String × α)}
    (distinct : (names entries).Nodup) (found : find? key entries = some value) :
    (entries.filter fun entry => entry.1 == key) = [(key, value)] := by
  induction entries with
  | nil => cases found
  | cons entry rest ih =>
    obtain ⟨other, kept⟩ := entry
    rw [names, List.map_cons, List.nodup_cons] at distinct
    rw [find?] at found
    split at found
    next same =>
      subst same
      cases found
      have others : ∀ entry ∈ rest, ¬(entry.1 == other) = true := by
        intro entry member same
        exact distinct.1 (List.mem_map.mpr ⟨entry, member, eq_of_beq same⟩)
      rw [List.filter_cons_of_pos (by simp), List.filter_eq_nil_iff.mpr others]
    next different =>
      rw [List.filter_cons_of_neg (by simpa using different), ih distinct.2 found]

theorem nodup_of_ascending {entries : List (String × α)} (ascending : Ascending entries) :
    (names entries).Nodup := by
  rw [names, List.Nodup, List.pairwise_map]
  exact ascending.imp fun before same => absurd (same ▸ before) (String.lt_irrefl _)

theorem mem_insertAll {entry : String × α} {entries added : List (String × α)}
    (member : entry ∈ insertAll entries added) : entry ∈ added ∨ entry ∈ entries := by
  induction added generalizing entries with
  | nil => exact .inr member
  | cons first rest ih =>
    rcases ih member with later | earlier
    · exact .inl (List.mem_cons_of_mem _ later)
    · rcases mem_insert earlier with same | before
      · exact .inl (same ▸ List.mem_cons_self)
      · exact .inr before

theorem insert_of_greatest {key : String} {value : α} {entries : List (String × α)}
    (greatest : ∀ entry ∈ entries, entry.1 < key) : insert key value entries = entries ++ [(key, value)] := by
  induction entries with
  | nil => rfl
  | cons entry rest ih =>
    obtain ⟨other, kept⟩ := entry
    have before : other < key := greatest (other, kept) List.mem_cons_self
    rw [insert, if_neg (String.lt_asymm before), if_neg fun same => String.lt_irrefl _ (same ▸ before),
      ih fun entry member => greatest entry (List.mem_cons_of_mem _ member)]
    rfl

theorem insertAll_of_ascending (entries added : List (String × α)) (ascending : Ascending (entries ++ added)) :
    insertAll entries added = entries ++ added := by
  induction added generalizing entries with
  | nil => rw [List.append_nil]; rfl
  | cons entry rest ih =>
    obtain ⟨key, value⟩ := entry
    have greatest : ∀ other ∈ entries, other.1 < key := by
      intro other member
      exact (List.pairwise_append.mp ascending).2.2 other member (key, value) List.mem_cons_self
    have step : insertAll entries ((key, value) :: rest) = insertAll (insert key value entries) rest := rfl
    have whole : entries ++ (key, value) :: rest = entries ++ [(key, value)] ++ rest := by simp
    rw [step, insert_of_greatest greatest, whole, ih _ (whole ▸ ascending)]

theorem insertAll_nil_of_ascending {entries : List (String × α)} (ascending : Ascending entries) :
    insertAll [] entries = entries :=
  insertAll_of_ascending [] entries ascending

end Entries

namespace Dictionary

variable {α : Type}

theorem contains_merge (d other : Dictionary α) (key : String) :
    (d.merge other).contains key = (other.contains key || d.contains key) :=
  Entries.isSome_find?_insertAll key d.entries other.entries

theorem ofList_entries (d : Dictionary α) : ofList d.entries = d :=
  Dictionary.ext (Entries.insertAll_nil_of_ascending d.ascending)

theorem eq_empty_of_isEmpty {d : Dictionary α} (blank : d.isEmpty = true) : d = empty :=
  Dictionary.ext (List.isEmpty_iff.mp blank)

theorem mem_of_mem_ofList {entries : List (String × α)} {entry : String × α}
    (member : entry ∈ (ofList entries).entries) : entry ∈ entries :=
  (Entries.mem_insertAll member).resolve_right List.not_mem_nil

end Dictionary

end Colloquy
