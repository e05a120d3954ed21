/-! Texts mapped to values, kept as entries in strictly ascending order of their
keys. The order is part of the type, so two dictionaries with the same content
are equal. -/
namespace Colloquy

namespace Entries

variable {α : Type}

def Ascending (entries : List (String × α)) : Prop :=
  entries.Pairwise fun first second => first.1 < second.1

/-- The entries with one put in its place, instead of any entry with its key. -/
def insert (key : String) (value : α) : List (String × α) → List (String × α)
  | [] => [(key, value)]
  | (other, kept) :: rest =>
    if key < other then (key, value) :: (other, kept) :: rest
    else if key = other then (key, value) :: rest
    else (other, kept) :: insert key value rest

def insertAll (entries added : List (String × α)) : List (String × α) :=
  added.foldl (fun entries entry => insert entry.1 entry.2 entries) entries

def find? (key : String) : List (String × α) → Option α
  | [] => none
  | (other, value) :: rest => if other = key then some value else find? key rest

theorem mem_insert {key : String} {value : α} {entry : String × α} {entries : List (String × α)}
    (member : entry ∈ insert key value entries) : entry = (key, value) ∨ entry ∈ entries := by
  induction entries with
  | nil => simpa [insert] using member
  | cons head rest ih => grind [insert]

theorem ascending_insert {key : String} {value : α} {entries : List (String × α)}
    (ascending : Ascending entries) : Ascending (insert key value entries) := by
  induction entries with
  | nil => simp [insert, Ascending]
  | cons head rest ih =>
    obtain ⟨other, kept⟩ := head
    simp only [Ascending, List.pairwise_cons] at ascending
    obtain ⟨least, restAscending⟩ := ascending
    unfold insert
    split
    next before =>
      simp only [Ascending, List.pairwise_cons, List.mem_cons]
      exact ⟨fun entry member => member.elim (fun same => same ▸ before)
        (fun later => String.lt_trans before (least entry later)), least, restAscending⟩
    next notBefore =>
      split
      next same =>
        subst same
        exact List.pairwise_cons.mpr ⟨least, restAscending⟩
      next different =>
        have after : other < key :=
          Std.lt_of_le_of_ne (Std.not_lt.mp notBefore) (Ne.symm different)
        exact List.pairwise_cons.mpr ⟨fun entry member =>
          (mem_insert member).elim (fun same => same ▸ after) (least entry), ih restAscending⟩

theorem ascending_insertAll {added entries : List (String × α)} (ascending : Ascending entries) :
    Ascending (insertAll entries added) := by
  induction added generalizing entries with
  | nil => exact ascending
  | cons entry rest ih => exact ih (ascending_insert ascending)

theorem find?_insert_self (key : String) (value : α) (entries : List (String × α)) :
    find? key (insert key value entries) = some value := by
  induction entries with
  | nil => simp [insert, find?]
  | cons head rest ih => grind [insert, find?]

theorem find?_insert_other {key other : String} (value : α) (different : key ≠ other)
    (entries : List (String × α)) :
    find? other (insert key value entries) = find? other entries := by
  induction entries with
  | nil => simp [insert, find?, different]
  | cons head rest ih => grind [insert, find?]

end Entries

@[ext] structure Dictionary (α : Type) where
  entries : List (String × α)
  ascending : Entries.Ascending entries

namespace Dictionary

variable {α : Type}

def empty : Dictionary α :=
  ⟨[], List.Pairwise.nil⟩

instance : Inhabited (Dictionary α) := ⟨empty⟩

def isEmpty (d : Dictionary α) : Bool :=
  d.entries.isEmpty

def find? (d : Dictionary α) (key : String) : Option α :=
  Entries.find? key d.entries

def contains (d : Dictionary α) (key : String) : Bool :=
  (d.find? key).isSome

def keys (d : Dictionary α) : List String :=
  d.entries.map (·.1)

def insert (d : Dictionary α) (key : String) (value : α) : Dictionary α :=
  ⟨Entries.insert key value d.entries, Entries.ascending_insert d.ascending⟩

/-- The content of any list of entries, the last of several with one key. -/
def ofList (entries : List (String × α)) : Dictionary α :=
  ⟨Entries.insertAll [] entries, Entries.ascending_insertAll List.Pairwise.nil⟩

def merge (d other : Dictionary α) : Dictionary α :=
  ⟨Entries.insertAll d.entries other.entries, Entries.ascending_insertAll d.ascending⟩

theorem find?_insert (d : Dictionary α) (key other : String) (value : α) :
    (d.insert key value).find? other = if other = key then some value else d.find? other := by
  split
  next same => exact same ▸ Entries.find?_insert_self key value d.entries
  next different => exact Entries.find?_insert_other value (Ne.symm different) d.entries

end Dictionary

end Colloquy
