/-! White space as Unicode's `White_Space` property lists it, and trimming by it.
The set is wider than the ASCII blanks: it holds the no-break space and the
ideographic space among others, but not the zero-width ones. -/
namespace Colloquy.Text

def isBlank (c : Char) : Bool :=
  (0x09 ≤ c.val && c.val ≤ 0x0D) || c.val == 0x20 || c.val == 0x85 || c.val == 0xA0 ||
    c.val == 0x1680 || (0x2000 ≤ c.val && c.val ≤ 0x200A) || c.val == 0x2028 ||
    c.val == 0x2029 || c.val == 0x202F || c.val == 0x205F || c.val == 0x3000

def dropBlanks (chars : List Char) : List Char :=
  chars.dropWhile isBlank

def dropBlanksRight (chars : List Char) : List Char :=
  (dropBlanks chars.reverse).reverse

def trimRight (text : String) : String :=
  String.ofList (dropBlanksRight text.toList)

def trim (text : String) : String :=
  String.ofList (dropBlanksRight (dropBlanks text.toList))

/-- A text of blanks only; the empty text is one. -/
def isBlankText (text : String) : Bool :=
  text.toList.all isBlank

/-- A text that is there and not empty. -/
def nonempty? (text : Option String) : Option String :=
  text.filter fun text => !text.isEmpty

@[simp] theorem nonempty?_none : nonempty? none = none := rfl

theorem nonempty?_some (text : String) :
    nonempty? (some text) = if text = "" then none else some text := by
  by_cases empty : text = "" <;> simp [nonempty?, Option.filter, empty]

/-- The first of some texts that is not empty, or else the empty text. -/
def firstNonempty (texts : List String) : String :=
  (texts.find? fun text => !text.isEmpty).getD ""

@[simp] theorem firstNonempty_nil : firstNonempty [] = "" := rfl

@[simp] theorem firstNonempty_singleton (text : String) : firstNonempty [text] = text := by
  by_cases empty : text = "" <;> simp [firstNonempty, empty]

theorem firstNonempty_append (texts more : List String) :
    firstNonempty (texts ++ more) =
      if (firstNonempty texts).isEmpty then firstNonempty more else firstNonempty texts := by
  unfold firstNonempty
  rw [List.find?_append]
  cases found : texts.find? fun text => !text.isEmpty with
  | none => simp
  | some text =>
    have nonempty := List.find?_some found
    simp_all

theorem firstNonempty_eq_empty (texts : List String) :
    firstNonempty texts = "" ↔ ∀ text ∈ texts, text = "" := by
  unfold firstNonempty
  cases found : texts.find? fun text => !text.isEmpty with
  | none => simpa [List.find?_eq_none] using found
  | some text =>
    have filled : text ≠ "" := by simpa using List.find?_some found
    have member := List.mem_of_find?_eq_some found
    simp only [Option.getD_some, filled, false_iff]
    exact fun none_ => filled (none_ text member)

theorem firstNonempty_of_head (first : String) (rest : List String)
    (names : ∀ name ∈ rest, name = "" ∨ name = first) : firstNonempty (first :: rest) = first := by
  by_cases filled : first = ""
  · unfold firstNonempty
    have none_ : (first :: rest).find? (fun text => !text.isEmpty) = none := by
      rw [List.find?_eq_none]
      intro name member
      rcases List.mem_cons.mp member with same | later
      · simp [same, filled]
      · rcases names name later with empty | same
        · simp [empty]
        · simp [same, filled]
    rw [none_, filled]
    rfl
  · simp [firstNonempty, filled]

end Colloquy.Text
