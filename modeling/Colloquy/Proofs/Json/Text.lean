import Colloquy.Json.Writer
import Colloquy.Proofs.Json.Measure
import Colloquy.Proofs.Text.Utf8
import Colloquy.Proofs.Time.Timestamp

/-! JSON text that was written is read as the value it was written for. Lexing and
reading are followed together, from character to character; a value of any depth that
can be read at all, with integers for its numbers, comes back. -/
namespace Colloquy

namespace Json

theorem tokensFrom?_eq (lexer : Lexer) (found : List Token) (chars : List (Option Char)) :
    tokensFrom? lexer found chars = (tokensFrom? lexer [] chars).map (found.reverse ++ ·) := by
  induction chars generalizing lexer found with
  | nil =>
    rw [tokensFrom?, tokensFrom?, Option.map_map]
    congr 1
    funext ended
    simp
  | cons c rest ih =>
    rw [tokensFrom?, tokensFrom?]
    cases lexer.step? c with
    | none => rfl
    | some told =>
      dsimp only
      rw [ih told.1 (told.2.reverse ++ found), ih told.1 (told.2.reverse ++ []), Option.map_map]
      congr 1
      funext later
      simp

end Json

namespace Draft.Reading

open Json (Lexer Token)

theorem run?_append (reading : Reading) (first second : List Token) :
    reading.run? (first ++ second) = (reading.run? first).bind (·.run? second) := by
  induction first generalizing reading with
  | nil => rfl
  | cons token rest ih =>
    rw [List.cons_append, run?, run?]
    cases reading.step? token with
    | none => rfl
    | some next => exact ih next

theorem run?_singleton (reading : Reading) (token : Token) : reading.run? [token] = reading.step? token := by
  rw [run?]
  cases reading.step? token <;> rfl

/-- The reading after all characters, from a state of the lexer and one of the reader. -/
def scan? (lexer : Lexer) (reading : Reading) (chars : List Char) : Option Reading :=
  (Json.tokensFrom? lexer [] (chars.map some)).bind reading.run?

theorem scan?_nil (lexer : Lexer) (reading : Reading) :
    scan? lexer reading [] = lexer.finish?.bind reading.run? := by
  rw [scan?, List.map_nil, Json.tokensFrom?]
  cases lexer.finish? with
  | none => rfl
  | some ended => simp

theorem scan?_between_nil (reading : Reading) : scan? .between reading [] = some reading :=
  scan?_nil .between reading

theorem scan?_cons (lexer : Lexer) (reading : Reading) (c : Char) (rest : List Char) :
    scan? lexer reading (c :: rest) = (lexer.step? (some c)).bind fun told =>
      (reading.run? told.2).bind fun next => scan? told.1 next rest := by
  rw [scan?, List.map_cons, Json.tokensFrom?]
  cases lexer.step? (some c) with
  | none => rfl
  | some told =>
    have split (later : List Token) : reading.run? (told.2.reverse.reverse ++ later) =
        (reading.run? told.2).bind (·.run? later) := by rw [List.reverse_reverse, run?_append]
    dsimp only
    rw [List.append_nil, Json.tokensFrom?_eq, Option.bind_map, Option.bind_some]
    simp only [Function.comp_def, split, scan?]
    cases reading.run? told.2 <;> cases Json.tokensFrom? told.1 [] (rest.map some) <;> rfl

variable (reading : Reading) (rest : List Char)

theorem scan?_silent {lexer next : Lexer} {c : Char} (steps : lexer.step? (some c) = some (next, [])) :
    scan? lexer reading (c :: rest) = scan? next reading rest := by
  rw [scan?_cons, steps]
  rfl

theorem scan?_token {lexer next : Lexer} {c : Char} {token : Token}
    (steps : lexer.step? (some c) = some (next, [token])) :
    scan? lexer reading (c :: rest) = (reading.step? token).bind fun read => scan? next read rest := by
  rw [scan?_cons, steps, Option.bind_some, run?_singleton]

/-- A character that is a token by itself. -/
theorem scan?_mark (c : Char) (token : Token) (starts : Lexer.start? c = some (.between, [token])) :
    scan? .between reading (c :: rest) = (reading.step? token).bind fun read => scan? .between read rest := by
  have steps : Lexer.step? .between (some c) = some (.between, [token]) := starts
  exact scan?_token _ _ steps

/-- What may follow a value inside a written container, or at the end. -/
def Delimited (chars : List Char) : Prop :=
  ∀ c ∈ chars.head?, c = ',' ∨ c = ']' ∨ c = '}'

theorem start?_of_delimiter {c : Char} (delimiter : c = ',' ∨ c = ']' ∨ c = '}') :
    ∃ token, Lexer.start? c = some (.between, [token]) := by
  rcases delimiter with rfl | rfl | rfl
  · exact ⟨.comma, rfl⟩
  · exact ⟨.closeArray, rfl⟩
  · exact ⟨.closeObject, rfl⟩

/-- States in which the lexer gathers characters of one kind, up to any other. -/
structure Gathers (state : List Char → Lexer) (kind : Char → Bool) : Prop where
  goes : ∀ seen c, kind c = true → (state seen).step? (some c) = some (state (c :: seen), [])
  stops : ∀ seen c, c = ',' ∨ c = ']' ∨ c = '}' → (state seen).step? (some c) = (state seen).startAfter? c

theorem gathers_word : Gathers .word Char.isLower where
  goes _ _ lower := if_pos lower
  stops := by rintro seen c (rfl | rfl | rfl) <;> rfl

theorem gathers_numeral : Gathers .numeral Lexer.isNumeralChar where
  goes _ _ numeral := if_pos numeral
  stops := by rintro seen c (rfl | rfl | rfl) <;> rfl

section Gathered

variable {state : List Char → Lexer} {kind : Char → Bool} (gathers : Gathers state kind)

include gathers

theorem scan?_gathered (chars seen : List Char) (alike : ∀ c ∈ chars, kind c = true) :
    scan? (state seen) reading (chars ++ rest) = scan? (state (chars.reverse ++ seen)) reading rest := by
  induction chars generalizing seen with
  | nil => rfl
  | cons c later ih =>
    have steps := gathers.goes seen c (alike c List.mem_cons_self)
    rw [List.cons_append, scan?_silent _ _ steps, ih _ fun c further => alike c (List.mem_cons_of_mem _ further),
      List.reverse_cons, List.append_assoc, List.singleton_append]

/-- What was gathered ends where a delimiter follows. -/
theorem scan?_ended {seen : List Char} {token : Token} (ends : (state seen).finish? = some [token])
    (delimited : Delimited rest) :
    scan? (state seen) reading rest = (reading.step? token).bind fun next => scan? .between next rest := by
  cases rest with
  | nil =>
    simp only [scan?_between_nil]
    rw [scan?_nil, ends, Option.bind_some, run?_singleton, Option.bind_fun_some]
  | cons c rest =>
    have delimiter := delimited c rfl
    obtain ⟨started, starts⟩ := start?_of_delimiter delimiter
    have steps : (state seen).step? (some c) = some (.between, [token, started]) := by
      rw [gathers.stops seen c delimiter, Lexer.startAfter?, ends, starts]
      rfl
    rw [scan?_cons, steps, Option.bind_some]
    simp only [scan?_mark _ _ c started starts]
    rw [← List.singleton_append, run?_append, run?_singleton, Option.bind_assoc]
    simp only [run?_singleton]

theorem scan?_lexeme {first : Char} {chars : List Char} {token : Token}
    (starts : Lexer.start? first = some (state [first], [])) (alike : ∀ c ∈ chars, kind c = true)
    (ends : (state (first :: chars).reverse).finish? = some [token]) (delimited : Delimited rest) :
    scan? .between reading (first :: chars ++ rest) =
      (reading.step? token).bind fun next => scan? .between next rest := by
  have begins : Lexer.step? .between (some first) = some (state [first], []) := starts
  rw [List.reverse_cons] at ends
  rw [List.cons_append, scan?_silent _ _ begins, scan?_gathered _ _ gathers _ _ alike]
  exact scan?_ended _ _ gathers ends delimited

end Gathered

theorem scan?_keyword (first : Char) (letters : List Char) {token : Token}
    (starts : Lexer.start? first = some (.word [first], [])) (lower : letters.all Char.isLower = true)
    (known : Lexer.keyword? (first :: letters) = some token) (delimited : Delimited rest) :
    scan? .between reading (first :: letters ++ rest) =
      (reading.step? token).bind fun next => scan? .between next rest := by
  apply scan?_lexeme _ _ gathers_word starts (List.all_eq_true.mp lower) _ delimited
  rw [Lexer.finish?, List.reverse_reverse, known, Option.map_some]

theorem isNumeralChar_of_isDigit {c : Char} (digit : c.isDigit = true) : Lexer.isNumeralChar c = true := by
  rw [Lexer.isNumeralChar, digit]
  rfl

theorem start?_of_isDigit {c : Char} (digit : c.isDigit = true) : Lexer.start? c = some (.numeral [c], []) := by
  have apart (other : Char) (unlike : other.isDigit = false) : c ≠ other := by
    rintro rfl
    rw [unlike] at digit
    cases digit
  have solid : Lexer.isSpace c = false := by
    simp [Lexer.isSpace, apart ' ' rfl, apart '\t' rfl, apart '\n' rfl, apart '\r' rfl]
  simp [Lexer.start?, solid, digit, apart '[' rfl, apart ']' rfl, apart '\x7b' rfl, apart '\x7d' rfl,
    apart ',' rfl, apart ':' rfl, apart '"' rfl]

/-- A numeral that begins with a digit or a minus. -/
theorem scan?_numeral {first : Char} {figures : List Char} {value : Number}
    (starts : Lexer.start? first = some (.numeral [first], []))
    (allowed : ∀ c ∈ figures, Lexer.isNumeralChar c = true)
    (means : (Json.Numeral.ofChars? (first :: figures)).map Json.Numeral.value? = some (some value))
    (delimited : Delimited rest) :
    scan? .between reading (first :: figures ++ rest) =
      (reading.step? (.number (some value))).bind fun next => scan? .between next rest := by
  obtain ⟨numeral, read, valued⟩ := Option.map_eq_some_iff.mp means
  apply scan?_lexeme _ _ gathers_numeral starts allowed _ delimited
  rw [Lexer.finish?, List.reverse_reverse, read, Option.map_some, valued]

end Draft.Reading

namespace Decimal

theorem digits_ne_nil (n : Nat) : digits n ≠ [] := by
  fun_cases digits n <;> simp

theorem head?_digits {n : Nat} (positive : 0 < n) : (digits n).head? ≠ some '0' := by
  fun_induction digits n with
  | case1 n small =>
    have all : ∀ each ∈ List.range 10, 0 < each → digitChar each ≠ '0' := by decide
    exact fun zero => all n (List.mem_range.mpr small) positive (Option.some.inj zero)
  | case2 n large ih =>
    obtain ⟨first, later, higher⟩ := List.exists_cons_of_ne_nil (digits_ne_nil (n / 10))
    have shorter := ih (by omega)
    rw [higher] at shorter ⊢
    exact shorter

end Decimal

namespace Json.Numeral

theorem unsigned?_digits (negative : Bool) (n : Nat) :
    unsigned? negative (Decimal.digits n) = some ⟨negative, Decimal.digits n, [], 0, true⟩ := by
  have figures : ∀ c ∈ Decimal.digits n, c.isDigit = true := fun c => Decimal.isDigit_of_mem_digits
  have taken : (Decimal.digits n).takeWhile Char.isDigit = Decimal.digits n := List.takeWhile_eq_self_iff.mpr figures
  have left : (Decimal.digits n).dropWhile Char.isDigit = [] := List.dropWhile_eq_nil_iff.mpr figures
  have filled : (Decimal.digits n).isEmpty = false := by
    rw [List.isEmpty_eq_false_iff]
    exact Decimal.digits_ne_nil n
  have lead : ((Decimal.digits n).head? == some '0' && decide ((Decimal.digits n).length > 1)) = false := by
    rcases Nat.eq_zero_or_pos n with rfl | positive
    · rw [Decimal.digits]
      rfl
    · have first := Decimal.head?_digits positive
      simp [first]
  rw [unsigned?, taken, left, filled, lead]
  rfl

theorem ofChars?_digits (n : Nat) :
    ofChars? (Decimal.digits n) = some ⟨false, Decimal.digits n, [], 0, true⟩ := by
  obtain ⟨first, later, shape⟩ := List.exists_cons_of_ne_nil (Decimal.digits_ne_nil n)
  have digit : first.isDigit = true := Decimal.isDigit_of_mem_digits (shape ▸ List.mem_cons_self)
  have unsigned := unsigned?_digits false n
  rw [shape] at unsigned ⊢
  rw [ofChars?, unsigned]
  rintro chars same
  cases same
  cases digit

/-- An integer of a machine word is read as it is written. -/
theorem value?_signed {value : Int} (least : Int64.minValue.toInt ≤ value) (greatest : value < UInt64.size) :
    (ofChars? (Decimal.signed value)).map value? = some (some (.whole value)) := by
  cases value with
  | ofNat n =>
    have small : n < UInt64.size := Int.ofNat_lt.mp greatest
    rw [Decimal.signed, ofChars?_digits, Option.map_some, value?]
    simp [Decimal.ofDigits_digits, small]
  | negSucc n =>
    have bound : Int64.minValue.toInt = -(UInt64.size / 2 : Nat) := rfl
    have small : n + 1 ≤ UInt64.size / 2 := by rw [bound] at least; omega
    rw [Decimal.signed, ofChars?, unsigned?_digits, Option.map_some, value?]
    simp [Decimal.ofDigits_digits, small]
    omega

end Json.Numeral

namespace Draft.Reading

open Json (Lexer Token)

variable (reading : Reading) (rest : List Char)

theorem scan?_signed {value : Int} (least : Int64.minValue.toInt ≤ value) (greatest : value < UInt64.size)
    (delimited : Delimited rest) :
    scan? .between reading (Decimal.signed value ++ rest) =
      (reading.step? (.number (some (.whole value)))).bind fun next => scan? .between next rest := by
  have means := Json.Numeral.value?_signed least greatest
  cases value with
  | ofNat n =>
    have figures : ∀ c ∈ Decimal.digits n, c.isDigit = true := fun c => Decimal.isDigit_of_mem_digits
    obtain ⟨first, later, shape⟩ := List.exists_cons_of_ne_nil (Decimal.digits_ne_nil n)
    rw [Decimal.signed, shape] at means ⊢
    rw [shape] at figures
    exact scan?_numeral _ _ (start?_of_isDigit (figures first List.mem_cons_self))
      (fun c inside => isNumeralChar_of_isDigit (figures c (List.mem_cons_of_mem _ inside))) means delimited
  | negSucc n =>
    exact scan?_numeral _ _ rfl (fun c inside => isNumeralChar_of_isDigit (Decimal.isDigit_of_mem_digits inside))
      means delimited

theorem scan?_writeNumber {value : Number} (integer : value.IsInteger) (delimited : Delimited rest) :
    scan? .between reading (Json.writeNumber value ++ rest) =
      (reading.step? (.number (some value))).bind fun next => scan? .between next rest := by
  cases value with
  | whole value => exact scan?_signed _ _ integer.1 integer.2 delimited
  | real value finite =>
    obtain rfl : value = -0.0 := integer
    have written : Decimal.Layout.document.write (-0.0) = ['-', '0', '.', '0'] := rfl
    have means : (Json.Numeral.ofChars? ['-', '0', '.', '0']).map Json.Numeral.value? =
        some (some (.real (-0.0) finite)) := rfl
    have allowed : ∀ c ∈ ['0', '.', '0'], Lexer.isNumeralChar c = true := List.all_eq_true.mp rfl
    rw [Json.writeNumber, written]
    exact scan?_numeral _ _ rfl allowed means delimited

end Draft.Reading

namespace Json

/-- What the lexer makes of a character as it is written in a quoted text. -/
def Part.ofChar (c : Char) : Part :=
  if c.toNat < 0x20 ∧ c ∉ ['\x08', '\x0c', '\n', '\r', '\t'] then .unit c.toNat else .char c

theorem Part.join?_ofChar (after : List Char) (c : Char) (before : List Part) :
    join? after (ofChar c :: before) = join? (c :: after) before := by
  unfold ofChar
  split
  next control =>
    have unpaired : isLow c.toNat = false ∧ isHigh c.toNat = false := by
      simp [isLow, isHigh]
      omega
    have same : Char.ofNat c.toNat = c := Char.ofNat_toNat c
    cases before with
    | nil => simp [join?, unpaired, same]
    | cons previous earlier =>
      cases previous with
      | unit high => rw [join?, unpaired.1, unpaired.2, same]; rfl
      | _ => simp [join?, unpaired, same]
  next => rfl

theorem Part.text?_ofChars (chars : List Char) :
    text? (chars.map ofChar).reverse = some (String.ofList chars) := by
  have joined (last : List Char) (after : List Char) :
      join? after (last.map ofChar) = some (last.reverse ++ after) := by
    induction last generalizing after with
    | nil => rfl
    | cons c before ih => rw [List.map_cons, join?_ofChar, ih, List.reverse_cons, List.append_assoc]; rfl
  rw [text?, ← List.map_reverse, joined, List.reverse_reverse, List.append_nil, Option.map_some]

theorem hexValue?_hexDigit {value : Nat} (small : value < 16) :
    Lexer.hexValue? (hexDigit value) = some value := by
  have all : ∀ each ∈ List.range 16, Lexer.hexValue? (hexDigit each) = some each := by decide
  exact all value (List.mem_range.mpr small)

end Json

namespace Draft.Reading

open Json (Lexer Token Part)

variable (reading : Reading) (rest : List Char)

theorem scan?_escape (c : Char) (parts : List Part) :
    scan? (.quoted parts) reading (Json.escape c ++ rest) = scan? (.quoted (Part.ofChar c :: parts)) reading rest := by
  unfold Json.escape
  split
  case h_8 quote backslash backspace feed newline carriage tab =>
    split
    next control =>
      have number : c.toNat < 32 := control
      have part : Part.ofChar c = .unit c.toNat := by
        apply if_pos
        simpa [number] using ⟨backspace, feed, newline, carriage, tab⟩
      have high : Lexer.step? (.unit parts 0 2) (some (Json.hexDigit (c.toNat / 16))) =
          some (.unit parts (c.toNat / 16) 1, []) := by
        rw [Lexer.step?, Json.hexValue?_hexDigit (by omega)]
        simp
      have low : Lexer.step? (.unit parts (c.toNat / 16) 1) (some (Json.hexDigit (c.toNat % 16))) =
          some (.quoted (.unit c.toNat :: parts), []) := by
        rw [Lexer.step?, Json.hexValue?_hexDigit (by omega), Option.bind_eq_bind, Option.bind_some,
          Nat.div_add_mod']
        rfl
      rw [part]
      calc
        scan? (.quoted parts) reading _ = scan? (.escape parts) reading _ := scan?_silent _ _ rfl
        _ = scan? (.unit parts 0 4) reading _ := scan?_silent _ _ rfl
        _ = scan? (.unit parts 0 3) reading _ := scan?_silent _ _ rfl
        _ = scan? (.unit parts 0 2) reading _ := scan?_silent _ _ rfl
        _ = scan? (.unit parts (c.toNat / 16) 1) reading _ := scan?_silent _ _ high
        _ = scan? (.quoted (.unit c.toNat :: parts)) reading rest := scan?_silent _ _ low
    next visible =>
      have part : Part.ofChar c = .char c := if_neg fun control => visible control.1
      have steps : Lexer.step? (.quoted parts) (some c) = some (.quoted (.char c :: parts), []) := by
        rw [Lexer.step?, if_neg quote, if_neg backslash, if_neg visible]
      rw [List.singleton_append, scan?_silent _ _ steps, part]
  -- The escapes of one letter.
  all_goals
    calc
      scan? (.quoted parts) reading _ = scan? (.escape parts) reading _ := scan?_silent _ _ rfl
      _ = _ := scan?_silent _ _ rfl

theorem scan?_escapes (chars : List Char) (parts : List Part) :
    scan? (.quoted parts) reading (chars.flatMap Json.escape ++ rest) =
      scan? (.quoted ((chars.map Part.ofChar).reverse ++ parts)) reading rest := by
  induction chars generalizing parts with
  | nil => rfl
  | cons c later ih =>
    rw [List.flatMap_cons, List.append_assoc, scan?_escape, ih, List.map_cons, List.reverse_cons, List.append_assoc]
    rfl

theorem scan?_quoted (text : String) :
    scan? .between reading (Json.quoted text ++ rest) =
      (reading.step? (.text (some text))).bind fun next => scan? .between next rest := by
  have opens : Lexer.step? .between (some '"') = some (.quoted [], []) := rfl
  have closes : Lexer.step? (.quoted (text.toList.map Part.ofChar).reverse) (some '"') =
      some (.between, [.text (some text)]) := by
    rw [Lexer.step?, if_pos rfl, Part.text?_ofChars, String.ofList_toList]
  rw [Json.quoted, List.cons_append, List.append_assoc, scan?_silent _ _ opens, scan?_escapes, List.append_nil]
  exact scan?_token _ _ closes

/-- Expecting a value, as the reader does at the start of an array too. -/
def Awaits (reading : Reading) (inside : List Level) : Prop :=
  ∀ token, token ≠ .closeArray → reading.step? token = value? inside token

theorem awaits_expectValue (inside : List Level) : Awaits (.expectValue inside) inside :=
  fun _ _ => rfl

theorem awaits_opened (held : List Draft) (outer : List Level) :
    Awaits (.opened (.items held :: outer)) (.items held :: outer) := by
  intro token different
  cases token with
  | closeArray => exact absurd rfl different
  | _ => rfl

theorem delimited_writeItems (items : List Json) : Delimited (Json.writeItems items ++ rest) := by
  cases items with
  | nil => exact fun _ first => .inr (.inl (Option.some.inj first).symm)
  | cons => exact fun _ first => .inl (Option.some.inj first).symm

theorem delimited_writeMembers (members : List (String × Json)) : Delimited (Json.writeMembers members ++ rest) := by
  cases members with
  | nil => exact fun _ first => .inr (.inr (Option.some.inj first).symm)
  | cons => exact fun _ first => .inl (Option.some.inj first).symm

theorem closed_of_room {container : Draft} {outer : List Level} (room : outer.length < depthLimit) :
    closed container outer = deliver container outer := by
  have within : (outer.drop (depthLimit - 1)).isEmpty = true := by
    rw [List.isEmpty_iff, List.drop_eq_nil_iff]
    omega
  rw [closed, if_pos within]

/-- The members of an open object, as far as they are read. -/
def named (members : List (String × Draft)) : List (Option String × Draft) :=
  (members.map fun member => (some member.1, member.2)).reverse

theorem nameMembers?_named (members : List (String × Draft)) :
    nameMembers? (named members).reverse = some members := by
  rw [named, List.reverse_reverse]
  induction members with
  | nil => rfl
  | cons member later ih => rw [List.map_cons, nameMembers?, ih]; rfl

theorem named_append (members : List (String × Draft)) (name : String) (value : Draft) :
    named (members ++ [(name, value)]) = (some name, value) :: named members := by
  rw [named, List.map_append, List.reverse_append]
  rfl

theorem scan?_name {reading : Reading} {held : List (Option String × Draft)} {name : String} {outer : List Level}
    (names : reading.step? (.text (some name)) = some (.expectColon held (some name) outer)) (chars : List Char) :
    scan? .between reading (Json.quoted name ++ ':' :: chars) =
      scan? .between (.expectValue (.named held (some name) :: outer)) chars := by
  rw [scan?_quoted, names, Option.bind_some, scan?_mark _ _ ':' .colon rfl]
  rfl

mutual

theorem scan?_write (value : Json) (reading : Reading) (inside : List Level) (rest : List Char)
    (awaits : Awaits reading inside) (integers : (ofJson value).HasIntegers)
    (room : (ofJson value).depth + inside.length ≤ depthLimit) (delimited : Delimited rest) :
    scan? .between reading (value.write ++ rest) =
      (deliver (ofJson value) inside).bind fun next => scan? .between next rest := by
  match value with
  | .null =>
    have read := scan?_keyword reading rest 'n' ['u', 'l', 'l'] rfl rfl rfl delimited
    rw [awaits .null nofun] at read
    exact read
  | .bool true =>
    have read := scan?_keyword reading rest 't' ['r', 'u', 'e'] rfl rfl rfl delimited
    rw [awaits (.bool true) nofun] at read
    exact read
  | .bool false =>
    have read := scan?_keyword reading rest 'f' ['a', 'l', 's', 'e'] rfl rfl rfl delimited
    rw [awaits (.bool false) nofun] at read
    exact read
  | .number value =>
    rw [Json.write, scan?_writeNumber _ _ integers delimited, awaits (.number (some value)) nofun]
    rfl
  | .text content =>
    rw [Json.write, scan?_quoted, awaits (.text (some content)) nofun]
    rfl
  | .array [] =>
    rw [ofJson, ofItems, depth, depthOfItems] at room
    rw [Json.write, List.cons_append, scan?_mark _ _ '[' .openArray rfl, awaits .openArray nofun, List.singleton_append]
    simp only [scan?_mark _ _ ']' .closeArray rfl]
    rw [← closed_of_room (by omega)]
    rfl
  | .array (item :: later) =>
    rw [ofJson, ofItems, depth, depthOfItems] at room
    have first := scan?_write item (.opened (.items [] :: inside)) (.items [] :: inside) (Json.writeItems later ++ rest)
      (awaits_opened [] inside) integers.1 (by rw [List.length_cons]; omega) (delimited_writeItems _ _)
    have others := scan?_writeItems later [ofJson item] inside rest integers.2 (by omega)
    rw [Json.write, List.cons_append, List.append_assoc, scan?_mark _ _ '[' .openArray rfl, awaits .openArray nofun]
    exact first.trans others
  | .object [] =>
    rw [ofJson, ofMembers, depth, depthOfMembers] at room
    rw [Json.write, List.cons_append, scan?_mark _ _ '\x7b' .openObject rfl, awaits .openObject nofun,
      List.singleton_append]
    simp only [scan?_mark _ _ '\x7d' .closeObject rfl]
    rw [← closed_of_room (by omega)]
    rfl
  | .object ((name, value) :: later) =>
    rw [ofJson, ofMembers, depth, depthOfMembers] at room
    have names : step? (.opened (.members [] :: inside)) (.text (some name)) =
        some (.expectColon [] (some name) inside) := rfl
    have first := scan?_write value (.expectValue (.named [] (some name) :: inside)) (.named [] (some name) :: inside)
      (Json.writeMembers later ++ rest) (awaits_expectValue _) integers.1 (by rw [List.length_cons]; omega)
      (delimited_writeMembers _ _)
    have others := scan?_writeMembers later [(name, ofJson value)] inside rest integers.2 (by omega)
    rw [Json.write, List.cons_append, List.append_assoc, List.cons_append, List.append_assoc,
      scan?_mark _ _ '\x7b' .openObject rfl, awaits .openObject nofun]
    exact (scan?_name names _).trans (first.trans others)

theorem scan?_writeItems (items : List Json) (held : List Draft) (outer : List Level) (rest : List Char)
    (integers : ItemsHaveIntegers (ofItems items))
    (room : depthOfItems (ofItems items) + 1 + outer.length ≤ depthLimit) :
    scan? .between (.expectSeparator (.items held :: outer)) (Json.writeItems items ++ rest) =
      (deliver (.array (held.reverse ++ ofItems items)) outer).bind fun next => scan? .between next rest := by
  match items with
  | [] =>
    rw [Json.writeItems, List.singleton_append, scan?_mark _ _ ']' .closeArray rfl, ofItems, List.append_nil,
      ← closed_of_room (by omega)]
    rfl
  | item :: later =>
    rw [ofItems, depthOfItems] at room
    have first := scan?_write item (.expectValue (.items held :: outer)) (.items held :: outer)
      (Json.writeItems later ++ rest) (awaits_expectValue _) integers.1 (by rw [List.length_cons]; omega)
      (delimited_writeItems _ _)
    have others := scan?_writeItems later (ofJson item :: held) outer rest integers.2 (by omega)
    rw [List.reverse_cons, List.append_assoc] at others
    rw [Json.writeItems, List.cons_append, List.append_assoc, scan?_mark _ _ ',' .comma rfl]
    exact first.trans others

theorem scan?_writeMembers (members : List (String × Json)) (held : List (String × Draft)) (outer : List Level)
    (rest : List Char) (integers : MembersHaveIntegers (ofMembers members))
    (room : depthOfMembers (ofMembers members) + 1 + outer.length ≤ depthLimit) :
    scan? .between (.expectSeparator (.members (named held) :: outer)) (Json.writeMembers members ++ rest) =
      (deliver (.object (held ++ ofMembers members)) outer).bind fun next => scan? .between next rest := by
  match members with
  | [] =>
    have close : step? (.expectSeparator (.members (named held) :: outer)) .closeObject =
        deliver (.object held) outer := by
      rw [step?, closeObject, nameMembers?_named, closed_of_room (by omega)]
      rfl
    rw [Json.writeMembers, List.singleton_append, scan?_mark _ _ '\x7d' .closeObject rfl, close, ofMembers,
      List.append_nil]
  | (name, value) :: later =>
    have names : step? (.expectName (named held) outer) (.text (some name)) =
        some (.expectColon (named held) (some name) outer) := rfl
    rw [ofMembers, depthOfMembers] at room
    have first := scan?_write value (.expectValue (.named (named held) (some name) :: outer))
      (.named (named held) (some name) :: outer) (Json.writeMembers later ++ rest) (awaits_expectValue _)
      integers.1 (by rw [List.length_cons]; omega) (delimited_writeMembers _ _)
    have others := scan?_writeMembers later (held ++ [(name, ofJson value)]) outer rest integers.2 (by omega)
    rw [named_append, List.append_assoc] at others
    rw [Json.writeMembers, List.cons_append, List.append_assoc, List.cons_append, List.append_assoc,
      scan?_mark _ _ ',' .comma rfl]
    exact (scan?_name names _).trans (first.trans others)

end

end Draft.Reading

namespace Draft

theorem ofTokens?_bind (chars : List Char) :
    (Json.tokens? (chars.map some)).bind ofTokens? =
      (Reading.scan? .between (.expectValue []) chars).bind Reading.document? := by
  rw [Reading.scan?, Option.bind_assoc]
  rfl

/-- Text that was written is read as what it was written for. -/
theorem parse?_render {value : Json} (integers : (ofJson value).HasIntegers)
    (shallow : (ofJson value).depth ≤ depthLimit) : parse? value.render = some (.ofJson value) := by
  have read := Reading.scan?_write value (.expectValue []) [] [] (Reading.awaits_expectValue []) integers shallow nofun
  rw [List.append_nil] at read
  rw [parse?, Json.render, String.toList_ofList, ofTokens?_bind, read]
  rfl

theorem parseBytes?_encode (text : String) : parseBytes? (Text.Utf8.encode text) = parse? text := by
  rw [parseBytes?, parse?, Text.Utf8.symbols_encode]

end Draft

end Colloquy
