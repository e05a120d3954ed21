import Colloquy.Decimal.Digits
import Colloquy.Text.Blank
import Colloquy.Time.Date

/-! Points in time, kept in UTC to the nanosecond. Reading is a little freer than
RFC 3339: blanks may stand before a number and before a separator of numbers,
and leading zeros may be missing. What is written is always RFC 3339 in UTC. A
leap second is kept inside the second before it, with a nanosecond count of a
whole second or more. -/
namespace Colloquy.Time

def nanosPerSecond : Nat := 1000000000

structure Timestamp where
  date : Date
  hour : Nat
  minute : Nat
  second : Nat
  nanos : Nat
  inDay : hour < 24 ∧ minute < 60 ∧ second < 60
  nanosInRange : nanos < nanosPerSecond ∨ (second = 59 ∧ nanos < 2 * nanosPerSecond)
  deriving DecidableEq

namespace Timestamp

def of? (date : Date) (hour minute second nanos : Nat) : Option Timestamp :=
  if inRange : (hour < 24 ∧ minute < 60 ∧ second < 60) ∧
      (nanos < nanosPerSecond ∨ (second = 59 ∧ nanos < 2 * nanosPerSecond)) then
    some ⟨date, hour, minute, second, nanos, inRange.1, inRange.2⟩
  else none

def ofUnixSeconds? (seconds : Int) : Option Timestamp := do
  let date ← Date.ofDays? (seconds / 86400)
  let secondOfDay := (seconds % 86400).toNat
  of? date (secondOfDay / 3600) (secondOfDay / 60 % 60) (secondOfDay % 60) 0

/-- The instant that local time shows, where clocks are `offset` minutes ahead of
UTC. -/
def ofLocal? (date : Date) (hour minute second nanos : Nat) (offset : Int) : Option Timestamp := do
  let minutes := (hour * 60 + minute : Nat) - offset
  let date ← if minutes < 0 then date.previous?
    else if 1440 ≤ minutes then date.next?
    else some date
  let minuteOfDay := (minutes % 1440).toNat
  of? date (minuteOfDay / 60) (minuteOfDay % 60) second nanos

def writeYear (year : Int) : List Char :=
  if 0 ≤ year ∧ year ≤ 9999 then Decimal.padded 4 year.toNat
  else (if year < 0 then '-' else '+') :: Decimal.padded 4 year.natAbs

def writeFraction (nanos : Nat) : List Char :=
  if nanos = 0 then []
  else if nanos % 1000000 = 0 then '.' :: Decimal.padded 3 (nanos / 1000000)
  else if nanos % 1000 = 0 then '.' :: Decimal.padded 6 (nanos / 1000)
  else '.' :: Decimal.padded 9 nanos

def write (t : Timestamp) : List Char :=
  writeYear t.date.year ++ '-' :: Decimal.padded 2 t.date.month ++ '-' :: Decimal.padded 2 t.date.day ++
    'T' :: Decimal.padded 2 t.hour ++ ':' :: Decimal.padded 2 t.minute ++
    ':' :: Decimal.padded 2 (t.second + t.nanos / nanosPerSecond) ++
    writeFraction (t.nanos % nanosPerSecond) ++ ['Z']

def render (t : Timestamp) : String :=
  String.ofList t.write

/-- At least one digit and at most `width` of them, after any blanks. -/
def number? (width : Nat) (chars : List Char) : Option (Nat × List Char) :=
  let chars := Text.dropBlanks chars
  let digits := (chars.takeWhile Char.isDigit).take width
  if digits.isEmpty then none else some (Decimal.ofDigits digits, chars.drop digits.length)

/-- A year has up to four digits, or a sign and any number of them. -/
def year? (chars : List Char) : Option (Int × List Char) :=
  match Text.dropBlanks chars with
  | '-' :: rest => signed rest fun magnitude => -magnitude
  | '+' :: rest => signed rest fun magnitude => magnitude
  | chars => (number? 4 chars).map fun (magnitude, rest) => (magnitude, rest)
where
  signed (rest : List Char) (value : Int → Int) : Option (Int × List Char) :=
    let digits := rest.takeWhile Char.isDigit
    if digits.isEmpty then none
    else some (value (Decimal.ofDigits digits), rest.dropWhile Char.isDigit)

def separator? (mark : Char) (chars : List Char) : Option (List Char) :=
  match Text.dropBlanks chars with
  | c :: rest => if c = mark then some rest else none
  | [] => none

def date? (chars : List Char) : Option (Date × List Char) := do
  let (year, chars) ← year? chars
  let chars ← separator? '-' chars
  let (month, chars) ← number? 2 chars
  let chars ← separator? '-' chars
  let (day, chars) ← number? 2 chars
  let date ← Date.of? year month day
  return (date, chars)

/-- A fraction has at least one digit after its point; those after the ninth are
dropped. -/
def fraction? : List Char → Option (Nat × List Char)
  | '.' :: rest =>
    let digits := rest.takeWhile Char.isDigit
    let kept := digits.take 9
    if digits.isEmpty then none
    else some (Decimal.ofDigits kept * Nat.pow 10 (9 - kept.length), rest.dropWhile Char.isDigit)
  | chars => some (0, chars)

def twoDigits? : List Char → Option (Nat × List Char)
  | tens :: ones :: rest =>
    if tens.isDigit && ones.isDigit then some (Decimal.ofDigits [tens, ones], rest) else none
  | _ => none

/-- The minutes that local clocks are ahead of UTC; less than a day. -/
def offset? (chars : List Char) : Option (Int × List Char) :=
  match chars with
  | 'Z' :: rest => some (0, rest)
  | 'z' :: rest => some (0, rest)
  | '+' :: rest => signed rest fun minutes => minutes
  | '-' :: rest => signed rest fun minutes => -minutes
  | '\u2212' :: rest => signed rest fun minutes => -minutes
  | u :: t :: c :: rest =>
    if [u, t, c].map Char.toUpper = ['U', 'T', 'C'] then some (0, rest) else none
  | _ => none
where
  signed (chars : List Char) (value : Int → Int) : Option (Int × List Char) := do
    let (hours, chars) ← twoDigits? chars
    let (minutes, chars) ← twoDigits? (chars.dropWhile fun c => c == ':' || Text.isBlank c)
    if hours < 24 ∧ minutes < 60 then some (value ((hours * 60 + minutes : Nat) : Int), chars)
    else none

def ofChars? (chars : List Char) : Option Timestamp := do
  let (date, chars) ← date? chars
  let chars ← match chars with
    | 'T' :: rest => some rest
    | 't' :: rest => some rest
    | ' ' :: rest => some rest
    | _ => none
  let (hour, chars) ← number? 2 chars
  let chars ← separator? ':' chars
  let (minute, chars) ← number? 2 chars
  let chars ← separator? ':' chars
  let (second, chars) ← number? 2 chars
  let (nanos, chars) ← fraction? chars
  let (offset, chars) ← offset? (Text.dropBlanks chars)
  if (Text.dropBlanks chars).isEmpty ∧ hour < 24 ∧ minute < 60 then
    if second = 60 then ofLocal? date hour minute 59 (nanos + nanosPerSecond) offset
    else ofLocal? date hour minute second nanos offset
  else none

def parse? (text : String) : Option Timestamp :=
  ofChars? text.toList

end Timestamp

end Colloquy.Time
