import Colloquy.Chat.Advice
import Colloquy.Proofs.Chat.Refusal

/-! The wait that the headers of a refusal advise. The first header of its name is read,
and only then looked into; so where several have the name, the order in which they are
listed decides which number there is, and whether there is one. -/
namespace Colloquy

/-- The number that digits count, if they are digits and a word holds it. -/
def counted? (chars : List Char) : Option UInt64 :=
  if chars.isEmpty || !chars.all Char.isDigit || Decimal.ofDigits chars ≥ UInt64.size then none
  else some (UInt64.ofNat (Decimal.ofDigits chars))

theorem counted?_eq_some_iff (chars : List Char) (seconds : UInt64) :
    counted? chars = some seconds ↔
      chars ≠ [] ∧ (∀ c ∈ chars, c.isDigit = true) ∧ Decimal.ofDigits chars = seconds.toNat := by
  unfold counted?
  split
  next refused =>
    simp only [Bool.or_eq_true, List.isEmpty_iff, Bool.not_eq_true', List.all_eq_false, decide_eq_true_eq] at refused
    simp only [reduceCtorEq, false_iff]
    rintro ⟨written, decimal, counts⟩
    rcases refused with (empty | ⟨c, inside, other⟩) | large
    · exact written empty
    · exact other (decimal c inside)
    · have small := seconds.toNat_lt_size
      omega
  next taken =>
    simp only [Bool.or_eq_true, List.isEmpty_iff, Bool.not_eq_true', List.all_eq_false, decide_eq_true_eq,
      not_or, not_exists, not_and, Bool.not_eq_true, Bool.not_eq_false, Nat.not_le] at taken
    obtain ⟨⟨written, decimal⟩, small⟩ := taken
    rw [Option.some.injEq, ← UInt64.toNat_inj, UInt64.toNat_ofNat_of_lt' small]
    refine ⟨fun counts => ⟨written, fun c inside => ?_, counts⟩, fun ⟨_, _, counts⟩ => counts⟩
    simpa using decimal c inside

theorem seconds?_plus {value : String} {number : List Char} (trimmed : (Text.trim value).toList = '+' :: number) :
    seconds? value = counted? number := by
  rw [seconds?, trimmed]
  rfl

theorem seconds?_plain {value : String} (trimmed : (Text.trim value).toList.head? ≠ some '+') :
    seconds? value = counted? (Text.trim value).toList := by
  unfold seconds?
  split
  next number shape => exact absurd (by rw [shape]; rfl) trimmed
  next => rfl

theorem seconds?_eq_some_iff (value : String) (seconds : UInt64) :
    seconds? value = some seconds ↔ Spells value seconds := by
  constructor
  · intro read
    obtain ⟨before, after, whole, blank⟩ := Text.exists_blanks_around value
    by_cases signed : (Text.trim value).toList.head? = some '+'
    · obtain ⟨number, shape⟩ := List.head?_eq_some_iff.mp signed
      rw [seconds?_plus shape, counted?_eq_some_iff] at read
      obtain ⟨written, decimal, counts⟩ := read
      rw [shape] at whole
      exact .digits before ['+'] number after whole blank (.inr rfl) written decimal counts
    · rw [seconds?_plain signed, counted?_eq_some_iff] at read
      obtain ⟨written, decimal, counts⟩ := read
      have unsigned : value.toList = before ++ ([] ++ (Text.trim value).toList) ++ after := by
        rw [List.nil_append]
        exact whole
      exact .digits before [] _ after unsigned blank (.inl rfl) written decimal counts
  · rintro ⟨before, sign, number, after, whole, blank, plus, written, decimal, counts⟩
    have solid (c : Char) (inside : c ∈ number) : Text.isBlank c = false :=
      Text.not_isBlank_of_isDigit (decimal c inside)
    have spelled : counted? number = some seconds :=
      (counted?_eq_some_iff number seconds).mpr ⟨written, decimal, counts⟩
    obtain ⟨first, rest, starts⟩ := List.exists_cons_of_ne_nil written
    have isFirst : first ∈ number := starts ▸ List.mem_cons_self
    have ends := List.getLast?_eq_some_getLast written
    have isLast := List.getLast_mem written
    rcases plus with rfl | rfl
    · have trimmed := Text.toList_trim whole blank starts (solid first isFirst) ends (solid _ isLast)
      rw [seconds?_plain, trimmed]
      · exact spelled
      · rw [trimmed, List.nil_append, starts, List.head?_cons]
        rintro ⟨⟩
        exact absurd (decimal '+' isFirst) (by decide)
    · have signedEnds : (['+'] ++ number).getLast? = some (number.getLast written) := by
        rw [List.getLast?_append, ends, Option.some_or]
      have trimmed := Text.toList_trim whole blank rfl (by decide) signedEnds (solid _ isLast)
      rw [seconds?_plus trimmed]
      exact spelled

theorem retryAfter_eq (headers : List (String × String)) :
    retryAfter headers = (advisers headers).head?.bind fun header => seconds? header.2 := by
  rw [retryAfter, advisers, List.head?_filter]

theorem advises_seconds? (header : String × String) : Advises header (seconds? header.2) :=
  seconds?_eq_some_iff header.2

theorem Advises.eq {header : String × String} {one other : Option UInt64} (first : Advises header one)
    (second : Advises header other) : one = other :=
  Option.ext fun seconds => (first seconds).trans (second seconds).symm

theorem advisers_perm {listed headers : List (String × String)} (same : listed.Perm headers) :
    (advisers listed).Perm (advisers headers) :=
  same.filter _

/-- Any header that advises may be the first one. -/
theorem exists_listed {header : String × String} {headers : List (String × String)}
    (member : header ∈ advisers headers) :
    ∃ listed, listed.Perm headers ∧ retryAfter listed = seconds? header.2 := by
  obtain ⟨inside, named⟩ := List.mem_filter.mp member
  refine ⟨header :: headers.erase header, (List.perm_cons_erase inside).symm, ?_⟩
  simp only [retryAfter, List.find?_cons, named, Option.bind_some]

/-- The waits that are read are those of the headers that advise, each in some order. -/
theorem exists_retryAfter_iff (headers : List (String × String)) (wait : Option UInt64) :
    (∃ listed, listed.Perm headers ∧ retryAfter listed = wait) ↔
      (advisers headers = [] ∧ wait = none) ∨ ∃ header ∈ advisers headers, Advises header wait := by
  constructor
  · rintro ⟨listed, same, rfl⟩
    have advising := advisers_perm same
    rw [retryAfter_eq]
    cases listedFirst : (advisers listed).head? with
    | none =>
      rw [List.head?_eq_none_iff.mp listedFirst, List.nil_perm] at advising
      exact .inl ⟨advising, rfl⟩
    | some header =>
      rw [Option.bind_some]
      exact .inr ⟨header, advising.mem_iff.mp (List.mem_of_mem_head? listedFirst), advises_seconds? header⟩
  · rintro (⟨unadvised, rfl⟩ | ⟨header, member, advises⟩)
    · exact ⟨headers, .refl _, by rw [retryAfter_eq, unadvised]; rfl⟩
    · obtain ⟨listed, same, told⟩ := exists_listed member
      exact ⟨listed, same, told.trans ((advises_seconds? header).eq advises)⟩

theorem settles_of_agree {headers : List (String × String)} (agree : Agree headers) :
    Settles retryAfter headers := by
  have told (listed : List (String × String)) (same : listed.Perm headers) :=
    (exists_retryAfter_iff headers (retryAfter listed)).mp ⟨listed, same, rfl⟩
  refine ⟨fun one other first second => ?order, fun listed same => ?present⟩
  case order =>
    rcases told one first with ⟨unadvised, nothing⟩ | ⟨header, member, advises⟩
    · rcases told other second with ⟨-, none_⟩ | ⟨header, member, -⟩
      · rw [nothing, none_]
      · rw [unadvised] at member
        cases member
    · rcases told other second with ⟨unadvised, -⟩ | ⟨next, inside, advisesNext⟩
      · rw [unadvised] at member
        cases member
      · apply Option.ext
        intro seconds
        rw [advises seconds, advisesNext seconds]
        exact agree header member next inside seconds
  case present =>
    rcases told listed same with ⟨unadvised, nothing⟩ | ⟨header, member, advises⟩
    · simp [unadvised, nothing]
    · rw [Option.isSome_iff_exists]
      constructor
      · rintro ⟨seconds, found⟩
        exact ⟨header, member, seconds, (advises seconds).mp found⟩
      · rintro ⟨other, inside, seconds, spelled⟩
        exact ⟨seconds, (advises seconds).mpr ((agree other inside header member seconds).mp spelled)⟩

theorem agree_of_settles {headers : List (String × String)} (settles : Settles retryAfter headers) :
    Agree headers := by
  intro one member other inside seconds
  obtain ⟨first, sameFirst, toldFirst⟩ := exists_listed member
  obtain ⟨second, sameSecond, toldSecond⟩ := exists_listed inside
  rw [← seconds?_eq_some_iff, ← seconds?_eq_some_iff, ← toldFirst, ← toldSecond,
    settles.order first second sameFirst sameSecond]

theorem settles_retryAfter_iff (headers : List (String × String)) :
    Settles retryAfter headers ↔ Agree headers :=
  ⟨agree_of_settles, settles_of_agree⟩

namespace Chat.Refusal

/-- The wait is settled exactly when the headers of the name agree; else each of them
decides it in some order. A failure has the wait that its headers advise. -/
theorem wait_settled_iff (headers : List (String × String)) :
    (Settles retryAfter headers ↔ Agree headers) ∧
      (∀ r : Refusal, Settles (fun listed => { r with headers := listed }.failure.retryAfter) headers ↔
        Agree headers) ∧
      ∀ wait, (∃ listed, listed.Perm headers ∧ retryAfter listed = wait) ↔
        (advisers headers = [] ∧ wait = none) ∨ ∃ header ∈ advisers headers, Advises header wait := by
  refine ⟨settles_retryAfter_iff headers, fun r => ?_, exists_retryAfter_iff headers⟩
  have same : (fun listed => { r with headers := listed }.failure.retryAfter) = retryAfter :=
    funext fun listed => { r with headers := listed }.classifies.retryAfter
  rw [same]
  exact settles_retryAfter_iff headers

/-- Two headers whose names differ in the case of a letter. Only the second has a number. -/
def shadowing : List (String × String) :=
  [("Retry-After", "Wed, 21 Oct 2015 07:28:00 GMT"), ("retry-after", "7")]

/-- The number is read or not, as the headers are listed. -/
theorem wait_depends_on_order :
    (Entries.names shadowing).Nodup ∧ retryAfter shadowing = none ∧ retryAfter shadowing.reverse = some 7 ∧
      { overloaded with headers := shadowing }.failure.retryAfter = none ∧
      { overloaded with headers := shadowing.reverse }.failure.retryAfter = some 7 ∧
      ¬Settles retryAfter shadowing := by
  have early : retryAfter shadowing = none := by decide
  have late : retryAfter shadowing.reverse = some 7 := by decide
  refine ⟨by decide, early, late, ?_, ?_, ?_⟩
  · exact { overloaded with headers := shadowing }.classifies.retryAfter.trans early
  · exact { overloaded with headers := shadowing.reverse }.classifies.retryAfter.trans late
  · intro settles
    have same := settles.order shadowing shadowing.reverse (.refl _) shadowing.reverse_perm
    rw [early, late] at same
    cases same

end Chat.Refusal

end Colloquy
