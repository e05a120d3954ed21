import Colloquy.Chat.Classification
import Colloquy.Proofs.Json.Survival
import Colloquy.Proofs.Json.Text
import Colloquy.Proofs.Text.Blank

/-! Failures of the chat service. The status decides what kind of failure it is, the
body only what is said about it; and what is kept of the body explains the failure
once more. -/
namespace Colloquy

namespace Text

theorem trimmedRight_trimRight (text : String) : TrimmedRight text (trimRight text) where
  blanks := by
    rw [trimRight, String.toList_ofList]
    exact exists_blanks_after text.toList
  solid := by
    intro c last
    rw [trimRight, String.toList_ofList, dropBlanksRight, dropBlanks, List.getLast?_reverse] at last
    have kept := List.head?_dropWhile_not isBlank text.toList.reverse
    rw [Option.mem_def.mp last] at kept
    exact kept

theorem TrimmedRight.ne_empty {text line : String} (trimmed : TrimmedRight text line) {c : Char}
    (inside : c ∈ text.toList) (solid : isBlank c = false) : line ≠ "" := by
  rintro rfl
  obtain ⟨rest, whole, blank⟩ := trimmed.blanks
  rw [String.toList_empty, List.nil_append] at whole
  rw [blank c (whole ▸ inside)] at solid
  cases solid

end Text

namespace Draft

theorem mem_parts_of_record? {d : Draft} {names : List String} {r : Record} (read : d.record? names = some r)
    {name : String} {source : Draft} (found : r.find? name = some source) : source ∈ d.parts := by
  have listed := Entries.mem_of_find? found
  cases d with
  | array items =>
    obtain ⟨-, told⟩ := Option.ite_some_none_eq_some.mp read
    subst told
    exact (List.of_mem_zip listed).2
  | object members =>
    obtain ⟨-, told⟩ := Option.ite_some_none_eq_some.mp read
    subst told
    exact List.mem_map_of_mem (List.mem_filter.mp listed).1
  | _ => cases read

theorem depth_pos_of_record? {d : Draft} {names : List String} {r : Record} (read : d.record? names = some r) :
    0 < d.depth := by
  cases d with
  | array items => exact depth_array_pos items
  | object members => exact depth_object_pos members
  | _ => cases read

/-- A record as it is written lies within the document from which its members were read. -/
theorem within_record {d : Draft} {names : List String} {r : Record} (read : d.record? names = some r)
    {members : List (String × Option Json)}
    (each : ∀ name value, (name, some value) ∈ members →
      value.document.Within .null ∨ ∃ source, r.find? name = some source ∧ value.document.Within source) :
    (Json.record members).document.Within d := by
  apply Within.of_parts (depth_object_pos _) (depth_pos_of_record? read)
  intro part inside
  obtain ⟨member, held, rfl⟩ := List.mem_map.mp inside
  obtain ⟨value, listed, same⟩ := Json.exists_of_mem_heldMembers held
  rw [same]
  obtain scalar | ⟨source, found, within⟩ := each member.1 value listed
  · exact ⟨.null, .inl rfl, scalar⟩
  · exact ⟨source, .inr (mem_parts_of_record? read found), within⟩

end Draft

namespace Chat

namespace Explanation

theorem survives : Survives decode? encode := by
  apply Survives.record
  · exact fun _ => by simp
  · intro d explained held read shows
    unfold decode? at read ⊢
    simp only [Option.bind_eq_bind, Option.bind_eq_some_iff] at read ⊢
    obtain ⟨r, -, message, readMessage, errorType, readType, param, readParam, code, readCode, told⟩ := read
    cases told
    obtain ⟨s, recorded, holds⟩ := shows.record? ["message", "type", "param", "code"]
    have message_ := holds.written .text rfl readMessage (by simp) rfl
    have type_ := holds.nullable .text readType (by simp) rfl
    have param_ := holds.nullable .json readParam (by simp) rfl
    have code_ := holds.nullable .json readCode (by simp) rfl
    exact ⟨s, recorded, message, message_, errorType, type_, param, param_, code, code_, rfl⟩

/-- An opaque member lies within what it was read from; null stands for one that is not
there. -/
theorem within_orNull {r : Record} {name : String} {value : Option Json}
    (read : r.optional name Draft.json? = some value) :
    (Json.orNull id value).document.Within .null ∨
      ∃ source, r.find? name = some source ∧ (Json.orNull id value).document.Within source := by
  cases value with
  | none => exact .inl (.refl _)
  | some value =>
    obtain ⟨source, found, -, readSource⟩ := Record.exists_of_optional read
    exact .inr ⟨source, found, Draft.within_of_json? readSource⟩

theorem within {d : Draft} {e : Explanation} (read : decode? d = some e) : e.encode.document.Within d := by
  unfold decode? at read
  simp only [Option.bind_eq_bind, Option.bind_eq_some_iff] at read
  obtain ⟨r, recorded, message, readMessage, errorType, readType, param, readParam, code, readCode, told⟩ := read
  cases told
  apply Draft.within_record recorded
  intro name value listed
  simp only [List.mem_cons, Prod.mk.injEq, Option.some.injEq, List.not_mem_nil, or_false] at listed
  obtain ⟨rfl, rfl⟩ | ⟨rfl, rfl⟩ | ⟨rfl, rfl⟩ | ⟨rfl, rfl⟩ := listed
  · exact .inl ⟨Nat.le_refl 0, id⟩
  · cases errorType <;> exact .inl ⟨Nat.le_refl 0, id⟩
  · exact within_orNull readParam
  · exact within_orNull readCode

end Explanation

namespace ErrorBody

theorem survives : Survives decode? encode := by
  apply Survives.record
  · exact fun _ => by simp
  · intro d body held read shows
    unfold decode? at read ⊢
    simp only [Option.bind_eq_bind, Option.bind_eq_some_iff] at read ⊢
    obtain ⟨r, -, error, readError, told⟩ := read
    cases told
    obtain ⟨s, recorded, holds⟩ := shows.record? ["error"]
    have error_ := holds.required Explanation.survives readError (by simp) rfl
    exact ⟨s, recorded, error, error_, rfl⟩

theorem within {d : Draft} {body : ErrorBody} (read : decode? d = some body) : body.encode.document.Within d := by
  unfold decode? at read
  simp only [Option.bind_eq_bind, Option.bind_eq_some_iff] at read
  obtain ⟨r, recorded, error, readError, told⟩ := read
  cases told
  apply Draft.within_record recorded
  intro name value listed
  simp only [List.mem_cons, Prod.mk.injEq, Option.some.injEq, List.not_mem_nil, or_false] at listed
  obtain ⟨rfl, rfl⟩ := listed
  obtain ⟨source, found, readSource⟩ := Option.bind_eq_some_iff.mp readError
  exact .inr ⟨source, found, Explanation.within readSource⟩

end ErrorBody

namespace Refusal

theorem statusLine_ne_empty (r : Refusal) : r.statusLine ≠ "" := by
  obtain ⟨first, later, shape⟩ := List.exists_cons_of_ne_nil (Nat.toDigits_ne_nil (n := r.status.toNat) (b := 10))
  have digit : first.isDigit = true :=
    Nat.isDigit_of_mem_toDigits (by decide) (by decide) (shape ▸ List.mem_cons_self)
  apply (Text.trimmedRight_trimRight _).ne_empty _ (Text.not_isBlank_of_isDigit digit)
  simp [shape]

theorem classifies (r : Refusal) : r.Classifies r.failure := by
  have retryable : isRetryableStatus r.status = true ↔ r.status = 429 ∨ 500 ≤ r.status := by
    simp [isRetryableStatus]
  unfold failure
  split <;> exact ⟨rfl, rfl, retryable, rfl⟩

theorem codes_codeText (e : Explanation) : Codes e.code e.codeText := by
  unfold Explanation.codeText
  rcases e.code with _ | value
  · exact .absent
  · rw [Option.bind_some]
    split
    next => exact .null
    next code => exact .text code
    next present untold => exact .other value present untold

theorem explains (r : Refusal) : r.Explains r.failure := by
  have line : Text.TrimmedRight s!"{r.status.toNat} {r.statusText}" r.statusLine := Text.trimmedRight_trimRight _
  have filled := r.statusLine_ne_empty
  cases explained : r.explanation? with
  | none =>
    rw [failure, explained]
    have unread (body : ErrorBody) : r.explanation? ≠ some body := by simp [explained]
    refine ⟨filled, fun body found => absurd found (unread body), fun _ => line, fun _ => ⟨rfl, rfl⟩,
      fun body found => absurd found (unread body), fun body found => absurd found (unread body),
      fun body found => absurd found (unread body), ?_⟩
    rw [explained]
    rfl
  | some body =>
    have only (other : ErrorBody) (found : r.explanation? = some other) : other = body :=
      Option.some.inj (found.symm.trans explained)
    rw [failure, explained]
    refine ⟨?message, fun other found named => ?given, fun unnamed => ?line, fun absent => ?nothing,
      fun other found => ?errorType, fun other found => ?code, fun other found => ?kept, ?data⟩
    case message =>
      dsimp only
      split
      next => exact filled
      next named => simpa using named
    case given =>
      rw [only other found] at named ⊢
      exact if_neg (by simpa using named)
    case line =>
      have empty := unnamed body explained
      dsimp only
      rw [empty]
      exact line
    case nothing =>
      rw [explained] at absent
      cases absent
    case errorType => rw [only other found]
    case code => exact only other found ▸ codes_codeText body.error
    case kept => rw [only other found]
    case data =>
      rw [explained]
      rfl

theorem failure_of_explanation? {r : Refusal} {body : Text.Bytes}
    (same : { r with body }.explanation? = r.explanation?) : { r with body }.failure = r.failure := by
  rw [failure, same, failure]
  rfl

/-- The data of a failure are an explanation that was read from the body. -/
theorem exists_of_data {r : Refusal} {data : Json} (told : r.failure.data = some data) :
    ∃ d body, Draft.parseBytes? r.body = some d ∧ ErrorBody.decode? d = some body ∧ data = body.encode.sorted := by
  unfold failure at told
  split at told
  next => cases told
  next body explained =>
    cases told
    obtain ⟨d, parsed, decoded⟩ := Option.bind_eq_some_iff.mp explained
    exact ⟨d, body, parsed, decoded, rfl⟩

/-- The data of a failure explain it again. -/
theorem failure_of_data {r : Refusal} {data : Json} (told : r.failure.data = some data)
    (integers : (Draft.ofJson data).HasIntegers) :
    { r with body := Text.Utf8.encode data.render }.failure = r.failure := by
  obtain ⟨d, body, parsed, decoded, rfl⟩ := exists_of_data told
  have shallow : body.encode.document.depth ≤ Draft.depthLimit :=
    Nat.le_trans (ErrorBody.within decoded).depth (Draft.depth_le_of_parseBytes? parsed)
  have reread : Draft.parseBytes? (Text.Utf8.encode body.encode.sorted.render) = some body.encode.document :=
    (Draft.parseBytes?_encode _).trans (Draft.parse?_render integers shallow)
  apply failure_of_explanation?
  rw [explanation?, explanation?, reread, parsed, Option.bind_some, Option.bind_some, decoded]
  exact ErrorBody.survives.again d body decoded

/-- The status and the headers decide what kind of failure it is, whatever the body. The
body decides what is said; and where all its numbers are integers, what is kept of it
says the same when it is the body. -/
theorem failure_settled (r : Refusal) :
    r.Classifies r.failure ∧
      (∀ body, { r with body }.failure.status = r.failure.status ∧ { r with body }.failure.url = r.failure.url ∧
        { r with body }.failure.retryable = r.failure.retryable ∧
        { r with body }.failure.retryAfter = r.failure.retryAfter) ∧
      r.Explains r.failure ∧
      ∀ d data, Draft.parseBytes? r.body = some d → d.HasIntegers → r.failure.data = some data →
        { r with body := Text.Utf8.encode data.render }.failure = r.failure := by
  refine ⟨r.classifies, fun body => ?_, r.explains, fun d data parsed integers told => ?_⟩
  · have own := r.classifies
    have other := { r with body }.classifies
    refine ⟨other.status.trans own.status.symm, other.url.trans own.url.symm, ?_,
      other.retryAfter.trans own.retryAfter.symm⟩
    rw [Bool.eq_iff_iff, other.retryable, own.retryable]
  · obtain ⟨source, body, read, decoded, rfl⟩ := exists_of_data told
    obtain rfl : source = d := Option.some.inj (read.symm.trans parsed)
    exact failure_of_data told ((ErrorBody.within decoded).integers integers)

def overloaded : Refusal where
  url := "https://service/chat"
  status := 503
  statusText := "Service Unavailable"
  headers := [("Retry-After", " 7 ")]
  body := Text.Utf8.encode "[[\"Busy\",null,\x7b\"b\":[1,-2],\"a\":3,\"b\":true\x7d,503]]"

def overloadedBody : Draft :=
  .array [.array [.text "Busy", .null,
    .object [("b", .array [.number (.whole 1), .number (.whole (-2))]), ("a", .number (.whole 3)), ("b", .bool true)],
    .number (.whole 503)]]

def overloadedData : Json :=
  .object [("error", .object [("code", .whole 503), ("message", .text "Busy"),
    ("param", .object [("a", .whole 3), ("b", .bool true)]), ("type", .null)])]

theorem failure_settled_overloaded :
    Draft.parseBytes? overloaded.body = some overloadedBody ∧ overloadedBody.HasIntegers ∧
      overloaded.failure.data = some overloadedData ∧ overloaded.failure.code = some "503" ∧
      { overloaded with body := Text.Utf8.encode overloadedData.render }.failure = overloaded.failure := by
  have parsed : Draft.parseBytes? overloaded.body = some overloadedBody := (Draft.parseBytes?_encode _).trans rfl
  have integers : overloadedBody.HasIntegers := by
    simp [overloadedBody, Draft.HasIntegers, Draft.ItemsHaveIntegers, Draft.MembersHaveIntegers, Number.IsInteger]
  have told : overloaded.failure.data = some overloadedData := by
    rw [failure, explanation?, parsed]
    rfl
  have code : overloaded.failure.code = some "503" := by
    rw [failure, explanation?, parsed]
    have written : (Json.whole 503).render = "503" := by decide +kernel
    exact congrArg some written
  exact ⟨parsed, integers, told, code, (failure_settled overloaded).2.2.2 _ _ parsed integers told⟩

end Refusal

end Chat

end Colloquy
