import Colloquy.Proofs.Sse.Payloads

/-! The decoder against what the whole body conveys. Its state after some bytes is a function
of those bytes alone, and what it has released by then are the items that are closed in
them, up to the end marker; so no cut of the body matters. -/
namespace Colloquy.Sse

open Text (Bytes)

section Pieces

variable {α : Type} (separates : α → Bool)

theorem splitOnP_eq_pieces (items : List α) :
    items.splitOnP separates = endedPieces separates items ++ [lastPiece separates items] := by
  have present : items.splitOnP separates ≠ [] := by simp
  simp only [endedPieces, lastPiece, List.getLast?_eq_some_getLast present, Option.getD_some]
  exact (List.dropLast_concat_getLast present).symm

theorem pieces_of_splitOnP (items last : List α) (ended : List (List α))
    (cut : items.splitOnP separates = ended ++ [last]) :
    endedPieces separates items = ended ∧ lastPiece separates items = last := by
  simp [endedPieces, lastPiece, cut]

theorem splitOnP_concat_separator (items : List α) (item : α) (ends : separates item = true) :
    (items ++ [item]).splitOnP separates = items.splitOnP separates ++ [[]] := by
  rw [List.splitOnP_append_cons items [] ends, List.splitOnP_nil]

theorem splitOnP_concat_other (items : List α) (item : α) (stays : separates item = false) :
    (items ++ [item]).splitOnP separates =
      endedPieces separates items ++ [lastPiece separates items ++ [item]] := by
  induction items with
  | nil => simp [endedPieces, lastPiece, List.splitOnP_cons_eq_if_modifyHead, stays]
  | cons head rest ih =>
    have cut := splitOnP_eq_pieces separates rest
    have whole := List.splitOnP_cons_eq_if_modifyHead (p := separates) head rest
    rw [List.cons_append, List.splitOnP_cons_eq_if_modifyHead, ih]
    cases ends : separates head with
    | true =>
      rw [ends, if_pos rfl, cut, ← List.cons_append] at whole
      obtain ⟨earlier, last⟩ := pieces_of_splitOnP separates _ _ _ whole
      rw [if_pos rfl, earlier, last, List.cons_append]
    | false =>
      rw [ends, if_neg Bool.false_ne_true, cut] at whole
      cases ended : endedPieces separates rest with
      | nil =>
        rw [ended, List.nil_append, List.modifyHead_cons, ← List.nil_append [_]] at whole
        obtain ⟨earlier, last⟩ := pieces_of_splitOnP separates _ _ _ whole
        rw [earlier, last]
        rfl
      | cons first others =>
        rw [ended, List.cons_append, List.modifyHead_cons, ← List.cons_append] at whole
        obtain ⟨earlier, last⟩ := pieces_of_splitOnP separates _ _ _ whole
        rw [earlier, last]
        rfl

theorem endedPieces_concat (items : List α) (item : α) :
    endedPieces separates (items ++ [item]) =
      if separates item then endedPieces separates items ++ [lastPiece separates items]
      else endedPieces separates items := by
  cases ends : separates item with
  | true =>
    rw [endedPieces, splitOnP_concat_separator separates items item ends, List.dropLast_concat]
    exact splitOnP_eq_pieces separates items
  | false => rw [endedPieces, splitOnP_concat_other separates items item ends, List.dropLast_concat]; rfl

theorem lastPiece_concat (items : List α) (item : α) :
    lastPiece separates (items ++ [item]) =
      if separates item then [] else lastPiece separates items ++ [item] := by
  cases ends : separates item with
  | true => simp [lastPiece, splitOnP_concat_separator separates items item ends]
  | false => rw [lastPiece, splitOnP_concat_other separates items item ends]; simp

end Pieces

section Lines

theorem chomp_eq (line : Bytes) :
    chomp line = if line.getLast? = some carriageReturn then line.dropLast else line :=
  rfl

theorem endedLines_concat (seen : Bytes) (byte : UInt8) :
    endedLines (seen ++ [byte]) =
      if byte = lineFeed then endedLines seen ++ [chomp (lastLine seen)] else endedLines seen := by
  by_cases ends : byte = 0x0A <;> simp [endedLines, lastLine, endedPieces_concat, lineFeed, ends]

theorem lastLine_concat (seen : Bytes) (byte : UInt8) :
    lastLine (seen ++ [byte]) = if byte = lineFeed then [] else lastLine seen ++ [byte] := by
  by_cases ends : byte = 0x0A <;> simp [lastLine, lastPiece_concat, lineFeed, ends]

end Lines

section Items

theorem untilDone_cons (item : Except Failure Frame) (rest : List (Except Failure Frame)) :
    untilDone (item :: rest) = if isDone item then [item] else item :: untilDone rest := by
  cases item with
  | error failure => rfl
  | ok frame => cases frame <;> rfl

theorem untilDone_append (first second : List (Except Failure Frame)) :
    untilDone (first ++ second) = if first.any isDone then untilDone first else first ++ untilDone second := by
  induction first with
  | nil => rfl
  | cons item rest ih =>
    rw [List.cons_append, untilDone_cons, untilDone_cons, ih]
    cases ends : isDone item <;> cases later : rest.any isDone <;> simp [ends, later]

theorem untilDone_of_undone {items : List (Except Failure Frame)} (undone : items.any isDone = false) :
    untilDone items = items := by
  have whole := untilDone_append items []
  rwa [undone, if_neg Bool.false_ne_true, untilDone, List.append_nil] at whole

/-- What is released of new items, once the end marker was there or not. -/
def released (done : Bool) (news : List (Except Failure Frame)) : List (Except Failure Frame) :=
  if done then [] else untilDone news

theorem released_nil (done : Bool) : released done [] = [] := by
  cases done <;> rfl

theorem released_append (done : Bool) (first second : List (Except Failure Frame)) :
    released done (first ++ second) = released done first ++ released (done || first.any isDone) second := by
  cases done with
  | true => rfl
  | false =>
    simp only [released, untilDone_append, Bool.false_or, Bool.false_eq_true, if_false]
    cases ended : first.any isDone with
    | true => simp
    | false => simp [untilDone_of_undone ended]

/-- The items of some groups, as the decoder forms them. -/
def itemsOf (groups : List (List Bytes)) : List (Except Failure Frame) :=
  (payloadsOf groups).map Frame.ofPayload

def closedItems (body : Bytes) : List (Except Failure Frame) :=
  (closedPayloads body).map Frame.ofPayload

def items (body : Bytes) : List (Except Failure Frame) :=
  (payloads body).map Frame.ofPayload

theorem length_closedItems (body : Bytes) : (closedItems body).length = (closedPayloads body).length :=
  List.length_map _

theorem itemsOf_append (groups more : List (List Bytes)) :
    itemsOf (groups ++ more) = itemsOf groups ++ itemsOf more := by
  simp [itemsOf, payloadsOf]

theorem itemsOf_singleton (group : List Bytes) :
    itemsOf [group] = if (payload group).isEmpty then [] else [Frame.ofPayload (payload group)] := by
  cases empty : (payload group).isEmpty <;> simp [itemsOf, payloadsOf, empty]

end Items

section Groups

def gathered (group : List Bytes) : Option Bytes :=
  if (group.filterMap dataField?).isEmpty then none else some (payload group)

theorem gathered_nil : gathered [] = none := rfl

theorem payload_eq_gathered (group : List Bytes) : payload group = (gathered group).getD [] := by
  unfold gathered
  split
  next empty => rw [payload_eq, List.isEmpty_iff.mp empty]; rfl
  next => rfl

theorem intercalate_concat (fields : List Bytes) (value : Bytes) (present : fields ≠ []) :
    List.intercalate [lineFeed] (fields ++ [value]) =
      List.intercalate [lineFeed] fields ++ lineFeed :: value := by
  induction fields with
  | nil => exact absurd rfl present
  | cons first rest ih =>
    cases rest with
    | nil => simp
    | cons second others =>
      have later := ih (List.cons_ne_nil second others)
      rw [List.cons_append] at later
      simp [later]

theorem gathered_concat (group : List Bytes) (line : Bytes) :
    gathered (group ++ [line]) =
      match dataField? line with
      | none => gathered group
      | some value =>
        some (match gathered group with
          | some payload => payload ++ lineFeed :: value
          | none => value) := by
  simp only [gathered, payload_eq, List.filterMap_append]
  cases data : dataField? line with
  | none => simp [data]
  | some value =>
    by_cases empty : group.filterMap dataField? = []
    · simp [data, empty]
    · simp [data, empty, intercalate_concat _ _ empty]

end Groups

namespace Decoder

theorem endLine_eq (d : Decoder) :
    d.endLine = { d with line := [] }.takeLine (chomp d.line.reverse) := by
  cases line : d.line with
  | nil => simp [endLine, line, chomp]
  | cons last rest =>
    simp only [endLine, line, chomp_eq, List.reverse_cons, List.getLast?_concat, List.dropLast_concat,
      Option.some.injEq]
    split <;> simp

/-- The decoder that has read some closed groups, an open group and an open line. -/
def reading (groups : List (List Bytes)) (group : List Bytes) (line : Bytes) : Decoder where
  line := line.reverse
  payload := gathered group
  done := (itemsOf groups).any isDone

theorem dispatch_reading (groups : List (List Bytes)) (group : List Bytes) (line : Bytes) :
    (reading groups group line).dispatch =
      (reading (groups ++ [group]) [] line, released ((itemsOf groups).any isDone) (itemsOf [group])) := by
  have data := payload_eq_gathered group
  have known := itemsOf_singleton group
  cases held : gathered group with
  | none =>
    rw [held] at data
    simp_all [dispatch, reading, itemsOf_append, released, gathered_nil, untilDone]
  | some bytes =>
    rw [held, Option.getD_some] at data
    simp only [dispatch, reading, held, itemsOf_append, List.any_append, known, data, gathered_nil]
    generalize (itemsOf groups).any isDone = done
    cases done <;> cases bytes.isEmpty <;> simp [released, untilDone, untilDone_cons]

theorem takeLine_reading (groups : List (List Bytes)) (group : List Bytes) (line : Bytes)
    (nonempty : line.isEmpty = false) :
    (reading groups group []).takeLine line = (reading groups (group ++ [line]) [], []) := by
  simp only [takeLine, nonempty, reading, gathered_concat]
  cases dataField? line <;> cases gathered group <;> rfl

theorem endLine_reading (groups : List (List Bytes)) (group : List Bytes) (line : Bytes) :
    (reading groups group line).endLine =
      if (chomp line).isEmpty then
        (reading (groups ++ [group]) [] [], released ((itemsOf groups).any isDone) (itemsOf [group]))
      else (reading groups (group ++ [chomp line]) [], []) := by
  have stored : (reading groups group line).line.reverse = line := List.reverse_reverse line
  rw [endLine_eq, stored]
  change (reading groups group []).takeLine (chomp line) = _
  split
  next empty =>
    rw [takeLine, if_pos empty]
    exact dispatch_reading groups group []
  next nonempty => exact takeLine_reading groups group (chomp line) (Bool.eq_false_iff.mpr nonempty)

def after (seen : Bytes) : Decoder :=
  reading (endedPieces List.isEmpty (endedLines seen)) (lastPiece List.isEmpty (endedLines seen))
    (lastLine seen)

theorem closedItems_eq (seen : Bytes) : closedItems seen = itemsOf (endedPieces List.isEmpty (endedLines seen)) :=
  rfl

theorem step_after (seen : Bytes) (byte : UInt8) :
    ∃ news, closedItems (seen ++ [byte]) = closedItems seen ++ news ∧
      (after seen).step byte = (after (seen ++ [byte]), released ((closedItems seen).any isDone) news) := by
  have lines_ := endedLines_concat seen byte
  have open_ := lastLine_concat seen byte
  by_cases ends : byte = lineFeed
  · rw [if_pos ends] at lines_ open_
    simp only [step, if_pos ends, after, endLine_reading, closedItems_eq, lines_, open_, endedPieces_concat,
      lastPiece_concat]
    split
    next empty => exact ⟨_, itemsOf_append _ _, rfl⟩
    next nonempty => exact ⟨[], (List.append_nil _).symm, by rw [released_nil]⟩
  · rw [if_neg ends] at lines_ open_
    refine ⟨[], by simp [closedItems_eq, lines_], ?_⟩
    simp [step, if_neg ends, after, lines_, open_, reading, released_nil]

theorem feed_after (seen chunk : Bytes) :
    ∃ news, closedItems (seen ++ chunk) = closedItems seen ++ news ∧
      (after seen).feed chunk = (after (seen ++ chunk), released ((closedItems seen).any isDone) news) := by
  induction chunk generalizing seen with
  | nil => exact ⟨[], by simp, by simp [feed, released_nil]⟩
  | cons byte rest ih =>
    obtain ⟨news, closed, stepped⟩ := step_after seen byte
    obtain ⟨more, closedLater, fed⟩ := ih (seen ++ [byte])
    rw [List.append_assoc, List.singleton_append] at fed closedLater
    refine ⟨news ++ more, ?_, ?_⟩
    · rw [closedLater, closed, List.append_assoc]
    · rw [released_append, ← List.any_append, ← closed]
      simp [feed, stepped, fed]

/-- The end of the body releases the items that were not closed in it. -/
theorem close_after (seen : Bytes) :
    ∃ news, items seen = closedItems seen ++ news ∧
      (after seen).close = released ((closedItems seen).any isDone) news := by
  have split_ : items seen = itemsOf ((lines seen).splitOnP List.isEmpty) := rfl
  have blank : itemsOf [[]] = [] := rfl
  cases open_ : lastLine seen with
  | nil =>
    have ended : (after seen).line.isEmpty = true := by simp [after, reading, open_]
    refine ⟨itemsOf [lastPiece List.isEmpty (endedLines seen)], ?_, ?_⟩
    · rw [split_, lines, open_, List.isEmpty_nil, if_pos rfl, List.append_nil, splitOnP_eq_pieces, itemsOf_append,
        closedItems_eq]
    · rw [close, if_pos ended, after, dispatch_reading, closedItems_eq]
  | cons first rest =>
    have unended : (after seen).line.isEmpty = false := by simp [after, reading, open_]
    rw [close, unended, split_, lines, open_]
    simp only [List.isEmpty_cons, Bool.false_eq_true, if_false, after, open_, endLine_reading]
    split
    next empty =>
      refine ⟨itemsOf [lastPiece List.isEmpty (endedLines seen)], ?_, ?_⟩
      · rw [splitOnP_concat_separator _ _ _ empty, splitOnP_eq_pieces, itemsOf_append, blank, List.append_nil,
          itemsOf_append, closedItems_eq]
      · rw [dispatch_reading, blank, released_nil, List.append_nil, closedItems_eq]
    next nonempty =>
      rw [splitOnP_concat_other _ _ _ (Bool.eq_false_iff.mpr nonempty)]
      exact ⟨_, itemsOf_append _ _, by rw [dispatch_reading, List.nil_append, closedItems_eq]⟩

end Decoder

section Failures

theorem insertFailures_nil (count : Nat) (items : List (Except Failure Frame)) :
    insertFailures [] count items = items := by
  induction items generalizing count with
  | nil => rfl
  | cons item rest ih => simp [insertFailures, failuresAt, ih]

theorem insertFailures_here (failure : Failure) (marks : List (Nat × Failure)) (count : Nat)
    (items : List (Except Failure Frame)) :
    insertFailures ((count, failure) :: marks) count items =
      .error failure :: insertFailures marks count items := by
  have later (count' : Nat) (after_ : count < count') (rest : List (Except Failure Frame)) :
      insertFailures ((count, failure) :: marks) count' rest = insertFailures marks count' rest := by
    induction rest generalizing count' with
    | nil => simp [insertFailures, failuresAt, Nat.ne_of_lt after_]
    | cons item rest ih =>
      simp [insertFailures, failuresAt, Nat.ne_of_lt after_, ih (count' + 1) (by omega)]
  cases items with
  | nil => simp [insertFailures, failuresAt]
  | cons item rest => simp [insertFailures, failuresAt, later (count + 1) (by omega)]

/-- Items that come before every failure stay as they are. -/
theorem insertFailures_append (marks : List (Nat × Failure)) (count : Nat)
    (items rest : List (Except Failure Frame))
    (late : ∀ mark ∈ marks, count + items.length ≤ mark.1) :
    insertFailures marks count (items ++ rest) =
      items ++ insertFailures marks (count + items.length) rest := by
  induction items generalizing count with
  | nil => rfl
  | cons item others ih =>
    have none_ : failuresAt marks count = [] := by
      simp only [failuresAt, List.map_eq_nil_iff, List.filter_eq_nil_iff, beq_iff_eq]
      intro mark member same
      have := late mark member
      simp only [List.length_cons] at this
      omega
    have shift : count + (item :: others).length = count + 1 + others.length := by
      simp only [List.length_cons]
      omega
    rw [shift] at late ⊢
    simp [insertFailures, none_, ih (count + 1) late]

theorem exists_items (seen more : Bytes) : ∃ news, items (seen ++ more) = closedItems seen ++ news := by
  obtain ⟨first, closed, -⟩ := Decoder.feed_after seen more
  obtain ⟨last, whole, -⟩ := Decoder.close_after (seen ++ more)
  exact ⟨first ++ last, by rw [whole, closed, List.append_assoc]⟩

theorem failureMarks_late (seen : Bytes) (body : List Arrival) :
    ∀ mark ∈ failureMarks seen body, (closedItems seen).length ≤ mark.1 := by
  induction body generalizing seen with
  | nil => simp [failureMarks]
  | cons arrival rest ih =>
    cases arrival with
    | bytes chunk =>
      intro mark member
      obtain ⟨news, closed, -⟩ := Decoder.feed_after seen chunk
      have later := ih (seen ++ chunk) mark member
      rw [closed, List.length_append] at later
      omega
    | notReady => exact ih seen
    | failure failure =>
      rintro mark (_ | ⟨_, later⟩)
      · exact Nat.le_of_eq (length_closedItems seen)
      · exact ih seen mark later

end Failures

/-- The decoder after some bytes releases what the whole body has beyond them. -/
theorem Decoder.run_after (seen : Bytes) (body : List Arrival)
    (unended : (closedItems seen).any isDone = false) :
    ∃ news, items (seen ++ delivered body) = closedItems seen ++ news ∧
      (after seen).run body =
        untilDone (insertFailures (failureMarks seen body) (closedItems seen).length news) := by
  induction body generalizing seen with
  | nil =>
    obtain ⟨news, whole, closed⟩ := close_after seen
    refine ⟨news, by rw [delivered, List.append_nil, whole], ?_⟩
    rw [run, closed, unended, failureMarks, insertFailures_nil]
    rfl
  | cons arrival rest ih =>
    cases arrival with
    | notReady => exact ih seen unended
    | failure failure =>
      obtain ⟨news, whole, ran⟩ := ih seen unended
      refine ⟨news, whole, ?_⟩
      rw [run, ran, failureMarks, ← length_closedItems, insertFailures_here]
      rfl
    | bytes chunk =>
      obtain ⟨news, closed, fed⟩ := feed_after seen chunk
      have late := failureMarks_late (seen ++ chunk) rest
      rw [closed, List.length_append] at late
      have ended : (closedItems (seen ++ chunk)).any isDone = news.any isDone := by
        rw [closed, List.any_append, unended, Bool.false_or]
      have state : (after (seen ++ chunk)).done = news.any isDone := ended
      rw [unended] at fed
      rw [delivered, ← List.append_assoc]
      cases done : news.any isDone with
      -- The decoder stops here, and whatever comes later is cut off.
      | true =>
        obtain ⟨more, whole⟩ := exists_items (seen ++ chunk) (delivered rest)
        refine ⟨news ++ more, by rw [whole, closed, List.append_assoc], ?_⟩
        rw [run, fed, failureMarks, insertFailures_append _ _ _ _ late, untilDone_append, if_pos done]
        simp [state, done, released]
      | false =>
        obtain ⟨more, whole, ran⟩ := ih (seen ++ chunk) (ended.trans done)
        refine ⟨news ++ more, by rw [whole, closed, List.append_assoc], ?_⟩
        rw [closed, List.length_append] at ran
        rw [run, fed, failureMarks, insertFailures_append _ _ _ _ late, untilDone_append, done, ← ran]
        simp [state, done, released, untilDone_of_undone done]

/-- However a body is cut, its payloads convey one list of items, and they are decoded:
up to the end marker, with every failure of the transport after the items that are closed in
the bytes before it. -/
theorem decode_eq_insertFailures (body : List Arrival) :
    ∃ conveyed, (∀ items, List.Forall₂ Conveys (payloads (delivered body)) items ↔ items = conveyed) ∧
      decode body = untilDone (insertFailures (failureMarks [] body) 0 conveyed) := by
  refine ⟨items (delivered body), forall₂_conveys_iff (payloads (delivered body)), ?_⟩
  obtain ⟨news, whole, ran⟩ := Decoder.run_after [] body rfl
  have start : Decoder.after [] = {} := rfl
  have none_ : closedItems [] = [] := rfl
  rw [none_, List.nil_append, List.nil_append] at whole
  rw [none_, List.length_nil, start] at ran
  rw [decode, ran, whole]

/-- Data of one character, a comment before the end marker, and a byte between them with
which no character begins: cut within the character, within the ends of lines and within the
marker. -/
def scattered : List Arrival :=
  [.bytes [0x64, 0x61, 0x74, 0x61, 0x3A, 0x20, 0xC3], .notReady, .bytes [0xA9, 0x0D],
    .failure (.transport "slow"), .bytes [0x0A, 0x0D], .bytes [0x0A, 0x64, 0x61, 0x74, 0x61, 0x3A, 0xFF, 0x0A, 0x0A],
    .failure (.transport "reset"), .bytes [0x3A, 0x0A, 0x64, 0x61, 0x74, 0x61, 0x3A, 0x20, 0x5B, 0x44, 0x4F],
    .bytes [0x4E, 0x45, 0x5D, 0x20, 0x0A, 0x0A], .failure (.transport "late"), .bytes [0x64]]

/-- What the one byte that is no text is answered with. -/
def illFormed : Failure :=
  .stream "invalid UTF-8 in stream chunk: invalid utf-8 sequence of 1 bytes from index 0"

theorem decode_scattered :
    List.Forall₂ Conveys (payloads (delivered scattered)) [.ok (.data "é"), .error illFormed, .ok .done] ∧
      failureMarks [] scattered = [(0, .transport "slow"), (2, .transport "reset"), (3, .transport "late")] ∧
      decode scattered = [.error (.transport "slow"), .ok (.data "é"), .error illFormed,
        .error (.transport "reset"), .ok .done] := by
  obtain ⟨items, only, whole⟩ := decode_eq_insertFailures scattered
  have cut : payloads (delivered scattered) = [[0xC3, 0xA9], [0xFF], [0x5B, 0x44, 0x4F, 0x4E, 0x45, 0x5D, 0x20]] :=
    rfl
  have marks : failureMarks [] scattered = [(0, .transport "slow"), (2, .transport "reset"), (3, .transport "late")] :=
    rfl
  have conveyed : List.Forall₂ Conveys (payloads (delivered scattered))
      [.ok (.data "é"), .error illFormed, .ok .done] := by
    rw [cut]
    exact .cons (conveys_iff.mpr rfl) (.cons (conveys_iff.mpr rfl) (.cons (conveys_iff.mpr rfl) .nil))
  obtain rfl := (only _).mp conveyed
  exact ⟨conveyed, marks, by rw [whole, marks]; rfl⟩

end Colloquy.Sse
