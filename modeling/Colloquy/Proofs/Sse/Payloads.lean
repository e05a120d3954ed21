import Colloquy.Proofs.Text.Blank
import Colloquy.Proofs.Text.Faults
import Colloquy.Sse.Body
import Mathlib.Data.List.Forall2

/-! One line and one payload. The decoder takes data from exactly the lines that start with
the name of the field, and forms of a payload exactly the item that the payload conveys. -/
namespace Colloquy.Sse

open Text (Bytes)

theorem dataStart_eq : dataStart = [0x64, 0x61, 0x74, 0x61, 0x3A] := rfl

theorem dataField?_eq (line : Bytes) :
    dataField? line = if dataStart.isPrefixOf line then some (dataRest line) else none := by
  unfold dataField?
  rw [dataRest, dataStart_eq]
  split
  next value => rfl
  next value other =>
    cases value with
    | nil => rfl
    | cons first rest =>
      have solid : first ≠ 0x20 := fun blank => other rest (by rw [blank])
      simp [solid]
  next unblank unstarted =>
    rw [if_neg]
    intro starts
    obtain ⟨value, whole⟩ := List.isPrefixOf_iff_prefix.mp starts
    exact unstarted value whole.symm

theorem filterMap_dataField? (group : List Bytes) :
    group.filterMap dataField? = (group.filter dataStart.isPrefixOf).map dataRest := by
  rw [show dataField? = _ from funext dataField?_eq]
  induction group with
  | nil => rfl
  | cons line rest ih =>
    rw [List.filterMap_cons, List.filter_cons, ih]
    split <;> split <;> simp_all

theorem payload_eq (group : List Bytes) :
    payload group = List.intercalate [lineFeed] (group.filterMap dataField?) := by
  rw [filterMap_dataField?]
  rfl

theorem marks_iff (text : String) : Marks text ↔ Text.trim text = "[DONE]" := by
  constructor
  · rintro ⟨before, after, whole, blank⟩
    rw [← String.toList_inj]
    exact Text.toList_trim whole blank rfl (by decide) rfl (by decide)
  · intro trimmed
    obtain ⟨before, after, whole, blank⟩ := Text.exists_blanks_around text
    rw [trimmed] at whole
    exact ⟨before, after, whole, blank⟩

theorem conveys_iff {bytes : Bytes} {item : Except Failure Frame} :
    Conveys bytes item ↔ Frame.ofPayload bytes = item := by
  constructor
  · intro conveys
    cases conveys with
    | done text marks =>
      rw [Frame.ofPayload, Text.Utf8.decode_eq_ok_iff.mpr rfl]
      dsimp only
      rw [if_pos ((marks_iff text).mp marks)]
    | data text other =>
      rw [Frame.ofPayload, Text.Utf8.decode_eq_ok_iff.mpr rfl]
      dsimp only
      rw [if_neg fun trimmed => other ((marks_iff text).mpr trimmed)]
    | invalid _ fault faulty => rw [Frame.ofPayload, Text.Utf8.decode_eq_error_iff.mpr faulty]
  · rintro rfl
    unfold Frame.ofPayload
    split
    next text read =>
      obtain rfl := Text.Utf8.decode_eq_ok_iff.mp read
      split
      next trimmed => exact .done text ((marks_iff text).mpr trimmed)
      next other => exact .data text fun marks => other ((marks_iff text).mp marks)
    next fault read => exact .invalid bytes fault (Text.Utf8.decode_eq_error_iff.mp read)

theorem forall₂_conveys_iff (payloads : List Bytes) (items : List (Except Failure Frame)) :
    List.Forall₂ Conveys payloads items ↔ items = payloads.map Frame.ofPayload := by
  have same : Conveys = fun bytes item => Frame.ofPayload bytes = item :=
    funext fun _ => funext fun _ => propext conveys_iff
  rw [same, ← List.forall₂_map_left_iff (R := Eq), List.forall₂_eq_eq_eq, eq_comm]

end Colloquy.Sse
