import Colloquy.Proofs.Response.Content

/-! The tool calls of a response whose calls are told in pieces only: one for each
identifier, where it is named first. -/
namespace Colloquy

section

variable {α β : Type} [BEq α] [LawfulBEq α] [BEq β] [LawfulBEq β]

theorem eraseDups_concat (values : List α) (value : α) :
    (values ++ [value]).eraseDups =
      if value ∈ values then values.eraseDups else values.eraseDups ++ [value] := by
  rw [List.eraseDups_append]
  by_cases known : value ∈ values <;> simp [List.removeAll, List.eraseDups_cons, known]

theorem nodup_eraseDups (values : List α) : values.eraseDups.Nodup := by
  induction values using List.reverseRecOn with
  | nil => simp
  | append_singleton values value ih =>
    rw [eraseDups_concat]
    split
    next => exact ih
    next fresh =>
      refine List.nodup_append.mpr ⟨ih, List.pairwise_singleton _ value, ?_⟩
      intro earlier member last same equal
      rw [equal, List.mem_singleton.mp same, List.mem_eraseDups] at member
      exact fresh member

theorem eraseDups_map (f : α → β) (values : List α)
    (injective : ∀ value ∈ values, ∀ other ∈ values, f value = f other → value = other) :
    (values.map f).eraseDups = values.eraseDups.map f := by
  induction values using List.reverseRecOn with
  | nil => rfl
  | append_singleton values last ih =>
    have before := ih fun value member other known =>
      injective value (List.mem_append_left _ member) other (List.mem_append_left _ known)
    have same : f last ∈ values.map f ↔ last ∈ values := by
      constructor
      · intro member
        obtain ⟨value, known, equal⟩ := List.mem_map.mp member
        rw [← injective value (List.mem_append_left _ known) last (by simp) equal]
        exact known
      · exact List.mem_map_of_mem
    rw [List.map_append, List.map_singleton, eraseDups_concat, eraseDups_concat, before]
    by_cases known : last ∈ values <;> simp [same, known]

end

theorem namedCalls_concat (history : List Event) (event : Event) (callId : String)
    (named : event.callId? = some callId) :
    namedCalls (history ++ [event]) =
      if callId ∈ namedCalls history then namedCalls history else namedCalls history ++ [callId] := by
  unfold namedCalls
  rw [List.filterMap_append, List.filterMap_cons_some named, List.filterMap_nil, eraseDups_concat]
  simp only [List.mem_eraseDups]

theorem namedCalls_concat_unnamed (history : List Event) (event : Event)
    (unnamed : event.callId? = none) : namedCalls (history ++ [event]) = namedCalls history := by
  simp [namedCalls, List.filterMap_append, unnamed]

/-- Names and pieces of calls are read off the events about calls. -/
theorem namedCalls_filter (history : List Event) :
    namedCalls (history.filter (·.callId?.isSome)) = namedCalls history := by
  unfold namedCalls
  rw [List.filterMap_filter]
  congr 1
  apply List.filterMap_congr
  intro event _
  cases event.callId? <;> rfl

theorem callDeltas_filter (history : List Event) (callId : String) :
    callDeltas (history.filter (·.callId?.isSome)) callId = callDeltas history callId := by
  unfold callDeltas
  rw [List.filterMap_filter]
  congr 1
  apply List.filterMap_congr
  intro event _
  cases event <;> rfl

theorem callName_filter (history : List Event) (callId : String) :
    callName (history.filter (·.callId?.isSome)) callId = callName history callId := by
  unfold callName
  rw [List.filterMap_filter]
  congr 1
  apply List.filterMap_congr
  intro event _
  cases event <;> rfl

/-- A call whose events all tell one name has it. -/
theorem callName_of_constant (history : List Event) (callId name : String)
    (constant : ∀ event ∈ history, ∀ told, event.toolName? callId = some told → told = name)
    (named : callId ∈ namedCalls history) : callName history callId = name := by
  obtain ⟨event, member, same⟩ := List.mem_filterMap.mp (List.mem_eraseDups.mp named)
  have tells : ∃ told, event.toolName? callId = some told := by
    cases event <;> simp_all [Event.callId?, Event.toolName?]
  obtain ⟨told, tells⟩ := tells
  have all (other : String) (inside : other ∈ history.filterMap (Event.toolName? callId)) :
      other = name := by
    obtain ⟨event, member, tells⟩ := List.mem_filterMap.mp inside
    exact constant event member other tells
  have some_ : history.filterMap (Event.toolName? callId) ≠ [] :=
    List.ne_nil_of_mem (List.mem_filterMap.mpr ⟨event, member, tells⟩)
  obtain ⟨first, rest, listed⟩ := List.exists_cons_of_ne_nil some_
  have first_ : first = name := all first (by simp [listed])
  rw [callName, listed, ← first_]
  apply Text.firstNonempty_of_head
  intro other inside
  rw [first_]
  exact Or.inr (all other (by simp [listed, inside]))

theorem opens_toolCallDelta_iff (history : List Event) (callId toolName argsDelta : String) :
    Span.opens (spans history) (.toolCallDelta callId toolName argsDelta) = true ↔
      callId ∉ namedCalls history := by
  rw [opens_toolCallDelta, namedCalls, List.mem_eraseDups, List.mem_filterMap]
  constructor
  · rintro absent ⟨event, member, named⟩
    obtain ⟨opener, inside, same⟩ := exists_opener_of_named history callId event member named
    exact absent opener inside same
  · intro absent opener inside named
    apply absent
    exact ⟨opener, mem_of_mem_spans history opener (mem_spans_of_mem_openers history opener inside), named⟩

theorem callId?_openers (history : List Event) (pieces : ∀ event ∈ history, event.kind ≠ .toolCall) :
    (openers history).filterMap Event.callId? = namedCalls history := by
  induction history using List.reverseRecOn with
  | nil => rfl
  | append_singleton history event ih =>
    have before := ih fun earlier member => pieces earlier (List.mem_append_left _ member)
    rw [openers_concat]
    cases named : event.callId? with
    | none =>
      rw [namedCalls_concat_unnamed history event named, ← before]
      split <;> simp [List.filterMap_append, named]
    | some callId =>
      have opens : Span.opens (spans history) event = true ↔ callId ∉ namedCalls history := by
        cases event with
        | toolCallDelta id toolName argsDelta =>
          cases named
          rw [opens_toolCallDelta_iff]
        | toolCall id toolName args => exact absurd rfl (pieces (.toolCall id toolName args) (by simp))
        | _ => cases named
      rw [namedCalls_concat history event callId named]
      by_cases known : callId ∈ namedCalls history
      · rw [if_neg (by simp [opens, known]), if_pos known, before]
      · rw [if_pos (opens.mpr known), if_neg known, List.filterMap_append, before]
        simp [named]

theorem Span.toolCallOf?_block? (history : List Event) (s : Span) (piece : s.opener.kind ≠ .toolCall) :
    (s.block? history).bind Response.toolCallOf? = s.opener.callId?.map (streamedCall history) := by
  unfold block?
  cases opened : s.opener with
  | toolCall callId toolName args => exact absurd (by rw [opened]; rfl) piece
  | _ => rfl

theorem Reads.toolCalls {history : List Event} {content : List Block} {slots : Dictionary Nat}
    (reads : Reads history content slots) (pieces : ∀ event ∈ history, event.kind ≠ .toolCall) :
    content.filterMap Response.toolCallOf? = (namedCalls history).map (streamedCall history) := by
  have blocks : content.filterMap Response.toolCallOf? =
      (spans history).filterMap fun span => (span.block? history).bind Response.toolCallOf? := by
    have same := congrArg (List.filterMap fun block => block.bind Response.toolCallOf?) reads.content
    simpa [List.filterMap_map, Function.comp_def] using same
  have opened (span : Span) (member : span ∈ spans history) : span.opener.kind ≠ .toolCall := by
    apply pieces
    apply mem_of_mem_spans
    exact mem_spans_of_mem_openers history _ (List.mem_map_of_mem member)
  calc content.filterMap Response.toolCallOf?
    _ = (spans history).filterMap fun span => span.opener.callId?.map (streamedCall history) := by
      rw [blocks]
      apply List.filterMap_congr
      intro span member
      exact span.toolCallOf?_block? history (opened span member)
    _ = ((openers history).filterMap Event.callId?).map (streamedCall history) := by
      simp [openers, List.filterMap_map, List.map_filterMap]
    _ = (namedCalls history).map (streamedCall history) := by
      rw [callId?_openers history pieces]

end Colloquy
