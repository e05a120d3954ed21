import Colloquy.Proofs.Response.Session
import Colloquy.Response.Interchange

/-! An opening may be told at any time. A verdict depends on the content, the slots, the
phase and the identifier that is held, and an opening has none of these; so events are
taken and rejected as without it, and what they leave is the same in either order unless
both tell the same part. -/
namespace Colloquy

/-- What an event that is taken makes of a response, the content apart. -/
def Event.tell (r : Response) : Event → Response
  | .responseMetadata id modelId timestamp =>
    (Builder.addResponseMetadata.record { response := r } id modelId timestamp none).response
  | .finish told => (Builder.addFinish { response := r } told).response
  | _ => r

def Opening.tell (o : Opening) (r : Response) : Response :=
  (Builder.addOpening { response := r } o).response

theorem Interchange.refl (o : Opening) (event : Event) (b : Builder) : Interchange o event false b b :=
  ⟨rfl, fun _ => rfl, fun _ => rfl, nofun, nofun⟩

theorem Interchange.eq_of_apart {o : Opening} {event : Event} {taken : Bool} {early late : Builder}
    (interchange : Interchange o event taken early late) (apart : ∀ part, o.meets event part = false) :
    early = late := by
  have info := interchange.responseInfo (by rw [apart, Bool.and_false])
  have metadata := interchange.metadata (by rw [apart, Bool.and_false])
  rw [interchange.rest, info, metadata]

namespace Builder

/-- A builder with everything exchanged that no verdict depends on. -/
def withDetails (b : Builder) (r : Response) (error : Option String) : Builder :=
  { b with response := { r with content := b.content }, error }

section

variable (b : Builder) (r : Response) (error : Option String)

@[simp] theorem content_withDetails : (b.withDetails r error).content = b.content := rfl

@[simp] theorem slots_withDetails : (b.withDetails r error).slots = b.slots := rfl

@[simp] theorem phase_withDetails : (b.withDetails r error).phase = b.phase := rfl

@[simp] theorem responseId_withDetails : (b.withDetails r error).responseId = b.responseId := rfl

theorem withDetails_self : b.withDetails b.response b.error = b := rfl

theorem addOpening_eq (o : Opening) : b.addOpening o = b.withDetails (o.tell b.response) b.error := rfl

theorem addOpening_withDetails (o : Opening) :
    (b.withDetails r error).addOpening o = b.withDetails (o.tell r) error := rfl

theorem apply_withDetails (event : Event) :
    (b.withDetails r error).apply event =
      (b.apply event).map fun next => next.withDetails (event.tell r) (event.error?.or error) := by
  cases event with
  | textDelta text =>
    simp only [apply, addText, content_withDetails]
    split <;> rfl
  | reasoning text =>
    simp only [apply, addReasoning, reasoningAllowed, content_withDetails, phase_withDetails]
    split
    next => rfl
    next => cases b.phase <;> rfl
  | reasoningSignature signature =>
    simp only [apply, addSignature, content_withDetails]
    split <;> rfl
  | redactedReasoning data =>
    simp only [apply, addRedactedReasoning, reasoningAllowed, phase_withDetails]
    cases b.phase <;> rfl
  | toolCall callId toolName args =>
    cases known : b.slots.contains callId with
    | true => simp [apply, addToolCall, known, Except.map]
    | false =>
      simp only [apply, addToolCall, slots_withDetails, known, Bool.false_eq_true, if_false]
      rfl
  | toolCallDelta callId toolName argsDelta =>
    simp only [apply, addToolCallDelta, slots_withDetails]
    cases b.slots.find? callId <;> rfl
  | responseMetadata id modelId timestamp =>
    simp only [apply, addResponseMetadata, responseId_withDetails]
    cases b.responseId with
    | none => rfl
    | some expected =>
      dsimp only
      split <;> rfl
  | _ => rfl

/-- The details decide nothing about an event, and what it does to them is told by them
alone. -/
theorem add_withDetails (event : Event) :
    (b.withDetails r error).add event =
      (b.add event).map fun next => next.withDetails (event.tell r) (event.error?.or error) := by
  unfold add
  rw [phase_withDetails]
  by_cases finished : b.phase = .finished
  · rw [if_pos finished, if_pos finished]
    rfl
  · rw [if_neg finished, if_neg finished, apply_withDetails]

end

variable {b next : Builder} {event : Event}

theorem eq_withDetails_of_add (added : b.add event = .ok next) :
    next = next.withDetails (event.tell b.response) (event.error?.or b.error) := by
  have told := b.add_withDetails b.response b.error event
  rw [withDetails_self, added] at told
  exact Except.ok.inj told

theorem history_withDetails (b : Builder) (r : Response) (error : Option String) (events : List Event) :
    (b.withDetails r error).history (events.map .event) = b.history (events.map .event) := by
  induction events generalizing b r error with
  | nil => rfl
  | cons event rest ih =>
    have again := b.add_withDetails r error event
    rw [List.map_cons]
    cases added : b.add event with
    | ok next =>
      rw [added] at again
      rw [history_event_taken added, history_event_taken again, ih]
    | error rejection =>
      rw [added] at again
      rw [history_event_rejected added, history_event_rejected again, ih]

theorem add_addOpening (o : Opening) (added : b.add event = .ok next) :
    (b.addOpening o).add event =
      .ok (next.withDetails (event.tell (o.tell b.response)) (event.error?.or b.error)) := by
  rw [addOpening_eq, add_withDetails, added]
  rfl

theorem add_addOpening_rejected (o : Opening) {rejection : Rejection} (rejected : b.add event = .error rejection) :
    (b.addOpening o).add event = .error rejection := by
  rw [addOpening_eq, add_withDetails, rejected]
  rfl

theorem addOpening_of_add (o : Opening) (added : b.add event = .ok next) :
    next.addOpening o =
      next.withDetails (o.tell (event.tell b.response)) (event.error?.or b.error) := by
  rw [eq_withDetails_of_add added, addOpening_withDetails]
  rfl

/-- What an opening and an event that is taken make of a response, in either order. -/
theorem interchange_taken (b : Builder) (r : Response) (error : Option String) (o : Opening) (event : Event) :
    Interchange o event true (b.withDetails (event.tell (o.tell r)) error)
      (b.withDetails (o.tell (event.tell r)) error) := by
  obtain ⟨rawCall, rawResponse, requestInfo, responseInfo, warnings, metadata⟩ := o
  cases event with
  | responseMetadata id modelId timestamp =>
    cases responseInfo with
    | none => exact ⟨rfl, fun _ => rfl, fun _ => rfl, nofun, nofun⟩
    | some info => exact ⟨rfl, nofun, fun _ => rfl, fun _ => ⟨rfl, rfl⟩, nofun⟩
  | finish told =>
    obtain ⟨reason, usage, brought, logProbs⟩ := told
    cases brought with
    | none => exact ⟨rfl, fun _ => rfl, fun _ => rfl, nofun, nofun⟩
    | some told =>
      cases metadata with
      | none => exact ⟨rfl, fun _ => rfl, fun _ => rfl, nofun, nofun⟩
      | some added => exact ⟨rfl, fun _ => rfl, nofun, nofun, fun _ => ⟨rfl, rfl⟩⟩
  | _ => exact ⟨rfl, fun _ => rfl, fun _ => rfl, nofun, nofun⟩

theorem feed_addOpening (b : Builder) (o : Opening) (event : Event) :
    ((b.addOpening o).feed (.event event)).2 = (b.feed (.event event)).2 ∧
      Interchange o event (b.feed (.event event)).2.isNone
        ((b.addOpening o).feed (.event event)).1 ((b.feed (.event event)).1.addOpening o) := by
  cases added : b.add event with
  | ok next =>
    rw [feed_of_ok added, feed_of_ok (add_addOpening o added), addOpening_of_add o added]
    exact ⟨rfl, interchange_taken next b.response _ o event⟩
  | error rejection =>
    rw [feed_of_error added, feed_of_error (add_addOpening_rejected o added)]
    exact ⟨rfl, .refl o event _⟩

theorem history_addOpening (b : Builder) (o : Opening) (events : List Event) :
    (b.addOpening o).history (events.map .event) = b.history (events.map .event) :=
  b.history_withDetails (o.tell b.response) b.error events

/-- An opening that meets no event of a run may as well be told at its end. -/
theorem feedAll_addOpening (b : Builder) (o : Opening) (events : List Event)
    (apart : ∀ event ∈ b.history (events.map .event), ∀ part, o.meets event part = false) :
    (b.addOpening o).feedAll (events.map .event) = (b.feedAll (events.map .event)).addOpening o := by
  induction events generalizing b with
  | nil => rfl
  | cons event rest ih =>
    obtain ⟨-, interchange⟩ := b.feed_addOpening o event
    rw [List.map_cons, feedAll_cons, feedAll_cons]
    cases added : b.add event with
    | ok next =>
      rw [List.map_cons, history_event_taken added] at apart
      rw [interchange.eq_of_apart (apart event List.mem_cons_self), feed_of_ok added]
      exact ih next fun later member => apart later (List.mem_cons_of_mem _ member)
    | error rejection =>
      rw [List.map_cons, history_event_rejected added] at apart
      rw [feed_of_error added, feed_of_error (add_addOpening_rejected o added)]
      exact ih b apart

/-- Whenever an opening is told, the same events are taken, and the others are rejected for
the same reason. One event and the opening come to the same in either order but for the part
that both tell. So where no event that is taken tells such a part, the opening may stand
anywhere among the events. -/
theorem opening_at_any_time (b : Builder) (o : Opening) :
    (∀ event,
      ((b.addOpening o).feed (.event event)).2 = (b.feed (.event event)).2 ∧
        Interchange o event (b.feed (.event event)).2.isNone
          ((b.addOpening o).feed (.event event)).1 ((b.feed (.event event)).1.addOpening o)) ∧
    ∀ events before after : List Event, events = before ++ after →
      b.history (before.map .event ++ .opening o :: after.map .event) = b.history (events.map .event) ∧
        ((∀ event ∈ b.history (events.map .event), ∀ part, o.meets event part = false) →
          b.feedAll (before.map .event ++ .opening o :: after.map .event) =
            (b.feedAll (events.map .event)).addOpening o) := by
  refine ⟨b.feed_addOpening o, ?_⟩
  rintro events before after rfl
  have opened : (b.feedAll (before.map .event)).feed (.opening o) =
    ((b.feedAll (before.map .event)).addOpening o, none) := rfl
  refine ⟨?_, ?_⟩
  · rw [history_append, history_opening, history_addOpening, List.map_append, history_append]
  · intro apart
    rw [List.map_append, history_append] at apart
    rw [feedAll_append, feedAll_cons, opened, List.map_append, feedAll_append]
    apply feedAll_addOpening
    exact fun event member => apart event (List.mem_append_right _ member)

/-- An opening that says who sends the response, warns and brings metadata. -/
def warnedOpening : Opening where
  responseInfo := some { id := "r", modelId := "m" }
  warnings := [.other "slow"]
  metadata := some (.ofList [("router", .bool true)])

/-- Of these the text and the finish are taken. -/
def lateThought : List Event :=
  [.textDelta "a", .reasoning "late", .finish { reason := .stop }, .error "gone"]

theorem opening_at_any_time_lateThought :
    (∀ event ∈ empty.history (lateThought.map .event), ∀ part, warnedOpening.meets event part = false) ∧
      ∀ before after, lateThought = before ++ after →
        empty.feedAll (before.map .event ++ .opening warnedOpening :: after.map .event) =
          (empty.feedAll (lateThought.map .event)).addOpening warnedOpening := by
  have taken : empty.history (lateThought.map .event) = [.textDelta "a", .finish { reason := .stop }] := rfl
  have apart : ∀ event ∈ empty.history (lateThought.map .event), ∀ part,
      warnedOpening.meets event part = false := by
    intro event member part
    have either : event = .textDelta "a" ∨ event = .finish { reason := .stop } := by
      simpa [taken] using member
    rcases either with rfl | rfl <;> cases part <;> rfl
  obtain ⟨-, anywhere⟩ := opening_at_any_time empty warnedOpening
  exact ⟨apart, fun before after split => (anywhere lateThought before after split).2 apart⟩

end Builder

end Colloquy
