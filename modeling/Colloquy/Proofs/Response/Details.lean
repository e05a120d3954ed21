import Colloquy.Proofs.Dictionary
import Colloquy.Proofs.Response.Acceptance
import Colloquy.Response.Detail

/-! What becomes of the details of an exchange. An input that is taken changes the details
that it sets and no others; so what was known is lost exactly where an input sets a
detail and has nothing for it. -/
namespace Colloquy

theorem Metadata.contains_mergeInto (known : Option Metadata) (added : Metadata) (service : String) :
    (mergeInto known added).contains service =
      (added.contains service || known.any fun metadata => metadata.contains service) := by
  rw [mergeInto, Dictionary.contains_merge]
  cases known <;> rfl

namespace Builder

variable {b next : Builder}

theorem has_addOpening (b : Builder) (opening : Opening) (detail : Detail) :
    (b.addOpening opening).response.exchange.has detail =
      if opening.sets detail then opening.exchange.has detail else b.response.exchange.has detail := by
  obtain ⟨rawCall, rawResponse, requestInfo, responseInfo, warnings, metadata⟩ := opening
  cases detail with
  | id => cases responseInfo <;> rfl
  | modelId => cases responseInfo <;> rfl
  | timestamp => cases responseInfo <;> rfl
  | prompt =>
    cases empty : rawCall.isEmpty <;>
      simp [addOpening, Response.exchange, Opening.exchange, Opening.sets, Exchange.has, empty]
  | settings =>
    cases empty : rawCall.isEmpty <;>
      simp [addOpening, Response.exchange, Opening.exchange, Opening.sets, Exchange.has, empty]
  | headers => cases rawResponse <;> rfl
  | body => cases requestInfo <;> rfl
  | metadata service =>
    -- Metadata is merged by its keys: an opening sets the entries that it has.
    cases metadata with
    | none => rfl
    | some added =>
      have merged := Metadata.contains_mergeInto b.response.metadata added service
      cases told : added.contains service <;> rw [told] at merged <;>
        simpa [addOpening, Response.exchange, Opening.exchange, Opening.sets, Exchange.has, told] using merged

theorem has_record (id modelId : String) (timestamp : Option Time.Timestamp) (responseId : Option String)
    (detail : Detail) :
    (addResponseMetadata.record b id modelId timestamp responseId).response.exchange.has detail =
      if (Event.responseMetadata id modelId timestamp).sets detail
      then (Event.responseMetadata id modelId timestamp).exchange.has detail
      else b.response.exchange.has detail := by
  cases detail with
  | id => rfl
  | modelId =>
    cases untold : modelId.isEmpty <;> cases known : b.response.responseInfo <;>
      simp [addResponseMetadata.record, Response.exchange, Event.exchange, Event.sets, Exchange.has, untold, known]
  | timestamp =>
    cases timestamp <;> cases known : b.response.responseInfo <;>
      simp [addResponseMetadata.record, Response.exchange, Event.exchange, Event.sets, Exchange.has, known]
  | _ => rfl

theorem has_addFinish (b : Builder) (told : Finish) (detail : Detail) :
    (b.addFinish told).response.exchange.has detail =
      if (Event.finish told).sets detail then (Event.finish told).exchange.has detail
      else b.response.exchange.has detail := by
  cases detail with
  | metadata service =>
    cases brought : told.metadata <;>
      simp [addFinish, Response.exchange, Event.exchange, Event.sets, Exchange.has, brought]
  | _ => rfl

/-- Only the identity of a response and its end have details; the content has none. -/
theorem has_effect {event : Event} (effect : Effect b event next) (detail : Detail) :
    next.response.exchange.has detail =
      if event.sets detail then event.exchange.has detail else b.response.exchange.has detail := by
  cases effect with
  | identified id modelId timestamp agrees => exact has_record id modelId timestamp _ detail
  | finished told => exact has_addFinish b told detail
  | _ => rfl

/-- An input that is taken changes the details that it sets and no others. -/
theorem has_feed (b : Builder) (input : Input) (taken : (b.feed input).2 = none) (detail : Detail) :
    (b.feed input).1.response.exchange.has detail =
      if input.sets detail then input.exchange.has detail else b.response.exchange.has detail := by
  cases input with
  | opening opening => exact has_addOpening b opening detail
  | event event =>
    have added : b.add event = .ok (b.feed (.event event)).1 := add_of_feed (Prod.ext rfl taken)
    obtain ⟨-, effect⟩ := effect_of_add added
    exact has_effect effect detail

theorem takenInputs_cons (b : Builder) (input : Input) (rest : List Input) :
    b.takenInputs (input :: rest) =
      if (b.feed input).2 = none then input :: (b.feed input).1.takenInputs rest
      else b.takenInputs rest := by
  rw [takenInputs, steps]
  cases verdict : (b.feed input).2 with
  | none => rfl
  | some rejection =>
    rw [List.filter_cons_of_neg (by simp [Step.isTaken]), b.feed_rejected input rejection verdict]
    rfl

/-- What is known of a detail after a run is what the last input has that was taken and
sets it. -/
theorem has_feedAll (b : Builder) (inputs : List Input) (detail : Detail) :
    (b.feedAll inputs).response.exchange.has detail =
      match ((b.takenInputs inputs).filter fun input => input.sets detail).getLast? with
      | some last => last.exchange.has detail
      | none => b.response.exchange.has detail := by
  induction inputs generalizing b with
  | nil => rfl
  | cons input rest ih =>
    rw [feedAll_cons, takenInputs_cons, ih]
    cases verdict : (b.feed input).2 with
    | some rejection => rw [b.feed_rejected input rejection verdict, if_neg (by simp)]
    | none =>
      rw [if_pos rfl, List.filter_cons, has_feed b input verdict]
      cases set : input.sets detail with
      | true =>
        rw [if_pos rfl, if_pos rfl, List.getLast?_cons]
        cases (((b.feed input).1.takenInputs rest).filter fun input => input.sets detail).getLast? <;> rfl
      | false => rfl

/-- An identifier that an event may tell is empty only as long as none was told. -/
theorem heldId?_of_taken (inputs : List Input) (modelId : String) (timestamp : Option Time.Timestamp)
    (taken : ((empty.feedAll inputs).feed (.event (.responseMetadata "" modelId timestamp))).2 = none) :
    heldId? (empty.history inputs) = none := by
  rw [(follows_feedAll inputs).verdict_eq, verdict] at taken
  cases held : heldId? (empty.history inputs) with
  | none => rfl
  | some expected =>
    have nonempty := List.find?_some held
    split at taken
    next => cases taken
    next =>
      rw [held] at taken
      dsimp only at taken
      split at taken
      next same => simp [same] at nonempty
      next => cases taken

/-- What is known is lost exactly when an input is taken that sets the detail and has
nothing for it. Of the events, the identity of a response does so when it names no
identifier, and none was named by an event before; and a finish does so when it brings
metadata without an entry that was there. -/
theorem detail_lost_iff (inputs : List Input) (input : Input) (detail : Detail)
    (known : (empty.feedAll inputs).response.exchange.has detail = true) :
    ((empty.feedAll (inputs ++ [input])).response.exchange.has detail = false ↔
      ((empty.feedAll inputs).feed input).2 = none ∧ input.sets detail = true ∧
        input.exchange.has detail = false) ∧
    ∀ event, input = .event event →
      (empty.feedAll (inputs ++ [input])).response.exchange.has detail = false →
        (∃ modelId timestamp, event = .responseMetadata "" modelId timestamp ∧ detail = .id ∧
          heldId? (empty.history inputs) = none) ∨
        ∃ told metadata service, event = .finish told ∧ told.metadata = some metadata ∧
          detail = .metadata service ∧ metadata.contains service = false := by
  have lost : (empty.feedAll (inputs ++ [input])).response.exchange.has detail = false ↔
      ((empty.feedAll inputs).feed input).2 = none ∧ input.sets detail = true ∧
        input.exchange.has detail = false := by
    rw [feedAll_concat]
    cases verdict : ((empty.feedAll inputs).feed input).2 with
    | some rejection => simp [feed_rejected _ input rejection verdict, known]
    | none =>
      rw [has_feed _ input verdict]
      cases set : input.sets detail <;> simp [known]
  refine ⟨lost, ?_⟩
  rintro event rfl gone
  obtain ⟨taken, set, nothing⟩ := lost.mp gone
  cases event with
  | responseMetadata id modelId timestamp =>
    cases detail with
    | id =>
      have blank : id = "" := by simpa [Input.exchange, Event.exchange, Exchange.has] using nothing
      subst blank
      exact .inl ⟨modelId, timestamp, rfl, rfl, heldId?_of_taken inputs modelId timestamp taken⟩
    | modelId => simp_all [Input.sets, Input.exchange, Event.sets, Event.exchange, Exchange.has]
    | timestamp => simp_all [Input.sets, Input.exchange, Event.sets, Event.exchange, Exchange.has]
    | _ => cases set
  | finish told =>
    cases detail with
    | metadata service =>
      obtain ⟨metadata, brought⟩ := Option.isSome_iff_exists.mp set
      have missing : metadata.contains service = false := by
        simpa [Input.exchange, Event.exchange, Exchange.has, brought] using nothing
      exact .inr ⟨told, metadata, service, rfl, brought, rfl, missing⟩
    | _ => cases set
  | _ => cases set

/-- An opening that tells the identifier. -/
def namedOpening : Input :=
  .opening { responseInfo := some { id := "r", modelId := "m" } }

/-- An event that tells another model, and no identifier. -/
def unnamedModel : Input :=
  .event (.responseMetadata "" "n" none)

theorem detail_lost_unnamedModel :
    (empty.feedAll [namedOpening]).response.exchange.has .id = true ∧
      heldId? (empty.history [namedOpening]) = none ∧
      (empty.feedAll [namedOpening, unnamedModel]).response.exchange.has .id = false := by
  have known : (empty.feedAll [namedOpening]).response.exchange.has .id = true := by decide
  obtain ⟨lost, -⟩ := detail_lost_iff [namedOpening] unnamedModel .id known
  exact ⟨known, rfl, lost.mpr ⟨rfl, rfl, rfl⟩⟩

/-- Not everything that is known stays known. -/
theorem identifier_replaced_by_nothing :
    ¬∀ (inputs : List Input) (input : Input) (detail : Detail),
      (empty.feedAll inputs).response.exchange.has detail = true →
        (empty.feedAll (inputs ++ [input])).response.exchange.has detail = true := by
  intro kept
  have still := kept [namedOpening] unnamedModel .id (by decide)
  revert still
  decide

end Builder

end Colloquy
