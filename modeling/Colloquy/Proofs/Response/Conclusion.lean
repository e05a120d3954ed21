import Colloquy.Proofs.Response.Draining
import Colloquy.Proofs.Response.Interchange
import Colloquy.Response.Conclusion

/-! How a drained stream comes out, for every opening and every sequence of events. The first
event that is rejected ends the draining. A failure that is told in between does not: it is
returned in the end, with all that was put together. -/
namespace Colloquy

namespace Builder

variable {b next : Builder} {event : Event}

theorem error_effect (effect : Effect b event next) : next.error = event.error?.or b.error := by
  cases effect <;> rfl

theorem unfinished_effect (effect : Effect b event next) (unfinished : b.phase ≠ .finished)
    (open_ : event.kind ≠ .finish) : next.phase ≠ .finished := by
  cases effect with
  | signed => exact unfinished
  | identified => exact unfinished
  | failed => exact unfinished
  | finished told => exact absurd rfl open_
  | _ => intro finished; cases finished

theorem fed_concat (opening : Opening) (events : List Event) (event : Event) :
    fed opening (events ++ [event]) = ((fed opening events).feed (.event event)).1 := by
  rw [fed, fed, List.map_append, List.map_singleton, ← List.cons_append, feedAll_concat]

end Builder

variable {opening : Opening} {events : List Event}

theorem AllTaken.nil (opening : Opening) : AllTaken opening [] := by
  intro before event after split
  simp at split

theorem AllTaken.before {event : Event} (taken : AllTaken opening (events ++ [event])) :
    AllTaken opening events := by
  rintro before earlier after rfl
  exact taken before earlier (after ++ [event]) (by simp)

theorem AllTaken.last {event : Event} (taken : AllTaken opening (events ++ [event])) :
    verdictAfter opening events event = none :=
  taken events event [] rfl

theorem AllTaken.concat {event : Event} (taken : AllTaken opening events)
    (last : verdictAfter opening events event = none) : AllTaken opening (events ++ [event]) := by
  intro before earlier after split
  rcases List.eq_nil_or_concat' after with rfl | ⟨rest, final, rfl⟩
  · obtain ⟨rfl, same⟩ := List.append_inj' split rfl
    cases same
    exact last
  · rw [← List.cons_append, ← List.append_assoc] at split
    obtain ⟨rfl, -⟩ := List.append_inj' split rfl
    exact taken before earlier rest rfl

theorem Builder.fed_rejected {event : Event} {rejection : Rejection}
    (verdict : verdictAfter opening events event = some rejection) :
    Builder.fed opening (events ++ [event]) = Builder.fed opening events := by
  rw [Builder.fed_concat, Builder.feed_rejected _ _ rejection verdict]

theorem add_of_verdictAfter {event : Event} (verdict : verdictAfter opening events event = none) :
    (Builder.fed opening events).add event = .ok (Builder.fed opening (events ++ [event])) := by
  apply Builder.add_of_feed
  rw [Builder.fed_concat, ← verdict]
  rfl

theorem AllTaken.addAll (taken : AllTaken opening events) :
    (Builder.empty.addOpening opening).addAll events = .ok (Builder.fed opening events) := by
  induction events using List.reverseRecOn with
  | nil => rfl
  | append_singleton events event ih =>
    rw [Builder.addAll_concat _ _ events event (ih taken.before)]
    exact add_of_verdictAfter taken.last

theorem AllTaken.error_eq (taken : AllTaken opening events) :
    (Builder.fed opening events).error = lastError? events := by
  induction events using List.reverseRecOn with
  | nil => rfl
  | append_singleton events event ih =>
    have effect := (Builder.effect_of_add (add_of_verdictAfter taken.last)).2
    rw [Builder.error_effect effect, lastError?_concat, ih taken.before]

/-- A failure that was told before makes no difference to an event, and is forgotten when
another one is told. -/
theorem Builder.add_alike (b : Builder) (error : Option String) (event : Event) :
    Builder.add { b with error } event =
      (b.add event).map fun next => { next with error := event.error?.or error } := by
  have told := b.add_withDetails b.response error event
  have same : b.withDetails b.response error = { b with error } := rfl
  rw [same] at told
  rw [told]
  cases added : b.add event with
  | error rejection => rfl
  | ok next =>
    have response : next.response = { event.tell b.response with content := next.content } :=
      congrArg Builder.response (Builder.eq_withDetails_of_add added)
    simp only [Except.map, Builder.withDetails, ← response]

/-- Events are taken up to the end, or up to the first that is rejected. -/
theorem allTaken_or_rejected (opening : Opening) (events : List Event) :
    AllTaken opening events ∨ ∃ before event after rejection, events = before ++ event :: after ∧
      AllTaken opening before ∧ verdictAfter opening before event = some rejection := by
  induction events using List.reverseRecOn with
  | nil => exact Or.inl (AllTaken.nil opening)
  | append_singleton events event ih =>
    rcases ih with taken | ⟨before, earlier, after, rejection, rfl, taken, verdict⟩
    · cases verdict : verdictAfter opening events event with
      | none => exact Or.inl (taken.concat verdict)
      | some rejection => exact Or.inr ⟨events, event, [], rejection, rfl, taken, verdict⟩
    · exact Or.inr ⟨before, earlier, after ++ [event], rejection, by simp, taken, verdict⟩

theorem exists_concludes (opening : Opening) (events : List Event) :
    ∃ result, Concludes opening events result := by
  rcases allTaken_or_rejected opening events with taken | ⟨before, event, after, rejection, rfl, taken, verdict⟩
  · cases told : lastError? events with
    | some message => exact ⟨_, .failed taken told⟩
    | none => exact ⟨_, .complete taken told⟩
  · exact ⟨_, .rejected taken verdict after⟩

theorem AllTaken.ofStream_eq (taken : AllTaken opening events) :
    Response.ofStream opening events =
      (Builder.fed opening events).build.mapError .streamFailure :=
  Builder.collect_of_addAll events taken.addAll

theorem Concludes.ofStream_eq {result : Except Failure Response}
    (concludes : Concludes opening events result) : Response.ofStream opening events = result := by
  cases concludes with
  | @rejected before event rejection taken verdict after =>
    have rejected := Builder.add_of_rejected verdict
    rw [Response.ofStream, Builder.collect_append before _ taken.addAll, Builder.collect, rejected]
  | failed taken told =>
    rw [taken.ofStream_eq, Builder.build, taken.error_eq, told]
    rfl
  | complete taken untold =>
    rw [taken.ofStream_eq, Builder.build, taken.error_eq, untold]
    rfl

theorem ofStream_eq_iff (opening : Opening) (events : List Event) (result : Except Failure Response) :
    Response.ofStream opening events = result ↔ Concludes opening events result := by
  constructor
  · rintro rfl
    obtain ⟨result, concludes⟩ := exists_concludes opening events
    rwa [concludes.ofStream_eq]
  · exact Concludes.ofStream_eq

/-- A failure bears what the events gave that were taken before it. -/
theorem Concludes.response_eq {failure : Failure} (concludes : Concludes opening events (.error failure)) :
    ∃ before after, events = before ++ after ∧ AllTaken opening before ∧
      (∀ event rest, after = event :: rest →
        (verdictAfter opening before event).isSome ∧
          Builder.fed opening (before ++ [event]) = Builder.fed opening before) ∧
      failure.response? = some (Builder.fed opening before).response := by
  cases concludes with
  | @rejected before event rejection taken verdict after =>
    refine ⟨before, event :: after, rfl, taken, ?_, rfl⟩
    rintro _ _ ⟨⟩
    exact ⟨by rw [verdict, Option.isSome_some], Builder.fed_rejected verdict⟩
  | failed taken told => exact ⟨events, [], by simp, taken, by simp, rfl⟩

theorem Alike.refl (result : Except Failure Response) : Alike result result :=
  ⟨fun _ _ => Iff.rfl, rfl⟩

namespace Builder

theorem build_ne_aggregation (b : Builder) (cause : Rejection) (response : Response) :
    b.build.mapError Failure.streamFailure ≠ .error (.aggregation cause response) := by
  unfold build
  split <;> exact nofun

theorem reached?_build (b : Builder) :
    reached? (b.build.mapError Failure.streamFailure) = some b.response := by
  unfold build
  split <;> rfl

theorem collect_alike (b : Builder) (error : Option String) (events : List Event) :
    Alike (collect { b with error } events) (b.collect events) := by
  induction events generalizing b error with
  | nil =>
    have untold (b : Builder) := b.build_ne_aggregation
    exact ⟨fun cause response => iff_of_false (untold _ cause response) (untold b cause response),
      (reached?_build _).trans b.reached?_build.symm⟩
  | cons event rest ih =>
    rw [collect, collect, b.add_alike]
    cases b.add event with
    | ok next => exact ih next _
    | error rejection => exact Alike.refl _

/-- As long as nothing has finished, a failure that is told is only taken note of. -/
theorem collect_told_alike (b : Builder) (unfinished : b.phase ≠ .finished) (before after : List Event)
    (message : String) (open_ : ∀ event ∈ before, event.kind ≠ .finish) :
    Alike (b.collect (before ++ .error message :: after)) (b.collect (before ++ after)) := by
  induction before generalizing b with
  | nil =>
    have noted : b.add (.error message) = .ok { b with error := some message } := if_neg unfinished
    rw [List.nil_append, collect, noted]
    exact b.collect_alike (some message) after
  | cons event rest ih =>
    rw [List.cons_append, List.cons_append, collect, collect]
    cases added : b.add event with
    | ok next =>
      obtain ⟨-, effect⟩ := effect_of_add added
      apply ih next (unfinished_effect effect unfinished (open_ event List.mem_cons_self))
      exact fun later member => open_ later (List.mem_cons_of_mem _ member)
    | error rejection => exact Alike.refl _

end Builder

/-- A stream comes out as it concludes. A failure bears what the longest run of events gave
that were all taken; the event that was rejected added nothing to it. A failure that is told
before a finish hides no other event. -/
theorem ofStream_concludes (opening : Opening) (events : List Event) :
    (∀ result, Response.ofStream opening events = result ↔ Concludes opening events result) ∧
    (∀ failure, Response.ofStream opening events = .error failure →
      ∃ before after, events = before ++ after ∧ AllTaken opening before ∧
        (∀ event rest, after = event :: rest →
          (verdictAfter opening before event).isSome ∧
            Builder.fed opening (before ++ [event]) = Builder.fed opening before) ∧
        failure.response? = some (Builder.fed opening before).response) ∧
    ∀ before message after, events = before ++ .error message :: after →
      (∀ event ∈ before, event.kind ≠ .finish) →
        Alike (Response.ofStream opening events) (Response.ofStream opening (before ++ after)) := by
  refine ⟨ofStream_eq_iff opening events, ?_, ?_⟩
  · intro failure failed
    exact ((ofStream_eq_iff opening events _).mp failed).response_eq
  · rintro before message after rfl open_
    have unfinished : (Builder.empty.addOpening opening).phase ≠ .finished := nofun
    exact Builder.collect_told_alike _ unfinished before after message open_

/-- Two failures that are told around a text, and a finish. -/
def troubledStream : List Event :=
  [.error "a", .textDelta "so far", .error "b", .finish { reason := .stop }]

theorem troubledStream_taken : AllTaken {} troubledStream :=
  ((((AllTaken.nil {}).concat rfl).concat rfl).concat rfl).concat rfl

theorem ofStream_concludes_troubled :
    Response.ofStream {} troubledStream =
        .error (.streamFailure ⟨"b", (Builder.fed {} troubledStream).response⟩) ∧
      Response.ofStream {} (troubledStream ++ [.textDelta "late"]) =
        .error (.aggregation (.afterFinish .textDelta) (Builder.fed {} troubledStream).response) ∧
      (∃ before after, troubledStream ++ [.textDelta "late"] = before ++ after ∧ AllTaken {} before ∧
        (∀ event rest, after = event :: rest →
          (verdictAfter {} before event).isSome ∧ Builder.fed {} (before ++ [event]) = Builder.fed {} before) ∧
        some (Builder.fed {} troubledStream).response = some (Builder.fed {} before).response) ∧
      Alike (Response.ofStream {} troubledStream)
        (Response.ofStream {} [.error "a", .textDelta "so far", .finish { reason := .stop }]) ∧
      (Builder.fed {} troubledStream).content = [.ofText "so far"] := by
  have timely := ofStream_concludes {} troubledStream
  have late := ofStream_concludes {} (troubledStream ++ [.textDelta "late"])
  have told := (timely.1 _).mpr (.failed troubledStream_taken rfl)
  have rejected := (late.1 _).mpr (.rejected troubledStream_taken rfl [])
  refine ⟨told, rejected, late.2.1 _ rejected, ?_, rfl⟩
  exact timely.2.2 [.error "a", .textDelta "so far"] "b" [.finish { reason := .stop }] rfl
    (by simp [Event.kind])

end Colloquy
