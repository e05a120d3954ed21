import Colloquy.Proofs.Response.Update
import Colloquy.Response.Session

/-! Runs of a builder that is fed one input after another, and what they preserve. -/
namespace Colloquy.Builder

theorem feed_event (b : Builder) (event : Event) : b.feed (.event event) = b.offer event := by
  simp only [feed, offer, Update.run_add]
  cases b.add event <;> rfl

theorem feed_of_ok {b next : Builder} {event : Event} (added : b.add event = .ok next) :
    b.feed (.event event) = (next, none) := by
  rw [feed_event, offer, added]

theorem feed_of_error {b : Builder} {event : Event} {rejection : Rejection}
    (rejected : b.add event = .error rejection) : b.feed (.event event) = (b, some rejection) := by
  rw [feed_event, offer, rejected]

theorem add_of_feed {b next : Builder} {event : Event} (taken : b.feed (.event event) = (next, none)) :
    b.add event = .ok next := by
  rw [feed_event, offer] at taken
  cases added : b.add event with
  | ok after => rw [added] at taken; cases taken; rfl
  | error rejection => rw [added] at taken; cases taken

theorem add_of_rejected {b : Builder} {event : Event} {rejection : Rejection}
    (rejected : (b.feed (.event event)).2 = some rejection) : b.add event = .error rejection := by
  rw [feed_event, offer] at rejected
  cases added : b.add event with
  | ok next => rw [added] at rejected; cases rejected
  | error cause => rw [added] at rejected; cases rejected; rfl

/-- An input with a verdict against it leaves the builder as it was. -/
theorem feed_rejected (b : Builder) (input : Input) (rejection : Rejection)
    (rejected : (b.feed input).2 = some rejection) : (b.feed input).1 = b := by
  cases input with
  | opening opening => cases rejected
  | event event =>
    cases added : b.add event with
    | ok next => rw [feed_of_ok added] at rejected; cases rejected
    | error cause => rw [feed_of_error added]

@[simp] theorem feedAll_nil (b : Builder) : b.feedAll [] = b := rfl

@[simp] theorem feedAll_cons (b : Builder) (input : Input) (rest : List Input) :
    b.feedAll (input :: rest) = (b.feed input).1.feedAll rest := rfl

theorem feedAll_concat (b : Builder) (inputs : List Input) (input : Input) :
    b.feedAll (inputs ++ [input]) = ((b.feedAll inputs).feed input).1 := by
  simp [feedAll]

theorem feedAll_append (b : Builder) (inputs more : List Input) :
    b.feedAll (inputs ++ more) = (b.feedAll inputs).feedAll more :=
  List.foldl_append

@[simp] theorem history_nil (b : Builder) : b.history [] = [] := rfl

theorem history_event_taken {b next : Builder} {event : Event} (added : b.add event = .ok next)
    (rest : List Input) : b.history (.event event :: rest) = event :: next.history rest := by
  rw [history, steps, feed_of_ok added]
  exact List.filterMap_cons_some rfl

theorem history_event_rejected {b : Builder} {event : Event} {rejection : Rejection}
    (rejected : b.add event = .error rejection) (rest : List Input) :
    b.history (.event event :: rest) = b.history rest := by
  rw [history, steps, feed_of_error rejected]
  exact List.filterMap_cons_none rfl

theorem history_opening (b : Builder) (opening : Opening) (rest : List Input) :
    b.history (.opening opening :: rest) = (b.addOpening opening).history rest :=
  List.filterMap_cons_none rfl

theorem steps_append (b : Builder) (inputs more : List Input) :
    b.steps (inputs ++ more) = b.steps inputs ++ (b.feedAll inputs).steps more := by
  induction inputs generalizing b with
  | nil => rfl
  | cons input rest ih => rw [List.cons_append, steps, steps, ih, List.cons_append, feedAll_cons]

theorem history_append (b : Builder) (inputs more : List Input) :
    b.history (inputs ++ more) = b.history inputs ++ (b.feedAll inputs).history more := by
  rw [history, steps_append, List.filterMap_append, history, history]

/-- What holds of a builder and the events it took holds after any run, if events that
are taken and openings preserve it. -/
theorem feedAll_preserves {motive : List Event → Builder → Prop}
    (taking : ∀ history b event next, motive history b → b.add event = .ok next →
      motive (history ++ [event]) next)
    (opening : ∀ history b told, motive history b → motive history (b.addOpening told))
    (history : List Event) (b : Builder) (start : motive history b) (inputs : List Input) :
    motive (history ++ b.history inputs) (b.feedAll inputs) := by
  -- The history grows at its end while the inputs are read from their front.
  induction inputs generalizing history b with
  | nil => simpa using start
  | cons input rest ih =>
    rw [feedAll_cons]
    cases input with
    | opening told =>
      rw [history_opening]
      exact ih _ _ (opening history b told start)
    | event event =>
      cases added : b.add event with
      | ok next =>
        rw [history_event_taken added, feed_of_ok added]
        have grown := ih _ _ (taking history b event next start added)
        rwa [List.append_assoc, List.singleton_append] at grown
      | error rejection =>
        rw [history_event_rejected added, feed_of_error added]
        exact ih _ _ start

end Colloquy.Builder
