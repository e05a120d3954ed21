import Colloquy.Response.Collect
import Colloquy.Response.Session
import Colloquy.Stream.History

/-! How a stream concludes. It is told by a builder that is given the opening and then one
event after another, each of them worked on in place. -/
namespace Colloquy

def Builder.fed (opening : Opening) (events : List Event) : Builder :=
  Builder.empty.feedAll (.opening opening :: events.map .event)

/-- The verdict on an event that comes after these events. -/
def verdictAfter (opening : Opening) (events : List Event) (event : Event) : Option Rejection :=
  ((Builder.fed opening events).feed (.event event)).2

def AllTaken (opening : Opening) (events : List Event) : Prop :=
  ∀ before event after, events = before ++ event :: after → verdictAfter opening before event = none

/-- The first event that is rejected concludes the stream, whatever comes after it. Without
one, the failure that is told last does, and the end of the events if there is none. -/
inductive Concludes (opening : Opening) : List Event → Except Failure Response → Prop
  | rejected {before : List Event} {event : Event} {rejection : Rejection}
      (taken : AllTaken opening before) (verdict : verdictAfter opening before event = some rejection)
      (after : List Event) :
      Concludes opening (before ++ event :: after)
        (.error (.aggregation rejection (Builder.fed opening before).response))
  | failed {events : List Event} {message : String} (taken : AllTaken opening events)
      (told : lastError? events = some message) :
      Concludes opening events (.error (.streamFailure ⟨message, (Builder.fed opening events).response⟩))
  | complete {events : List Event} (taken : AllTaken opening events) (untold : lastError? events = none) :
      Concludes opening events (.ok (Builder.fed opening events).response)

/-- What there is of a response in the end, be it whole or in part. -/
def reached? : Except Failure Response → Option Response
  | .ok response => some response
  | .error failure => failure.response?

/-- Results that are the same but for the failures that a stream tells of itself. -/
structure Alike (one other : Except Failure Response) : Prop where
  rejected : ∀ cause response,
    one = .error (.aggregation cause response) ↔ other = .error (.aggregation cause response)
  reached : reached? one = reached? other

end Colloquy
