import Colloquy.Response.Update

/-! A builder that is fed events, and openings whenever they are told, one after
another. Each event is worked on in place, and the next one finds what it left. -/
namespace Colloquy

inductive Input where
  | event (event : Event)
  | opening (opening : Opening)

/-- An input that was fed, the verdict on it, and the builder after it. -/
structure Step where
  input : Input
  verdict : Option Rejection
  after : Builder

namespace Step

def isTaken (s : Step) : Bool :=
  s.verdict.isNone

def event? (s : Step) : Option Event :=
  match s.input, s.verdict with
  | .event event, none => some event
  | _, _ => none

end Step

namespace Builder

def feed (b : Builder) : Input → Builder × Option Rejection
  | .event event =>
    match (Update.add event).run b with
    | .ok _ next => (next, none)
    | .error rejection left => (left, some rejection)
  | .opening opening => (b.addOpening opening, none)

def feedAll (b : Builder) (inputs : List Input) : Builder :=
  inputs.foldl (fun b input => (b.feed input).1) b

def steps (b : Builder) : List Input → List Step
  | [] => []
  | input :: rest =>
    { input, verdict := (b.feed input).2, after := (b.feed input).1 } :: (b.feed input).1.steps rest

/-- The events of a run that were taken. -/
def history (b : Builder) (inputs : List Input) : List Event :=
  (b.steps inputs).filterMap Step.event?

end Builder

end Colloquy
