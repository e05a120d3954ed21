import Colloquy.Response.Builder

/-! A builder that is offered events one after another, and what it takes of them. -/
namespace Colloquy.Builder

def offerAll (b : Builder) (events : List Event) : Builder :=
  events.foldl (fun b event => (b.offer event).1) b

def accepted (b : Builder) : List Event → List Event
  | [] => []
  | event :: rest =>
    match b.add event with
    | .ok next => event :: next.accepted rest
    | .error _ => b.accepted rest

def addAll (b : Builder) (events : List Event) : Except Rejection Builder :=
  events.foldlM add b

end Colloquy.Builder
