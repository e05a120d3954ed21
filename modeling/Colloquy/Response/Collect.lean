import Colloquy.Failure

/-! A streamed generation drained into one response. -/
namespace Colloquy

/-- Events added one after another, up to the first that is rejected. -/
def Builder.collect (b : Builder) : List Event → Except Failure Response
  | [] => b.build.mapError .streamFailure
  | event :: rest =>
    match b.add event with
    | .ok next => next.collect rest
    | .error rejection => .error (.aggregation rejection b.response)

/-- The response of a whole stream. What was known at its opening comes first. -/
def Response.ofStream (opening : Opening) (events : List Event) : Except Failure Response :=
  (Builder.empty.addOpening opening).collect events

end Colloquy
