import Colloquy.Chat.ChunkDecoder
import Colloquy.Response.Collect
import Colloquy.Sse.Decoder

/-! A streamed body as events. The stream ends with a finish event, or with an
error event at the first item that is a failure or no chunk. -/
namespace Colloquy.Chat

open Sse (Frame)

def eventsFrom (d : ChunkDecoder) : List (Except Failure Frame) → List Event
  | [] => d.finish.2.toList
  | .ok .done :: _ => d.finish.2.toList
  | .error failure :: _ => [.error failure.message]
  | .ok (.data text) :: rest =>
    match d.decodeText text with
    | .error failure => [.error failure.message]
    | .ok (next, events) => events ++ eventsFrom next rest

def events (body : List Sse.Arrival) : List Event :=
  eventsFrom {} (Sse.decode body)

def responseOfBody (opening : Opening) (body : List Sse.Arrival) : Except Failure Response :=
  Response.ofStream opening (events body)

end Colloquy.Chat
