import Colloquy.Chat.EventStream
import Colloquy.Chat.Fragments
import Colloquy.Stream.History

/-! How the events of a streamed body come to an end. The items of the body are
chunks up to the first that is none: the end marker, a failure, or a text that
cannot be read. Where there is no such item the body itself is the end. -/
namespace Colloquy.Chat

open Sse (Arrival Frame)

def chunk? : Except Failure Frame → Option Chunk
  | .ok (.data text) => Chunk.parse? text
  | _ => none

def endsStream (item : Except Failure Frame) : Bool :=
  (chunk? item).isNone

/-- The chunks before the item that ends the stream. -/
def leadingChunks (items : List (Except Failure Frame)) : List Chunk :=
  (items.takeWhile fun item => !endsStream item).filterMap chunk?

def failureOf? : Except Failure Frame → Option Failure
  | .ok (.data text) => some (.malformedJson text)
  | .ok .done => none
  | .error failure => some failure

/-- The failure that ends the stream, if the end marker or the body does not. -/
def failure? (items : List (Except Failure Frame)) : Option Failure :=
  (items.find? endsStream).bind failureOf?

def terminal? (d : ChunkDecoder) (items : List (Except Failure Frame)) : Option Event :=
  match failure? items with
  | some failure => some (.error failure.message)
  | none => d.finish.2

/-- The events of a body are what its chunks tell and one event more. -/
structure EndsOnce (body : List Arrival) (told : List Event) (last : Event) : Prop where
  whole : events body = told ++ [last]
  decoded : told = (ChunkDecoder.decodeAll {} (leadingChunks (Sse.decode body))).2
  released : terminal? (ChunkDecoder.decodeAll {} (leadingChunks (Sse.decode body))).1
    (Sse.decode body) = some last
  kind : last.kind = if (failure? (Sse.decode body)).isSome then .error else .finish
  unfinished : ∀ event ∈ told, event.kind ≠ .finish
  identity : (told.filter fun event => event.kind == .responseMetadata).length ≤ 1
  /-- What comes after the item that ends the stream tells nothing. -/
  items : ∀ before item after, Sse.decode body = before ++ item :: after → endsStream item = true →
    events body = eventsFrom {} (before ++ [item])
  /-- Once that item is released, nothing of the body is asked for any more. -/
  arrivals : ∀ before after, body = before ++ after →
    (Sse.Decoder.read {} before).2.any endsStream = true → ∀ other, events (before ++ other) = events body
  /-- A chunk with a failure adds an error event, and the stream goes on as without it. -/
  disturbance : ∀ before item after chunk explanation, Sse.decode body = before ++ item :: after →
    before.any endsStream = false → chunk? item = some chunk → chunk.error = some explanation →
      ∃ early late, events body = early ++ .error explanation.message :: late ∧
        eventsFrom {} (before ++ after) = early ++ late ∧ late ≠ []

/-- What there is of a response when its stream fails after these chunks. It has all
blocks that they tell, and who sends them. What is only released at the end of a stream
is not there. -/
structure Interrupted (opening : Opening) (chunks : List Chunk) (r : Response) : Prop where
  content : r.content.map some =
    (spans (ChunkDecoder.decodeAll {} chunks).2).map (Span.block? (ChunkDecoder.decodeAll {} chunks).2)
  responseInfo : r.responseInfo = ResponseInfo.toldOf opening.responseInfo (identity chunks)
  opened : r = { (Builder.empty.addOpening opening).response with
    content := r.content
    responseInfo := r.responseInfo }
  usage : r.usage = {}
  finishReason : r.finishReason = none
  logProbs : r.logProbs = []

end Colloquy.Chat
