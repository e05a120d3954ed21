import Colloquy.Chat.Fragments

/-! A chunk decoder as it is used: it is given chunks, or texts that hold one, and is asked
to finish at any time and as often as one likes. -/
namespace Colloquy.Chat

inductive Request where
  | text (text : String)
  | chunk (chunk : Chunk)
  | finish

namespace ChunkDecoder

/-- The decoder after a request. A text that holds no chunk leaves it as it is. -/
def serve (d : ChunkDecoder) : Request → ChunkDecoder
  | .text text =>
    match d.decodeText text with
    | .ok (next, _) => next
    | .error _ => d
  | .chunk chunk => (d.decode chunk).1
  | .finish => d.finish.1

def serveAll (d : ChunkDecoder) (requests : List Request) : ChunkDecoder :=
  requests.foldl serve d

/-- The decoder after these chunks. -/
def fed (chunks : List Chunk) : ChunkDecoder :=
  (decodeAll {} chunks).1

def eventsOf (chunks : List Chunk) : List Event :=
  (decodeAll {} chunks).2

/-- The events of a chunk that comes after these chunks. -/
def eventsAfter (before : List Chunk) (chunk : Chunk) : List Event :=
  ((fed before).decode chunk).2

end ChunkDecoder

open ChunkDecoder

/-- What one chunk among others tells of failures and of the identity of the response. -/
structure TellsInPlace (before : List Chunk) (chunk : Chunk) (after : List Chunk) : Prop where
  /-- A chunk with a failure is an error event, and all else is as if it had not come. -/
  disturbance : ∀ explanation, chunk.error = some explanation →
    eventsAfter before chunk = [.error explanation.message] ∧
      fed (before ++ chunk :: after) = fed (before ++ after) ∧
      ∃ later, eventsOf (before ++ after) = eventsOf before ++ later ∧
        eventsOf (before ++ chunk :: after) = eventsOf before ++ .error explanation.message :: later
  /-- The identity is told by the first chunk that has any of it, before its other events. -/
  identity : ∀ info, chunk.error = none → chunk.info? = some info → Chat.identity before = none →
    ∃ rest, eventsAfter before chunk = .responseMetadata info.id info.modelId info.timestamp :: rest ∧
      ∀ event ∈ rest, event.kind ≠ .responseMetadata
  unidentified : (∃ event ∈ eventsAfter before chunk, event.kind = .responseMetadata) →
    chunk.error = none ∧ chunk.info?.isSome ∧ Chat.identity before = none

end Colloquy.Chat
