import Colloquy.Chat.Chunk
import Colloquy.Failure
import Colloquy.Text.Blank

/-! Chunks turned into events. The finish reason, the usage and the log
probabilities arrive spread over the chunks; they are gathered and released as
one finish event. -/
namespace Colloquy.Chat

open Time (Timestamp)

structure CallSlot where
  id : String
  name : String
  deriving DecidableEq, Repr

structure ChunkDecoder where
  metadataSent : Bool := false
  /-- The slot of each index seen; the newest entry of an index counts. -/
  slots : List (UInt64 × CallSlot) := []
  finishReason : Option String := none
  usage : Option TokenReport := none
  logProbs : List LogProb := []
  finished : Bool := false

namespace ChunkDecoder

/-- The first fragment at an index settles the identifier, and the first with a
name the name. A later fragment without arguments tells nothing new. -/
def takeFragment (d : ChunkDecoder) (fragment : ToolCallFragment) : ChunkDecoder × Option Event :=
  let name := (fragment.function.bind (·.name)).getD ""
  let arguments := (fragment.function.bind (·.arguments)).getD ""
  match d.slots.lookup fragment.index with
  | none =>
    let slot : CallSlot := ⟨fragment.id.getD "", name⟩
    ({ d with slots := (fragment.index, slot) :: d.slots },
      some (.toolCallDelta slot.id slot.name arguments))
  | some known =>
    let slot : CallSlot := ⟨known.id, if known.name.isEmpty then name else known.name⟩
    ({ d with slots := (fragment.index, slot) :: d.slots },
      if arguments.isEmpty then none else some (.toolCallDelta slot.id slot.name arguments))

def takeFragments (d : ChunkDecoder) : List ToolCallFragment → ChunkDecoder × List Event
  | [] => (d, [])
  | fragment :: rest =>
    let (next, event) := d.takeFragment fragment
    let (last, events) := next.takeFragments rest
    (last, event.toList ++ events)

/-- The identity of the response, from the first chunk that has any of it. -/
def takeIdentity (d : ChunkDecoder) (chunk : Chunk) : ChunkDecoder × List Event :=
  if !d.metadataSent && (chunk.id.isSome || chunk.model.isSome) then
    ({ d with metadataSent := true },
      [.responseMetadata (chunk.id.getD "") (chunk.model.getD "")
        (chunk.created.bind Timestamp.ofUnixSeconds?)])
  else (d, [])

def takeUsage (d : ChunkDecoder) (usage : Option TokenReport) : ChunkDecoder :=
  { d with usage := usage.or d.usage }

/-- Reasoning, then text, then tool calls. -/
def takeChoice (d : ChunkDecoder) (choice : ChunkChoice) : ChunkDecoder × List Event :=
  let (next, calls) := d.takeFragments (choice.delta.toolCalls.getD [])
  ({ next with
      logProbs := next.logProbs ++ Chat.logProbs choice.scores
      finishReason := (Text.nonempty? choice.finishReason).or next.finishReason },
    ((Text.nonempty? choice.delta.reasoning).map Event.reasoning).toList ++
      ((Text.nonempty? choice.delta.content).map Event.textDelta).toList ++ calls)

/-- The events of one chunk. Only its first choice counts, and nothing of it when
it tells of a failure. -/
def decode (d : ChunkDecoder) (chunk : Chunk) : ChunkDecoder × List Event :=
  match chunk.error with
  | some explanation => (d, [.error explanation.message])
  | none =>
    let (identified, identity) := d.takeIdentity chunk
    let informed := identified.takeUsage chunk.usage
    match chunk.choices with
    | [] => (informed, identity)
    | choice :: _ =>
      let (next, events) := informed.takeChoice choice
      (next, identity ++ events)

def decodeAll (d : ChunkDecoder) : List Chunk → ChunkDecoder × List Event
  | [] => (d, [])
  | chunk :: rest =>
    let (next, events) := d.decode chunk
    let (last, later) := next.decodeAll rest
    (last, events ++ later)

def decodeText (d : ChunkDecoder) (text : String) : Except Failure (ChunkDecoder × List Event) :=
  match Chunk.parse? text with
  | some chunk => .ok (d.decode chunk)
  | none => .error (.malformedJson text)

def finish (d : ChunkDecoder) : ChunkDecoder × Option Event :=
  if d.finished then (d, none)
  else
    ({ d with finished := true, logProbs := [] },
      some (.finish {
        reason := Chat.finishReason d.finishReason
        usage := d.usage.map TokenReport.usage
        logProbs := d.logProbs }))

end ChunkDecoder

end Colloquy.Chat
