import Colloquy.Chat.ChunkDecoder

/-! What a list of chunks tells as a whole. Chunks with a failure are left out, and
of the others only the first choice counts. The fragments of a tool call belong
together by their index, and the first of them has the identifier. -/
namespace Colloquy.Chat

def streamedEvents (chunks : List Chunk) : List Event :=
  let (last, events) := ChunkDecoder.decodeAll {} chunks
  events ++ last.finish.2.toList

def undisturbed (chunks : List Chunk) : List Chunk :=
  chunks.filter fun chunk => chunk.error.isNone

def choices (chunks : List Chunk) : List ChunkChoice :=
  (undisturbed chunks).filterMap fun chunk => chunk.choices.head?

def fragments (chunks : List Chunk) : List ToolCallFragment :=
  (choices chunks).flatMap fun choice => choice.delta.toolCalls.getD []

def lastReason (chunks : List Chunk) : Option String :=
  ((choices chunks).filterMap fun choice => Text.nonempty? choice.finishReason).getLast?

def lastUsage (chunks : List Chunk) : Option TokenReport :=
  ((undisturbed chunks).filterMap fun chunk => chunk.usage).getLast?

def Scores.tokens (scores : Option Scores) : List TokenScore :=
  (scores.bind (·.content)).getD []

def tokenScores (chunks : List Chunk) : List TokenScore :=
  (choices chunks).flatMap fun choice => Scores.tokens choice.scores

def Chunk.info? (chunk : Chunk) : Option ResponseInfo :=
  if chunk.id.isSome || chunk.model.isSome then
    some {
      id := chunk.id.getD ""
      timestamp := chunk.created.bind Time.Timestamp.ofUnixSeconds?
      modelId := chunk.model.getD "" }
  else none

def identity (chunks : List Chunk) : Option ResponseInfo :=
  (undisturbed chunks).findSome? Chunk.info?

namespace ToolCallFragment

def name (f : ToolCallFragment) : String :=
  (f.function.bind (·.name)).getD ""

def arguments (f : ToolCallFragment) : String :=
  (f.function.bind (·.arguments)).getD ""

end ToolCallFragment

/-- A piece of a reply, as long as it is not empty. -/
inductive Piece where
  | reasoning (text : String)
  | text (text : String)
  | call (fragment : ToolCallFragment)

def Piece.rank : Piece → Nat
  | .reasoning _ => 0
  | .text _ => 1
  | .call _ => 2

def ChunkChoice.pieces (choice : ChunkChoice) : List Piece :=
  ((Text.nonempty? choice.delta.reasoning).map Piece.reasoning).toList ++
    ((Text.nonempty? choice.delta.content).map Piece.text).toList ++
    (choice.delta.toolCalls.getD []).map Piece.call

def pieces (chunks : List Chunk) : List Piece :=
  (choices chunks).flatMap ChunkChoice.pieces

def indexes (fragments : List ToolCallFragment) : List UInt64 :=
  (fragments.map (·.index)).eraseDups

def fragmentsAt (fragments : List ToolCallFragment) (index : UInt64) : List ToolCallFragment :=
  fragments.filter fun fragment => fragment.index == index

def callIdAt (fragments : List ToolCallFragment) (index : UInt64) : String :=
  (((fragmentsAt fragments index).head?).bind (·.id)).getD ""

def nameAt (fragments : List ToolCallFragment) (index : UInt64) : String :=
  Text.firstNonempty ((fragmentsAt fragments index).map ToolCallFragment.name)

def argumentsAt (fragments : List ToolCallFragment) (index : UInt64) : String :=
  String.join ((fragmentsAt fragments index).map ToolCallFragment.arguments)

/-- The fragments of a call up to the last that is told of. The first is told of, and
every one with arguments. -/
def heard : List ToolCallFragment → List ToolCallFragment
  | [] => []
  | first :: rest =>
    first :: (rest.reverse.dropWhile fun fragment => fragment.arguments.isEmpty).reverse

def heardAt (fragments : List ToolCallFragment) (index : UInt64) : List ToolCallFragment :=
  heard (fragmentsAt fragments index)

def heardNameAt (fragments : List ToolCallFragment) (index : UInt64) : String :=
  Text.firstNonempty ((heardAt fragments index).map ToolCallFragment.name)

def callIds (fragments : List ToolCallFragment) : List String :=
  (fragments.map fun fragment => callIdAt fragments fragment.index).eraseDups

/-- The arguments of all fragments at indexes with this identifier. -/
def argumentsOf (fragments : List ToolCallFragment) (callId : String) : String :=
  String.join
    ((fragments.filter fun fragment => callIdAt fragments fragment.index == callId).map
      ToolCallFragment.arguments)

end Colloquy.Chat
