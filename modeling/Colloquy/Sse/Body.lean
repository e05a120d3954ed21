import Colloquy.Sse.Decoder
import Colloquy.Text.Faults

/-! What a whole body conveys, without regard to how it arrives and to how it is decoded.
The body is cut into lines and the lines, at empty ones, into groups; a group has a payload
if it has data, and a payload is an item. A failure of the transport has its place among the
items by the bytes that came before it. -/
namespace Colloquy.Sse

open Text (Bytes)

section Pieces

variable {α : Type} (separates : α → Bool)

def endedPieces (items : List α) : List (List α) :=
  (items.splitOnP separates).dropLast

def lastPiece (items : List α) : List α :=
  (items.splitOnP separates).getLast?.getD []

end Pieces

/-- A line without one `\r` at its end. -/
def chomp (line : Bytes) : Bytes :=
  if line.getLast? = some 0x0D then line.dropLast else line

/-- The lines that a `\n` ends. -/
def endedLines (body : Bytes) : List Bytes :=
  (endedPieces (· == 0x0A) body).map chomp

def lastLine (body : Bytes) : Bytes :=
  lastPiece (· == 0x0A) body

/-- The lines of a body. A last one that is not ended counts when it is not empty. -/
def lines (body : Bytes) : List Bytes :=
  endedLines body ++ if (lastLine body).isEmpty then [] else [chomp (lastLine body)]

/-- What a line of data starts with. -/
def dataStart : Bytes :=
  "data:".toList.flatMap String.utf8EncodeChar

/-- What a line of data has after its start, without one blank. -/
def dataRest (line : Bytes) : Bytes :=
  let rest := line.drop dataStart.length
  if rest.head? = some 0x20 then rest.tail else rest

def payload (group : List Bytes) : Bytes :=
  List.intercalate [0x0A] ((group.filter dataStart.isPrefixOf).map dataRest)

def payloadsOf (groups : List (List Bytes)) : List Bytes :=
  (groups.map payload).filter fun bytes => !bytes.isEmpty

def payloads (body : Bytes) : List Bytes :=
  payloadsOf ((lines body).splitOnP List.isEmpty)

/-- The payloads of the groups that are closed within a body, not by its end. -/
def closedPayloads (body : Bytes) : List Bytes :=
  payloadsOf (endedPieces List.isEmpty (endedLines body))

/-- A text is the end marker when there are only blanks around it. -/
def Marks (text : String) : Prop :=
  ∃ before after, text.toList = before ++ "[DONE]".toList ++ after ∧
    ∀ c ∈ before ++ after, Text.isBlank c = true

inductive Conveys : Bytes → Except Failure Frame → Prop where
  | done (text : String) (marks : Marks text) : Conveys (Text.Utf8.encode text) (.ok .done)
  | data (text : String) (other : ¬ Marks text) : Conveys (Text.Utf8.encode text) (.ok (.data text))
  | invalid (bytes : Bytes) (fault : Text.Utf8.Fault) (faulty : Text.Utf8.FaultOf bytes fault) :
      Conveys bytes (.error (.stream s!"invalid UTF-8 in stream chunk: {fault.message}"))

def untilDone : List (Except Failure Frame) → List (Except Failure Frame)
  | [] => []
  | .ok .done :: _ => [.ok .done]
  | item :: rest => item :: untilDone rest

def delivered : List Arrival → Bytes
  | [] => []
  | .bytes chunk :: rest => chunk ++ delivered rest
  | _ :: rest => delivered rest

/-- The failures of a body, after the bytes `before`, each with the number of payloads
that are closed when it comes. -/
def failureMarks (before : Bytes) : List Arrival → List (Nat × Failure)
  | [] => []
  | .bytes chunk :: rest => failureMarks (before ++ chunk) rest
  | .notReady :: rest => failureMarks before rest
  | .failure failure :: rest => ((closedPayloads before).length, failure) :: failureMarks before rest

def failuresAt (marks : List (Nat × Failure)) (count : Nat) : List (Except Failure Frame) :=
  (marks.filter fun mark => mark.1 == count).map fun mark => .error mark.2

/-- The items with each failure after as many of them as its mark says, of which
`count` are already out. -/
def insertFailures (marks : List (Nat × Failure)) (count : Nat) :
    List (Except Failure Frame) → List (Except Failure Frame)
  | [] => failuresAt marks count
  | item :: rest => failuresAt marks count ++ item :: insertFailures marks (count + 1) rest

end Colloquy.Sse
