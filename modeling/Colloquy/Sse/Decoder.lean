import Colloquy.Sse.Frame

/-! Frames from a body that arrives in pieces. A byte at a time is taken; a line
feed ends a line, an empty line ends a frame. After the end marker nothing more
is read. -/
namespace Colloquy.Sse

open Text (Bytes)

/-- What a body delivers when it is asked for more. -/
inductive Arrival where
  | bytes (chunk : Bytes)
  | notReady
  | failure (failure : Failure)

structure Decoder where
  line : Bytes := []
  payload : Option Bytes := none
  done : Bool := false

namespace Decoder

/-- The frame ends. One without data is none, and so is one after the end marker. -/
def dispatch (d : Decoder) : Decoder × List (Except Failure Frame) :=
  match d.payload with
  | none => (d, [])
  | some payload =>
    if payload.isEmpty || d.done then ({ d with payload := none }, [])
    else
      let item := Frame.ofPayload payload
      ({ d with payload := none, done := isDone item }, [item])

def takeLine (d : Decoder) (line : Bytes) : Decoder × List (Except Failure Frame) :=
  if line.isEmpty then d.dispatch
  else match dataField? line with
    | none => (d, [])
    | some value =>
      ({ d with payload := some (match d.payload with
          | some payload => payload ++ lineFeed :: value
          | none => value) }, [])

/-- The line ends. One carriage return at its end is not part of it. -/
def endLine (d : Decoder) : Decoder × List (Except Failure Frame) :=
  let line := match d.line with
    | last :: rest => if last = carriageReturn then rest else last :: rest
    | [] => []
  { d with line := [] }.takeLine line.reverse

def step (d : Decoder) (byte : UInt8) : Decoder × List (Except Failure Frame) :=
  if byte = lineFeed then d.endLine else ({ d with line := byte :: d.line }, [])

def feed (d : Decoder) : Bytes → Decoder × List (Except Failure Frame)
  | [] => (d, [])
  | byte :: rest =>
    let (next, items) := d.step byte
    let (last, more) := next.feed rest
    (last, items ++ more)

def close (d : Decoder) : List (Except Failure Frame) :=
  if d.line.isEmpty then d.dispatch.2
  else
    let (next, items) := d.endLine
    items ++ next.dispatch.2

def run (d : Decoder) : List Arrival → List (Except Failure Frame)
  | [] => d.close
  | .notReady :: rest => d.run rest
  | .failure failure :: rest => .error failure :: d.run rest
  | .bytes chunk :: rest =>
    let (next, items) := d.feed chunk
    items ++ if next.done then [] else next.run rest

/-- What is released before the body ends, and the decoder that waits for more. -/
def read (d : Decoder) : List Arrival → Decoder × List (Except Failure Frame)
  | [] => (d, [])
  | .notReady :: rest => d.read rest
  | .failure failure :: rest =>
    let (last, items) := d.read rest
    (last, .error failure :: items)
  | .bytes chunk :: rest =>
    let (next, items) := d.feed chunk
    if next.done then (next, items)
    else
      let (last, more) := next.read rest
      (last, items ++ more)

end Decoder

def decode (body : List Arrival) : List (Except Failure Frame) :=
  Decoder.run {} body

end Colloquy.Sse
