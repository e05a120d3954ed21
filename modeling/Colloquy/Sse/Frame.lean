import Colloquy.Failure
import Colloquy.Text.Blank
import Colloquy.Text.Utf8

/-! Server-sent events, as far as the service uses them: data, and a marker that
ends the stream. -/
namespace Colloquy.Sse

open Text (Bytes)

inductive Frame where
  | data (text : String)
  | done
  deriving DecidableEq, Repr

def lineFeed : UInt8 := 10

def carriageReturn : UInt8 := 13

/-- The data of a line, if it is a data field. One blank after the colon is not
part of it. -/
def dataField? (line : Bytes) : Option Bytes :=
  match line with
  | 0x64 :: 0x61 :: 0x74 :: 0x61 :: 0x3A :: 0x20 :: value => some value
  | 0x64 :: 0x61 :: 0x74 :: 0x61 :: 0x3A :: value => some value
  | _ => none

def Frame.ofPayload (payload : Bytes) : Except Failure Frame :=
  match Text.Utf8.decode payload with
  | .ok text => .ok (if Text.trim text = "[DONE]" then .done else .data text)
  | .error fault => .error (.stream s!"invalid UTF-8 in stream chunk: {fault.message}")

def isDone : Except Failure Frame → Bool
  | .ok .done => true
  | _ => false

end Colloquy.Sse
