import Colloquy.Failure
import Colloquy.Transcript.Options

/-! A conversation flattened into one prompt for services that complete text. Every
turn stands under its label, and the transcript ends with the assistant's, so
that the model goes on as the assistant. The stop sequence keeps it from
writing the user's next turn. -/
namespace Colloquy

structure CompletionPrompt where
  prompt : String
  stopSequences : List String := []
  deriving DecidableEq, Repr

namespace Transcript

def userText : Block → Except Failure String
  | .text block => .ok block.text
  | .image _ => .error (.unsupportedFeature .images)
  | .file _ => .error (.unsupportedFeature .fileAttachments)
  | other => .error (.unsupportedContent .user other.kind)

def assistantText : Block → Except Failure String
  | .text block => .ok block.text
  | .toolCall _ => .error (.unsupportedFeature .toolCallMessages)
  | other => .error (.unsupportedContent .assistant other.kind)

def heading (label : String) : String :=
  label ++ ":\n"

def turn (label : String) (texts : List String) : String :=
  heading label ++ String.join texts ++ "\n\n"

/-- One message as a turn. A system message has no place but the first. -/
def turnOf (options : Options) : Message → Except Failure String
  | .system _ => .error (.invalidPrompt "unexpected system message in prompt")
  | .user message => (message.content.mapM userText).map (turn options.user)
  | .assistant message => (message.content.mapM assistantText).map (turn options.assistant)
  | .tool _ => .error (.unsupportedFeature .toolMessages)

/-- The text before the first turn, and the messages that become turns. -/
def preamble : List Message → String × List Message
  | .system message :: rest => (message.content ++ "\n\n", rest)
  | prompt => ("", prompt)

def render (options : Options) (prompt : List Message) : Except Failure String :=
  let (opening, rest) := preamble prompt
  (rest.mapM (turnOf options)).map fun turns =>
    opening ++ String.join turns ++ heading options.assistant

/-- A single user text is a prompt already where a raw prompt was asked for. -/
def rawPrompt? (options : Options) (prompt : List Message) : Option String :=
  match options.inputFormat, prompt with
  | .prompt, [.user { content := [.text block], .. }] => some block.text
  | _, _ => none

def stopSequence (options : Options) : String :=
  "\n" ++ options.user ++ ":"

def completionPrompt (options : Options) (prompt : List Message) : Except Failure CompletionPrompt :=
  match rawPrompt? options prompt with
  | some text => .ok { prompt := text }
  | none => (render options prompt).map fun text =>
      { prompt := text, stopSequences := [stopSequence options] }

end Transcript

end Colloquy
