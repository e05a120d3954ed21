import Colloquy.Chat.Message
import Colloquy.Failure
import Colloquy.Json.Writer
import Colloquy.Text.Blank

/-! A conversation as the messages of a chat request. A message for each system,
user and assistant message, and one for each tool result. -/
namespace Colloquy.Chat

open Text (Bytes)

def dataUrl (mediaType : String) (data : Bytes) : String :=
  s!"data:{mediaType};base64,{Text.Base64.encode data}"

def defaultImageType : String := "image/jpeg"

def imageUrl (image : ImageBlock) : Except Failure String :=
  match Text.nonempty? image.url, image.data with
  | some url, _ => .ok url
  | none, some data => .ok (dataUrl ((Text.nonempty? image.mediaType).getD defaultImageType) data)
  | none, none => .error (.invalidPrompt "image block must carry either a url or data")

/-- A file travels as text: its address, a data address where its type is known,
and otherwise its bytes read as text. -/
def fileText (file : FileBlock) : Except Failure String :=
  match Text.nonempty? file.url, file.data, Text.nonempty? file.mediaType with
  | some url, _, _ => .ok url
  | none, some data, some mediaType => .ok (dataUrl mediaType data)
  | none, some data, none => .ok (Text.Utf8.decodeLossy data)
  | none, none, _ => .error (.invalidPrompt "file block must carry either a url or data")

def userPart : Block → Except Failure Part
  | .text block => .ok (.text block.text)
  | .image block => (imageUrl block).map .imageUrl
  | .file block => (fileText block).map .text
  | other => .error (.unsupportedContent .user other.kind)

def userMessage (message : UserMessage) : Except Failure Message :=
  match message.content with
  | [.text block] => .ok (.user (.text block.text))
  | blocks => (blocks.mapM userPart).map fun parts => .user (.parts parts)

/-- Arguments stay as they are if they are a document; blank ones become an empty
object. Of others a fixed wording, `not a document`, is told in place of the JSON reader's
own text. -/
def callArguments (call : ToolCallBlock) : Except Failure String :=
  if Text.isBlankText call.args then .ok "\x7b\x7d"
  else if Json.isDocument call.args then .ok call.args
  else .error (.encoding s!"tool call {call.callId} has invalid JSON arguments: not a document")

def toolCall (call : ToolCallBlock) : Except Failure ToolCall :=
  (callArguments call).map fun arguments =>
    { id := call.callId, function := { name := call.toolName, arguments } }

def assistantShare : Block → Except Failure (String × List ToolCall)
  | .text block => .ok (block.text, [])
  | .toolCall block => (toolCall block).map fun call => ("", [call])
  | other => .error (.unsupportedContent .assistant other.kind)

def assistantMessage (message : AssistantMessage) : Except Failure Message :=
  (message.content.mapM assistantShare).map fun shares =>
    .assistant (String.join (shares.map (·.1))) none (shares.map (·.2)).flatten

def toolMessage (result : ToolResultBlock) : Message :=
  .tool result.result.render result.callId

def segment : Colloquy.Message → Except Failure (List Message)
  | .system message => .ok [.system message.content]
  | .user message => (userMessage message).map ([·])
  | .assistant message => (assistantMessage message).map ([·])
  | .tool message => .ok (message.content.map toolMessage)

def encodePrompt (prompt : List Colloquy.Message) : Except Failure (List Message) :=
  (prompt.mapM segment).map List.flatten

end Colloquy.Chat
