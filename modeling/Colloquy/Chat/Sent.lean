import Colloquy.Chat.Prompt
import Colloquy.Response.Basic
import Mathlib.Data.List.Forall2

/-! What stands for a conversation in a chat request, one message at a time. These are
judgments on a message and what is sent for it; nothing here says how it is computed,
or what becomes of a message for which there is nothing. -/
namespace Colloquy

/-- A text that is there and not empty. -/
def Given (text : Option String) (value : String) : Prop :=
  text = some value ∧ value ≠ ""

/-- A text that is missing or empty. -/
def NotGiven (text : Option String) : Prop :=
  ∀ value, ¬Given text value

def Message.results : Message → List ToolResultBlock
  | .tool message => message.content
  | _ => []

namespace Chat

inductive ImageSent (image : ImageBlock) : String → Prop
  | byAddress {url : String} (address : Given image.url url) : ImageSent image url
  | inline {data : Text.Bytes} {mediaType : String} (address : NotGiven image.url)
      (carried : image.data = some data) (type : Given image.mediaType mediaType) :
      ImageSent image ("data:" ++ mediaType ++ ";base64," ++ Text.Base64.encode data)
  | inlineOfNoType {data : Text.Bytes} (address : NotGiven image.url)
      (carried : image.data = some data) (type : NotGiven image.mediaType) :
      ImageSent image ("data:image/jpeg;base64," ++ Text.Base64.encode data)

inductive FileSent (file : FileBlock) : String → Prop
  | byAddress {url : String} (address : Given file.url url) : FileSent file url
  | inline {data : Text.Bytes} {mediaType : String} (address : NotGiven file.url)
      (carried : file.data = some data) (type : Given file.mediaType mediaType) :
      FileSent file ("data:" ++ mediaType ++ ";base64," ++ Text.Base64.encode data)
  | asText {data : Text.Bytes} (address : NotGiven file.url) (carried : file.data = some data)
      (type : NotGiven file.mediaType) : FileSent file (Text.Utf8.decodeLossy data)

inductive PartSent : Block → Part → Prop
  | text (block : TextBlock) : PartSent (.text block) (.text block.text)
  | image {block : ImageBlock} {url : String} (sent : ImageSent block url) :
      PartSent (.image block) (.imageUrl url)
  | file {block : FileBlock} {text : String} (sent : FileSent block text) :
      PartSent (.file block) (.text text)

inductive CallSent (call : ToolCallBlock) : ToolCall → Prop
  | blank (arguments : Text.isBlankText call.args) :
      CallSent call ⟨"function", call.callId, ⟨call.toolName, "\x7b\x7d"⟩⟩
  | verbatim (filled : ¬Text.isBlankText call.args) (document : Json.isDocument call.args) :
      CallSent call ⟨"function", call.callId, ⟨call.toolName, call.args⟩⟩

/-- A message and its segment of the request. -/
inductive Sent : Colloquy.Message → List Message → Prop
  | system (message : SystemMessage) : Sent (.system message) [.system message.content]
  | userText {message : UserMessage} {block : TextBlock} (single : message.content = [.text block]) :
      Sent (.user message) [.user (.text block.text)]
  | userParts {message : UserMessage} {parts : List Part}
      (several : ∀ block, message.content ≠ [.text block])
      (sent : List.Forall₂ PartSent message.content parts) :
      Sent (.user message) [.user (.parts parts)]
  | assistant {message : AssistantMessage} {calls : List ToolCall}
      (plain : ∀ block ∈ message.content, block.kind = .text ∨ block.kind = .toolCall)
      (sent : List.Forall₂ CallSent (message.content.filterMap Response.toolCallOf?) calls) :
      Sent (.assistant message)
        [.assistant (String.join (message.content.filterMap Response.textOf?)) none calls]
  | tool (message : ToolMessage) :
      Sent (.tool message) (message.content.map fun result => .tool result.result.render result.callId)

end Chat

end Colloquy
