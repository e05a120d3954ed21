import Colloquy.Chat.Sent
import Colloquy.Conversation.Offender

/-! Which blocks a message may hold that is to be sent, and what is said of a block that
has no place in it. These are judgments on a block and the role of its message; nothing
else of the conversation has a part in them. -/
namespace Colloquy

/-- There is something to send: an address that is not empty, or data, be it of no bytes. -/
def Sendable (url : Option String) (data : Option Text.Bytes) : Prop :=
  (∃ address, Given url address) ∨ data.isSome

namespace Chat

def admittedKinds : Role → List BlockKind
  | .user => [.text, .image, .file]
  | .assistant => [.text, .toolCall]
  | .system => []
  | .tool => []

/-- Arguments that can be sent: nothing but white space, or a document. -/
def ArgumentsFit (call : ToolCallBlock) : Prop :=
  Text.isBlankText call.args ∨ Json.isDocument call.args

inductive Admits : Role → Block → Prop
  | userText (block : TextBlock) : Admits .user (.text block)
  | image {block : ImageBlock} (sendable : Sendable block.url block.data) : Admits .user (.image block)
  | file {block : FileBlock} (sendable : Sendable block.url block.data) : Admits .user (.file block)
  | assistantText (block : TextBlock) : Admits .assistant (.text block)
  | toolCall {call : ToolCallBlock} (fit : ArgumentsFit call) : Admits .assistant (.toolCall call)

inductive Refuses : Role → Block → Failure → Prop
  | kind {role : Role} {block : Block} (foreign : block.kind ∉ admittedKinds role) :
      Refuses role block (.unsupportedContent role block.kind)
  | image {block : ImageBlock} (empty : ¬Sendable block.url block.data) :
      Refuses .user (.image block) (.invalidPrompt "image block must carry either a url or data")
  | file {block : FileBlock} (empty : ¬Sendable block.url block.data) :
      Refuses .user (.file block) (.invalidPrompt "file block must carry either a url or data")
  | toolCall {call : ToolCallBlock} (unfit : ¬ArgumentsFit call) :
      Refuses .assistant (.toolCall call)
        (.encoding ("tool call " ++ call.callId ++ " has invalid JSON arguments: not a document"))

/-- A block and the role of the message that it stands in. -/
structure PlacedBlock where
  role : Role
  block : Block

namespace PlacedBlock

def Admitted (placed : PlacedBlock) : Prop :=
  Admits placed.role placed.block

def Refused (placed : PlacedBlock) (failure : Failure) : Prop :=
  Refuses placed.role placed.block failure

end PlacedBlock

def placedIn (message : Colloquy.Message) : List PlacedBlock :=
  message.blocks.map (PlacedBlock.mk message.role)

/-- The blocks of a conversation, message by message. -/
def placedBlocks (prompt : List Colloquy.Message) : List PlacedBlock :=
  prompt.flatMap placedIn

end Chat

end Colloquy
