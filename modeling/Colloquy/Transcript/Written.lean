import Colloquy.Conversation.Offender
import Colloquy.Transcript.Basic

/-! What the transcript of a conversation is, which conversations have one, and what is
said of the others. Nothing here says in which order the work is done. -/
namespace Colloquy.Transcript

/-- A raw prompt was asked for, and the conversation is one text of the user. -/
def PassesThrough (options : Options) (prompt : List Message) (text : String) : Prop :=
  options.inputFormat = .prompt ∧
    ∃ message block, prompt = [.user message] ∧ message.content = [.text block] ∧ block.text = text

/-- A user's or an assistant's message of nothing but text. -/
def Plain (message : Message) : Prop :=
  (message.role = .user ∨ message.role = .assistant) ∧ ∀ block ∈ message.blocks, block.kind = .text

/-- The messages that have to be turns: all but a system message at the beginning. -/
def spoken : List Message → List Message
  | .system _ :: rest => rest
  | prompt => prompt

/-- The text before the first turn. -/
def foreword : List Message → String
  | .system message :: _ => message.content ++ "\n\n"
  | _ => ""

def said (blocks : List Block) : String :=
  String.join (blocks.filterMap Response.textOf?)

/-- The turn of a message. System and tool messages have none. -/
def turnText (options : Options) : Message → String
  | .user message => options.user ++ ":\n" ++ said message.content ++ "\n\n"
  | .assistant message => options.assistant ++ ":\n" ++ said message.content ++ "\n\n"
  | .system _ => ""
  | .tool _ => ""

def transcript (options : Options) (prompt : List Message) : String :=
  foreword prompt ++ String.join ((spoken prompt).map (turnText options)) ++ options.assistant ++ ":\n"

/-- What a kind of block would need, where there is a name for it. -/
def neededFeature? : Role → BlockKind → Option String
  | .user, .image => some "images"
  | .user, .file => some "file attachments"
  | .assistant, .toolCall => some "tool-call messages"
  | _, _ => none

inductive BlockRefused (role : Role) (block : Block) : Failure → Prop
  | feature {feature : Feature} (needed : neededFeature? role block.kind = some feature.name) :
      BlockRefused role block (.unsupportedFeature feature)
  | kind (unnamed : neededFeature? role block.kind = none) :
      BlockRefused role block (.unsupportedContent role block.kind)

/-- What is said of a message that cannot be a turn. -/
inductive Refused : Message → Failure → Prop
  | system (message : SystemMessage) :
      Refused (.system message) (.invalidPrompt "unexpected system message in prompt")
  | tool (message : ToolMessage) {feature : Feature} (needed : feature.name = "tool messages") :
      Refused (.tool message) (.unsupportedFeature feature)
  | block {message : Message} {block : Block} {failure : Failure}
      (first : FirstOffender (fun block => block.kind = .text) message.blocks block)
      (refused : BlockRefused message.role block failure) : Refused message failure

/-- A text that begins with the heading of the first message, or is the assistant's heading
where there is no message. -/
inductive Headed (options : Options) : List Message → String → Prop
  | last : Headed options [] (options.assistant ++ ":\n")
  | user (message : UserMessage) (more : List Message) (rest : String) :
      Headed options (.user message :: more) (options.user ++ ":\n" ++ rest)
  | assistant (message : AssistantMessage) (more : List Message) (rest : String) :
      Headed options (.assistant message :: more) (options.assistant ++ ":\n" ++ rest)

/-- What is kept of a text that is cut where a stop sequence stands first. -/
def CutAt (stop text kept : String) : Prop :=
  (∃ rest, text = kept ++ stop ++ rest) ∧
    ∀ other rest, text = other ++ stop ++ rest → kept.length ≤ other.length

end Colloquy.Transcript
