import Colloquy.Json.Record

/-! How a conversation is to be flattened. -/
namespace Colloquy.Transcript

inductive InputFormat where
  | prompt
  | messages
  deriving DecidableEq, Repr

namespace InputFormat

def all : List InputFormat :=
  [.prompt, .messages]

def name : InputFormat → String
  | .prompt => "prompt"
  | .messages => "messages"

def decode? (d : Draft) : Option InputFormat :=
  d.choice? .outside all name

end InputFormat

structure Options where
  inputFormat : InputFormat := .messages
  userLabel : String := "user"
  assistantLabel : String := "assistant"
  deriving DecidableEq, Repr

namespace Options

def withInputFormat (o : Options) (inputFormat : InputFormat) : Options :=
  { o with inputFormat }

def withUserLabel (o : Options) (userLabel : String) : Options :=
  { o with userLabel }

def withAssistantLabel (o : Options) (assistantLabel : String) : Options :=
  { o with assistantLabel }

def labelOr (label fallback : String) : String :=
  if label.isEmpty then fallback else label

/-- The label of user turns; an empty one is as good as none. -/
def user (o : Options) : String :=
  labelOr o.userLabel "user"

/-- The label of assistant turns; an empty one is as good as none. -/
def assistant (o : Options) : String :=
  labelOr o.assistantLabel "assistant"

def encode (o : Options) : Json :=
  Json.record [("input_format", some (.text o.inputFormat.name)), ("user_label", some (.text o.userLabel)),
    ("assistant_label", some (.text o.assistantLabel))]

def decode? (d : Draft) : Option Options := do
  let r ← d.record? ["input_format", "user_label", "assistant_label"]
  let inputFormat ← r.defaulted "input_format" .messages InputFormat.decode?
  let userLabel ← r.defaulted "user_label" "user" Draft.text?
  let assistantLabel ← r.defaulted "assistant_label" "assistant" Draft.text?
  return { inputFormat, userLabel, assistantLabel }

end Options

end Colloquy.Transcript
