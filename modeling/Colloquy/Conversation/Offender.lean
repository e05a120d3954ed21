import Colloquy.Conversation.Message

/-! The first of several items that is not as it should be. -/
namespace Colloquy

/-- The first item that is not fine. Nothing is said of the items after it. -/
def FirstOffender {α : Type} (fine : α → Prop) (items : List α) (offender : α) : Prop :=
  ∃ before after, items = before ++ offender :: after ∧ (∀ item ∈ before, fine item) ∧ ¬fine offender

/-- The blocks of a user's or an assistant's message; the others have none. -/
def Message.blocks : Message → List Block
  | .user message => message.content
  | .assistant message => message.content
  | .system _ => []
  | .tool _ => []

end Colloquy
