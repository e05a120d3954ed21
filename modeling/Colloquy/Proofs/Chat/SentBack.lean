import Colloquy.Chat.Reply
import Colloquy.Proofs.Chat.Prompt

/-! A reply that is sent back as the assistant's part of a conversation. What was read of
it is sent as it was, with two exceptions: reasoning cannot be sent, and calls are sent
in one form. -/
namespace Colloquy.Chat

/-- A call in the form in which calls are sent. -/
def ToolCall.sentBack (call : ToolCall) : ToolCall where
  id := call.id
  function := { call.function with
    arguments := if Text.isBlankText call.function.arguments then "\x7b\x7d" else call.function.arguments }

/-- A call whose arguments can be sent. -/
def ToolCall.Sendable (call : ToolCall) : Prop :=
  Text.isBlankText call.function.arguments ∨ Json.isDocument call.function.arguments

def ReplyMessage.calls (m : ReplyMessage) : List ToolCall :=
  m.toolCalls.getD []

theorem filterMap_textOf?_ofText (texts : List String) :
    (texts.map Block.ofText).filterMap Response.textOf? = texts := by
  rw [List.filterMap_map]
  exact List.filterMap_some

theorem filterMap_textOf?_block (calls : List ToolCall) :
    (calls.map ToolCall.block).filterMap Response.textOf? = [] := by
  rw [List.filterMap_map]
  exact List.filterMap_eq_nil_iff.mpr fun _ _ => rfl

theorem filterMap_toolCallOf?_ofText (texts : List String) :
    (texts.map Block.ofText).filterMap Response.toolCallOf? = [] := by
  rw [List.filterMap_map]
  exact List.filterMap_eq_nil_iff.mpr fun _ _ => rfl

theorem filterMap_toolCallOf?_block (calls : List ToolCall) :
    (calls.map ToolCall.block).filterMap Response.toolCallOf? = calls.map fun call =>
      { callId := call.id, toolName := call.function.name, args := call.function.arguments } := by
  rw [List.filterMap_map, ← List.filterMap_eq_map]
  rfl

theorem callSent_sentBack_iff (call sent : ToolCall) :
    CallSent { callId := call.id, toolName := call.function.name, args := call.function.arguments } sent ↔
      call.Sendable ∧ call.sentBack = sent := by
  unfold ToolCall.Sendable ToolCall.sentBack
  constructor
  · intro carried
    cases carried with
    | blank arguments => exact ⟨.inl arguments, by rw [if_pos arguments]⟩
    | verbatim filled document => exact ⟨.inr document, by rw [if_neg filled]⟩
  · rintro ⟨sendable, rfl⟩
    by_cases blank : Text.isBlankText call.function.arguments
    · rw [if_pos blank]
      exact .blank blank
    · rw [if_neg blank]
      exact .verbatim blank (sendable.resolve_left blank)

theorem sent_texts_and_calls_iff (texts : List String) (calls : List ToolCall) (wire : List Message) :
    Sent (.ofAssistant (texts.map Block.ofText ++ calls.map ToolCall.block)) wire ↔
      (∀ call ∈ calls, call.Sendable) ∧
        wire = [.assistant (String.join texts) none (calls.map ToolCall.sentBack)] := by
  have asked_iff (sent : List ToolCall) :
      List.Forall₂ CallSent ((texts.map Block.ofText ++ calls.map ToolCall.block).filterMap
          Response.toolCallOf?) sent ↔
        (∀ call ∈ calls, call.Sendable) ∧ calls.map ToolCall.sentBack = sent := by
    rw [List.filterMap_append, filterMap_toolCallOf?_ofText, List.nil_append, filterMap_toolCallOf?_block,
      List.forall₂_map_left_iff]
    simp only [callSent_sentBack_iff, List.forall₂_and_left]
    rw [← List.forall₂_map_left_iff, List.forall₂_eq_eq_eq]
  have said : (texts.map Block.ofText ++ calls.map ToolCall.block).filterMap Response.textOf? = texts := by
    rw [List.filterMap_append, filterMap_textOf?_ofText, filterMap_textOf?_block, List.append_nil]
  constructor
  · intro sent
    cases sent with
    | assistant plain asked =>
      obtain ⟨sendable, rfl⟩ := (asked_iff _).mp asked
      exact ⟨sendable, by rw [said]⟩
  · rintro ⟨sendable, rfl⟩
    have plain : ∀ block ∈ texts.map Block.ofText ++ calls.map ToolCall.block,
        block.kind = .text ∨ block.kind = .toolCall := by
      intro block member
      rcases List.mem_append.mp member with text | call
      · obtain ⟨_, -, rfl⟩ := List.mem_map.mp text
        exact .inl rfl
      · obtain ⟨_, -, rfl⟩ := List.mem_map.mp call
        exact .inr rfl
    have sent : Sent (.ofAssistant (texts.map Block.ofText ++ calls.map ToolCall.block)) _ :=
      .assistant plain ((asked_iff _).mpr ⟨sendable, rfl⟩)
    rwa [said] at sent

namespace ReplyMessage

variable {m : ReplyMessage}

theorem blocks_of_given {text : String} (given : Given m.reasoning text) :
    ∃ rest, m.blocks = .reasoning { text } :: rest := by
  unfold blocks
  rw [(nonempty?_eq_some_iff _ _).mpr given]
  exact ⟨_, rfl⟩

theorem blocks_of_notGiven (absent : NotGiven m.reasoning) :
    m.blocks = (Text.nonempty? m.content).toList.map Block.ofText ++ m.calls.map ToolCall.block := by
  unfold blocks calls
  rw [(nonempty?_eq_none_iff _).mpr absent]
  cases Text.nonempty? m.content <;> rfl

theorem join_content (m : ReplyMessage) :
    String.join (Text.nonempty? m.content).toList = m.content.getD "" := by
  cases m.content with
  | none => rfl
  | some text => by_cases empty : text = "" <;> simp [Text.nonempty?_some, empty]

end ReplyMessage

theorem encodePrompt_reasoning (block : ReasoningBlock) (rest : List Block) :
    encodePrompt [.ofAssistant (.reasoning block :: rest)] =
      .error (.unsupportedContent .assistant .reasoning) := by
  rw [encodePrompt_singleton]
  rfl

/-- A reply can be sent back exactly when it has no reasoning and the arguments of every
call are blank or a document. Then it is one message with its text and its calls, all of
one kind and blank arguments as an empty object. Reasoning is what is refused first. -/
theorem reply_sent_back_iff (reply : Reply) (choice : Choice) (others : List Choice)
    (first : reply.choices = choice :: others) :
    ∃ response, reply.response = .ok response ∧
      (∀ wire, encodePrompt [.ofAssistant response.content] = .ok wire ↔
        (NotGiven choice.message.reasoning ∧ ∀ call ∈ choice.message.calls, call.Sendable) ∧
          wire = [.assistant (choice.message.content.getD "") none
            (choice.message.calls.map ToolCall.sentBack)]) ∧
      ∀ text, Given choice.message.reasoning text →
        encodePrompt [.ofAssistant response.content] =
          .error (.unsupportedContent .assistant .reasoning) := by
  unfold Reply.response
  rw [first]
  refine ⟨_, rfl, ?_, ?_⟩
  · intro wire
    by_cases absent : NotGiven choice.message.reasoning
    · rw [ReplyMessage.blocks_of_notGiven absent, encodePrompt_singleton, segment_ok_iff,
        sent_texts_and_calls_iff, choice.message.join_content]
      simp [absent]
    · obtain ⟨text, given⟩ := not_forall_not.mp absent
      obtain ⟨rest, starts⟩ := ReplyMessage.blocks_of_given given
      rw [starts, encodePrompt_reasoning]
      simp [absent]
  · intro text given
    obtain ⟨rest, starts⟩ := ReplyMessage.blocks_of_given given
    rw [starts, encodePrompt_reasoning]

/-- A choice with a text and two calls, one of an unknown kind and with blank arguments. -/
def calledChoice : Choice where
  message := { content := some "hi"
               toolCalls := some [⟨"custom", "c", ⟨"f", " "⟩⟩, ⟨"function", "d", ⟨"g", "[1]"⟩⟩] }

theorem reply_sent_back_calledChoice :
    ({ choices := [calledChoice] } : Reply).choices = [calledChoice] ∧
      ∃ response, ({ choices := [calledChoice] } : Reply).response = .ok response ∧
        encodePrompt [.ofAssistant response.content] = .ok [.assistant "hi" none
          [⟨"function", "c", ⟨"f", "\x7b\x7d"⟩⟩, ⟨"function", "d", ⟨"g", "[1]"⟩⟩]] := by
  obtain ⟨response, read, sent, -⟩ := reply_sent_back_iff { choices := [calledChoice] } calledChoice [] rfl
  have unreasoned : NotGiven calledChoice.message.reasoning := by
    rintro text ⟨there, -⟩
    cases there
  have sendable : ∀ call ∈ calledChoice.message.calls, call.Sendable :=
    List.forall_mem_cons.mpr ⟨.inl rfl, List.forall_mem_singleton.mpr (.inr rfl)⟩
  exact ⟨rfl, response, read, (sent _).mpr ⟨⟨unreasoned, sendable⟩, rfl⟩⟩

end Colloquy.Chat
