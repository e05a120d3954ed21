import Colloquy.Proofs.Offender
import Colloquy.Transcript.Written

/-! A conversation and its transcript. Every conversation of plain messages has one, and
for any other the first message that is not plain tells the failure. -/
namespace Colloquy.Transcript

section

variable {work : Block → Except Failure String}

theorem mapM_texts (reads : ∀ block text, work block = .ok text ↔ Response.textOf? block = some text)
    (blocks : List Block) (texts : List String) : blocks.mapM work = .ok texts ↔
      (∀ block ∈ blocks, block.kind = .text) ∧ blocks.filterMap Response.textOf? = texts := by
  rw [mapM_ok_iff]
  simp only [reads]
  induction blocks generalizing texts with
  | nil => simp [eq_comm]
  | cons block rest ih =>
    simp only [List.forall₂_cons_left_iff, ih, List.forall_mem_cons]
    cases block <;> simp [Response.textOf?, Block.kind, eq_comm]

end

theorem userText_ok_iff (block : Block) (text : String) :
    userText block = .ok text ↔ Response.textOf? block = some text := by
  cases block <;> simp [userText, Response.textOf?]

theorem assistantText_ok_iff (block : Block) (text : String) :
    assistantText block = .ok text ↔ Response.textOf? block = some text := by
  cases block <;> simp [assistantText, Response.textOf?]

theorem plain_user_iff (message : UserMessage) :
    Plain (.user message) ↔ ∀ block ∈ message.content, block.kind = .text := by
  simp [Plain, Message.role, Message.blocks]

theorem plain_assistant_iff (message : AssistantMessage) :
    Plain (.assistant message) ↔ ∀ block ∈ message.content, block.kind = .text := by
  simp [Plain, Message.role, Message.blocks]

theorem turnOf_ok_iff (options : Options) (message : Message) (written : String) :
    turnOf options message = .ok written ↔ Plain message ∧ turnText options message = written := by
  cases message with
  | system message => simp [turnOf, Plain, Message.role]
  | user message =>
    simp only [turnOf, map_ok_iff, mapM_texts userText_ok_iff, plain_user_iff, and_assoc, exists_and_left,
      exists_eq_left']
    rfl
  | assistant message =>
    simp only [turnOf, map_ok_iff, mapM_texts assistantText_ok_iff, plain_assistant_iff, and_assoc,
      exists_and_left, exists_eq_left']
    rfl
  | tool message => simp [turnOf, Plain, Message.role]

theorem preamble_eq (prompt : List Message) : preamble prompt = (foreword prompt, spoken prompt) := by
  cases prompt with
  | nil => rfl
  | cons message rest => cases message <;> rfl

theorem mapM_turns (options : Options) (messages : List Message) (turns : List String) :
    messages.mapM (turnOf options) = .ok turns ↔
      (∀ message ∈ messages, Plain message) ∧ messages.map (turnText options) = turns := by
  rw [mapM_ok_iff]
  simp only [turnOf_ok_iff]
  induction messages generalizing turns with
  | nil => simp [eq_comm]
  | cons message rest ih =>
    simp only [List.forall₂_cons_left_iff, ih, List.forall_mem_cons, List.map_cons]
    constructor
    · rintro ⟨_, _, ⟨first, rfl⟩, ⟨later, rfl⟩, rfl⟩
      exact ⟨⟨first, later⟩, rfl⟩
    · rintro ⟨⟨first, later⟩, rfl⟩
      exact ⟨_, _, ⟨first, rfl⟩, ⟨later, rfl⟩, rfl⟩

theorem render_ok_iff (options : Options) (prompt : List Message) (text : String) :
    render options prompt = .ok text ↔
      (∀ message ∈ spoken prompt, Plain message) ∧ transcript options prompt = text := by
  simp only [render, preamble_eq, map_ok_iff, mapM_turns, transcript, heading]
  constructor
  · rintro ⟨_, ⟨plain, rfl⟩, rfl⟩
    exact ⟨plain, by simp only [String.append_assoc]⟩
  · rintro ⟨plain, rfl⟩
    exact ⟨_, ⟨plain, rfl⟩, by simp only [String.append_assoc]⟩

theorem rawPrompt?_eq_some_iff (options : Options) (prompt : List Message) (text : String) :
    rawPrompt? options prompt = some text ↔ PassesThrough options prompt text := by
  unfold rawPrompt? PassesThrough
  constructor
  · intro raw
    split at raw
    next block metadata asked => exact ⟨asked, _, block, rfl, rfl, Option.some.inj raw⟩
    next => cases raw
  · rintro ⟨asked, message, block, rfl, single, rfl⟩
    obtain ⟨content, metadata⟩ := message
    cases single
    rw [asked]

theorem completionPrompt_of_written {options : Options} {prompt : List Message}
    (written : ∀ text, ¬PassesThrough options prompt text) : completionPrompt options prompt =
      (render options prompt).map fun text => ⟨text, [stopSequence options]⟩ := by
  have raw : rawPrompt? options prompt = none := by
    rw [Option.eq_none_iff_forall_ne_some]
    exact fun text raw => written text ((rawPrompt?_eq_some_iff options prompt text).mp raw)
  rw [completionPrompt, raw]

theorem completionPrompt_ok_iff {options : Options} {prompt : List Message}
    (written : ∀ text, ¬PassesThrough options prompt text) (converted : CompletionPrompt) :
    completionPrompt options prompt = .ok converted ↔ (∀ message ∈ spoken prompt, Plain message) ∧
      converted = ⟨transcript options prompt, ["\n" ++ options.user ++ ":"]⟩ := by
  rw [completionPrompt_of_written written]
  simp only [map_ok_iff, render_ok_iff, and_assoc, exists_and_left, exists_eq_left']
  exact and_congr_right fun _ => eq_comm

end Colloquy.Transcript
