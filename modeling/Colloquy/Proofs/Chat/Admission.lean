import Colloquy.Chat.Admission
import Colloquy.Proofs.Chat.Prompt

/-! Which conversations have a chat request, and why the others have none. The first
block that has no place in its message decides alone. -/
namespace Colloquy

theorem sendable_iff (url : Option String) (data : Option Text.Bytes) :
    Sendable url data ↔ (Text.nonempty? url).isSome ∨ data.isSome := by
  simp only [Sendable, ← nonempty?_eq_some_iff, Option.isSome_iff_exists]

namespace Chat

theorem exists_imageUrl_iff (image : ImageBlock) :
    (∃ url, imageUrl image = .ok url) ↔ Sendable image.url image.data := by
  rw [sendable_iff, imageUrl]
  cases Text.nonempty? image.url <;> cases image.data <;> simp

theorem imageUrl_error_iff (image : ImageBlock) (failure : Failure) :
    imageUrl image = .error failure ↔ ¬Sendable image.url image.data ∧
      failure = .invalidPrompt "image block must carry either a url or data" := by
  rw [sendable_iff, imageUrl]
  cases Text.nonempty? image.url <;> cases image.data <;> simp [eq_comm]

theorem exists_fileText_iff (file : FileBlock) :
    (∃ text, fileText file = .ok text) ↔ Sendable file.url file.data := by
  rw [sendable_iff, fileText]
  cases Text.nonempty? file.url <;> cases file.data <;> cases Text.nonempty? file.mediaType <;> simp

theorem fileText_error_iff (file : FileBlock) (failure : Failure) :
    fileText file = .error failure ↔ ¬Sendable file.url file.data ∧
      failure = .invalidPrompt "file block must carry either a url or data" := by
  rw [sendable_iff, fileText]
  cases Text.nonempty? file.url <;> cases file.data <;> cases Text.nonempty? file.mediaType <;>
    simp [eq_comm]

theorem exists_toolCall_iff (call : ToolCallBlock) : (∃ sent, toolCall call = .ok sent) ↔ ArgumentsFit call := by
  rw [toolCall, exists_map_ok_iff, callArguments, ArgumentsFit]
  cases Text.isBlankText call.args <;> cases Json.isDocument call.args <;> simp

theorem toolCall_error_iff (call : ToolCallBlock) (failure : Failure) :
    toolCall call = .error failure ↔ ¬ArgumentsFit call ∧
      failure = .encoding ("tool call " ++ call.callId ++ " has invalid JSON arguments: not a document") := by
  rw [toolCall, map_error_iff, callArguments, ArgumentsFit]
  cases Text.isBlankText call.args <;> cases Json.isDocument call.args <;> simp [eq_comm, toString]

theorem Admits.kind {role : Role} {block : Block} (admits : Admits role block) :
    block.kind ∈ admittedKinds role := by
  cases admits <;> simp [admittedKinds, Block.kind]

theorem refuses_iff_of_foreign {role : Role} {block : Block} (foreign : block.kind ∉ admittedKinds role)
    (failure : Failure) : Refuses role block failure ↔ failure = .unsupportedContent role block.kind := by
  constructor
  · intro refused
    cases refused with
    | kind => rfl
    | _ => simp [admittedKinds, Block.kind] at foreign
  · rintro rfl
    exact .kind foreign

theorem not_refuses_text (role : Role) (admitted : .text ∈ admittedKinds role) (block : TextBlock)
    (failure : Failure) : ¬Refuses role (.text block) failure := by
  intro refused
  cases refused with
  | kind foreign => exact foreign admitted

theorem refuses_image_iff (block : ImageBlock) (failure : Failure) :
    Refuses .user (.image block) failure ↔ ¬Sendable block.url block.data ∧
      failure = .invalidPrompt "image block must carry either a url or data" := by
  constructor
  · intro refused
    cases refused with
    | kind foreign => simp [admittedKinds, Block.kind] at foreign
    | image empty => exact ⟨empty, rfl⟩
  · rintro ⟨empty, rfl⟩
    exact .image empty

theorem refuses_file_iff (block : FileBlock) (failure : Failure) :
    Refuses .user (.file block) failure ↔ ¬Sendable block.url block.data ∧
      failure = .invalidPrompt "file block must carry either a url or data" := by
  constructor
  · intro refused
    cases refused with
    | kind foreign => simp [admittedKinds, Block.kind] at foreign
    | file empty => exact ⟨empty, rfl⟩
  · rintro ⟨empty, rfl⟩
    exact .file empty

theorem refuses_toolCall_iff (call : ToolCallBlock) (failure : Failure) :
    Refuses .assistant (.toolCall call) failure ↔ ¬ArgumentsFit call ∧
      failure = .encoding ("tool call " ++ call.callId ++ " has invalid JSON arguments: not a document") := by
  constructor
  · intro refused
    cases refused with
    | kind foreign => simp [admittedKinds, Block.kind] at foreign
    | toolCall unfit => exact ⟨unfit, rfl⟩
  · rintro ⟨unfit, rfl⟩
    exact .toolCall unfit

theorem exists_userPart_iff (block : Block) : (∃ part, userPart block = .ok part) ↔ Admits .user block := by
  cases block with
  | text block => exact ⟨fun _ => .userText block, fun _ => ⟨_, rfl⟩⟩
  | image block =>
    rw [userPart, exists_map_ok_iff, exists_imageUrl_iff]
    exact ⟨.image, fun admits => by cases admits; assumption⟩
  | file block =>
    rw [userPart, exists_map_ok_iff, exists_fileText_iff]
    exact ⟨.file, fun admits => by cases admits; assumption⟩
  | _ =>
    constructor
    · rintro ⟨_, sent⟩
      cases sent
    · intro admits
      simpa [admittedKinds, Block.kind] using admits.kind

theorem userPart_error_iff (block : Block) (failure : Failure) :
    userPart block = .error failure ↔ Refuses .user block failure := by
  cases block with
  | text block => simp [userPart, not_refuses_text .user (by simp [admittedKinds])]
  | image block => rw [userPart, map_error_iff, imageUrl_error_iff, refuses_image_iff]
  | file block => rw [userPart, map_error_iff, fileText_error_iff, refuses_file_iff]
  | _ =>
    rw [refuses_iff_of_foreign (by simp [admittedKinds, Block.kind])]
    simp [userPart, eq_comm]

theorem exists_assistantShare_iff (block : Block) :
    (∃ share, assistantShare block = .ok share) ↔ Admits .assistant block := by
  cases block with
  | text block => exact ⟨fun _ => .assistantText block, fun _ => ⟨_, rfl⟩⟩
  | toolCall call =>
    rw [assistantShare, exists_map_ok_iff, exists_toolCall_iff]
    exact ⟨.toolCall, fun admits => by cases admits; assumption⟩
  | _ =>
    constructor
    · rintro ⟨_, sent⟩
      cases sent
    · intro admits
      simpa [admittedKinds, Block.kind] using admits.kind

theorem assistantShare_error_iff (block : Block) (failure : Failure) :
    assistantShare block = .error failure ↔ Refuses .assistant block failure := by
  cases block with
  | text block => simp [assistantShare, not_refuses_text .assistant (by simp [admittedKinds])]
  | toolCall call => rw [assistantShare, map_error_iff, toolCall_error_iff, refuses_toolCall_iff]
  | _ =>
    rw [refuses_iff_of_foreign (by simp [admittedKinds, Block.kind])]
    simp [assistantShare, eq_comm]

theorem placedIn_admitted_iff (message : Colloquy.Message) :
    (∀ placed ∈ placedIn message, placed.Admitted) ↔ ∀ block ∈ message.blocks, Admits message.role block := by
  simp [placedIn, PlacedBlock.Admitted]

theorem exists_userMessage_iff (message : UserMessage) :
    (∃ sent, userMessage message = .ok sent) ↔ ∀ block ∈ message.content, Admits .user block := by
  unfold userMessage
  split
  next block single => simp [single, Admits.userText]
  next => rw [exists_map_ok_iff, exists_mapM_ok_iff exists_userPart_iff]

theorem userMessage_error_iff (message : UserMessage) (failure : Failure) :
    userMessage message = .error failure ↔
      ∃ block, FirstOffender (Admits .user) message.content block ∧ Refuses .user block failure := by
  unfold userMessage
  split
  next block single => simp [single, FirstOffender.cons_iff, FirstOffender.nil_iff, Admits.userText]
  next => simp only [map_error_iff, mapM_error_iff exists_userPart_iff, userPart_error_iff]

theorem exists_segment_iff (message : Colloquy.Message) :
    (∃ wire, segment message = .ok wire) ↔ ∀ block ∈ message.blocks, Admits message.role block := by
  cases message with
  | system message => simp [segment, Message.blocks]
  | user message =>
    rw [segment, exists_map_ok_iff]
    exact exists_userMessage_iff message
  | assistant message =>
    rw [segment, exists_map_ok_iff, assistantMessage, exists_map_ok_iff]
    exact exists_mapM_ok_iff exists_assistantShare_iff message.content
  | tool message => simp [segment, Message.blocks]

theorem segment_error_iff (message : Colloquy.Message) (failure : Failure) :
    segment message = .error failure ↔
      ∃ block, FirstOffender (Admits message.role) message.blocks block ∧ Refuses message.role block failure := by
  cases message with
  | system message => simp [segment, Message.blocks, FirstOffender.nil_iff]
  | user message =>
    rw [segment, map_error_iff]
    exact userMessage_error_iff message failure
  | assistant message =>
    simp only [segment, assistantMessage, map_error_iff, mapM_error_iff exists_assistantShare_iff,
      assistantShare_error_iff]
    rfl
  | tool message => simp [segment, Message.blocks, FirstOffender.nil_iff]

theorem firstOffender_placedIn_iff (message : Colloquy.Message) (offender : PlacedBlock) :
    FirstOffender PlacedBlock.Admitted (placedIn message) offender ↔
      ∃ block, FirstOffender (Admits message.role) message.blocks block ∧ ⟨message.role, block⟩ = offender :=
  FirstOffender.map_iff (PlacedBlock.mk message.role) message.blocks

theorem exists_encodePrompt_iff (prompt : List Colloquy.Message) :
    (∃ wire, encodePrompt prompt = .ok wire) ↔ ∀ placed ∈ placedBlocks prompt, placed.Admitted := by
  rw [encodePrompt, exists_map_ok_iff, exists_mapM_ok_iff exists_segment_iff, placedBlocks]
  simp only [List.forall_mem_flatMap, placedIn_admitted_iff]

theorem encodePrompt_error_iff (prompt : List Colloquy.Message) (failure : Failure) :
    encodePrompt prompt = .error failure ↔
      ∃ offender, FirstOffender PlacedBlock.Admitted (placedBlocks prompt) offender ∧ offender.Refused failure := by
  simp only [encodePrompt, map_error_iff, mapM_error_iff exists_segment_iff, segment_error_iff, placedBlocks,
    FirstOffender.flatMap_iff, placedIn_admitted_iff, firstOffender_placedIn_iff]
  constructor
  · rintro ⟨message, first, block, within, refused⟩
    exact ⟨⟨message.role, block⟩, ⟨message, first, block, within, rfl⟩, refused⟩
  · rintro ⟨_, ⟨message, first, block, within, rfl⟩, refused⟩
    exact ⟨message, first, block, within, refused⟩

/-- There is a request exactly when every block has a place in its message. Otherwise the
first block that has none tells the failure, and nothing else does: two conversations
with the same first offender fail alike, whatever comes before it and after it. -/
theorem encodePrompt_refuses_first (prompt : List Colloquy.Message) :
    ((∃ wire, encodePrompt prompt = .ok wire) ↔ ∀ placed ∈ placedBlocks prompt, placed.Admitted) ∧
    (∀ failure, encodePrompt prompt = .error failure ↔
      ∃ offender, FirstOffender PlacedBlock.Admitted (placedBlocks prompt) offender ∧ offender.Refused failure) ∧
    ∀ other offender, FirstOffender PlacedBlock.Admitted (placedBlocks prompt) offender →
      FirstOffender PlacedBlock.Admitted (placedBlocks other) offender →
        encodePrompt other = encodePrompt prompt := by
  refine ⟨exists_encodePrompt_iff prompt, encodePrompt_error_iff prompt, ?_⟩
  intro other offender here there
  cases outcome : encodePrompt prompt with
  | ok wire =>
    have admitted := (exists_encodePrompt_iff prompt).mp ⟨wire, outcome⟩
    exact absurd (admitted offender here.mem) here.offends
  | error failure =>
    obtain ⟨first, found, refused⟩ := (encodePrompt_error_iff prompt failure).mp outcome
    rw [found.unique here] at refused
    exact (encodePrompt_error_iff other failure).mpr ⟨offender, there, refused⟩

/-- A call whose arguments end too early. -/
def brokenCall : Block :=
  .toolCall ⟨"c", "f", "\x7b", none⟩

/-- The broken call stands behind blocks that can be sent, data of no bytes among them, and
before two that cannot. -/
def brokenPrompt : List Colloquy.Message :=
  [.ofSystem "s", .ofUser [.ofText "hi", .image (.ofData [] none)],
    .ofAssistant [.ofText "a", brokenCall, .reasoning ⟨"r", none, none⟩], .ofUser [.image {}]]

theorem encodePrompt_refuses_first_brokenCall :
    FirstOffender PlacedBlock.Admitted (placedBlocks brokenPrompt) ⟨.assistant, brokenCall⟩ ∧
    FirstOffender PlacedBlock.Admitted (placedBlocks [.ofAssistant [brokenCall]]) ⟨.assistant, brokenCall⟩ ∧
    encodePrompt brokenPrompt =
      .error (.encoding "tool call c has invalid JSON arguments: not a document") ∧
    encodePrompt [.ofAssistant [brokenCall]] = encodePrompt brokenPrompt := by
  have unfit : ¬ArgumentsFit ⟨"c", "f", "\x7b", none⟩ := by
    rintro (blank | document)
    · cases blank
    · cases document
  have refused : ¬Admits .assistant brokenCall := by
    intro admits
    cases admits with
    | toolCall fit => exact unfit fit
  have first : FirstOffender PlacedBlock.Admitted (placedBlocks brokenPrompt) ⟨.assistant, brokenCall⟩ := by
    refine ⟨[⟨.user, .ofText "hi"⟩, ⟨.user, .image (.ofData [] none)⟩, ⟨.assistant, .ofText "a"⟩],
      [⟨.assistant, .reasoning ⟨"r", none, none⟩⟩, ⟨.user, .image {}⟩], rfl, ?_, refused⟩
    simp only [List.forall_mem_cons, List.not_mem_nil, false_implies, implies_true, and_true]
    exact ⟨.userText _, .image (.inr rfl), .assistantText _⟩
  have alone : FirstOffender PlacedBlock.Admitted (placedBlocks [.ofAssistant [brokenCall]])
      ⟨.assistant, brokenCall⟩ := ⟨[], [], rfl, by simp, refused⟩
  have refuses := encodePrompt_refuses_first brokenPrompt
  exact ⟨first, alone, (refuses.2.1 _).mpr ⟨_, first, .toolCall unfit⟩, refuses.2.2 _ _ first alone⟩

end Chat
end Colloquy
