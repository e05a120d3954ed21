import Colloquy.Chat.Sent
import Colloquy.Proofs.Offender

/-! A conversation and the chat request that carries it. The request is accepted exactly
when there is a segment for every message, and it is those segments one after another. -/
namespace Colloquy

theorem nonempty?_eq_some_iff (text : Option String) (value : String) :
    Text.nonempty? text = some value ↔ Given text value := by
  unfold Text.nonempty? Given
  simp [Option.filter_eq_some_iff]

theorem nonempty?_eq_none_iff (text : Option String) : Text.nonempty? text = none ↔ NotGiven text := by
  simp only [NotGiven, ← nonempty?_eq_some_iff, Option.eq_none_iff_forall_ne_some, ne_eq]

namespace Chat

theorem imageUrl_ok_iff (image : ImageBlock) (url : String) :
    imageUrl image = .ok url ↔ ImageSent image url := by
  unfold imageUrl
  constructor
  · intro read
    split at read
    next address _ given =>
      cases read
      exact .byAddress ((nonempty?_eq_some_iff _ _).mp given)
    next data absent carried =>
      have address := (nonempty?_eq_none_iff _).mp absent
      cases type : Text.nonempty? image.mediaType with
      | none =>
        rw [type] at read
        cases read
        exact .inlineOfNoType address carried ((nonempty?_eq_none_iff _).mp type)
      | some mediaType =>
        rw [type] at read
        cases read
        exact .inline address carried ((nonempty?_eq_some_iff _ _).mp type)
    next => cases read
  · intro sent
    cases sent with
    | byAddress address => rw [(nonempty?_eq_some_iff _ _).mpr address]
    | inline address carried type =>
      rw [(nonempty?_eq_none_iff _).mpr address, carried, (nonempty?_eq_some_iff _ _).mpr type]
      rfl
    | inlineOfNoType address carried type =>
      rw [(nonempty?_eq_none_iff _).mpr address, carried, (nonempty?_eq_none_iff _).mpr type]
      rfl

theorem fileText_ok_iff (file : FileBlock) (text : String) :
    fileText file = .ok text ↔ FileSent file text := by
  unfold fileText
  constructor
  · intro read
    split at read
    next address _ _ given =>
      cases read
      exact .byAddress ((nonempty?_eq_some_iff _ _).mp given)
    next absent carried type =>
      cases read
      exact .inline ((nonempty?_eq_none_iff _).mp absent) carried ((nonempty?_eq_some_iff _ _).mp type)
    next absent carried type =>
      cases read
      exact .asText ((nonempty?_eq_none_iff _).mp absent) carried ((nonempty?_eq_none_iff _).mp type)
    next => cases read
  · intro sent
    cases sent with
    | byAddress address => rw [(nonempty?_eq_some_iff _ _).mpr address]
    | inline address carried type =>
      rw [(nonempty?_eq_none_iff _).mpr address, carried, (nonempty?_eq_some_iff _ _).mpr type]
      rfl
    | asText address carried type =>
      rw [(nonempty?_eq_none_iff _).mpr address, carried, (nonempty?_eq_none_iff _).mpr type]

theorem userPart_ok_iff (block : Block) (part : Part) :
    userPart block = .ok part ↔ PartSent block part := by
  constructor
  · intro sent
    cases block with
    | text block => cases sent; exact .text block
    | image block =>
      obtain ⟨url, address, rfl⟩ := (map_ok_iff _ _ _).mp sent
      exact .image ((imageUrl_ok_iff block url).mp address)
    | file block =>
      obtain ⟨text, content, rfl⟩ := (map_ok_iff _ _ _).mp sent
      exact .file ((fileText_ok_iff block text).mp content)
    | _ => cases sent
  · intro sent
    cases sent with
    | text block => rfl
    | image sent => exact (map_ok_iff _ _ _).mpr ⟨_, (imageUrl_ok_iff _ _).mpr sent, rfl⟩
    | file sent => exact (map_ok_iff _ _ _).mpr ⟨_, (fileText_ok_iff _ _).mpr sent, rfl⟩

theorem userMessage_ok_iff (message : UserMessage) (segment : List Message) :
    (userMessage message).map ([·]) = .ok segment ↔ Sent (.user message) segment := by
  unfold userMessage
  split
  next block single =>
    constructor
    · intro sent
      cases sent
      exact .userText single
    · intro sent
      cases sent with
      | userText other =>
        cases single.symm.trans other
        rfl
      | userParts several => exact absurd single (several block)
  next several =>
    have parts_iff (parts : List Part) : message.content.mapM userPart = .ok parts ↔
        List.Forall₂ PartSent message.content parts := by
      simp only [mapM_ok_iff, userPart_ok_iff]
    simp only [map_ok_iff, parts_iff]
    constructor
    · rintro ⟨_, ⟨parts, sent, rfl⟩, rfl⟩
      exact .userParts several sent
    · intro sent
      cases sent with
      | userText single => exact absurd single (several _)
      | userParts several sent => exact ⟨_, ⟨_, sent, rfl⟩, rfl⟩

theorem toolCall_ok_iff (call : ToolCallBlock) (sent : ToolCall) :
    toolCall call = .ok sent ↔ CallSent call sent := by
  unfold toolCall callArguments
  constructor
  · intro read
    split at read
    next blank => cases read; exact .blank blank
    next filled =>
      split at read
      next document => cases read; exact .verbatim filled document
      next => cases read
  · intro carried
    cases carried with
    | blank arguments => rw [if_pos arguments]; rfl
    | verbatim filled document => rw [if_neg filled, if_pos document]; rfl

/-- Blocks with a share each: a text adds to the text, and a call to the calls. -/
theorem carried_of_shares {content : List Block} {shares : List (String × List ToolCall)}
    (shared : List.Forall₂ (fun block share => assistantShare block = .ok share) content shares) :
    (∀ block ∈ content, block.kind = .text ∨ block.kind = .toolCall) ∧
      String.join (shares.map (·.1)) = String.join (content.filterMap Response.textOf?) ∧
      List.Forall₂ CallSent (content.filterMap Response.toolCallOf?) (shares.map (·.2)).flatten := by
  induction shared with
  | nil => exact ⟨by simp, rfl, .nil⟩
  | @cons block share rest shares one _ ih =>
    obtain ⟨plain, text, calls⟩ := ih
    cases block with
    | text block =>
      cases one
      refine ⟨List.forall_mem_cons.mpr ⟨.inl rfl, plain⟩, ?_, calls⟩
      rw [List.map_cons, String.join_cons, text]
      exact (String.join_cons ..).symm
    | toolCall call =>
      obtain ⟨sent, carried, rfl⟩ := (map_ok_iff _ _ _).mp one
      refine ⟨List.forall_mem_cons.mpr ⟨.inr rfl, plain⟩, ?_, ?_⟩
      · rw [List.map_cons, String.join_cons, text, String.empty_append]
        rfl
      · exact .cons ((toolCall_ok_iff call sent).mp carried) calls
    | _ => cases one

theorem exists_shares {content : List Block} {calls : List ToolCall}
    (plain : ∀ block ∈ content, block.kind = .text ∨ block.kind = .toolCall)
    (sent : List.Forall₂ CallSent (content.filterMap Response.toolCallOf?) calls) :
    ∃ shares, List.Forall₂ (fun block share => assistantShare block = .ok share) content shares ∧
      (shares.map (·.2)).flatten = calls := by
  induction content generalizing calls with
  | nil =>
    cases sent
    exact ⟨[], .nil, rfl⟩
  | cons block rest ih =>
    obtain ⟨kind, others⟩ := List.forall_mem_cons.mp plain
    cases block with
    | text block =>
      obtain ⟨shares, shared, flat⟩ := ih others sent
      exact ⟨(block.text, []) :: shares, .cons rfl shared, flat⟩
    | toolCall call =>
      obtain ⟨first, _, one, later, rfl⟩ := List.forall₂_cons_left_iff.mp sent
      obtain ⟨shares, shared, rfl⟩ := ih others later
      have carried := (toolCall_ok_iff call first).mpr one
      exact ⟨("", [first]) :: shares, .cons ((map_ok_iff _ _ _).mpr ⟨first, carried, rfl⟩) shared, rfl⟩
    | _ => rcases kind with text | call <;> contradiction

theorem assistantMessage_ok_iff (message : AssistantMessage) (segment : List Message) :
    (assistantMessage message).map ([·]) = .ok segment ↔ Sent (.assistant message) segment := by
  simp only [assistantMessage, map_ok_iff, mapM_ok_iff]
  constructor
  · rintro ⟨_, ⟨shares, shared, rfl⟩, rfl⟩
    obtain ⟨plain, text, calls⟩ := carried_of_shares shared
    rw [text]
    exact .assistant plain calls
  · intro sent
    cases sent with
    | assistant plain sent =>
      obtain ⟨shares, shared, rfl⟩ := exists_shares plain sent
      exact ⟨_, ⟨shares, shared, rfl⟩, by rw [(carried_of_shares shared).2.1]⟩

theorem segment_ok_iff (message : Colloquy.Message) (wire : List Message) :
    segment message = .ok wire ↔ Sent message wire := by
  cases message with
  | system message =>
    constructor
    · intro sent; cases sent; exact .system message
    · intro sent; cases sent; rfl
  | user message => exact userMessage_ok_iff message wire
  | assistant message => exact assistantMessage_ok_iff message wire
  | tool message =>
    constructor
    · intro sent; cases sent; exact .tool message
    · intro sent; cases sent; rfl

theorem encodePrompt_ok_iff (prompt : List Colloquy.Message) (wire : List Message) :
    encodePrompt prompt = .ok wire ↔
      ∃ segments, List.Forall₂ Sent prompt segments ∧ segments.flatten = wire := by
  simp only [encodePrompt, map_ok_iff, mapM_ok_iff, segment_ok_iff]

theorem encodePrompt_singleton (message : Colloquy.Message) :
    encodePrompt [message] = segment message := by
  unfold encodePrompt
  cases sent : segment message <;> simp [sent, bind, Except.bind, pure, Except.pure, Except.map]

theorem encodePrompt_append (prompt more : List Colloquy.Message) :
    encodePrompt (prompt ++ more) = do return (← encodePrompt prompt) ++ (← encodePrompt more) := by
  unfold encodePrompt
  rw [List.mapM_append]
  cases prompt.mapM segment <;> cases more.mapM segment <;>
    simp [bind, Except.bind, pure, Except.pure, Except.map]

theorem Sent.length_eq {message : Colloquy.Message} {segment : List Message}
    (sent : Sent message segment) :
    segment.length = (if message.role = .tool then 0 else 1) + message.results.length := by
  cases sent <;> simp [Colloquy.Message.role, Message.results]

theorem length_of_segments {prompt : List Colloquy.Message} {segments : List (List Message)}
    (sent : List.Forall₂ Sent prompt segments) :
    segments.flatten.length =
      prompt.countP (·.role ≠ .tool) + (prompt.flatMap Message.results).length := by
  induction sent with
  | nil => rfl
  | @cons message segment rest segments one _ ih =>
    rw [List.flatten_cons, List.length_append, ih, one.length_eq, List.countP_cons, List.flatMap_cons,
      List.length_append]
    by_cases tool : message.role = .tool <;> simp [tool] <;> omega

/-- A request is accepted exactly when there is a segment for every message, and then it is
those segments in the order of the messages. So it has a message for each message that is
no tool message and one for each tool result, and the request for two conversations one
after the other is their two requests one after the other. -/
theorem encodePrompt_conveys (prompt : List Colloquy.Message) (wire : List Message) :
    (encodePrompt prompt = .ok wire ↔
      ∃ segments, List.Forall₂ Sent prompt segments ∧ segments.flatten = wire) ∧
    (encodePrompt prompt = .ok wire →
      wire.length = prompt.countP (·.role ≠ .tool) + (prompt.flatMap Message.results).length) ∧
    ∀ more, encodePrompt (prompt ++ more) =
      do return (← encodePrompt prompt) ++ (← encodePrompt more) := by
  refine ⟨encodePrompt_ok_iff prompt wire, ?_, encodePrompt_append prompt⟩
  intro accepted
  obtain ⟨segments, sent, rfl⟩ := (encodePrompt_ok_iff prompt wire).mp accepted
  exact length_of_segments sent

/-- A conversation with every role and a way of its own for each block. -/
def mixedPrompt : List Colloquy.Message :=
  [.ofSystem "Be brief.", .ofUserText "hi",
    .ofUser [.image (.ofData [255, 216] none), .file (.ofData [104, 105] (some "")), .image (.ofUrl "u")],
    .ofAssistant [.ofText "a", .toolCall ⟨"c", "f", " ", none⟩, .ofText "b", .toolCall ⟨"d", "f", "[1]", none⟩],
    .ofTool [.ofResult "c" "f" (.bool true), .ofResult "d" "f" .null], .ofTool []]

def mixedRequest : List Message :=
  [.system "Be brief.", .user (.text "hi"),
    .user (.parts [.imageUrl "data:image/jpeg;base64,/9g=", .text "hi", .imageUrl "u"]),
    .assistant "ab" none [⟨"function", "c", ⟨"f", "\x7b\x7d"⟩⟩, ⟨"function", "d", ⟨"f", "[1]"⟩⟩],
    .tool "true" "c", .tool "null" "d"]

theorem encodePrompt_conveys_mixed :
    encodePrompt mixedPrompt = .ok mixedRequest ∧
      mixedRequest.length = mixedPrompt.countP (·.role ≠ .tool) +
        (mixedPrompt.flatMap Message.results).length := by
  have accepted : encodePrompt mixedPrompt = .ok mixedRequest := by rfl
  exact ⟨accepted, (encodePrompt_conveys mixedPrompt mixedRequest).2.1 accepted⟩

end Chat
end Colloquy
