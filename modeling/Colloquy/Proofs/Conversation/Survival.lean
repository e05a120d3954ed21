import Colloquy.Conversation.Message
import Colloquy.Proofs.Json.Survival

/-! Blocks and messages are read again from what is written for them. Each kind of block is
a record of its own; the tag beside it tells which. -/
namespace Colloquy

variable {d : Draft} {held : List (String × Draft)}

theorem Metadata.survives : Survives Metadata.decode? Metadata.encode :=
  Survives.json.dictionary

theorem Record.Holds.metadata {r s : Record} {names : List String} {members : List (String × Option Json)}
    (holds : s.Holds names members) {value : Option Metadata} (read : r.metadata? = some value)
    (known : "provider_metadata" ∈ names)
    (given : Json.given? "provider_metadata" members = value.map Metadata.encode) :
    s.metadata? = some value :=
  holds.optional Metadata.survives read known given

theorem TextBlock.again {block : TextBlock} (read : decode? d = some block) (shows : Shows held block.members) :
    decode? (.object held) = some block := by
  unfold decode? at read ⊢
  simp only [Option.bind_eq_bind, Option.bind_eq_some_iff] at read ⊢
  obtain ⟨r, -, text, readText, metadata, readMetadata, told⟩ := read
  cases told
  obtain ⟨s, recorded, holds⟩ := shows.record? ["text", "provider_metadata"]
  have text_ := holds.required .text readText (by simp) rfl
  have metadata_ := holds.metadata readMetadata (by simp) rfl
  exact ⟨s, recorded, text, text_, metadata, metadata_, rfl⟩

theorem ImageBlock.again {block : ImageBlock} (read : decode? d = some block)
    (shows : Shows held block.members) : decode? (.object held) = some block := by
  unfold decode? at read ⊢
  simp only [Option.bind_eq_bind, Option.bind_eq_some_iff] at read ⊢
  obtain ⟨r, -, url, readUrl, data, readData, mediaType, readType, metadata, readMetadata, told⟩ := read
  cases told
  obtain ⟨s, recorded, holds⟩ := shows.record? ["url", "data", "media_type", "provider_metadata"]
  have url_ := holds.optional .text readUrl (by simp) rfl
  have data_ := holds.optional .bytes readData (by simp) rfl
  have type_ := holds.optional .text readType (by simp) rfl
  have metadata_ := holds.metadata readMetadata (by simp) rfl
  exact ⟨s, recorded, url, url_, data, data_, mediaType, type_, metadata, metadata_, rfl⟩

theorem FileBlock.again {block : FileBlock} (read : decode? d = some block) (shows : Shows held block.members) :
    decode? (.object held) = some block := by
  unfold decode? at read ⊢
  simp only [Option.bind_eq_bind, Option.bind_eq_some_iff] at read ⊢
  obtain ⟨r, -, filename, readName, url, readUrl, data, readData, mediaType, readType, metadata, readMetadata,
    told⟩ := read
  cases told
  obtain ⟨s, recorded, holds⟩ := shows.record? ["filename", "url", "data", "media_type", "provider_metadata"]
  have name_ := holds.optional .text readName (by simp) rfl
  have url_ := holds.optional .text readUrl (by simp) rfl
  have data_ := holds.optional .bytes readData (by simp) rfl
  have type_ := holds.optional .text readType (by simp) rfl
  have metadata_ := holds.metadata readMetadata (by simp) rfl
  exact ⟨s, recorded, filename, name_, url, url_, data, data_, mediaType, type_, metadata, metadata_, rfl⟩

theorem ToolCallBlock.again {block : ToolCallBlock} (read : decode? d = some block)
    (shows : Shows held block.members) : decode? (.object held) = some block := by
  unfold decode? at read ⊢
  simp only [Option.bind_eq_bind, Option.bind_eq_some_iff] at read ⊢
  obtain ⟨r, -, callId, readId, toolName, readName, args, readArgs, metadata, readMetadata, told⟩ := read
  cases told
  obtain ⟨s, recorded, holds⟩ := shows.record? ["tool_call_id", "tool_name", "args", "provider_metadata"]
  have id_ := holds.required .text readId (by simp) rfl
  have name_ := holds.required .text readName (by simp) rfl
  have args_ := holds.written .text rfl readArgs (by simp) rfl
  have metadata_ := holds.metadata readMetadata (by simp) rfl
  exact ⟨s, recorded, callId, id_, toolName, name_, args, args_, metadata, metadata_, rfl⟩

theorem ToolResultBlock.again {block : ToolResultBlock} (read : decode? d = some block)
    (shows : Shows held block.members) : decode? (.object held) = some block := by
  unfold decode? at read ⊢
  simp only [Option.bind_eq_bind, Option.bind_eq_some_iff] at read ⊢
  obtain ⟨r, -, callId, readId, toolName, readName, result, readResult, isError, readError, metadata,
    readMetadata, told⟩ := read
  cases told
  obtain ⟨s, recorded, holds⟩ :=
    shows.record? ["tool_call_id", "tool_name", "result", "is_error", "provider_metadata"]
  have id_ := holds.required .text readId (by simp) rfl
  have name_ := holds.required .text readName (by simp) rfl
  have result_ := holds.written .json rfl readResult (by simp) rfl
  have error_ := holds.defaulted .bool rfl readError (by simp) (!isError) (by simp) (by cases isError <;> rfl)
  have metadata_ := holds.metadata readMetadata (by simp) rfl
  exact ⟨s, recorded, callId, id_, toolName, name_, result, result_, isError, error_, metadata, metadata_, rfl⟩

theorem ToolResultBlock.survives : Survives decode? encode :=
  .record (fun _ => by simp [members, Json.metadata]) fun _ _ _ => again

theorem ReasoningBlock.again {block : ReasoningBlock} (read : decode? d = some block)
    (shows : Shows held block.members) : decode? (.object held) = some block := by
  unfold decode? at read ⊢
  simp only [Option.bind_eq_bind, Option.bind_eq_some_iff] at read ⊢
  obtain ⟨r, -, text, readText, signature, readSignature, metadata, readMetadata, told⟩ := read
  cases told
  obtain ⟨s, recorded, holds⟩ := shows.record? ["text", "signature", "provider_metadata"]
  have text_ := holds.required .text readText (by simp) rfl
  have signature_ := holds.optional .text readSignature (by simp) rfl
  have metadata_ := holds.metadata readMetadata (by simp) rfl
  exact ⟨s, recorded, text, text_, signature, signature_, metadata, metadata_, rfl⟩

theorem RedactedReasoningBlock.again {block : RedactedReasoningBlock} (read : decode? d = some block)
    (shows : Shows held block.members) : decode? (.object held) = some block := by
  unfold decode? at read ⊢
  simp only [Option.bind_eq_bind, Option.bind_eq_some_iff] at read ⊢
  obtain ⟨r, -, data, readData, metadata, readMetadata, told⟩ := read
  cases told
  obtain ⟨s, recorded, holds⟩ := shows.record? ["data", "provider_metadata"]
  have data_ := holds.required .text readData (by simp) rfl
  have metadata_ := holds.metadata readMetadata (by simp) rfl
  exact ⟨s, recorded, data, data_, metadata, metadata_, rfl⟩

theorem SourceBlock.again {block : SourceBlock} (read : decode? d = some block)
    (shows : Shows held block.members) : decode? (.object held) = some block := by
  unfold decode? at read ⊢
  simp only [Option.bind_eq_bind, Option.bind_eq_some_iff] at read ⊢
  obtain ⟨r, -, id, readId, url, readUrl, title, readTitle, metadata, readMetadata, told⟩ := read
  cases told
  obtain ⟨s, recorded, holds⟩ := shows.record? ["id", "url", "title", "provider_metadata"]
  have id_ := holds.required .text readId (by simp) rfl
  have url_ := holds.required .text readUrl (by simp) rfl
  have title_ := holds.optional .text readTitle (by simp) rfl
  have metadata_ := holds.metadata readMetadata (by simp) rfl
  exact ⟨s, recorded, id, id_, url, url_, title, title_, metadata, metadata_, rfl⟩

namespace Block

theorem kind_of_ofContent? {kind : BlockKind} {block : Block} (read : ofContent? kind d = some block) :
    block.kind = kind := by
  cases kind <;> obtain ⟨inner, -, rfl⟩ := Option.map_eq_some_iff.mp read <;> rfl

theorem again {kind : BlockKind} {block : Block} (read : ofContent? kind d = some block)
    (shows : Shows held block.members) : ofContent? kind (.object held) = some block := by
  cases kind with
  | text => exact shows.map_again read fun _ => TextBlock.again
  | image => exact shows.map_again read fun _ => ImageBlock.again
  | file => exact shows.map_again read fun _ => FileBlock.again
  | toolCall => exact shows.map_again read fun _ => ToolCallBlock.again
  | toolResult => exact shows.map_again read fun _ => ToolResultBlock.again
  | reasoning => exact shows.map_again read fun _ => ReasoningBlock.again
  | redactedReasoning => exact shows.map_again read fun _ => RedactedReasoningBlock.again
  | source => exact shows.map_again read fun _ => SourceBlock.again

theorem survives (place : Draft.Place) : Survives (decode? place) encode := by
  apply Survives.tagged place "type" BlockKind.all BlockKind.name kind members ofContent?
  · intro kind
    cases kind <;> rfl
  · intro block
    cases block <;> simp [members, TextBlock.members, ImageBlock.members, FileBlock.members, ToolCallBlock.members,
      ToolResultBlock.members, ReasoningBlock.members, RedactedReasoningBlock.members, SourceBlock.members,
      Json.metadata]
  · intro chosen content block held read shows
    exact ⟨kind_of_ofContent? read, again read shows⟩

end Block

namespace Message

theorem again {role : Role} {message : Message} (read : ofContent? role d = some message)
    (shows : Shows held [("content", some message.content), Json.metadata message.metadata]) :
    message.role = role ∧ ofContent? role (.object held) = some message := by
  unfold ofContent? at read ⊢
  simp only [Option.bind_eq_bind, Option.bind_eq_some_iff] at read ⊢
  obtain ⟨r, -, metadata, readMetadata, read⟩ := read
  obtain ⟨s, recorded, holds⟩ := shows.record? ["content", "provider_metadata"]
  have blocks := (Block.survives .insideTagged).list
  cases role with
  | system =>
    obtain ⟨content, readContent, told⟩ := Option.bind_eq_some_iff.mp read
    cases told
    have metadata_ := holds.metadata readMetadata (by simp) rfl
    have content_ := holds.required .text readContent (by simp) rfl
    exact ⟨rfl, s, recorded, metadata, metadata_, Option.bind_eq_some_iff.mpr ⟨content, content_, rfl⟩⟩
  | user =>
    obtain ⟨content, readContent, told⟩ := Option.bind_eq_some_iff.mp read
    cases told
    have metadata_ := holds.metadata readMetadata (by simp) rfl
    have content_ := holds.written blocks rfl readContent (by simp) rfl
    exact ⟨rfl, s, recorded, metadata, metadata_, Option.bind_eq_some_iff.mpr ⟨content, content_, rfl⟩⟩
  | assistant =>
    obtain ⟨content, readContent, told⟩ := Option.bind_eq_some_iff.mp read
    cases told
    have metadata_ := holds.metadata readMetadata (by simp) rfl
    have content_ := holds.written blocks rfl readContent (by simp) rfl
    exact ⟨rfl, s, recorded, metadata, metadata_, Option.bind_eq_some_iff.mpr ⟨content, content_, rfl⟩⟩
  | tool =>
    obtain ⟨content, readContent, told⟩ := Option.bind_eq_some_iff.mp read
    cases told
    have metadata_ := holds.metadata readMetadata (by simp) rfl
    have content_ := holds.written ToolResultBlock.survives.list rfl readContent (by simp) rfl
    exact ⟨rfl, s, recorded, metadata, metadata_, Option.bind_eq_some_iff.mpr ⟨content, content_, rfl⟩⟩

theorem survives : Survives decode? encode := by
  apply Survives.tagged .outside "role" Role.all Role.name role
    (fun message => [("content", some message.content), Json.metadata message.metadata]) ofContent?
  · intro role
    cases role <;> rfl
  · exact fun _ => by simp [Json.metadata]
  · exact fun _ _ _ _ => again

end Message

end Colloquy
