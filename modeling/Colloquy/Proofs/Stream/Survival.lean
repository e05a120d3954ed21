import Colloquy.Proofs.Response.Survival
import Colloquy.Stream.Event

/-! Events and openings are read again from what is written for them, and with them the
whole model: every message, event, opening and response that a document tells. -/
namespace Colloquy

variable {d : Draft} {held : List (String × Draft)}

theorem Source.survives : Survives Source.decode? Source.encode := by
  apply Survives.record
  · exact fun _ => by simp [Json.metadata]
  · intro d cited held read shows
    unfold decode? at read ⊢
    simp only [Option.bind_eq_bind, Option.bind_eq_some_iff] at read ⊢
    obtain ⟨r, -, sourceType, readType, id, readId, url, readUrl, title, readTitle, metadata, readMetadata, told⟩ :=
      read
    cases told
    obtain ⟨s, recorded, holds⟩ := shows.record? ["source_type", "id", "url", "title", "provider_metadata"]
    have type_ := holds.written .text rfl readType (by simp) rfl
    have id_ := holds.required .text readId (by simp) rfl
    have url_ := holds.required .text readUrl (by simp) rfl
    have title_ := holds.optional .text readTitle (by simp) rfl
    have metadata_ := holds.metadata readMetadata (by simp) rfl
    exact ⟨s, recorded, sourceType, type_, id, id_, url, url_, title, title_, metadata, metadata_, rfl⟩

theorem Finish.again {told : Finish} (read : Event.finish? d = some told)
    (shows : Shows held (Event.finish told).members) : Event.finish? (.object held) = some told := by
  unfold Event.finish? at read ⊢
  simp only [Option.bind_eq_bind, Option.bind_eq_some_iff] at read ⊢
  obtain ⟨r, -, reason, readReason, usage, readUsage, metadata, readMetadata, logProbs, readProbs, same⟩ := read
  cases same
  obtain ⟨s, recorded, holds⟩ := shows.record? ["finish_reason", "usage", "provider_metadata", "log_probs"]
  have reason_ := holds.required (FinishReason.survives .insideTagged) readReason (by simp) rfl
  have usage_ := holds.optional Usage.survives readUsage (by simp) rfl
  have metadata_ := holds.metadata readMetadata (by simp) rfl
  have probs_ := holds.defaulted LogProb.survives.list rfl readProbs (by simp) logProbs.isEmpty
    List.isEmpty_iff.mp rfl
  exact ⟨s, recorded, reason, reason_, usage, usage_, metadata, metadata_, logProbs, probs_, rfl⟩

namespace Event

theorem again {kind : EventKind} {event : Event} (read : ofContent? kind d = some event)
    (shows : Shows held event.members) :
    event.kind = kind ∧ ofContent? kind (.object held) = some event := by
  unfold ofContent? at read ⊢
  cases kind with
  | textDelta =>
    obtain ⟨⟨text, rfl⟩, told⟩ := shows.single "text" Event.textDelta read fun _ => rfl
    exact ⟨rfl, told⟩
  | reasoning =>
    obtain ⟨⟨text, rfl⟩, told⟩ := shows.single "text" Event.reasoning read fun _ => rfl
    exact ⟨rfl, told⟩
  | reasoningSignature =>
    obtain ⟨⟨text, rfl⟩, told⟩ := shows.single "signature" Event.reasoningSignature read fun _ => rfl
    exact ⟨rfl, told⟩
  | redactedReasoning =>
    obtain ⟨⟨text, rfl⟩, told⟩ := shows.single "data" Event.redactedReasoning read fun _ => rfl
    exact ⟨rfl, told⟩
  | toolCall =>
    simp only [Option.bind_eq_bind, Option.bind_eq_some_iff] at read ⊢
    obtain ⟨r, -, callId, readId, toolName, readName, args, readArgs, told⟩ := read
    cases told
    obtain ⟨s, recorded, holds⟩ := shows.record? ["tool_call_id", "tool_name", "args"]
    have id_ := holds.required .text readId (by simp) rfl
    have name_ := holds.required .text readName (by simp) rfl
    have args_ := holds.required .text readArgs (by simp) rfl
    exact ⟨rfl, s, recorded, callId, id_, toolName, name_, args, args_, rfl⟩
  | toolCallDelta =>
    simp only [Option.bind_eq_bind, Option.bind_eq_some_iff] at read ⊢
    obtain ⟨r, -, callId, readId, toolName, readName, argsDelta, readDelta, told⟩ := read
    cases told
    obtain ⟨s, recorded, holds⟩ := shows.record? ["tool_call_id", "tool_name", "args_delta"]
    have id_ := holds.required .text readId (by simp) rfl
    have name_ := holds.required .text readName (by simp) rfl
    have delta_ := holds.required .text readDelta (by simp) rfl
    exact ⟨rfl, s, recorded, callId, id_, toolName, name_, argsDelta, delta_, rfl⟩
  | source =>
    simp only [Option.bind_eq_bind, Option.bind_eq_some_iff] at read ⊢
    obtain ⟨r, -, cited, readSource, told⟩ := read
    cases told
    obtain ⟨s, recorded, holds⟩ := shows.record? ["source"]
    have source_ := holds.required Source.survives readSource (by simp) rfl
    exact ⟨rfl, s, recorded, cited, source_, rfl⟩
  | file =>
    simp only [Option.bind_eq_bind, Option.bind_eq_some_iff] at read ⊢
    obtain ⟨r, -, mediaType, readType, data, readData, told⟩ := read
    cases told
    obtain ⟨s, recorded, holds⟩ := shows.record? ["media_type", "data"]
    have type_ := holds.required .text readType (by simp) rfl
    have data_ := holds.required .bytes readData (by simp) rfl
    exact ⟨rfl, s, recorded, mediaType, type_, data, data_, rfl⟩
  | responseMetadata =>
    simp only [Option.bind_eq_bind, Option.bind_eq_some_iff] at read ⊢
    obtain ⟨r, -, id, readId, modelId, readModel, timestamp, readTime, told⟩ := read
    cases told
    obtain ⟨s, recorded, holds⟩ := shows.record? ["id", "model_id", "timestamp"]
    have id_ := holds.written .text rfl readId (by simp) rfl
    have model_ := holds.written .text rfl readModel (by simp) rfl
    have time_ := holds.optional .timestamp readTime (by simp) rfl
    exact ⟨rfl, s, recorded, id, id_, modelId, model_, timestamp, time_, rfl⟩
  | finish =>
    obtain ⟨told, readTold, rfl⟩ := Option.map_eq_some_iff.mp read
    exact ⟨rfl, congrArg (Option.map Event.finish) (Finish.again readTold shows)⟩
  | error =>
    obtain ⟨⟨text, rfl⟩, told⟩ := shows.single "message" Event.error read fun _ => rfl
    exact ⟨rfl, told⟩

theorem survives : Survives decode? encode := by
  apply Survives.tagged .outside "type" EventKind.all EventKind.name kind members ofContent?
  · intro kind
    cases kind <;> rfl
  · intro event
    cases event <;> simp [members, Json.metadata]
  · exact fun _ _ _ _ => again

end Event

theorem Opening.survives : Survives Opening.decode? Opening.encode := by
  apply Survives.record
  · exact fun _ => by simp [Json.metadata]
  · intro d opening held read shows
    unfold decode? at read ⊢
    simp only [Option.bind_eq_bind, Option.bind_eq_some_iff] at read ⊢
    obtain ⟨r, -, rawCall, readCall, rawResponse, readRaw, requestInfo, readRequest, responseInfo, readInfo,
      warnings, readWarnings, metadata, readMetadata, told⟩ := read
    cases told
    obtain ⟨s, recorded, holds⟩ := shows.record? ["raw_call", "raw_response", "request_info", "response_info",
      "warnings", "provider_metadata"]
    have call_ := holds.written RawCall.survives rfl readCall (by simp) rfl
    have raw_ := holds.optional RawResponse.survives readRaw (by simp) rfl
    have request_ := holds.optional RequestInfo.survives readRequest (by simp) rfl
    have info_ := holds.optional ResponseInfo.survives readInfo (by simp) rfl
    have warnings_ := holds.defaulted Warning.survives.list rfl readWarnings (by simp) warnings.isEmpty
      List.isEmpty_iff.mp rfl
    have metadata_ := holds.metadata readMetadata (by simp) rfl
    exact ⟨s, recorded, rawCall, call_, rawResponse, raw_, requestInfo, request_, responseInfo, info_, warnings,
      warnings_, metadata, metadata_, rfl⟩

/-- Whatever a document tells of the model, with its members in any order and with some of
them left out, null or not known, is told again by the value that is written for it. Inline
bytes are exact both ways: a text is read as bytes only if it is what is written for them. -/
theorem model_survives_json (d : Draft) :
    (∀ message, Message.decode? d = some message →
      Message.decode? (.ofJson message.encode.sorted) = some message) ∧
    (∀ event, Event.decode? d = some event → Event.decode? (.ofJson event.encode.sorted) = some event) ∧
    (∀ opening, Opening.decode? d = some opening →
      Opening.decode? (.ofJson opening.encode.sorted) = some opening) ∧
    (∀ response, Response.decode? d = some response →
      Response.decode? (.ofJson response.encode.sorted) = some response) ∧
    ∀ text data, Text.Base64.decode? text = some data ↔ text = Text.Base64.encode data :=
  ⟨Message.survives.again d, Event.survives.again d, Opening.survives.again d, Response.survives.again d,
    Text.Base64.decode?_eq_some_iff⟩

namespace OutOfOrder

/-- An inline image, with its tag last, an address that is null and a member that is not known. -/
def image : Draft :=
  .object [("data", .text "/w=="), ("url", .null), ("alt", .text "a dot"), ("type", .text "image")]

def message : Draft :=
  .object [("content", .array [image]), ("role", .text "user")]

/-- The score is a whole number where a double is expected. -/
def finish : Draft :=
  .object [("usage", .null), ("finish_reason", .text "stop"), ("type", .text "finish"),
    ("log_probs", .array [.object [("logprob", .number (.whole (-1))), ("token", .text "a")]])]

def opening : Draft :=
  .object [("response_info", .object [("timestamp", .text "2024-02-29t23:30:00.5-00:45")]),
    ("warnings", .array [.object [("message", .text "slow"), ("type", .text "other")]])]

def response : Draft :=
  .object [("raw_call", .object [("raw_prompt", .array [.null, .object [("b", .null), ("a", .bool true)]])]),
    ("content", .array [image])]

/-- The dot is one byte. -/
def dot : Block :=
  .image { data := some [0xFF] }

def readMessage : Message :=
  .user { content := [dot] }

def readFinish : Event :=
  .finish { reason := .stop, logProbs := [{ token := "a", logProb := -1 }] }

/-- A quarter past midnight, half a second later. -/
def readTime : Time.Timestamp where
  date := { year := 2024, month := 3, day := 1, yearInRange := by decide, monthInRange := by decide,
            dayInRange := by decide }
  hour := 0
  minute := 15
  second := 0
  nanos := 500000000
  inDay := by decide
  nanosInRange := by decide

def readOpening : Opening where
  responseInfo := some { timestamp := some readTime }
  warnings := [.other "slow"]

def readResponse : Response where
  rawCall := { prompt := some (.array [.null, .object [("a", .bool true), ("b", .null)]]) }
  content := [dot]

end OutOfOrder

theorem model_survives_json_outOfOrder :
    Message.decode? OutOfOrder.message = some OutOfOrder.readMessage ∧
      Message.decode? (.ofJson OutOfOrder.readMessage.encode.sorted) = some OutOfOrder.readMessage ∧
    Event.decode? OutOfOrder.finish = some OutOfOrder.readFinish ∧
      Event.decode? (.ofJson OutOfOrder.readFinish.encode.sorted) = some OutOfOrder.readFinish ∧
    Opening.decode? OutOfOrder.opening = some OutOfOrder.readOpening ∧
      Opening.decode? (.ofJson OutOfOrder.readOpening.encode.sorted) = some OutOfOrder.readOpening ∧
    Response.decode? OutOfOrder.response = some OutOfOrder.readResponse ∧
      Response.decode? (.ofJson OutOfOrder.readResponse.encode.sorted) = some OutOfOrder.readResponse := by
  obtain ⟨messages, -, -, -, -⟩ := model_survives_json OutOfOrder.message
  obtain ⟨-, events, -, -, -⟩ := model_survives_json OutOfOrder.finish
  obtain ⟨-, -, openings, -, -⟩ := model_survives_json OutOfOrder.opening
  obtain ⟨-, -, -, responses, -⟩ := model_survives_json OutOfOrder.response
  have message : Message.decode? OutOfOrder.message = some OutOfOrder.readMessage := rfl
  have event : Event.decode? OutOfOrder.finish = some OutOfOrder.readFinish := rfl
  have opening : Opening.decode? OutOfOrder.opening = some OutOfOrder.readOpening := rfl
  have response : Response.decode? OutOfOrder.response = some OutOfOrder.readResponse := rfl
  exact ⟨message, messages _ message, event, events _ event, opening, openings _ opening, response,
    responses _ response⟩

end Colloquy
