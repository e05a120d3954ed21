import Colloquy.Proofs.Conversation.Survival
import Colloquy.Response.Basic

/-! A response is read again from what is written for it. A list or a dictionary that is
empty is left out, and so is what is not known; each of these is what a missing member is
read as. -/
namespace Colloquy

variable {d : Draft} {held : List (String × Draft)}

theorem FinishReason.survives (place : Draft.Place) : Survives (decode? place) encode := by
  apply Survives.of_always
  · intro reason
    cases reason <;> rfl
  · exact fun _ => Json.noConfusion

theorem Usage.survives : Survives Usage.decode? Usage.encode := by
  apply Survives.record
  · exact fun _ => by simp
  · intro d usage held read shows
    unfold decode? at read ⊢
    simp only [Option.bind_eq_bind, Option.bind_eq_some_iff] at read ⊢
    obtain ⟨r, -, input, readInput, output, readOutput, reasoning, readReasoning, cached, readCached, told⟩ := read
    cases told
    obtain ⟨s, recorded, holds⟩ :=
      shows.record? ["input_tokens", "output_tokens", "reasoning_tokens", "cached_tokens"]
    have zero := Survives.word64?_document 0
    have input_ := holds.written .word64 zero readInput (by simp) rfl
    have output_ := holds.written .word64 zero readOutput (by simp) rfl
    have reasoning_ := holds.written .word64 zero readReasoning (by simp) rfl
    have cached_ := holds.written .word64 zero readCached (by simp) rfl
    exact ⟨s, recorded, input, input_, output, output_, reasoning, reasoning_, cached, cached_, rfl⟩

theorem TokenLogProb.survives : Survives TokenLogProb.decode? TokenLogProb.encode := by
  apply Survives.record
  · exact fun _ => by simp
  · intro d scored held read shows
    unfold decode? at read ⊢
    simp only [Option.bind_eq_bind, Option.bind_eq_some_iff] at read ⊢
    obtain ⟨r, -, token, readToken, logProb, readProb, told⟩ := read
    cases told
    obtain ⟨s, recorded, holds⟩ := shows.record? ["token", "logprob"]
    have token_ := holds.required .text readToken (by simp) rfl
    have prob_ := holds.required .real readProb (by simp) rfl
    exact ⟨s, recorded, token, token_, logProb, prob_, rfl⟩

theorem LogProb.survives : Survives LogProb.decode? LogProb.encode := by
  apply Survives.record
  · exact fun _ => by simp
  · intro d scored held read shows
    unfold decode? at read ⊢
    simp only [Option.bind_eq_bind, Option.bind_eq_some_iff] at read ⊢
    obtain ⟨r, -, token, readToken, logProb, readProb, top, readTop, told⟩ := read
    cases told
    obtain ⟨s, recorded, holds⟩ := shows.record? ["token", "logprob", "top_log_probs"]
    have token_ := holds.required .text readToken (by simp) rfl
    have prob_ := holds.required .real readProb (by simp) rfl
    have top_ := holds.written TokenLogProb.survives.list rfl readTop (by simp) rfl
    exact ⟨s, recorded, token, token_, logProb, prob_, top, top_, rfl⟩

namespace Warning

theorem again {kind : WarningKind} {warning : Warning} (read : ofContent? kind d = some warning)
    (shows : Shows held warning.members) :
    warning.kind = kind ∧ ofContent? kind (.object held) = some warning := by
  unfold ofContent? at read ⊢
  cases kind with
  | unsupportedSetting =>
    simp only [Option.bind_eq_bind, Option.bind_eq_some_iff] at read ⊢
    obtain ⟨r, -, setting, readSetting, details, readDetails, told⟩ := read
    cases told
    obtain ⟨s, recorded, holds⟩ := shows.record? ["setting", "details"]
    have setting_ := holds.required .text readSetting (by simp) rfl
    have details_ := holds.optional .text readDetails (by simp) rfl
    exact ⟨rfl, s, recorded, setting, setting_, details, details_, rfl⟩
  | unsupportedTool =>
    simp only [Option.bind_eq_bind, Option.bind_eq_some_iff] at read ⊢
    obtain ⟨r, -, tool, readTool, details, readDetails, told⟩ := read
    cases told
    obtain ⟨s, recorded, holds⟩ := shows.record? ["tool", "details"]
    have tool_ := holds.required .text readTool (by simp) rfl
    have details_ := holds.optional .text readDetails (by simp) rfl
    exact ⟨rfl, s, recorded, tool, tool_, details, details_, rfl⟩
  | other =>
    obtain ⟨⟨message, rfl⟩, told⟩ := shows.single "message" Warning.other read fun _ => rfl
    exact ⟨rfl, told⟩

theorem survives : Survives decode? encode := by
  apply Survives.tagged .outside "type" WarningKind.all WarningKind.name kind members ofContent?
  · intro kind
    cases kind <;> rfl
  · intro warning
    cases warning <;> simp [members]
  · exact fun _ _ _ _ => again

end Warning

theorem RawCall.survives : Survives RawCall.decode? RawCall.encode := by
  apply Survives.record
  · exact fun _ => by simp
  · intro d call held read shows
    unfold decode? at read ⊢
    simp only [Option.bind_eq_bind, Option.bind_eq_some_iff] at read ⊢
    obtain ⟨r, -, prompt, readPrompt, settings, readSettings, told⟩ := read
    cases told
    obtain ⟨s, recorded, holds⟩ := shows.record? ["raw_prompt", "raw_settings"]
    have prompt_ := holds.optional .json readPrompt (by simp) (by rw [Option.map_id]; rfl)
    have settings_ := holds.defaulted Survives.json.dictionary rfl readSettings (by simp) settings.isEmpty
      Dictionary.eq_empty_of_isEmpty rfl
    exact ⟨s, recorded, prompt, prompt_, settings, settings_, rfl⟩

theorem RawResponse.survives : Survives RawResponse.decode? RawResponse.encode := by
  apply Survives.record
  · exact fun _ => by simp
  · intro d raw held read shows
    unfold decode? at read ⊢
    simp only [Option.bind_eq_bind, Option.bind_eq_some_iff] at read ⊢
    obtain ⟨r, -, headers, readHeaders, told⟩ := read
    cases told
    obtain ⟨s, recorded, holds⟩ := shows.record? ["headers"]
    have headers_ := holds.defaulted Survives.text.dictionary rfl readHeaders (by simp) headers.isEmpty
      Dictionary.eq_empty_of_isEmpty rfl
    exact ⟨s, recorded, headers, headers_, rfl⟩

theorem RequestInfo.survives : Survives RequestInfo.decode? RequestInfo.encode := by
  apply Survives.record
  · exact fun _ => by simp
  · intro d info held read shows
    unfold decode? at read ⊢
    simp only [Option.bind_eq_bind, Option.bind_eq_some_iff] at read ⊢
    obtain ⟨r, -, body, readBody, told⟩ := read
    cases told
    obtain ⟨s, recorded, holds⟩ := shows.record? ["body"]
    have body_ := holds.written .text rfl readBody (by simp) rfl
    exact ⟨s, recorded, body, body_, rfl⟩

theorem ResponseInfo.survives : Survives ResponseInfo.decode? ResponseInfo.encode := by
  apply Survives.record
  · exact fun _ => by simp
  · intro d info held read shows
    unfold decode? at read ⊢
    simp only [Option.bind_eq_bind, Option.bind_eq_some_iff] at read ⊢
    obtain ⟨r, -, id, readId, timestamp, readTime, modelId, readModel, told⟩ := read
    cases told
    obtain ⟨s, recorded, holds⟩ := shows.record? ["id", "timestamp", "model_id"]
    have id_ := holds.written .text rfl readId (by simp) rfl
    have time_ := holds.optional .timestamp readTime (by simp) rfl
    have model_ := holds.written .text rfl readModel (by simp) rfl
    exact ⟨s, recorded, id, id_, timestamp, time_, modelId, model_, rfl⟩

theorem Response.survives : Survives Response.decode? Response.encode := by
  apply Survives.record
  · exact fun _ => by simp [Json.metadata]
  · intro d response held read shows
    unfold decode? at read ⊢
    simp only [Option.bind_eq_bind, Option.bind_eq_some_iff] at read ⊢
    obtain ⟨r, -, content, readContent, reason, readReason, usage, readUsage, warnings, readWarnings, metadata,
      readMetadata, logProbs, readProbs, rawCall, readCall, rawResponse, readRaw, requestInfo, readRequest,
      responseInfo, readInfo, told⟩ := read
    cases told
    obtain ⟨s, recorded, holds⟩ := shows.record? ["content", "finish_reason", "usage", "warnings",
      "provider_metadata", "log_probs", "raw_call", "raw_response", "request_info", "response_info"]
    have content_ := holds.written (Block.survives .outside).list rfl readContent (by simp) rfl
    have reason_ := holds.optional (FinishReason.survives .outside) readReason (by simp) rfl
    have unused := Usage.survives.again (.object []) {} rfl
    have usage_ := holds.written Usage.survives unused readUsage (by simp) rfl
    have warnings_ := holds.defaulted Warning.survives.list rfl readWarnings (by simp) warnings.isEmpty
      List.isEmpty_iff.mp rfl
    have metadata_ := holds.metadata readMetadata (by simp) rfl
    have probs_ := holds.defaulted LogProb.survives.list rfl readProbs (by simp) logProbs.isEmpty
      List.isEmpty_iff.mp rfl
    have call_ := holds.written RawCall.survives rfl readCall (by simp) rfl
    have raw_ := holds.optional RawResponse.survives readRaw (by simp) rfl
    have request_ := holds.optional RequestInfo.survives readRequest (by simp) rfl
    have info_ := holds.optional ResponseInfo.survives readInfo (by simp) rfl
    exact ⟨s, recorded, content, content_, reason, reason_, usage, usage_, warnings, warnings_, metadata, metadata_,
      logProbs, probs_, rawCall, call_, rawResponse, raw_, requestInfo, request_, responseInfo, info_, rfl⟩

end Colloquy
