import Colloquy.Chat.Totals
import Colloquy.Proofs.Chat.Gathering
import Colloquy.Proofs.Chat.Streaming
import Colloquy.Proofs.Json.Written
import Colloquy.Proofs.Response.Session

/-! Totals of tokens. Whatever the service reports is admitted and copied, in one piece and
over a stream alike; and only then are the two counts added, if a word can hold them. -/
namespace Colloquy

namespace Usage

theorem totalTokens?_fits {u : Usage} (fits : u.tokens < UInt64.size) :
    u.totalTokens? = some (u.inputTokens + u.outputTokens) :=
  if_pos fits

theorem totalTokens?_beyond {u : Usage} (large : UInt64.size ≤ u.tokens) : u.totalTokens? = none :=
  if_neg (Nat.not_lt.mpr large)

theorem totalTokens?_exact_iff (u : Usage) :
    (∃ total, u.totalTokens? = some total ∧ total.toNat = u.tokens) ↔ u.tokens < UInt64.size := by
  constructor
  · rintro ⟨total, -, exact_⟩
    exact exact_ ▸ total.toNat_lt_size
  · intro fits
    refine ⟨_, totalTokens?_fits fits, ?_⟩
    rw [UInt64.toNat_add]
    exact Nat.mod_eq_of_lt fits

end Usage

namespace Builder

variable {b next : Builder} {event : Event}

theorem usage_of_effect (effect : Effect b event next) (other : event.kind ≠ .finish) :
    next.response.usage = b.response.usage := by
  cases effect with
  | finished told => exact absurd rfl other
  | _ => rfl

theorem finished_of_effect (effect : Effect b event next) (finishes : event.kind = .finish) :
    next.phase = .finished := by
  cases effect with
  | finished told => rfl
  | _ => cases finishes

/-- Until the finish nothing is counted. -/
theorem usage_unfinished (inputs : List Input) (unfinished : (empty.feedAll inputs).phase ≠ .finished) :
    (empty.feedAll inputs).response.usage = {} := by
  have uncounted := feedAll_preserves (motive := fun _ b => b.phase ≠ .finished → b.response.usage = {})
    ?taking ?opening [] empty (fun _ => rfl) inputs
  · exact uncounted unfinished
  case taking =>
    intro history b event next before added unfinished
    obtain ⟨early, effect⟩ := effect_of_add added
    have other : event.kind ≠ .finish := fun finishes => unfinished (finished_of_effect effect finishes)
    rw [usage_of_effect effect other, before early]
  case opening => exact fun history b told before => before

/-- After the finish nothing is counted again. -/
theorem usage_finished (b : Builder) (finished : b.phase = .finished) (inputs : List Input) :
    (b.feedAll inputs).response.usage = b.response.usage := by
  have kept := feedAll_preserves
    (motive := fun _ later => later.phase = .finished ∧ later.response.usage = b.response.usage)
    ?taking ?opening [] b ⟨finished, rfl⟩ inputs
  · exact kept.2
  case taking => exact fun history later event next closed added => absurd closed.1 (effect_of_add added).1
  case opening => exact fun history later told closed => closed

/-- Of a run in which a finish was taken, the usage is what that finish tells. -/
theorem usage_of_finish {told : Finish} {before : List Input}
    (taken : (empty.feedAll before).feed (.event (.finish told)) = (b, none)) (after : List Input) :
    (b.feedAll after).response.usage = told.usage.getD {} := by
  obtain ⟨unfinished, effect⟩ := effect_of_add (add_of_feed taken)
  have finished := finished_of_effect effect rfl
  rw [usage_finished b finished after]
  cases effect with
  | finished told => rw [addFinish, usage_unfinished before unfinished, Chat.usage_addFinish]

end Builder

namespace Chat

open ChunkDecoder

theorem exists_count (name : String) (count : UInt64) :
    ∃ r : Record, (Json.record [(name, word64 count)]).document.record? [name] = some r ∧
      r.defaulted name 0 Draft.word64? = some count := by
  obtain ⟨r, recorded, holds⟩ := Json.exists_record [(name, word64 count)] [name] (List.nodup_singleton name)
  have given : Json.given? name [(name, word64 count)] = some (Json.word64 count) := if_pos rfl
  exact ⟨r, recorded, holds.read_written (Survives.word64?_document count) (List.mem_singleton_self name) given⟩

theorem printable_count (name : String) (count : UInt64) :
    Draft.Printable 1 (Json.record [(name, word64 count)]).document := by
  apply Draft.Printable.record
  simp only [List.mem_singleton, Prod.mk.injEq, word64, Option.some.injEq]
  rintro _ value ⟨-, rfl⟩
  exact .word64 0 count

theorem InputDetails.decode?_encode (details : InputDetails) :
    decode? details.encode.document = some details := by
  obtain ⟨r, recorded, count⟩ := exists_count "cached_tokens" details.cachedTokens
  simp only [encode, decode?, recorded, count, Option.bind_eq_bind, Option.bind_some, Option.pure_def]

theorem OutputDetails.decode?_encode (details : OutputDetails) :
    decode? details.encode.document = some details := by
  obtain ⟨r, recorded, count⟩ := exists_count "reasoning_tokens" details.reasoningTokens
  simp only [encode, decode?, recorded, count, Option.bind_eq_bind, Option.bind_some, Option.pure_def]

namespace TokenReport

theorem decode?_encode (report : TokenReport) : decode? report.encode.document = some report := by
  obtain ⟨r, recorded, holds⟩ := Json.exists_record
    [("prompt_tokens", word64 report.inputTokens), ("completion_tokens", word64 report.outputTokens),
      ("total_tokens", word64 report.totalTokens),
      ("prompt_tokens_details", some (Json.orNull InputDetails.encode report.inputDetails)),
      ("completion_tokens_details", some (Json.orNull OutputDetails.encode report.outputDetails))]
    ["prompt_tokens", "completion_tokens", "total_tokens", "prompt_tokens_details", "completion_tokens_details"]
    (by simp)
  have input : r.defaulted "prompt_tokens" 0 Draft.word64? = some report.inputTokens :=
    holds.read_written (Survives.word64?_document _) (by simp) rfl
  have output : r.defaulted "completion_tokens" 0 Draft.word64? = some report.outputTokens :=
    holds.read_written (Survives.word64?_document _) (by simp) rfl
  have total : r.defaulted "total_tokens" 0 Draft.word64? = some report.totalTokens :=
    holds.read_written (Survives.word64?_document _) (by simp) rfl
  have inputDetails : r.optional "prompt_tokens_details" InputDetails.decode? = some report.inputDetails :=
    holds.read_nullable InputDetails.decode?_encode (fun _ => Json.noConfusion) (by simp) rfl
  have outputDetails : r.optional "completion_tokens_details" OutputDetails.decode? = some report.outputDetails :=
    holds.read_nullable OutputDetails.decode?_encode (fun _ => Json.noConfusion) (by simp) rfl
  simp only [encode, decode?, recorded, input, output, total, inputDetails, outputDetails, Option.bind_eq_bind,
    Option.bind_some, Option.pure_def]

theorem printable (report : TokenReport) : Draft.Printable 2 report.encode.document := by
  apply Draft.Printable.record
  intro name value listed
  simp only [List.mem_cons, List.not_mem_nil, or_false, Prod.mk.injEq, word64, Option.some.injEq] at listed
  obtain ⟨-, rfl⟩ | ⟨-, rfl⟩ | ⟨-, rfl⟩ | ⟨-, rfl⟩ | ⟨-, rfl⟩ := listed
  · exact .word64 1 _
  · exact .word64 1 _
  · exact .word64 1 _
  · exact .orNull (fun details : InputDetails => printable_count "cached_tokens" details.cachedTokens) _
  · exact .orNull (fun details : OutputDetails => printable_count "reasoning_tokens" details.reasoningTokens) _

end TokenReport

/-- What stands beside the report in its text. -/
theorem document_blank : (Json.array [Json.record []]).document = .array [.object []] := by
  simp [Json.document, Json.record, Json.sorted, Json.sortedItems, Json.sortedMembers, Entries.insertAll,
    Draft.ofJson, Draft.ofItems, Draft.ofMembers]

theorem parse?_reportText (report : TokenReport) :
    Draft.parse? (reportText report) = some (Json.record (reportMembers report)).document := by
  have printable : Draft.Printable 3 (Json.record (reportMembers report)).document := by
    apply Draft.Printable.record
    intro name value listed
    simp only [reportMembers, List.mem_cons, List.not_mem_nil, or_false, Prod.mk.injEq, Option.some.injEq] at listed
    obtain ⟨-, rfl⟩ | ⟨-, rfl⟩ := listed
    · rw [document_blank]
      exact ⟨Nat.le_refl 2, trivial, trivial⟩
    · exact report.printable
  exact printable.parse?_render (by decide)

section

variable {report : TokenReport} {r : Record} {names : List String}

theorem usage_reportMembers (holds : r.Holds names (reportMembers report)) (known : "usage" ∈ names) :
    r.optional "usage" TokenReport.decode? = some (some report) :=
  holds.read_nullable TokenReport.decode?_encode (fun _ => Json.noConfusion) known rfl

theorem choices_reportMembers {α : Type} {decode? : Draft → Option α} {blank : α}
    (read : decode? (.object []) = some blank) (holds : r.Holds names (reportMembers report))
    (known : "choices" ∈ names) : r.defaulted "choices" [] (Draft.list? decode?) = some [blank] := by
  apply holds.read_written _ known rfl
  rw [document_blank, Draft.list?, List.mapM_cons, read]
  rfl

end

theorem parse_reportText (report : TokenReport) :
    Reply.parse (reportText report) = .ok { choices := [{}], usage := some report } := by
  obtain ⟨r, recorded, holds⟩ := Json.exists_record (reportMembers report)
    ["id", "model", "created", "choices", "usage", "system_fingerprint"] (by simp [reportMembers])
  have id_ : r.defaulted "id" "" Draft.text? = some "" := holds.read_absent "id" "" (by simp) rfl
  have model : r.defaulted "model" "" Draft.text? = some "" := holds.read_absent "model" "" (by simp) rfl
  have created : r.optional "created" Draft.signed64? = some none := holds.read_absent "created" none (by simp) rfl
  have choices : r.defaulted "choices" [] (Draft.list? Choice.decode?) = some [{}] :=
    choices_reportMembers rfl holds (by simp)
  have usage := usage_reportMembers holds (by simp)
  have fingerprint : r.optional "system_fingerprint" Draft.text? = some none :=
    holds.read_absent "system_fingerprint" none (by simp) rfl
  have decoded : Reply.decode? (Json.record (reportMembers report)).document =
      some { choices := [{}], usage := some report } := by
    simp only [Reply.decode?, recorded, id_, model, created, choices, usage, fingerprint, Option.bind_eq_bind,
      Option.bind_some, Option.pure_def]
  rw [Reply.parse, parse?_reportText, Option.bind_some, decoded]

theorem parse?_chunk_reportText (report : TokenReport) :
    Chunk.parse? (reportText report) = some { choices := [{}], usage := some report } := by
  obtain ⟨r, recorded, holds⟩ := Json.exists_record (reportMembers report)
    ["id", "model", "created", "choices", "usage", "error"] (by simp [reportMembers])
  have id_ : r.optional "id" Draft.text? = some none := holds.read_absent "id" none (by simp) rfl
  have model : r.optional "model" Draft.text? = some none := holds.read_absent "model" none (by simp) rfl
  have created : r.optional "created" Draft.signed64? = some none := holds.read_absent "created" none (by simp) rfl
  have choices : r.defaulted "choices" [] (Draft.list? ChunkChoice.decode?) = some [{}] :=
    choices_reportMembers rfl holds (by simp)
  have usage := usage_reportMembers holds (by simp)
  have error : r.optional "error" Explanation.decode? = some none := holds.read_absent "error" none (by simp) rfl
  rw [Chunk.parse?, parse?_reportText, Option.bind_some]
  simp only [Chunk.decode?, recorded, id_, model, created, choices, usage, error, Option.bind_eq_bind,
    Option.bind_some, Option.pure_def]

theorem tokens_usage (report : Option TokenReport) :
    ((report.map TokenReport.usage).getD {}).tokens = reportedTokens report := by
  cases report <;> rfl

theorem counted (report : Option TokenReport) : Counted report ((report.map TokenReport.usage).getD {}) where
  copied := rfl
  exact_iff := by rw [Usage.totalTokens?_exact_iff, tokens_usage]
  beyond := by
    rw [← tokens_usage]
    exact Usage.totalTokens?_beyond

theorem usage_response {reply : Reply} {r : Response} (read : reply.response = .ok r) :
    r.usage = (reply.usage.map TokenReport.usage).getD {} := by
  unfold Reply.response at read
  split at read
  next => cases read
  next => cases read; rfl

/-- Whatever is reported is admitted, as a reply and as a chunk. There is an exact total of
it, in one piece and over a stream, exactly as long as a word holds those tokens; from then
on there is no total. -/
theorem total_exact_iff (report : Option TokenReport) :
    (∀ told, report = some told → Reply.parse (reportText told) = .ok { choices := [{}], usage := report } ∧
      Chunk.parse? (reportText told) = some { choices := [{}], usage := report }) ∧
    (∀ (reply : Reply) (r : Response), reply.usage = report → reply.response = .ok r →
      Counted report r.usage) ∧
    ∀ (chunks : List Chunk) (last : Event) (before after : List Input) (b : Builder),
      lastUsage chunks = report → (fed chunks).finish.2 = some last →
        (Builder.empty.feedAll before).feed (.event last) = (b, none) →
          Counted report (b.feedAll after).response.usage := by
  refine ⟨?admitted, ?whole, ?streamed⟩
  case admitted =>
    rintro told rfl
    exact ⟨parse_reportText told, parse?_chunk_reportText told⟩
  case whole =>
    rintro reply r rfl read
    rw [usage_response read]
    exact counted reply.usage
  case streamed =>
    rintro chunks last before after b rfl released taken
    rw [finish_fed] at released
    cases released
    rw [Builder.usage_of_finish taken after]
    exact counted (lastUsage chunks)

def sevenTokens : TokenReport where
  inputTokens := 3
  outputTokens := 4

def sevenTokensReply : Reply where
  choices := [{}]
  usage := some sevenTokens

/-- Seven tokens in one piece, and three over a stream with a late text. -/
theorem total_exact_small :
    ∃ r last b, sevenTokensReply.response = .ok r ∧ Counted (some sevenTokens) r.usage ∧
      r.usage.totalTokens? = some 7 ∧ r.usage.tokens = 7 ∧
      (fed [countedChunk, namedChunk]).finish.2 = some last ∧
      (Builder.empty.feedAll ((eventsOf [countedChunk, namedChunk]).map .event)).feed (.event last) = (b, none) ∧
      Counted (some { inputTokens := 3 }) (b.feedAll [.event (.textDelta "late")]).response.usage := by
  have seven := (total_exact_iff (some sevenTokens)).2.1 sevenTokensReply _ rfl rfl
  have three := (total_exact_iff (some { inputTokens := 3 })).2.2 [countedChunk, namedChunk] _
    ((eventsOf [countedChunk, namedChunk]).map .event) [.event (.textDelta "late")] _ rfl rfl rfl
  exact ⟨_, _, _, rfl, seven, rfl, rfl, rfl, rfl, three⟩

/-- One token more than a word holds. -/
def overfull : TokenReport where
  inputTokens := 18446744073709551615
  outputTokens := 1

/-- These tokens have no total, in one piece and over a stream. -/
theorem total_lost :
    ∃ reply r chunk last b, Reply.parse (reportText overfull) = .ok reply ∧ reply.response = .ok r ∧
      r.usage.totalTokens? = none ∧ r.usage.tokens = 18446744073709551616 ∧
      Chunk.parse? (reportText overfull) = some chunk ∧ (fed [chunk]).finish.2 = some last ∧
      (Builder.empty.feedAll ((eventsOf [chunk]).map .event)).feed (.event last) = (b, none) ∧
      b.response.usage.totalTokens? = none ∧ b.response.usage.tokens = 18446744073709551616 :=
  ⟨_, _, _, _, _, parse_reportText overfull, rfl, rfl, rfl, parse?_chunk_reportText overfull, rfl, rfl, rfl, rfl⟩

end Chat

end Colloquy
