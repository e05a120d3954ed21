import Colloquy.Chat.Gathering
import Colloquy.Proofs.Chat.Ending

/-! What a chunk decoder gathers is released by its first finish, whole and once. A chunk
with a failure adds nothing to it, wherever it stands. -/
namespace Colloquy.Chat

namespace ChunkDecoder

theorem finish_finished (d : ChunkDecoder) (finished : d.finished = true) : d.finish = (d, none) := by
  simp [finish, finished]

theorem finished_finish (d : ChunkDecoder) : d.finish.1.finished = true := by
  unfold finish
  split
  next finished => exact finished
  next => rfl

theorem finished_decode (d : ChunkDecoder) (chunk : Chunk) :
    (d.decode chunk).1.finished = d.finished :=
  (d.decoded_decode chunk).finished

/-- No request makes a finished decoder an unfinished one. -/
theorem finished_serve (d : ChunkDecoder) (finished : d.finished = true) (request : Request) :
    (d.serve request).finished = true := by
  cases request with
  | text text =>
    cases read : Chunk.parse? text with
    | none => simpa only [serve, decodeText, read] using finished
    | some chunk => simpa only [serve, decodeText, read, finished_decode] using finished
  | chunk chunk => exact (d.finished_decode chunk).trans finished
  | finish => exact d.finished_finish

theorem finished_serveAll (d : ChunkDecoder) (finished : d.finished = true) (requests : List Request) :
    (d.serveAll requests).finished = true := by
  induction requests generalizing d with
  | nil => exact finished
  | cons request rest ih => exact ih _ (d.finished_serve finished request)

end ChunkDecoder

open ChunkDecoder

theorem fed_append (chunks more : List Chunk) :
    fed (chunks ++ more) = ((fed chunks).decodeAll more).1 := by
  rw [fed, decodeAll_append, fed]

theorem eventsOf_append (chunks more : List Chunk) :
    eventsOf (chunks ++ more) = eventsOf chunks ++ ((fed chunks).decodeAll more).2 := by
  rw [eventsOf, decodeAll_append, eventsOf, fed]

theorem kind_eq_responseMetadata_iff (event : Event) :
    event.kind = .responseMetadata ↔ event.info?.isSome = true := by
  cases event <;> simp [Event.kind, Event.info?]

theorem exists_responseMetadata_iff (history : List Event) :
    (∃ event ∈ history, event.kind = .responseMetadata) ↔ history.filterMap Event.info? ≠ [] := by
  simp [List.filterMap_eq_nil_iff, kind_eq_responseMetadata_iff, Option.ne_none_iff_isSome]

theorem info?_eventsAfter (before : List Chunk) (chunk : Chunk) :
    (eventsAfter before chunk).filterMap Event.info? =
      if (identity before).isSome then [] else (identity [chunk]).toList := by
  have sent := (decoded_decodeAll {} before).sent
  have told := ((fed before).decoded_decode chunk).identity
  rw [fed, sent] at told
  exact told

theorem eventsAfter_identified (before : List Chunk) (chunk : Chunk) (info : ResponseInfo)
    (intact : chunk.error = none) (known : chunk.info? = some info) (first : identity before = none) :
    ∃ rest, eventsAfter before chunk = .responseMetadata info.id info.modelId info.timestamp :: rest ∧
      ∀ event ∈ rest, event.kind ≠ .responseMetadata := by
  have sent := (decoded_decodeAll {} before).sent
  have once := info?_eventsAfter before chunk
  rw [first, identity_single chunk intact, known] at once
  have told := (fed before).decode_intact chunk intact
  rcases (fed before).takeIdentity_cases chunk with ⟨-, late | unknown⟩ | ⟨same, -, found, identified⟩
  · rw [fed, sent, first] at late
    cases late
  · rw [known] at unknown
    cases unknown
  · rw [known] at found
    cases found
    rw [identified] at told
    refine ⟨_, congrArg Prod.snd told, ?_⟩
    rw [eventsAfter, told] at once
    have others := (List.cons.inj once).2
    intro event member isMetadata
    exact (exists_responseMetadata_iff _).mp ⟨event, member, isMetadata⟩ others

theorem tellsInPlace (before : List Chunk) (chunk : Chunk) (after : List Chunk) :
    TellsInPlace before chunk after where
  disturbance := by
    intro explanation failed
    have told := (fed before).decode_disturbed chunk explanation failed
    have single : decodeAll (fed before) (chunk :: after) =
        ((decodeAll (fed before) after).1, .error explanation.message :: (decodeAll (fed before) after).2) := by
      simp only [decodeAll, told, List.singleton_append]
    refine ⟨congrArg Prod.snd told, ?_, (decodeAll (fed before) after).2, eventsOf_append before after, ?_⟩
    · rw [fed_append, fed_append, single]
    · rw [eventsOf_append, single]
  identity := fun info => eventsAfter_identified before chunk info
  unidentified := by
    intro told
    rw [exists_responseMetadata_iff, info?_eventsAfter] at told
    cases first : identity before with
    | some info => simp [first] at told
    | none =>
      cases failed : chunk.error with
      | some explanation =>
        have unheard : identity [chunk] = none := by simp [identity, undisturbed, failed]
        simp [first, unheard] at told
      | none =>
        rw [first, identity_single chunk failed] at told
        exact ⟨rfl, by simpa [Option.ne_none_iff_isSome] using told, rfl⟩

/-- The first finish holds what the chunks told last, and all of their scores. -/
theorem finish_fed (chunks : List Chunk) :
    (fed chunks).finish.2 = some (.finish {
      reason := finishReason (lastReason chunks)
      usage := (lastUsage chunks).map TokenReport.usage
      metadata := none
      logProbs := (choices chunks).flatMap fun choice => logProbs choice.scores }) := by
  rw [fed, finish_decodeAll, tokenScores, List.map_flatMap]
  rfl

/-- A new decoder releases with its first finish all that the chunks gave it, and nothing
with any later one, whatever it is asked in between. -/
theorem finish_releases_once (chunks : List Chunk) :
    (fed chunks).finish.2 = some (.finish {
      reason := finishReason (lastReason chunks)
      usage := (lastUsage chunks).map TokenReport.usage
      metadata := none
      logProbs := (choices chunks).flatMap fun choice => logProbs choice.scores }) ∧
    (∀ before chunk after, chunks = before ++ chunk :: after → TellsInPlace before chunk after) ∧
    ∀ requests, ((fed chunks).finish.1.serveAll requests).finish.2 = none := by
  refine ⟨finish_fed chunks, fun before chunk after _ => tellsInPlace before chunk after, ?_⟩
  intro requests
  have finished := finished_serveAll _ (fed chunks).finished_finish requests
  rw [finish_finished _ finished]

/-- A chunk that fails, and has an identifier, a reason and counts beside its failure. -/
def failedChunk : Chunk where
  id := some "lost"
  choices := [{ finishReason := some "length" }]
  usage := some { inputTokens := 9 }
  error := some { message := "busy" }

/-- A chunk of counts alone. -/
def countedChunk : Chunk where
  usage := some { inputTokens := 3 }

/-- One token with the alternatives to it, and one without any. -/
def likelyScores : Scores where
  content := some [
    { token := "a", logProb := -0.5, alternatives := some [⟨"a", -0.5⟩, ⟨"b", -1.5⟩] },
    { token := ".", logProb := -2 }]

def namedChunk : Chunk where
  id := some "gen"
  choices := [{ delta := { content := some "a" }, finishReason := some "stop", scores := some likelyScores }]

theorem finish_releases_once_disturbed :
    [countedChunk, failedChunk, namedChunk] = [countedChunk] ++ failedChunk :: [namedChunk] ∧
      TellsInPlace [countedChunk] failedChunk [namedChunk] ∧
      TellsInPlace [countedChunk, failedChunk] namedChunk [] ∧
      eventsAfter [countedChunk, failedChunk] namedChunk = [.responseMetadata "gen" "" none, .textDelta "a"] ∧
      (fed [countedChunk, failedChunk, namedChunk]).finish.2 =
        some (.finish {
          reason := .stop
          usage := some { inputTokens := 3 }
          logProbs := [⟨"a", -0.5, [⟨"a", -0.5⟩, ⟨"b", -1.5⟩]⟩, ⟨".", -2, []⟩] }) ∧
      ((fed [countedChunk, failedChunk, namedChunk]).finish.1.serveAll
        [.chunk namedChunk, .finish, .text "broken"]).finish.2 = none := by
  obtain ⟨released, inPlace, never⟩ := finish_releases_once [countedChunk, failedChunk, namedChunk]
  exact ⟨rfl, inPlace [countedChunk] failedChunk [namedChunk] rfl,
    inPlace [countedChunk, failedChunk] namedChunk [] rfl, rfl, released, never _⟩

end Colloquy.Chat
