import Colloquy.Proofs.Transcript.Writing
import Mathlib.Data.Nat.Find

/-! A transcript and a longer one that begins with it. What the assistant says stands
directly behind the heading under which it was asked for, and the stop sequence ends it
before the user's next turn. -/
namespace Colloquy.Transcript

/-- Of two texts that the same text begins with, the shorter one begins the longer one. -/
theorem exists_eq_append_of_length_le {one other rest more : String} (same : one ++ rest = other ++ more)
    (shorter : one.length ≤ other.length) : ∃ dropped, other = one ++ dropped := by
  have oneBegins : one.toList <+: (one ++ rest).toList := by simp
  have otherBegins : other.toList <+: (one ++ rest).toList := by simp [same]
  have lengths : one.toList.length ≤ other.toList.length := by
    rwa [String.length_toList, String.length_toList]
  obtain ⟨dropped, longer⟩ := List.prefix_of_prefix_length_le oneBegins otherBegins lengths
  exact ⟨String.ofList dropped, by simp [← String.toList_inj, longer]⟩

theorem exists_cutAt {stop text before after : String} (stands : text = before ++ stop ++ after) :
    ∃ kept, CutAt stop text kept := by
  classical
  have somewhere : ∃ length kept rest, text = kept ++ stop ++ rest ∧ kept.length = length :=
    ⟨_, before, after, stands, rfl⟩
  obtain ⟨kept, rest, first, length⟩ := Nat.find_spec somewhere
  refine ⟨kept, ⟨rest, first⟩, ?_⟩
  intro other more there
  rw [length]
  exact Nat.find_min' somewhere ⟨other, more, there, rfl⟩

theorem CutAt.length_le {stop text kept before after : String} (cut : CutAt stop text kept)
    (stands : text = before ++ stop ++ after) : kept.length ≤ before.length :=
  cut.2 before after stands

theorem CutAt.begins {stop text kept before after : String} (cut : CutAt stop text kept)
    (stands : text = before ++ stop ++ after) : ∃ dropped, before = kept ++ dropped := by
  have shorter := cut.length_le stands
  obtain ⟨⟨rest, first⟩, -⟩ := cut
  have same : kept ++ (stop ++ rest) = before ++ (stop ++ after) := by
    rw [← String.append_assoc, ← String.append_assoc, ← first, ← stands]
  exact exists_eq_append_of_length_le same shorter

/-- The turns of these messages, and the heading for the next reply. -/
def remainder (options : Options) (more : List Message) : String :=
  String.join (more.map (turnText options)) ++ options.assistant ++ ":\n"

theorem remainder_nil (options : Options) : remainder options [] = options.assistant ++ ":\n" := by
  rw [remainder, List.map_nil, String.join_nil, String.empty_append]

theorem remainder_cons (options : Options) (message : Message) (more : List Message) :
    remainder options (message :: more) = turnText options message ++ remainder options more := by
  simp only [remainder, List.map_cons, String.join_cons, String.append_assoc]

theorem remainder_append (options : Options) (before more : List Message) :
    remainder options (before ++ more) =
      String.join (before.map (turnText options)) ++ remainder options more := by
  simp only [remainder, List.map_append, String.join_append, String.append_assoc]

theorem transcript_eq (options : Options) (prompt : List Message) :
    transcript options prompt = foreword prompt ++ remainder options (spoken prompt) := by
  simp only [transcript, remainder, String.append_assoc]

/-- A reply is no system message, so that only what comes before it can have a foreword. -/
theorem foreword_append_reply (prompt more : List Message) (reply : AssistantMessage) :
    foreword (prompt ++ .assistant reply :: more) = foreword prompt := by
  cases prompt with
  | nil => rfl
  | cons message rest => cases message <;> rfl

theorem spoken_append_reply (prompt more : List Message) (reply : AssistantMessage) :
    spoken (prompt ++ .assistant reply :: more) = spoken prompt ++ .assistant reply :: more := by
  cases prompt with
  | nil => rfl
  | cons message rest => cases message <;> rfl

theorem transcript_append_reply (options : Options) (prompt more : List Message) (reply : AssistantMessage) :
    transcript options (prompt ++ .assistant reply :: more) =
      transcript options prompt ++ said reply.content ++ "\n\n" ++ remainder options more := by
  simp only [transcript_eq, foreword_append_reply, spoken_append_reply, remainder_append, remainder_cons,
    turnText]
  simp only [remainder, String.append_assoc]

theorem not_passesThrough_reply (options : Options) (prompt more : List Message) (reply : AssistantMessage)
    (text : String) : ¬PassesThrough options (prompt ++ .assistant reply :: more) text := by
  rintro ⟨-, message, block, single, -⟩
  cases prompt with
  | nil => cases single
  | cons first rest => simp at single

theorem headed_remainder (options : Options) {more : List Message}
    (plain : ∀ message ∈ more, Plain message) : Headed options more (remainder options more) := by
  cases more with
  | nil =>
    rw [remainder_nil]
    exact .last
  | cons message later =>
    obtain ⟨speaks, -⟩ := plain message List.mem_cons_self
    rw [remainder_cons]
    cases message with
    | system => simp [Message.role] at speaks
    | user message =>
      have headed : Headed options (.user message :: later)
          (options.user ++ ":\n" ++ (said message.content ++ "\n\n" ++ remainder options later)) := .user ..
      simpa only [turnText, String.append_assoc] using headed
    | assistant message =>
      have headed : Headed options (.assistant message :: later)
          (options.assistant ++ ":\n" ++ (said message.content ++ "\n\n" ++ remainder options later)) :=
        .assistant ..
      simpa only [turnText, String.append_assoc] using headed
    | tool => simp [Message.role] at speaks

theorem said_map_text (blocks : List TextBlock) :
    said (blocks.map .text) = String.join (blocks.map TextBlock.text) := by
  rw [said, List.filterMap_map]
  congr 1
  exact congrFun List.filterMap_eq_map blocks

/-- The blank line after a text and the user's next heading make up the stop sequence. -/
theorem stop_stands (text user rest : String) :
    text ++ "\n\n" ++ (user ++ ":\n" ++ rest) = text ++ "\n" ++ ("\n" ++ user ++ ":") ++ ("\n" ++ rest) := by
  have blankLine : "\n\n" = "\n" ++ "\n" := rfl
  have lineEnd : ":\n" = ":" ++ "\n" := rfl
  simp only [blankLine, lineEnd, String.append_assoc]

/-- Where a conversation goes on with a reply, its transcript is the one so far, then the
reply, and then what comes next under a heading of its own. If that is the user's turn, the
stop sequence cuts what comes after the transcript so far before the turn begins. -/
theorem transcript_goes_on (options : Options) (prompt more : List Message) (reply : AssistantMessage)
    (blocks : List TextBlock) (text : String) (start whole : CompletionPrompt)
    (written : ∀ raw, ¬PassesThrough options prompt raw)
    (begun : completionPrompt options prompt = .ok start)
    (plain : reply.content = blocks.map .text) (joined : String.join (blocks.map TextBlock.text) = text)
    (continued : completionPrompt options (prompt ++ .assistant reply :: more) = .ok whole) :
    ∃ rest, whole.prompt = start.prompt ++ text ++ "\n\n" ++ rest ∧ Headed options more rest ∧
      ∀ message later, more = .user message :: later →
        ∃ stop kept dropped, start.stopSequences = [stop] ∧ whole.stopSequences = [stop] ∧
          CutAt stop (text ++ "\n\n" ++ rest) kept ∧ kept.length ≤ text.length + 1 ∧
          text ++ "\n" = kept ++ dropped := by
  obtain ⟨-, rfl⟩ := (completionPrompt_ok_iff written start).mp begun
  obtain ⟨allPlain, rfl⟩ :=
    (completionPrompt_ok_iff (not_passesThrough_reply options prompt more reply) whole).mp continued
  have saying : said reply.content = text := by rw [plain, said_map_text, joined]
  have headed : Headed options more (remainder options more) := by
    apply headed_remainder options
    intro message member
    apply allPlain
    rw [spoken_append_reply]
    exact List.mem_append_right _ (List.mem_cons_of_mem _ member)
  refine ⟨remainder options more, ?_, headed, ?_⟩
  · rw [transcript_append_reply, saying]
  · rintro message later rfl
    generalize remainder options (.user message :: later) = rest at headed ⊢
    cases headed with
    | user _ _ tail =>
      have stands := stop_stands text options.user tail
      obtain ⟨kept, cut⟩ := exists_cutAt stands
      obtain ⟨dropped, begins⟩ := cut.begins stands
      refine ⟨_, kept, dropped, rfl, rfl, cut, ?_, begins⟩
      exact le_of_le_of_eq (cut.length_le stands) (String.length_append text "\n")

/-- Labels of their own for the user and the assistant. -/
def humanOptions : Options :=
  ⟨.messages, "Human", "AI"⟩

theorem transcript_goes_on_joke :
    completionPrompt humanOptions [.ofSystem "s", .ofUserText "Hi"] =
      .ok ⟨"s\n\nHuman:\nHi\n\nAI:\n", ["\nHuman:"]⟩ ∧
    completionPrompt humanOptions
        ([.ofSystem "s", .ofUserText "Hi"] ++ .ofAssistant [.ofText "Hel", .ofText "lo!"] ::
          [.ofUserText "A joke"]) =
      .ok ⟨"s\n\nHuman:\nHi\n\nAI:\nHello!\n\nHuman:\nA joke\n\nAI:\n", ["\nHuman:"]⟩ ∧
    ∃ rest, "s\n\nHuman:\nHi\n\nAI:\nHello!\n\nHuman:\nA joke\n\nAI:\n" =
        "s\n\nHuman:\nHi\n\nAI:\n" ++ "Hello!" ++ "\n\n" ++ rest ∧
      ∃ kept, CutAt "\nHuman:" ("Hello!" ++ "\n\n" ++ rest) kept ∧ kept.length ≤ 7 := by
  have begun : completionPrompt humanOptions [.ofSystem "s", .ofUserText "Hi"] =
      .ok ⟨"s\n\nHuman:\nHi\n\nAI:\n", ["\nHuman:"]⟩ := by rfl
  have continued : completionPrompt humanOptions
        ([.ofSystem "s", .ofUserText "Hi"] ++ .ofAssistant [.ofText "Hel", .ofText "lo!"] ::
          [.ofUserText "A joke"]) =
      .ok ⟨"s\n\nHuman:\nHi\n\nAI:\nHello!\n\nHuman:\nA joke\n\nAI:\n", ["\nHuman:"]⟩ := by rfl
  have written (raw : String) : ¬PassesThrough humanOptions [.ofSystem "s", .ofUserText "Hi"] raw := by
    rintro ⟨asked, -⟩
    cases asked
  obtain ⟨rest, whole, -, cut⟩ := transcript_goes_on humanOptions _ [.ofUserText "A joke"]
    ⟨[.ofText "Hel", .ofText "lo!"], none⟩ [⟨"Hel", none⟩, ⟨"lo!", none⟩] "Hello!" _ _ written begun rfl rfl
    continued
  obtain ⟨stop, kept, dropped, stops, -, cut, length, -⟩ := cut _ _ rfl
  cases stops
  exact ⟨begun, continued, rest, whole, kept, cut, length⟩

end Colloquy.Transcript
