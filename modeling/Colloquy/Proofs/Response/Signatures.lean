import Colloquy.Proofs.Response.Acceptance
import Mathlib.Data.List.TakeWhile

/-! Signatures and the reasoning they sign. A signature is put on the last block of the
content, and so is reasoning that comes after it. What becomes of a signed block is told
by the events up to the first that opens another block; from there on it stays. -/
namespace Colloquy

/-- Whether the last block is still the last after an event, when it is a reasoning. -/
def Event.leavesOpen (event : Event) : Bool :=
  event.blockKind?.all (· == .reasoning)

/-- The events for which a reasoning that is the last block stays the last. -/
def onReasoning (events : List Event) : List Event :=
  events.takeWhile Event.leavesOpen

/-- The text of the reasoning that a history opened last, if that is its last block. -/
def lastReasoningText (history : List Event) : String :=
  String.join (((spans history).getLast?.map Span.events).getD [] |>.filterMap Event.reasoning?)

/-- A reasoning after further events that go on with it. -/
def ReasoningBlock.grown (block : ReasoningBlock) (events : List Event) : ReasoningBlock :=
  { block with
    text := block.text ++ String.join (events.filterMap Event.reasoning?)
    signature := (events.filterMap Event.signature?).getLast?.or block.signature }

theorem onReasoning_of_open {events : List Event} (opened : events.all Event.leavesOpen) :
    onReasoning events = events :=
  List.takeWhile_eq_self_iff.mpr (List.all_eq_true.mp opened)

theorem onReasoning_concat_of_open {events : List Event} (opened : events.all Event.leavesOpen)
    {event : Event} (ends : event.leavesOpen = false) : onReasoning (events ++ [event]) = events := by
  rw [onReasoning, List.takeWhile_append_of_pos (List.all_eq_true.mp opened)]
  simp [ends]

theorem onReasoning_concat_of_closed {events : List Event} (closed : ¬events.all Event.leavesOpen)
    (event : Event) : onReasoning (events ++ [event]) = onReasoning events := by
  unfold onReasoning
  rw [List.takeWhile_append, if_neg]
  intro whole
  have same := (List.takeWhile_prefix Event.leavesOpen).eq_of_length whole
  exact closed (List.all_eq_true.mpr (List.takeWhile_eq_self_iff.mp same))

namespace ReasoningBlock

@[simp] theorem grown_nil (block : ReasoningBlock) : block.grown [] = block := by
  simp [grown]

theorem grown_concat_reasoning (block : ReasoningBlock) (events : List Event) (text : String) :
    block.grown (events ++ [.reasoning text]) =
      { block.grown events with text := (block.grown events).text ++ text } := by
  simp [grown, Event.reasoning?, Event.signature?, String.append_assoc]

theorem grown_concat_signature (block : ReasoningBlock) (events : List Event) (signature : String) :
    block.grown (events ++ [.reasoningSignature signature]) =
      { block.grown events with signature := some signature } := by
  have silent : [Event.reasoningSignature signature].filterMap Event.reasoning? = [] := rfl
  simp [grown, silent, Event.signature?]

theorem grown_concat_quiet (block : ReasoningBlock) (events : List Event) {event : Event}
    (noReasoning : event.reasoning? = none) (noSignature : event.signature? = none) :
    block.grown (events ++ [event]) = block.grown events := by
  simp [grown, noReasoning, noSignature]

theorem join_eq_empty_iff (texts : List String) :
    String.join texts = "" ↔ ∀ text ∈ texts, text = "" := by
  induction texts with
  | nil => simp
  | cons text texts ih => rw [String.join_cons, String.append_eq_empty_iff, ih, List.forall_mem_cons]

/-- A signed reasoning stays as it is exactly when nothing is added to its text and the
last signature after it, if there is one, is the one that it has. -/
theorem grown_eq_self_iff {block : ReasoningBlock} {signature : String}
    (signed : block.signature = some signature) (events : List Event) :
    block.grown events = block ↔
      (∀ text ∈ events.filterMap Event.reasoning?, text = "") ∧
        ∀ last ∈ (events.filterMap Event.signature?).getLast?, last = signature := by
  obtain ⟨text, _, metadata⟩ := block
  subst signed
  rw [← join_eq_empty_iff, grown, ReasoningBlock.mk.injEq]
  refine and_congr ?_ ?_
  · exact String.append_eq_left_iff
  · cases (events.filterMap Event.signature?).getLast? <;> simp

end ReasoningBlock

namespace Builder

variable {b next : Builder}

theorem stays_pushed {content : List Block} {block : Block} {place : Nat}
    (stands : content[place]? = some block) (new : Block) : (content ++ [new])[place]? = some block := by
  obtain ⟨inside, -⟩ := List.getElem?_eq_some_iff.mp stands
  rwa [List.getElem?_append_left inside]

theorem stays_joined {blocks : List Block} {last block : Block} {place : Nat}
    (stands : (blocks ++ [last])[place]? = some block) (inside : place + 1 < (blocks ++ [last]).length)
    (changed : Block) : (blocks ++ [changed])[place]? = some block := by
  have before : place < blocks.length := by simpa using inside
  rw [List.getElem?_append_left before] at stands ⊢
  exact stands

/-- Once another block stands behind it, a reasoning is the same for good. -/
theorem Effect.reasoning_stays {event : Event} (effect : Effect b event next) {place : Nat}
    {block : ReasoningBlock} (inside : place + 1 < b.content.length)
    (stands : b.content[place]? = some (.reasoning block)) :
    place + 1 < next.content.length ∧ next.content[place]? = some (.reasoning block) := by
  have pushed (new : Block) : place + 1 < (b.content ++ [new]).length ∧
      (b.content ++ [new])[place]? = some (.reasoning block) :=
    ⟨by rw [List.length_append]; omega, stays_pushed stands new⟩
  have joined {blocks : List Block} {last : Block} (whole : b.content = blocks ++ [last])
      (changed : Block) : place + 1 < (blocks ++ [changed]).length ∧
      (blocks ++ [changed])[place]? = some (.reasoning block) := by
    rw [whole] at inside stands
    exact ⟨by simpa using inside, stays_joined stands inside changed⟩
  cases effect with
  | textJoined text blocks last whole => exact joined whole _
  | reasoningJoined text blocks last whole => exact joined whole _
  | signed signature blocks last whole => exact joined whole _
  | pieceJoined callId toolName argsDelta slot found =>
    refine ⟨by simpa using inside, ?_⟩
    rw [content_withContent, List.getElem?_modify, stands]
    simp [extendCall]
  | identified id modelId timestamp agrees => exact ⟨inside, stands⟩
  | finished told => exact ⟨inside, stands⟩
  | failed message => exact ⟨inside, stands⟩
  | _ => exact pushed _

/-- A reasoning that was the last block at some time, and the events taken since. While
none of them opens another block it is the last, and grows. -/
structure Standing (place : Nat) (block : ReasoningBlock) (events : List Event) (b : Builder) : Prop where
  coherent : b.Coherent
  opened : events.all Event.leavesOpen → ∃ blocks, blocks.length = place ∧
    b.content = blocks ++ [.reasoning (block.grown events)]
  closed : ¬events.all Event.leavesOpen → place + 1 < b.content.length ∧
    b.content[place]? = some (.reasoning (block.grown (onReasoning events)))

namespace Standing

variable {place : Nat} {block : ReasoningBlock} {events : List Event}

theorem getElem? (standing : Standing place block events b) :
    b.content[place]? = some (.reasoning (block.grown (onReasoning events))) := by
  by_cases all : events.all Event.leavesOpen
  · obtain ⟨blocks, size, stands⟩ := standing.opened all
    rw [stands, ← size, List.getElem?_concat_length, onReasoning_of_open all]
  · exact (standing.closed all).2

/-- Still the last block. -/
theorem goesOn (coherent : next.Coherent) (all : events.all Event.leavesOpen) {event : Event}
    (leaves : event.leavesOpen) (blocks : List Block) (size : blocks.length = place)
    (content_ : next.content = blocks ++ [.reasoning (block.grown (events ++ [event]))]) :
    Standing place block (events ++ [event]) next where
  coherent := coherent
  opened := fun _ => ⟨blocks, size, content_⟩
  closed := fun ends => absurd (by simp [all, leaves]) ends

/-- Another block was opened behind it. -/
theorem ends (standing : Standing place block events b) (coherent : next.Coherent)
    (all : events.all Event.leavesOpen) {event : Event} (ends : event.leavesOpen = false) (new : Block)
    (content_ : next.content = b.content ++ [new]) : Standing place block (events ++ [event]) next where
  coherent := coherent
  opened := by simp [ends]
  closed := by
    intro _
    obtain ⟨blocks, size, stands⟩ := standing.opened all
    have here : b.content[place]? = some (.reasoning (block.grown events)) := by
      rw [stands, ← size, List.getElem?_concat_length]
    rw [content_, onReasoning_concat_of_open all ends]
    refine ⟨?_, stays_pushed here new⟩
    rw [stands, List.length_append, List.length_append, size]
    simp

theorem effect_open (standing : Standing place block events b) (all : events.all Event.leavesOpen)
    {event : Event} (effect : Effect b event next) : Standing place block (events ++ [event]) next := by
  obtain ⟨blocks, size, stands⟩ := standing.opened all
  have coherent := standing.coherent.effect effect
  have last := getLast?_kinds_of_concat stands
  have quiet {event : Event} (leaves : event.leavesOpen) (noReasoning : event.reasoning? = none)
      (noSignature : event.signature? = none) (content_ : next.content = b.content) :
      Standing place block (events ++ [event]) next := by
    refine goesOn coherent all leaves blocks size ?_
    rw [content_, stands, block.grown_concat_quiet events noReasoning noSignature]
  cases effect with
  | textJoined text others other whole =>
    rw [getLast?_kinds_of_concat whole] at last
    cases last
  | reasoningJoined text others other whole =>
    obtain ⟨rfl, same⟩ := List.append_inj' (stands.symm.trans whole) rfl
    cases same
    exact goesOn coherent all rfl blocks size (by rw [block.grown_concat_reasoning]; rfl)
  | signed signature others other whole =>
    obtain ⟨rfl, same⟩ := List.append_inj' (stands.symm.trans whole) rfl
    cases same
    exact goesOn coherent all rfl blocks size (by rw [block.grown_concat_signature]; rfl)
  | reasoningOpened text apart early => exact absurd last apart
  | pieceJoined callId toolName argsDelta slot found =>
    -- Behind a reasoning there is only reasoning, so no call is known that a piece could join.
    have unknown := standing.coherent.find?_of_allReasoning
      (standing.coherent.allReasoning_of_last last rfl) callId
    rw [unknown] at found
    cases found
  | identified id modelId timestamp agrees => exact quiet rfl rfl rfl rfl
  | finished told => exact quiet rfl rfl rfl rfl
  | failed message => exact quiet rfl rfl rfl rfl
  | _ => exact standing.ends coherent all rfl _ rfl

theorem add (standing : Standing place block events b) {event : Event} (added : b.add event = .ok next) :
    Standing place block (events ++ [event]) next := by
  have effect := (effect_of_add added).2
  by_cases all : events.all Event.leavesOpen
  · exact standing.effect_open all effect
  · obtain ⟨inside, stands⟩ := standing.closed all
    have stays := effect.reasoning_stays inside stands
    rw [← onReasoning_concat_of_closed all event] at stays
    refine { coherent := standing.coherent.effect effect, opened := ?_, closed := fun _ => stays }
    intro opened
    rw [List.all_append, Bool.and_eq_true] at opened
    exact absurd opened.1 all

theorem addOpening (standing : Standing place block events b) (told : Opening) :
    Standing place block events (b.addOpening told) :=
  { standing with coherent := standing.coherent.addOpening told }

theorem feedAll (standing : Standing place block [] b) (later : List Input) :
    Standing place block (b.history later) (b.feedAll later) := by
  apply feedAll_preserves (motive := Standing place block) _ _ [] b standing later
  · intro events b event next standing added
    exact standing.add added
  · intro events b told standing
    exact standing.addOpening told

end Standing

theorem standing_of_last (coherent : b.Coherent) {blocks : List Block} {block : ReasoningBlock}
    (last : b.content = blocks ++ [.reasoning block]) : Standing blocks.length block [] b where
  coherent := coherent
  opened := fun _ => ⟨blocks, rfl, by rw [block.grown_nil]; exact last⟩
  closed := fun ends => absurd rfl ends

theorem text_of_last {history : List Event} (reads : Reads history b.content b.slots) {blocks : List Block}
    {block : ReasoningBlock} (last : b.content = blocks ++ [.reasoning block]) :
    block.text = lastReasoningText history := by
  have told := reads.content
  rw [last] at told
  obtain ⟨earlier, span, whole, -, own⟩ := Span.exists_last _ told.symm
  unfold Span.block? at own
  split at own
  all_goals cases own
  simp [lastReasoningText, whole]

/-- A signature that is taken stands on the reasoning that was streamed just before it.
That block goes on to grow with the events taken afterwards, until one of them opens
another block; so it keeps its text and its signature exactly when no text comes to it
before then, and no other signature is the last of those that do. -/
theorem signed_reasoning_stays_iff (before later : List Input) (signature : String) (signed : Builder)
    (taken : (empty.feedAll before).feed (.event (.reasoningSignature signature)) = (signed, none)) :
    ∃ blocks block,
      signed.content = blocks ++ [.reasoning block] ∧
      block.signature = some signature ∧
      block.text = lastReasoningText (empty.history before) ∧
      (signed.feedAll later).content[blocks.length]? =
        some (.reasoning (block.grown (onReasoning (signed.history later)))) ∧
      ((signed.feedAll later).content[blocks.length]? = some (.reasoning block) ↔
        (∀ text ∈ (onReasoning (signed.history later)).filterMap Event.reasoning?, text = "") ∧
        ∀ last ∈ ((onReasoning (signed.history later)).filterMap Event.signature?).getLast?,
          last = signature) := by
  have follows := follows_feedAll before
  have effect := (effect_of_add (add_of_feed taken)).2
  have coherent := follows.coherent.effect effect
  cases effect with
  | signed _ blocks last stands =>
    have standing := standing_of_last coherent (content_withContent _ _ _)
    have grown := (standing.feedAll later).getElem?
    have text := text_of_last follows.reads stands
    refine ⟨blocks, _, rfl, rfl, text, grown, ?_⟩
    rw [grown, Option.some.injEq, Block.reasoning.injEq]
    exact ReasoningBlock.grown_eq_self_iff rfl _

/-- A builder with one signed reasoning. -/
def signedReasoning : Builder :=
  empty.feedAll [.event (.reasoning "a"), .event (.reasoningSignature "s")]

/-- Behind a redacted reasoning a text has a block, and a signature, of its own. -/
theorem signed_reasoning_stays_before_redacted :
    (signedReasoning.feedAll [.event (.redactedReasoning "x"), .event (.reasoning "b"),
      .event (.reasoningSignature "t")]).content[0]? =
        some (.reasoning { text := "a", signature := some "s" }) := by
  obtain ⟨blocks, block, stands, -, -, -, stays⟩ :=
    signed_reasoning_stays_iff [.event (.reasoning "a")]
      [.event (.redactedReasoning "x"), .event (.reasoning "b"), .event (.reasoningSignature "t")]
      "s" signedReasoning rfl
  have whole : [] ++ [Block.reasoning { text := "a", signature := some "s" }] =
      blocks ++ [.reasoning block] := stands
  obtain ⟨rfl, same⟩ := List.append_inj' whole rfl
  cases same
  have none_ : onReasoning (signedReasoning.history [.event (.redactedReasoning "x"),
      .event (.reasoning "b"), .event (.reasoningSignature "t")]) = [] := rfl
  rw [none_] at stays
  exact stays.mpr ⟨by simp, by simp⟩

/-- Text that comes after a signature goes to the block that is signed, and the next
signature takes the place of the one before. -/
theorem signature_overwritten_on_longer_text :
    signedReasoning.content = [.reasoning { text := "a", signature := some "s" }] ∧
      (signedReasoning.steps [.event (.reasoning "b"), .event (.reasoningSignature "t")]).all Step.isTaken ∧
      (signedReasoning.feedAll [.event (.reasoning "b"), .event (.reasoningSignature "t")]).content =
        [.reasoning { text := "ab", signature := some "t" }] :=
  ⟨rfl, rfl, rfl⟩

end Builder

end Colloquy
