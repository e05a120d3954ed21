import Colloquy.Proofs.Response.Effects
import Colloquy.Proofs.Stream.Spans
import Colloquy.Response.Collect
import Colloquy.Response.Offer

/-! The content of a response against the history of the events it took. A history
is read by its spans; an event that is taken changes the content as it changes
the blocks of the spans. -/
namespace Colloquy

/-- The content is the blocks of the spans, and the slots are the places of the calls
in it. -/
structure Reads (history : List Event) (content : List Block) (slots : Dictionary Nat) : Prop where
  content : content.map some = (spans history).map (Span.block? history)
  slots : ∀ callId place, slots.find? callId = some place ↔
    (openers history)[place]?.bind Event.callId? = some callId

namespace Reads

variable {history : List Event} {content : List Block} {slots : Dictionary Nat}

theorem length_openers (reads : Reads history content slots) :
    (openers history).length = content.length := by
  have same := congrArg List.length reads.content
  simpa [openers] using same.symm

theorem unnamed_of_find?_none (reads : Reads history content slots) (callId : String)
    (absent : slots.find? callId = none) :
    ∀ opener ∈ openers history, opener.callId? ≠ some callId := by
  intro opener member named
  obtain ⟨place, bound, here⟩ := List.mem_iff_getElem.mp member
  have found := (reads.slots callId place).mpr (by
    rw [List.getElem?_eq_getElem bound, here]
    exact named)
  rw [absent] at found
  cases found

theorem opening (reads : Reads history content slots) (event : Event) (block : Block)
    (opens : Span.opens (spans history) event = true) (places : Dictionary Nat)
    (unnamed : ∀ callId, event.callId? = some callId →
      ∀ opener ∈ openers history, opener.callId? ≠ some callId)
    (told : Span.block? (history ++ [event]) { opener := event } = some block)
    (slots_ : ∀ callId place, places.find? callId = some place ↔
      (openers history ++ [event])[place]?.bind Event.callId? = some callId) :
    Reads (history ++ [event]) (content ++ [block]) places where
  content := by
    have kept : (spans history).map (Span.block? (history ++ [event])) = content.map some := by
      rw [Span.map_block?_concat history event (spans history) unnamed, reads.content]
    rw [spans_concat]
    exact (Span.map_block?_next_opens kept event block opens told).symm
  slots := by
    intro callId place
    rw [openers_concat, if_pos opens]
    exact slots_ callId place

theorem slots_concat_unnamed (reads : Reads history content slots) (event : Event)
    (unnamed : event.callId? = none) (callId : String) (place : Nat) :
    slots.find? callId = some place ↔
      (openers history ++ [event])[place]?.bind Event.callId? = some callId := by
  rw [reads.slots callId place]
  rcases Nat.lt_trichotomy place (openers history).length with inside | here | beyond
  · rw [List.getElem?_append_left inside]
  · subst here
    simp [unnamed]
  · rw [List.getElem?_eq_none (by omega), List.getElem?_eq_none (by simp; omega)]

theorem slots_concat_call (reads : Reads history content slots) (event : Event) (callId : String)
    (named : event.callId? = some callId) (absent : slots.find? callId = none) (other : String)
    (place : Nat) :
    (slots.insert callId content.length).find? other = some place ↔
      (openers history ++ [event])[place]?.bind Event.callId? = some other := by
  have size := reads.length_openers
  rw [Dictionary.find?_insert]
  rcases Nat.lt_trichotomy place (openers history).length with inside | here | beyond
  · rw [List.getElem?_append_left inside, ← reads.slots other place]
    split
    next same =>
      subst same
      simp only [absent, Option.some.injEq, reduceCtorEq, iff_false]
      omega
    next => rfl
  · subst here
    have before : slots.find? other ≠ some (openers history).length := by
      rw [Ne, reads.slots]
      simp
    rw [List.getElem?_concat_length, Option.bind_some, named, size]
    rw [size] at before
    grind
  · rw [List.getElem?_eq_none (by simp; omega)]
    have before : slots.find? other ≠ some place := by
      rw [Ne, reads.slots, List.getElem?_eq_none (by omega)]
      simp
    simp only [Option.bind_none, reduceCtorEq, iff_false]
    grind

theorem extending (reads : Reads history content slots) (event : Event) (blocks : List Block)
    (stays : Span.opens (spans history) event = false)
    (told : (Span.next (spans history) event).map (Span.block? (history ++ [event])) = blocks.map some) :
    Reads (history ++ [event]) blocks slots where
  content := by rw [spans_concat, told]
  slots := by
    intro callId place
    rw [openers_concat, if_neg (by simp [stays])]
    exact reads.slots callId place

theorem kept (reads : Reads history content slots) (event : Event) (unnamed : event.callId? = none) :
    (spans history).map (Span.block? (history ++ [event])) = content.map some := by
  rw [Span.map_block?_concat history event (spans history) (by simp [unnamed]), reads.content]

theorem quiet (reads : Reads history content slots) (event : Event)
    (stays : Span.opens (spans history) event = false) (unnamed : event.callId? = none)
    (noText : event.textDelta? = none) (noReasoning : event.reasoning? = none)
    (noSignature : event.signature? = none) :
    Reads (history ++ [event]) content slots := by
  apply reads.extending event content stays
  exact Span.map_block?_next_quiet (reads.kept event unnamed) event stays noText noReasoning noSignature

theorem telling (reads : Reads history content slots) (event : Event)
    (stays : Span.opens (spans history) event = false) (unnamed : event.callId? = none)
    (blocks : List Block) (block : Block) (last : content = blocks ++ [block]) :
    Reads (history ++ [event]) (blocks ++ [Span.tell event block]) slots := by
  apply reads.extending event _ stays
  subst last
  exact Span.map_block?_next_tells block (reads.kept event unnamed) event stays

end Reads

theorem Span.block?_concat_call (history : List Event) (callId toolName argsDelta : String) (s : Span)
    (named : s.opener.callId? = some callId) :
    s.block? (history ++ [.toolCallDelta callId toolName argsDelta]) =
      (s.block? history).map (Builder.extendCall toolName argsDelta) := by
  unfold block?
  cases opened : s.opener with
  | toolCall id name args =>
    simp only [opened, Event.callId?, Option.some.injEq] at named
    simp [named, callName_concat, callDeltas_concat, Event.toolName?, Event.argsDelta?,
      Builder.extendCall, String.append_assoc]
  | toolCallDelta id name delta =>
    simp only [opened, Event.callId?, Option.some.injEq] at named
    simp [named, streamedCall, callName_concat, callDeltas_concat, Event.toolName?, Event.argsDelta?,
      Builder.extendCall]
  | _ => simp [opened, Event.callId?] at named

/-- The span of a call is the one at its slot. -/
theorem Reads.slot_iff {history : List Event} {content : List Block} {slots : Dictionary Nat}
    (reads : Reads history content slots) (callId : String) (slot place : Nat) (span : Span)
    (found : slots.find? callId = some slot) (stands : (spans history)[place]? = some span) :
    span.opener.callId? = some callId ↔ slot = place := by
  have opener_ : (openers history)[place]? = some span.opener := by simp [openers, stands]
  have here := reads.slots callId place
  rw [found, opener_, Option.bind_some, Option.some.injEq] at here
  exact here.symm

/-- A further piece changes the block at the slot of its call and no other. -/
theorem Reads.continuing {history : List Event} {content : List Block} {slots : Dictionary Nat}
    (reads : Reads history content slots) (callId toolName argsDelta : String) (slot : Nat)
    (found : slots.find? callId = some slot) :
    Reads (history ++ [.toolCallDelta callId toolName argsDelta])
      (content.modify slot (Builder.extendCall toolName argsDelta)) slots := by
  have stays : Span.opens (spans history) (.toolCallDelta callId toolName argsDelta) = false := by
    rw [Bool.eq_false_iff, Ne, opens_toolCallDelta]
    intro absent
    obtain ⟨opener, at_, named⟩ := Option.bind_eq_some_iff.mp ((reads.slots callId slot).mp found)
    exact absent opener (List.mem_of_getElem? at_) named
  apply reads.extending _ _ stays
  rw [Span.next, if_neg (by simp [stays]), Span.map_block?_extendLast_quiet _ rfl rfl rfl]
  apply List.ext_getElem?
  intro place
  have same : content[place]?.map some = (spans history)[place]?.map (Span.block? history) := by
    simpa using congrArg (fun blocks => blocks[place]?) reads.content
  simp only [List.getElem?_map, List.getElem?_modify]
  cases at_ : (spans history)[place]? with
  | none =>
    rw [at_, Option.map_none, Option.map_eq_none_iff] at same
    simp [same]
  | some span =>
    rw [at_, Option.map_some] at same
    obtain ⟨block, stands, told⟩ := Option.map_eq_some_iff.mp same
    have owner := reads.slot_iff callId slot place span found at_
    rw [stands]
    by_cases chosen : slot = place
    · simp [Span.block?_concat_call _ _ _ _ _ (owner.mpr chosen), ← told, chosen]
    · have apart (id : String)
          (named : (Event.toolCallDelta callId toolName argsDelta).callId? = some id) :
          span.opener.callId? ≠ some id := by
        cases named
        exact fun same => chosen (owner.mp same)
      simp [Span.block?_concat _ _ _ apart, ← told, chosen]

namespace Builder

variable {history : List Event} {b next : Builder}

theorem reads_push (reads : Reads history b.content b.slots) (event : Event) (block : Block)
    (phase : Phase) (opens : Span.opens (spans history) event = true)
    (unnamed : event.callId? = none)
    (told : Span.block? (history ++ [event]) { opener := event } = some block) :
    Reads (history ++ [event]) (b.push block phase).content (b.push block phase).slots :=
  reads.opening event block opens b.slots (by simp [unnamed]) told
    (reads.slots_concat_unnamed event unnamed)

theorem any_kind_of_apart {kind : BlockKind} (apart : b.kinds.getLast? ≠ some kind) :
    (b.content.getLast?.any fun block => block.kind == kind) = false := by
  rw [getLast?_kinds] at apart
  cases last : b.content.getLast? with
  | none => rfl
  | some block => simpa [last] using apart

theorem reads_pushToolCall (reads : Reads history b.content b.slots) (event : Event)
    (callId toolName args : String) (opens : Span.opens (spans history) event = true)
    (named : event.callId? = some callId) (absent : b.slots.find? callId = none)
    (told : Span.block? (history ++ [event]) { opener := event } =
      some (.toolCall { callId, toolName, args })) :
    Reads (history ++ [event]) (b.pushToolCall callId toolName args).content
      (b.pushToolCall callId toolName args).slots := by
  apply reads.opening event _ opens _ _ told
  · exact reads.slots_concat_call event callId named absent
  · intro other same
    rw [named] at same
    cases same
    exact reads.unnamed_of_find?_none callId absent

theorem reads_effect (reads : Reads history b.content b.slots) {event : Event}
    (effect : Effect b event next) : Reads (history ++ [event]) next.content next.slots := by
  cases effect with
  | textJoined text blocks last stands =>
    have opens := Span.opens_textDelta reads.content.symm text
    rw [stands, List.getLast?_concat] at opens
    have joined := reads.telling (.textDelta text) opens rfl blocks _ stands
    simpa [Span.tell, Event.textDelta?] using joined
  | textOpened text apart =>
    have opens := Span.opens_textDelta reads.content.symm text
    rw [any_kind_of_apart apart] at opens
    apply reads_push reads _ _ _ opens rfl
    simp [Span.block?, Span.events, Event.textDelta?, Block.ofText]
  | reasoningJoined text blocks last stands =>
    have opens := Span.opens_reasoning reads.content.symm text
    rw [stands, List.getLast?_concat] at opens
    have joined := reads.telling (.reasoning text) opens rfl blocks _ stands
    simpa [Span.tell, Event.reasoning?, Event.signature?] using joined
  | reasoningOpened text apart early =>
    have opens := Span.opens_reasoning reads.content.symm text
    rw [any_kind_of_apart apart] at opens
    apply reads_push reads _ _ _ opens rfl
    simp [Span.block?, Span.events, Event.reasoning?, Event.signature?]
  | signed signature blocks last stands =>
    have signed := reads.telling (.reasoningSignature signature) rfl rfl blocks _ stands
    simpa [Span.tell, Event.reasoning?, Event.signature?] using signed
  | redacted data early => exact reads_push reads _ _ _ rfl rfl rfl
  | callOpened callId toolName args fresh =>
    obtain ⟨noName, noDeltas⟩ := call_of_unnamed history callId (reads.unnamed_of_find?_none callId fresh)
    apply reads_pushToolCall reads _ _ _ _ rfl rfl fresh
    simp [Span.block?, callName_concat, callDeltas_concat, Event.toolName?, Event.argsDelta?, noName,
      noDeltas]
  | pieceOpened callId toolName argsDelta fresh =>
    have absent := reads.unnamed_of_find?_none callId fresh
    obtain ⟨noName, noDeltas⟩ := call_of_unnamed history callId absent
    have opens := (opens_toolCallDelta history callId toolName argsDelta).mpr absent
    apply reads_pushToolCall reads _ _ _ _ opens rfl fresh
    simp [Span.block?, streamedCall, callName_concat, callDeltas_concat, Event.toolName?, Event.argsDelta?,
      noName, noDeltas]
  | pieceJoined callId toolName argsDelta slot found =>
    exact reads.continuing callId toolName argsDelta slot found
  | source cited => exact reads_push reads _ _ _ rfl rfl rfl
  | file mediaType data => exact reads_push reads _ _ _ rfl rfl rfl
  | identified id modelId timestamp agrees => exact reads.quiet _ rfl rfl rfl rfl rfl
  | finished told => exact reads.quiet _ rfl rfl rfl rfl rfl
  | failed message => exact reads.quiet _ rfl rfl rfl rfl rfl

theorem reads_add (reads : Reads history b.content b.slots) (event : Event)
    (added : b.add event = .ok next) : Reads (history ++ [event]) next.content next.slots :=
  reads_effect reads (effect_of_add added).2

theorem addAll_concat (b next : Builder) (events : List Event) (event : Event)
    (added : b.addAll events = .ok next) : b.addAll (events ++ [event]) = next.add event := by
  unfold addAll at added ⊢
  rw [List.foldlM_append, added]
  change (next.add event >>= fun last => pure last) = next.add event
  exact bind_pure _

/-- Draining goes on from the builder that has taken the first events. -/
theorem collect_append (events rest : List Event) (added : b.addAll events = .ok next) :
    b.collect (events ++ rest) = next.collect rest := by
  induction events generalizing b with
  | nil =>
    cases added
    rfl
  | cons event more ih =>
    rw [addAll, List.foldlM_cons] at added
    cases first : b.add event with
    | error rejection => rw [first] at added; cases added
    | ok later =>
      rw [first] at added
      rw [List.cons_append, collect, first]
      exact ih added

theorem collect_of_addAll (events : List Event) (added : b.addAll events = .ok next) :
    b.collect events = next.build.mapError .streamFailure := by
  rw [← List.append_nil events, collect_append events [] added, collect]

theorem addOpening_empty : empty.addOpening {} = empty := rfl

theorem reads_empty : Reads [] empty.content empty.slots where
  content := rfl
  slots := by
    intro callId place
    simp [empty, Dictionary.find?, Dictionary.empty, Entries.find?, openers, spans]

theorem reads_offerAll (reads : Reads history b.content b.slots) (events : List Event) :
    Reads (history ++ b.accepted events) (b.offerAll events).content (b.offerAll events).slots := by
  induction events generalizing history b with
  | nil => simpa [accepted, offerAll] using reads
  | cons event rest ih =>
    simp only [offerAll, List.foldl_cons, offer, accepted]
    cases added : b.add event with
    | ok next =>
      have grown := ih (reads_add reads event added)
      rwa [List.append_assoc, List.singleton_append] at grown
    | error rejection => exact ih reads

theorem reads_addAll (reads : Reads history b.content b.slots) (events : List Event)
    (added : b.addAll events = .ok next) :
    Reads (history ++ events) next.content next.slots := by
  induction events generalizing history b with
  | nil =>
    cases added
    simpa using reads
  | cons event rest ih =>
    rw [addAll, List.foldlM_cons] at added
    cases first : b.add event with
    | error rejection => rw [first] at added; cases added
    | ok later =>
      rw [first] at added
      have grown := ih (reads_add reads event first) added
      rwa [List.append_assoc, List.singleton_append] at grown

/-- Whatever is offered to a new builder, the content of its response has the block of
each span of what it accepts, in order and nothing else. -/
theorem content_offerAll (events : List Event) :
    (empty.offerAll events).response.content.map some =
      (spans (empty.accepted events)).map (Span.block? (empty.accepted events)) := by
  have reads := reads_offerAll reads_empty events
  rw [List.nil_append] at reads
  exact reads.content

end Builder

end Colloquy
