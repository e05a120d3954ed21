import Colloquy.Proofs.Response.Effects
import Colloquy.Proofs.Response.Session
import Mathlib.Data.List.Chain

/-! What the fields of a builder say of each other, after any run. The slots are the
index of the calls, pieces that belong together stand in one block, reasoning comes
first, and the phase tells how the content ends. -/
namespace Colloquy

def BlockKind.isReasoning : BlockKind → Bool
  | .reasoning => true
  | .redactedReasoning => true
  | _ => false

/-- Two texts that follow each other would be one block, and so would two reasonings. -/
def BlockKind.Apart (kind next : BlockKind) : Prop :=
  kind = next → kind ≠ .text ∧ kind ≠ .reasoning

def Block.callId? : Block → Option String
  | .toolCall call => some call.callId
  | _ => none

/-- Content that a phase can stand beside, by the kinds of its blocks. -/
def Phase.Agrees : Phase → List BlockKind → Prop
  | .none, kinds => kinds = []
  | .reasoning, kinds => kinds ≠ [] ∧ ∀ kind ∈ kinds, kind.isReasoning
  | .text, kinds => kinds.getLast? = some .text
  | .source, kinds => kinds.getLast? = some .source
  | .file, kinds => kinds.getLast? = some .file
  | .toolCall, kinds => .toolCall ∈ kinds
  | .finished, _ => True

namespace Builder

def callIds (b : Builder) : List (Option String) :=
  b.content.map Block.callId?

/-- A builder whose fields agree, in the form that every event preserves. -/
structure Coherent (b : Builder) : Prop where
  slots : ∀ callId place, b.slots.find? callId = some place ↔ b.callIds[place]? = some (some callId)
  separated : b.kinds.IsChain BlockKind.Apart
  reasoningFirst : b.kinds.Pairwise fun first second => second.isReasoning → first.isReasoning
  phase : b.phase.Agrees b.kinds

/-- A builder whose fields agree, field by field. -/
structure WellFormed (b : Builder) : Prop where
  slots : ∀ callId place, b.slots.find? callId = some place ↔
    ∃ call, b.content[place]? = some (.toolCall call) ∧ call.callId = callId
  inRange : ∀ callId place, b.slots.find? callId = some place → place < b.content.length
  distinct : (b.response.toolCalls.map (·.callId)).Nodup
  separated : (b.content.map Block.kind).IsChain fun kind next =>
    ¬(kind = .text ∧ next = .text) ∧ ¬(kind = .reasoning ∧ next = .reasoning)
  reasoningFirst : b.content.filter (·.kind.isReasoning) <+: b.content
  none_iff : b.phase = .none ↔ b.phase ≠ .finished ∧ b.content = []
  reasoning_iff : b.phase = .reasoning ↔
    b.phase ≠ .finished ∧ b.content ≠ [] ∧ ∀ block ∈ b.content, block.kind.isReasoning
  text : b.phase = .text → b.content.getLast?.map Block.kind = some .text
  source : b.phase = .source → b.content.getLast?.map Block.kind = some .source
  file : b.phase = .file → b.content.getLast?.map Block.kind = some .file
  toolCall : b.phase = .toolCall → ∃ call, .toolCall call ∈ b.content

namespace Coherent

variable {b next : Builder}

theorem allReasoning_of_early (coherent : b.Coherent) (early : b.Early) :
    ∀ kind ∈ b.kinds, kind.isReasoning := by
  have agrees := coherent.phase
  rcases early with none_ | reasoning_
  · rw [none_] at agrees
    have empty : b.kinds = [] := agrees
    simp [empty]
  · rw [reasoning_] at agrees
    exact agrees.2

theorem allReasoning_of_last (coherent : b.Coherent) {kind : BlockKind}
    (last : b.kinds.getLast? = some kind) (reasoning_ : kind.isReasoning) :
    ∀ kind ∈ b.kinds, kind.isReasoning := by
  obtain ⟨before, stands⟩ := List.getLast?_eq_some_iff.mp last
  have ordered := coherent.reasoningFirst
  rw [stands] at ordered ⊢
  intro earlier member
  rcases List.mem_append.mp member with inside | here
  · exact (List.pairwise_append.mp ordered).2.2 earlier inside kind (by simp) reasoning_
  · rwa [List.mem_singleton.mp here]

/-- No call is known while there is only reasoning. -/
theorem find?_of_allReasoning (coherent : b.Coherent) (all : ∀ kind ∈ b.kinds, kind.isReasoning)
    (callId : String) : b.slots.find? callId = none := by
  cases found : b.slots.find? callId with
  | none => rfl
  | some place =>
    have stands := (coherent.slots callId place).mp found
    obtain ⟨block, inside, named⟩ := List.mem_map.mp (List.mem_of_getElem? stands)
    have reasoning_ := all block.kind (List.mem_map_of_mem inside)
    cases block with
    | toolCall call => cases reasoning_
    | _ => cases named

theorem toolCall_mem_kinds (coherent : b.Coherent) {callId : String} {slot : Nat}
    (found : b.slots.find? callId = some slot) : .toolCall ∈ b.kinds := by
  have stands := (coherent.slots callId slot).mp found
  obtain ⟨block, inside, named⟩ := List.mem_map.mp (List.mem_of_getElem? stands)
  cases block with
  | toolCall call => exact List.mem_map_of_mem inside
  | _ => cases named

theorem reasoning_iff (coherent : b.Coherent) : b.phase = .reasoning ↔
    b.phase ≠ .finished ∧ b.kinds ≠ [] ∧ ∀ kind ∈ b.kinds, kind.isReasoning := by
  have agrees := coherent.phase
  constructor
  · intro reasoning_
    rw [reasoning_] at agrees ⊢
    exact ⟨by simp, agrees⟩
  · rintro ⟨unfinished, some_, all⟩
    have other {kind : BlockKind} (answer : kind.isReasoning = false) (member : kind ∈ b.kinds) :
        False := by
      simpa [answer] using all kind member
    cases phase_ : b.phase with
    | reasoning => rfl
    | none => rw [phase_] at agrees; exact absurd agrees some_
    | finished => exact absurd phase_ unfinished
    | toolCall => rw [phase_] at agrees; exact (other rfl agrees).elim
    | _ => rw [phase_] at agrees; exact (other rfl (List.mem_of_getLast? agrees)).elim

theorem none_iff (coherent : b.Coherent) : b.phase = .none ↔ b.phase ≠ .finished ∧ b.kinds = [] := by
  have agrees := coherent.phase
  constructor
  · intro none_
    rw [none_] at agrees ⊢
    exact ⟨by simp, agrees⟩
  · rintro ⟨unfinished, empty⟩
    cases phase_ : b.phase with
    | none => rfl
    | finished => exact absurd phase_ unfinished
    | reasoning => rw [phase_, empty] at agrees; exact absurd rfl agrees.1
    | _ => rw [phase_, empty] at agrees; cases agrees

/-- An event that changes what blocks say and not which blocks there are. -/
theorem kept (coherent : b.Coherent) (slots : next.slots = b.slots) (kinds : next.kinds = b.kinds)
    (callIds : next.callIds = b.callIds) (agrees : next.phase.Agrees b.kinds) : next.Coherent where
  slots := by rw [slots, callIds]; exact coherent.slots
  separated := by rw [kinds]; exact coherent.separated
  reasoningFirst := by rw [kinds]; exact coherent.reasoningFirst
  phase := by rw [kinds]; exact agrees

theorem joined (coherent : b.Coherent) (blocks : List Block) (last changed : Block) (phase : Phase)
    (stands : b.content = blocks ++ [last]) (kind : changed.kind = last.kind)
    (callId : changed.callId? = last.callId?) (agrees : phase.Agrees b.kinds) :
    (b.withContent (blocks ++ [changed]) phase).Coherent := by
  refine coherent.kept rfl ?_ ?_ agrees
  · simp [Builder.kinds, stands, kind]
  · simp [Builder.callIds, stands, callId]

/-- An event that opens a block after the others. -/
theorem grown (coherent : b.Coherent) (block : Block) (kinds : next.kinds = b.kinds ++ [block.kind])
    (slots : ∀ callId place, next.slots.find? callId = some place ↔
      next.callIds[place]? = some (some callId))
    (apart : b.kinds.getLast? = some block.kind → block.kind ≠ .text ∧ block.kind ≠ .reasoning)
    (early : block.kind.isReasoning → ∀ kind ∈ b.kinds, kind.isReasoning)
    (agrees : next.phase.Agrees (b.kinds ++ [block.kind])) : next.Coherent where
  slots := slots
  separated := by
    rw [kinds]
    apply coherent.separated.append (List.isChain_singleton _)
    intro kind last other head same
    cases head
    subst same
    exact apart last
  reasoningFirst := by
    rw [kinds]
    refine List.pairwise_append.mpr ⟨coherent.reasoningFirst, List.pairwise_singleton _ _, ?_⟩
    intro kind member other same reasoning_
    rw [List.mem_singleton.mp same] at reasoning_
    exact early reasoning_ kind member
  phase := by rw [kinds]; exact agrees

theorem getElem?_concat_iff {α : Type} (values : List α) (last value : α) (place : Nat) :
    (values ++ [last])[place]? = some value ↔
      values[place]? = some value ∨ place = values.length ∧ last = value := by
  rcases Nat.lt_trichotomy place values.length with inside | end_ | beyond
  · simp [List.getElem?_append_left inside, Nat.ne_of_lt inside]
  · simp [end_]
  · have outside : (values ++ [last])[place]? = none :=
      List.getElem?_eq_none (by rw [List.length_append]; exact beyond)
    rw [outside, List.getElem?_eq_none (Nat.le_of_lt beyond)]
    simp [Nat.ne_of_gt beyond]

theorem pushed (coherent : b.Coherent) (block : Block) (phase : Phase) (plain : block.callId? = none)
    (apart : b.kinds.getLast? = some block.kind → block.kind ≠ .text ∧ block.kind ≠ .reasoning)
    (early : block.kind.isReasoning → ∀ kind ∈ b.kinds, kind.isReasoning)
    (agrees : phase.Agrees (b.kinds ++ [block.kind])) : (b.push block phase).Coherent := by
  apply coherent.grown block _ _ apart early agrees
  · simp [Builder.kinds]
  · intro callId place
    have callIds : (b.push block phase).callIds = b.callIds ++ [none] := by simp [Builder.callIds, plain]
    rw [callIds, getElem?_concat_iff, slots_push, coherent.slots callId place]
    simp

theorem pushedReasoning (coherent : b.Coherent) (block : Block) (plain : block.callId? = none)
    (reasoning_ : block.kind.isReasoning) (early : b.Early)
    (apart : b.kinds.getLast? = some block.kind → block.kind ≠ .text ∧ block.kind ≠ .reasoning) :
    (b.push block .reasoning).Coherent := by
  have all := coherent.allReasoning_of_early early
  refine coherent.pushed block .reasoning plain apart (fun _ => all) ⟨by simp, ?_⟩
  intro kind member
  rcases List.mem_append.mp member with before | here
  · exact all kind before
  · rwa [List.mem_singleton.mp here]

theorem pushedAnswer (coherent : b.Coherent) (block : Block) (phase : Phase) (plain : block.callId? = none)
    (answer : block.kind.isReasoning = false)
    (apart : b.kinds.getLast? = some block.kind → block.kind ≠ .text ∧ block.kind ≠ .reasoning)
    (agrees : phase.Agrees (b.kinds ++ [block.kind])) : (b.push block phase).Coherent :=
  coherent.pushed block phase plain apart (by simp [answer]) agrees

theorem pushedCall (coherent : b.Coherent) (callId toolName args : String)
    (fresh : b.slots.find? callId = none) : (b.pushToolCall callId toolName args).Coherent := by
  apply coherent.grown (.toolCall { callId, toolName, args })
  · simp [Builder.kinds, pushToolCall, push, withContent, content]
  · intro other place
    have callIds : (b.pushToolCall callId toolName args).callIds = b.callIds ++ [some callId] := by
      simp [Builder.callIds, pushToolCall, push, withContent, content, Block.callId?]
    have slots : (b.pushToolCall callId toolName args).slots = b.slots.insert callId b.content.length := rfl
    have length : b.callIds.length = b.content.length := List.length_map _
    rw [callIds, getElem?_concat_iff, slots, Dictionary.find?_insert, ← coherent.slots other place, length]
    by_cases same : other = callId
    · simp [same, fresh, eq_comm]
    · simp [same, Ne.symm same]
  · simp [Block.kind]
  · simp [Block.kind, BlockKind.isReasoning]
  · exact List.mem_append_right _ (List.mem_singleton_self _)

theorem extended (coherent : b.Coherent) (toolName argsDelta : String) (slot : Nat) (callId : String)
    (found : b.slots.find? callId = some slot) :
    (b.withContent (b.content.modify slot (extendCall toolName argsDelta)) .toolCall).Coherent := by
  refine coherent.kept rfl ?_ ?_ (coherent.toolCall_mem_kinds found)
  · exact map_modify_extendCall Block.kind kind_extendCall _ _
  · exact map_modify_extendCall Block.callId? (by rintro (_ | _ | _ | _ | _ | _ | _ | _) <;> rfl) _ _

theorem effect (coherent : b.Coherent) {event : Event} (effect : Effect b event next) :
    next.Coherent := by
  cases effect with
  | textJoined text blocks last stands =>
    exact coherent.joined blocks _ _ .text stands rfl rfl (getLast?_kinds_of_concat stands)
  | textOpened text apart =>
    exact coherent.pushedAnswer _ .text rfl rfl (fun last => absurd last apart) List.getLast?_concat
  | reasoningJoined text blocks last stands =>
    have kind := getLast?_kinds_of_concat stands
    have some_ : b.kinds ≠ [] := by rintro empty; simp [empty] at kind
    have all := coherent.allReasoning_of_last kind rfl
    exact coherent.joined blocks _ _ .reasoning stands rfl rfl ⟨some_, all⟩
  | reasoningOpened text apart early =>
    exact coherent.pushedReasoning _ rfl rfl early fun last => absurd last apart
  | signed signature blocks last stands =>
    exact coherent.joined blocks _ _ b.phase stands rfl rfl coherent.phase
  | redacted data early =>
    exact coherent.pushedReasoning _ rfl rfl early fun _ => by simp [Block.kind]
  | callOpened callId toolName args fresh => exact coherent.pushedCall callId toolName args fresh
  | pieceOpened callId toolName argsDelta fresh => exact coherent.pushedCall callId toolName argsDelta fresh
  | pieceJoined callId toolName argsDelta slot found =>
    exact coherent.extended toolName argsDelta slot callId found
  | source cited =>
    exact coherent.pushedAnswer _ .source rfl rfl (by simp [Block.kind]) List.getLast?_concat
  | file mediaType data =>
    exact coherent.pushedAnswer _ .file rfl rfl (by simp [Block.kind]) List.getLast?_concat
  | identified id modelId timestamp agrees => exact coherent.kept rfl rfl rfl coherent.phase
  | finished told => exact coherent.kept rfl rfl rfl trivial
  | failed message => exact coherent.kept rfl rfl rfl coherent.phase

theorem add (coherent : b.Coherent) {event : Event} (added : b.add event = .ok next) : next.Coherent :=
  coherent.effect (effect_of_add added).2

theorem addOpening (coherent : b.Coherent) (opening : Opening) : (b.addOpening opening).Coherent :=
  coherent.kept rfl rfl rfl coherent.phase

theorem slots_iff (coherent : b.Coherent) (callId : String) (place : Nat) :
    b.slots.find? callId = some place ↔
      ∃ call, b.content[place]? = some (.toolCall call) ∧ call.callId = callId := by
  rw [coherent.slots, Builder.callIds, List.getElem?_map, Option.map_eq_some_iff]
  constructor
  · rintro ⟨block, stands, named⟩
    cases block with
    | toolCall call => exact ⟨call, stands, Option.some.inj named⟩
    | _ => cases named
  · rintro ⟨call, stands, rfl⟩
    exact ⟨.toolCall call, stands, rfl⟩

theorem distinct (coherent : b.Coherent) : (b.response.toolCalls.map (·.callId)).Nodup := by
  have named : b.response.toolCalls.map (·.callId) = b.content.filterMap Block.callId? := by
    rw [Response.toolCalls, List.map_filterMap]
    apply List.filterMap_congr
    intro block _
    cases block <;> rfl
  rw [named, List.Nodup, List.pairwise_filterMap, List.pairwise_iff_getElem]
  intro first second firstInside secondInside before callId here other there same
  have slot (place : Nat) (inside : place < b.content.length)
      (stands : b.content[place].callId? = some callId) : b.slots.find? callId = some place := by
    rw [coherent.slots, Builder.callIds, List.getElem?_map, List.getElem?_eq_getElem inside,
      Option.map_some, stands]
  -- Two blocks of one call would both be at the one place that its slot tells.
  have equal := (slot first firstInside here).symm.trans (slot second secondInside (same ▸ there))
  exact absurd (Option.some.inj equal) (Nat.ne_of_lt before)

theorem filter_isPrefix {α : Type} (p : α → Bool) (values : List α)
    (ordered : values.Pairwise fun first second => p second → p first) : values.filter p <+: values := by
  induction values with
  | nil => exact List.nil_prefix
  | cons first rest ih =>
    obtain ⟨least, restOrdered⟩ := List.pairwise_cons.mp ordered
    cases chosen : p first with
    | true =>
      rw [List.filter_cons_of_pos chosen]
      exact List.cons_prefix_cons.mpr ⟨rfl, ih restOrdered⟩
    | false =>
      have none_ : (first :: rest).filter p = [] := by
        rw [List.filter_eq_nil_iff]
        intro value member
        rcases List.mem_cons.mp member with rfl | later
        · simp [chosen]
        · intro taken
          simpa [chosen] using least value later taken
      rw [none_]
      exact List.nil_prefix

theorem wellFormed (coherent : b.Coherent) : b.WellFormed where
  slots := coherent.slots_iff
  inRange := by
    intro callId place found
    obtain ⟨call, stands, -⟩ := (coherent.slots_iff callId place).mp found
    exact (List.getElem?_eq_some_iff.mp stands).1
  distinct := coherent.distinct
  separated := by
    apply coherent.separated.imp
    intro kind next apart
    refine ⟨?_, ?_⟩
    · rintro ⟨rfl, rfl⟩
      exact (apart rfl).1 rfl
    · rintro ⟨rfl, rfl⟩
      exact (apart rfl).2 rfl
  reasoningFirst := filter_isPrefix _ _ (List.pairwise_map.mp coherent.reasoningFirst)
  none_iff := by rw [coherent.none_iff, Builder.kinds, List.map_eq_nil_iff]
  reasoning_iff := by
    rw [coherent.reasoning_iff, Builder.kinds, Ne, Ne, List.map_eq_nil_iff, List.forall_mem_map]
  text := fun phase => by simpa [phase, Phase.Agrees, getLast?_kinds] using coherent.phase
  source := fun phase => by simpa [phase, Phase.Agrees, getLast?_kinds] using coherent.phase
  file := fun phase => by simpa [phase, Phase.Agrees, getLast?_kinds] using coherent.phase
  toolCall := by
    intro phase
    have agrees := coherent.phase
    rw [phase] at agrees
    obtain ⟨block, member, kind⟩ := List.mem_map.mp agrees
    cases block with
    | toolCall call => exact ⟨call, member⟩
    | _ => cases kind

end Coherent

theorem coherent_empty : empty.Coherent where
  slots := by
    intro callId place
    simp [callIds, empty, content, Dictionary.find?, Dictionary.empty, Entries.find?]
  separated := List.IsChain.nil
  reasoningFirst := List.Pairwise.nil
  phase := rfl

theorem coherent_feedAll (inputs : List Input) : (empty.feedAll inputs).Coherent := by
  apply feedAll_preserves (motive := fun _ b => b.Coherent) _ _ [] empty coherent_empty
  · intro history b event next coherent added
    exact coherent.add added
  · intro history b told coherent
    exact coherent.addOpening told

/-- Whatever a new builder is fed, taken or rejected, its fields agree. -/
theorem wellFormed_feedAll (inputs : List Input) : (empty.feedAll inputs).WellFormed :=
  (coherent_feedAll inputs).wellFormed

end Builder

end Colloquy
