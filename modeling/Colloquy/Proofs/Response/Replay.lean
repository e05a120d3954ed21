import Colloquy.Proofs.Response.Session

/-! A rejected event leaves no trace. The builder is the same after it in every field,
and a run from which rejected events are left out goes on as it did with them. -/
namespace Colloquy.Builder

/-- Steps that are kept of a run, with all those among them that were taken. -/
structure Keeps (kept steps : List Step) : Prop where
  sublist : kept.Sublist steps
  taken : kept.filter Step.isTaken = steps.filter Step.isTaken

namespace Keeps

/-- Every step that was rejected can be left out. -/
theorem of_filter (steps : List Step) : Keeps (steps.filter Step.isTaken) steps where
  sublist := List.filter_sublist
  taken := by rw [List.filter_filter]; simp only [Bool.and_self]

theorem nil {kept : List Step} (keeps : Keeps kept []) : kept = [] :=
  List.sublist_nil.mp keeps.sublist

/-- The first step is kept, or it was rejected. -/
theorem cons {kept rest : List Step} {first : Step} (keeps : Keeps kept (first :: rest)) :
    (∃ later, kept = first :: later ∧ Keeps later rest) ∨
      first.isTaken = false ∧ Keeps kept rest := by
  rcases List.sublist_cons_iff.mp keeps.sublist with without | ⟨later, rfl, inside⟩
  · have taken := keeps.taken
    cases chosen : first.isTaken with
    | false =>
      rw [List.filter_cons_of_neg (by simp [chosen])] at taken
      exact Or.inr ⟨rfl, without, taken⟩
    | true =>
      -- What is kept of the rest has no more steps that were taken than the rest has.
      rw [List.filter_cons_of_pos chosen] at taken
      have fewer := (without.filter Step.isTaken).length_le
      rw [taken, List.length_cons] at fewer
      omega
  · refine Or.inl ⟨later, rfl, inside, ?_⟩
    have taken := keeps.taken
    cases chosen : first.isTaken <;> simpa [List.filter_cons, chosen] using taken

end Keeps

theorem steps_of_keeps (b : Builder) (inputs : List Input) (kept : List Step)
    (keeps : Keeps kept (b.steps inputs)) :
    b.steps (kept.map Step.input) = kept ∧ b.feedAll (kept.map Step.input) = b.feedAll inputs := by
  induction inputs generalizing b kept with
  | nil =>
    rw [keeps.nil]
    exact ⟨rfl, rfl⟩
  | cons input rest ih =>
    rcases keeps.cons with ⟨later, rfl, inside⟩ | ⟨rejected, inside⟩
    · obtain ⟨same, last⟩ := ih _ later inside
      exact ⟨congrArg _ same, last⟩
    · have unmoved : (b.feed input).1 = b := by
        have against : (b.feed input).2.isSome := by simpa [Step.isTaken] using rejected
        obtain ⟨rejection, stands⟩ := Option.isSome_iff_exists.mp against
        exact b.feed_rejected input rejection stands
      rw [feedAll_cons, unmoved]
      rw [unmoved] at inside
      exact ih b kept inside

/-- An event that is rejected, for whatever reason, leaves all fields of the builder as
they were. A run that is repeated without events that were rejected goes through the
steps that are kept: the same verdicts, and after each of them the same builder. -/
theorem rejected_leaves_no_trace (b : Builder) :
    (∀ event rejection left, (Update.add event).run b = .error rejection left → left = b) ∧
      ∀ inputs kept, Keeps kept (b.steps inputs) →
        b.steps (kept.map Step.input) = kept ∧
          b.feedAll (kept.map Step.input) = b.feedAll inputs := by
  refine ⟨?_, steps_of_keeps b⟩
  intro event rejection left ran
  rw [Update.run_add] at ran
  cases added : b.add event with
  | ok next => rw [added] at ran; cases ran
  | error cause => rw [added] at ran; cases ran; rfl

/-- A signature that signs nothing is rejected, and the text after it stands as if it
had come alone. -/
theorem unsigned_text_stands_alone :
    (Update.add (.reasoningSignature "s")).run empty = .error .noReasoningBlock empty ∧
      empty.feedAll [.event (.textDelta "a")] =
        empty.feedAll [.event (.reasoningSignature "s"), .event (.textDelta "a")] := by
  obtain ⟨-, replays⟩ := rejected_leaves_no_trace empty
  have keeps := Keeps.of_filter (empty.steps [.event (.reasoningSignature "s"), .event (.textDelta "a")])
  exact ⟨rfl, (replays _ _ keeps).2⟩

end Colloquy.Builder
