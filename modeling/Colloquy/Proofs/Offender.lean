import Colloquy.Conversation.Offender
import Mathlib.Data.List.Forall2

/-! Work that can fail, on one item after another. It is done when it is done on every
item, and otherwise it fails as it does on the first item on which it cannot be done. -/
namespace Colloquy

section

variable {α β ε : Type}

theorem map_ok_iff (f : α → β) (work : Except ε α) (value : β) :
    work.map f = .ok value ↔ ∃ inner, work = .ok inner ∧ f inner = value := by
  cases work <;> simp [Except.map]

theorem map_error_iff (f : α → β) (work : Except ε α) (failure : ε) :
    work.map f = .error failure ↔ work = .error failure := by
  cases work <;> simp [Except.map]

theorem exists_map_ok_iff (f : α → β) (work : Except ε α) :
    (∃ value, work.map f = .ok value) ↔ ∃ inner, work = .ok inner := by
  cases work <;> simp [Except.map]

theorem bind_ok_iff (work : Except ε α) (next : α → Except ε β) (value : β) :
    work >>= next = .ok value ↔ ∃ inner, work = .ok inner ∧ next inner = .ok value := by
  cases work <;> simp [bind, Except.bind]

theorem mapM_ok_iff (f : α → Except ε β) (items : List α) (values : List β) :
    items.mapM f = .ok values ↔ List.Forall₂ (fun item value => f item = .ok value) items values := by
  induction items generalizing values with
  | nil => simp [pure, Except.pure, eq_comm]
  | cons item rest ih =>
    simp only [List.mapM_cons, bind_ok_iff, ih, List.forall₂_cons_left_iff, pure, Except.pure,
      Except.ok.injEq]
    constructor
    · rintro ⟨value, first, others, later, rfl⟩
      exact ⟨value, others, first, later, rfl⟩
    · rintro ⟨value, others, first, later, rfl⟩
      exact ⟨value, first, others, later, rfl⟩

end

namespace FirstOffender

variable {α β : Type} {fine : α → Prop} {offender other : α} {items : List α}

theorem mem (first : FirstOffender fine items offender) : offender ∈ items := by
  obtain ⟨before, after, rfl, -⟩ := first
  simp

theorem offends (first : FirstOffender fine items offender) : ¬fine offender := by
  obtain ⟨-, -, -, -, offends⟩ := first
  exact offends

theorem nil_iff : FirstOffender fine [] offender ↔ False := by
  simp [FirstOffender]

theorem cons_iff (item : α) (rest : List α) : FirstOffender fine (item :: rest) offender ↔
    ¬fine item ∧ offender = item ∨ fine item ∧ FirstOffender fine rest offender := by
  constructor
  · rintro ⟨before, after, whole, passed, offends⟩
    cases before with
    | nil =>
      cases whole
      exact .inl ⟨offends, rfl⟩
    | cons first before =>
      cases whole
      obtain ⟨taken, others⟩ := List.forall_mem_cons.mp passed
      exact .inr ⟨taken, before, after, rfl, others, offends⟩
  · rintro (⟨offends, rfl⟩ | ⟨taken, before, after, rfl, passed, offends⟩)
    · exact ⟨[], rest, rfl, by simp, offends⟩
    · exact ⟨item :: before, after, rfl, List.forall_mem_cons.mpr ⟨taken, passed⟩, offends⟩

theorem map_iff (f : β → α) (items : List β) : FirstOffender fine (items.map f) offender ↔
    ∃ item, FirstOffender (fun item => fine (f item)) items item ∧ f item = offender := by
  induction items with
  | nil => simp [nil_iff]
  | cons item rest ih =>
    simp only [List.map_cons, cons_iff, ih]
    constructor
    · rintro (⟨offends, rfl⟩ | ⟨taken, later, found, rfl⟩)
      · exact ⟨item, .inl ⟨offends, rfl⟩, rfl⟩
      · exact ⟨later, .inr ⟨taken, found⟩, rfl⟩
    · rintro ⟨later, ⟨offends, rfl⟩ | ⟨taken, found⟩, rfl⟩
      · exact .inl ⟨offends, rfl⟩
      · exact .inr ⟨taken, later, found, rfl⟩

theorem append_iff (items more : List α) : FirstOffender fine (items ++ more) offender ↔
    FirstOffender fine items offender ∨ (∀ item ∈ items, fine item) ∧ FirstOffender fine more offender := by
  induction items with
  | nil => simp [nil_iff]
  | cons item rest ih =>
    simp only [List.cons_append, cons_iff, ih, List.forall_mem_cons]
    tauto

/-- The first offender among the parts of several items is the first one of the first item
that has one. -/
theorem flatMap_iff (parts : β → List α) (items : List β) : FirstOffender fine (items.flatMap parts) offender ↔
    ∃ item, FirstOffender (fun item => ∀ part ∈ parts item, fine part) items item ∧
      FirstOffender fine (parts item) offender := by
  induction items with
  | nil => simp [nil_iff]
  | cons item rest ih =>
    simp only [List.flatMap_cons, append_iff, ih, cons_iff]
    constructor
    · rintro (first | ⟨taken, later, found, within⟩)
      · obtain ⟨before, after, split, passed, offends⟩ := first
        have broken : ¬∀ part ∈ parts item, fine part := fun all => offends (all offender (by simp [split]))
        exact ⟨item, .inl ⟨broken, rfl⟩, before, after, split, passed, offends⟩
      · exact ⟨later, .inr ⟨taken, found⟩, within⟩
    · rintro ⟨later, ⟨-, rfl⟩ | ⟨taken, found⟩, within⟩
      · exact .inl within
      · exact .inr ⟨taken, later, found, within⟩

theorem unique (first : FirstOffender fine items offender) (second : FirstOffender fine items other) :
    offender = other := by
  induction items with
  | nil => exact (nil_iff.mp first).elim
  | cons item rest ih =>
    rcases (cons_iff item rest).mp first with ⟨offends, rfl⟩ | ⟨taken, first⟩
    · rcases (cons_iff offender rest).mp second with ⟨-, rfl⟩ | ⟨taken, -⟩
      · rfl
      · exact absurd taken offends
    · rcases (cons_iff item rest).mp second with ⟨offends, -⟩ | ⟨-, second⟩
      · exact absurd taken offends
      · exact ih first second

end FirstOffender

section

variable {α β ε : Type} {work : α → Except ε β} {fine : α → Prop}

theorem exists_mapM_ok_iff (done : ∀ item, (∃ value, work item = .ok value) ↔ fine item) (items : List α) :
    (∃ values, items.mapM work = .ok values) ↔ ∀ item ∈ items, fine item := by
  simp only [mapM_ok_iff, ← done]
  induction items with
  | nil => simp
  | cons item rest ih =>
    rw [List.forall_mem_cons, ← ih]
    constructor
    · rintro ⟨values, worked⟩
      obtain ⟨value, others, first, later, rfl⟩ := List.forall₂_cons_left_iff.mp worked
      exact ⟨⟨value, first⟩, others, later⟩
    · rintro ⟨⟨value, first⟩, values, later⟩
      exact ⟨value :: values, .cons first later⟩

theorem mapM_error_iff (done : ∀ item, (∃ value, work item = .ok value) ↔ fine item) (items : List α)
    (failure : ε) : items.mapM work = .error failure ↔
      ∃ offender, FirstOffender fine items offender ∧ work offender = .error failure := by
  induction items with
  | nil => simp [FirstOffender.nil_iff, pure, Except.pure]
  | cons item rest ih =>
    rw [List.mapM_cons]
    simp only [FirstOffender.cons_iff]
    cases worked : work item with
    | error cause =>
      have broken : ¬fine item := by simp [← done, worked]
      simp [broken, worked, bind, Except.bind]
    | ok value =>
      have taken : fine item := (done item).mp ⟨value, worked⟩
      change (rest.mapM work >>= fun others => pure (value :: others)) = .error failure ↔ _
      simp only [taken, not_true_eq_false, false_and, true_and, false_or, ← ih]
      exact map_error_iff (value :: ·) (rest.mapM work) failure

end

end Colloquy
