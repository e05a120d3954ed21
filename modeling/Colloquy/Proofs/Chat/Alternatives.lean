import Colloquy.Chat.Alternatives
import Colloquy.Proofs.Json.Survival
import Colloquy.Proofs.Text.Utf8

/-! Parallel arrays of any lengths become one entry for each token. The
alternatives of a token are in strict order, which leaves one list for all the
orders in which a map can be met. -/
namespace Colloquy.Chat

theorem bits_of_sign (x : Float) :
    x.toBits.toNat = magnitude x + (if isNegative x = true then UInt64.size / 2 else 0) ∧
      magnitude x < UInt64.size / 2 := by
  have bound : x.toBits.toNat < 18446744073709551616 := x.toBits.toNat_lt
  have half : UInt64.size / 2 = 9223372036854775808 := rfl
  simp only [isNegative, magnitude, half, ge_iff_le, decide_eq_true_eq]
  split <;> omega

theorem totalRank_eq (x : Float) :
    totalRank x = if isNegative x = true then -1 - (magnitude x : Int) else magnitude x := by
  obtain ⟨bits, small⟩ := bits_of_sign x
  simp only [totalRank]
  cases negative : isNegative x with
  | false =>
    rw [negative, if_neg Bool.false_ne_true, Nat.add_zero] at bits
    rw [if_neg Bool.false_ne_true, if_pos (by omega), bits]
  | true =>
    rw [negative, if_pos rfl] at bits
    rw [if_pos rfl, if_neg (by omega), bits]
    omega

theorem totalRank_lt_iff (x y : Float) : totalRank x < totalRank y ↔ Beneath x y := by
  rw [totalRank_eq, totalRank_eq]
  constructor
  case mp =>
    intro less
    split at less
    next first =>
      split at less
      next second => exact .negative first second (by omega)
      next second => exact .signs first (Bool.eq_false_of_not_eq_true second)
    next first =>
      split at less
      next second => omega
      next second =>
        exact .positive (Bool.eq_false_of_not_eq_true first) (Bool.eq_false_of_not_eq_true second) (by omega)
  case mpr =>
    rintro (⟨first, second⟩ | ⟨first, second, smaller⟩ | ⟨first, second, greater⟩) <;>
      simp only [first, second, Bool.false_eq_true, if_true, if_false] <;> omega

theorem totalRank_eq_iff (x y : Float) : totalRank x = totalRank y ↔ x.toBits = y.toBits := by
  obtain ⟨bitsX, smallX⟩ := bits_of_sign x
  obtain ⟨bitsY, smallY⟩ := bits_of_sign y
  rw [totalRank_eq, totalRank_eq, ← UInt64.toNat_inj, bitsX, bitsY]
  split <;> split <;> omega

theorem ranksBefore_iff (a b : TokenLogProb) : ranksBefore a b = true ↔
    totalRank b.logProb < totalRank a.logProb ∨ totalRank a.logProb = totalRank b.logProb ∧ a.token ≤ b.token := by
  simp [ranksBefore]

theorem ranksBefore_trans (a b c : TokenLogProb) (first : ranksBefore a b = true) (second : ranksBefore b c = true) :
    ranksBefore a c = true := by
  rw [ranksBefore_iff] at first second ⊢
  obtain less | ⟨same, texts⟩ := first
  case inl => exact .inl (by omega)
  case inr =>
    obtain less | ⟨alike, others⟩ := second
    case inl => exact .inl (by omega)
    case inr => exact .inr ⟨same.trans alike, le_trans texts others⟩

theorem ranksBefore_total (a b : TokenLogProb) : (ranksBefore a b || ranksBefore b a) = true := by
  rw [Bool.or_eq_true, ranksBefore_iff, ranksBefore_iff]
  obtain less | same | greater := lt_trichotomy (totalRank a.logProb) (totalRank b.logProb)
  case inl => exact .inr (.inl less)
  case inr.inl =>
    exact (le_total a.token b.token).imp (fun texts => .inr ⟨same, texts⟩) fun texts => .inr ⟨same.symm, texts⟩
  case inr.inr => exact .inl (.inl greater)

theorem precedes_of_ranksBefore {a b : TokenLogProb} (before : ranksBefore a b = true)
    (different : a.token ≠ b.token) : Precedes a b := by
  obtain less | ⟨same, texts⟩ := (ranksBefore_iff a b).mp before
  case inl => exact .inl ((totalRank_lt_iff _ _).mp less)
  case inr =>
    exact .inr ⟨(totalRank_eq_iff _ _).mp same, Text.Utf8.encode_lt_of_lt (lt_of_le_of_ne texts different)⟩

theorem Precedes.asymm {a b : TokenLogProb} (before : Precedes a b) : ¬ Precedes b a := by
  intro after
  unfold Precedes at before after
  rw [← totalRank_lt_iff, ← totalRank_eq_iff] at before after
  obtain less | ⟨same, texts⟩ := before
  case inl => omega
  case inr =>
    obtain less | ⟨alike, others⟩ := after
    case inl => omega
    case inr => exact List.lt_asymm texts others

/-- A list in strict order is settled by what it holds. -/
theorem eq_of_precedes {top other : List TokenLogProb} (same : top.Perm other)
    (ordered : top.Pairwise Precedes) (otherOrdered : other.Pairwise Precedes) : top = other :=
  same.eq_of_pairwise (fun _ _ _ _ before after => absurd after before.asymm) ordered otherOrdered

theorem rank_perm (entries : List (String × Float)) :
    (rank entries).Perm (entries.map fun entry => TokenLogProb.mk entry.1 entry.2) :=
  List.mergeSort_perm _ _

theorem rank_complete (entries : List (String × Float)) :
    ((rank entries).map fun alternative => (alternative.token, alternative.logProb)).Perm entries := by
  have held := (rank_perm entries).map fun alternative => (alternative.token, alternative.logProb)
  rw [List.map_map] at held
  exact held.trans (.of_eq (List.map_id entries))

theorem rank_precedes {entries : List (String × Float)} (distinct : (entries.map Prod.fst).Nodup) :
    (rank entries).Pairwise Precedes := by
  have sorted : (rank entries).Pairwise fun a b => ranksBefore a b = true :=
    List.pairwise_mergeSort ranksBefore_trans ranksBefore_total _
  have tokens : ((rank entries).map TokenLogProb.token).Nodup := by
    have same := (rank_complete entries).map Prod.fst
    rw [List.map_map] at same
    exact same.nodup_iff.mpr distinct
  exact sorted.imp₂ (fun _ _ before different => precedes_of_ranksBefore before different) (List.pairwise_map.mp tokens)

theorem rank_eq_of_perm {entries others : List (String × Float)} (distinct : (entries.map Prod.fst).Nodup)
    (same : entries.Perm others) : rank others = rank entries := by
  have otherDistinct : (others.map Prod.fst).Nodup := (same.map Prod.fst).nodup_iff.mp distinct
  have held : (rank others).Perm (rank entries) :=
    (rank_perm others).trans ((same.symm.map _).trans (rank_perm entries).symm)
  exact eq_of_precedes held (rank_precedes otherDistinct) (rank_precedes distinct)

namespace CompletionScores

theorem at?_eq {α : Type} (array : Option (List (Option α))) (index : Nat) :
    at? array index = (array.bind (·[index]?)).join := by
  cases array <;> rfl

theorem nodup_of_at? {scores : CompletionScores} (distinct : scores.Distinct) {index : Nat}
    {entries : List (String × Float)} (found : at? scores.alternatives index = some entries) :
    (entries.map Prod.fst).Nodup :=
  distinct entries (List.mem_of_getElem? (Option.join_eq_some_iff.mp found))

theorem tokens_logProbs (scores : CompletionScores) :
    scores.logProbs.map LogProb.token = scores.tokens.getD [] := by
  refine List.ext_getElem? fun index => ?_
  rw [logProbs, List.getElem?_map, List.getElem?_mapIdx, Option.map_map]
  exact congrFun Option.map_id _

theorem describes_logProbs {scores : CompletionScores} (distinct : scores.Distinct) {index : Nat} {entry : LogProb}
    (listed : scores.logProbs[index]? = some entry) : scores.Describes index entry := by
  rw [logProbs, List.getElem?_mapIdx, Option.map_eq_some_iff] at listed
  obtain ⟨token, -, rfl⟩ := listed
  refine ⟨?logProb, ?complete, ?ordered⟩
  case logProb =>
    dsimp only
    rw [at?_eq]
    rcases scores.tokenLogProbs.bind (·[index]?) with _ | _ | logProb <;> rfl
  case complete =>
    dsimp only
    rw [at?_eq]
    rcases scores.alternatives.bind (·[index]?) with _ | _ | entries
    case some.some => exact rank_complete entries
    all_goals exact List.Perm.nil
  case ordered =>
    cases found : at? scores.alternatives index with
    | none => exact List.Pairwise.nil
    | some entries => exact rank_precedes (nodup_of_at? distinct found)

theorem map_rank_of_rel {entries others : Option (Option (List (String × Float)))}
    (distinct : ∀ held, entries.join = some held → (held.map Prod.fst).Nodup)
    (same : Option.Rel (Option.Rel List.Perm) entries others) : others.join.map rank = entries.join.map rank := by
  cases same with
  | none => rfl
  | some cells =>
    cases cells with
    | none => rfl
    | some held => exact congrArg some (rank_eq_of_perm (distinct _ rfl) held)

theorem logProbs_of_reordered {scores other : CompletionScores} (distinct : scores.Distinct)
    (same : scores.Reordered other) : other.logProbs = scores.logProbs := by
  have ranked (index : Nat) :
      (at? other.alternatives index).map rank = (at? scores.alternatives index).map rank := by
    have distinctHere (held : List (String × Float)) (found : at? scores.alternatives index = some held) :
        (held.map Prod.fst).Nodup := nodup_of_at? distinct found
    rw [at?_eq] at distinctHere ⊢
    rw [at?_eq]
    exact map_rank_of_rel distinctHere (same.alternatives index)
  simp only [logProbs, same.tokens, same.tokenLogProbs, ranked]

/-- Whatever the lengths and gaps of the arrays, there is one entry for each token, in
order, which says what the arrays say at its place and ranks the whole map there; and
the entries are the same in whatever order the maps are met. -/
theorem logProbs_canonical (scores : CompletionScores) (distinct : scores.Distinct) :
    scores.logProbs.map LogProb.token = scores.tokens.getD [] ∧
      (∀ index entry, scores.logProbs[index]? = some entry → scores.Describes index entry) ∧
      ∀ other, scores.Reordered other → other.logProbs = scores.logProbs :=
  ⟨scores.tokens_logProbs, fun _ _ => describes_logProbs distinct, fun _ => logProbs_of_reordered distinct⟩

def greetings : List (String × Float) :=
  [("Hi", -1.5), ("Howdy", -0.0), ("Hey", -1.5), ("Hello", 0)]

def raggedScores (greetings : List (String × Float)) : CompletionScores where
  tokens := some ["Hello", " world", "!"]
  tokenLogProbs := some [none, some (-0.5)]
  alternatives := some [some greetings, none]

theorem rank_greetings : (rank greetings).map TokenLogProb.token = ["Hello", "Howdy", "Hey", "Hi"] := by
  have first : ranksBefore ⟨"Hi", -1.5⟩ ⟨"Howdy", -0.0⟩ = false := by decide
  have second : ranksBefore ⟨"Hey", -1.5⟩ ⟨"Hello", 0⟩ = false := by decide
  have third : ranksBefore ⟨"Howdy", -0.0⟩ ⟨"Hello", 0⟩ = false := by decide
  have fourth : ranksBefore ⟨"Howdy", -0.0⟩ ⟨"Hey", -1.5⟩ = true := by decide
  have fifth : ranksBefore ⟨"Hi", -1.5⟩ ⟨"Hey", -1.5⟩ = false := by decide
  simp [greetings, rank, List.mergeSort, List.MergeSort.Internal.splitInTwo, first, second, third, fourth,
    fifth]

theorem logProbs_canonical_ragged :
    (raggedScores greetings).Distinct ∧
      (raggedScores greetings).Reordered (raggedScores greetings.reverse) ∧
      (raggedScores greetings).logProbs.map LogProb.token = ["Hello", " world", "!"] ∧
      (∀ entry, (raggedScores greetings).logProbs[0]? = some entry →
        (raggedScores greetings).Describes 0 entry ∧
          entry.top.map TokenLogProb.token = ["Hello", "Howdy", "Hey", "Hi"]) ∧
      (raggedScores greetings.reverse).logProbs = (raggedScores greetings).logProbs := by
  have distinct : (raggedScores greetings).Distinct := by
    intro entries held
    have only : entries = greetings := by simpa [raggedScores] using held
    rw [only]
    decide
  have reordered : (raggedScores greetings).Reordered (raggedScores greetings.reverse) := by
    refine ⟨rfl, rfl, fun index => ?_⟩
    match index with
    | 0 => exact .some (.some greetings.reverse_perm.symm)
    | 1 => exact .some .none
    | _ + 2 => exact .none
  obtain ⟨tokens, describes, same⟩ := logProbs_canonical (raggedScores greetings) distinct
  refine ⟨distinct, reordered, tokens, fun entry listed => ⟨describes 0 entry listed, ?_⟩, same _ reordered⟩
  cases listed
  exact rank_greetings

/-- Maps that are read have no text twice. -/
theorem nodup_of_alternatives? {d : Draft} {entries : List (String × Float)}
    (read : decode?.alternatives? d = some entries) : (entries.map Prod.fst).Nodup := by
  obtain ⟨dictionary, -, rfl⟩ := Option.map_eq_some_iff.mp read
  exact Entries.nodup_of_ascending dictionary.ascending

theorem distinct_of_decode? {d : Draft} {scores : CompletionScores} (read : decode? d = some scores) :
    scores.Distinct := by
  simp only [decode?, Option.bind_eq_bind, Option.bind_eq_some_iff] at read
  obtain ⟨r, -, tokens, -, tokenLogProbs, -, alternatives, readAlternatives, told⟩ := read
  cases told
  intro entries held
  cases alternatives with
  | none => exact absurd held List.not_mem_nil
  | some cells =>
    obtain ⟨array, -, -, readCells⟩ := Record.exists_of_optional readAlternatives
    cases array with
    | array items =>
      obtain ⟨item, readItem⟩ := exists_of_mapM readCells (some entries) held
      exact nodup_of_alternatives? (Draft.of_orNull? readItem).2
    | _ => cases readCells

end CompletionScores

end Colloquy.Chat
