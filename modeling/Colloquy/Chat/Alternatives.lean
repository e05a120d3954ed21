import Colloquy.Chat.CompletionScores
import Colloquy.Text.Utf8

/-! What the entries for scored tokens are to say, and in which order the
alternatives of a token stand, without reference to how they are sorted. -/
namespace Colloquy.Chat

def isNegative (x : Float) : Bool :=
  x.toBits.toNat ≥ UInt64.size / 2

/-- The bits of a double without its sign bit, as a number. -/
def magnitude (x : Float) : Nat :=
  x.toBits.toNat % (UInt64.size / 2)

/-- The total order of doubles. It is about their bits, so it has a place for
negative zero and for whatever is no number. -/
inductive Beneath (x y : Float) : Prop where
  | signs (negative : isNegative x = true) (positive : isNegative y = false)
  | positive (first : isNegative x = false) (second : isNegative y = false)
      (smaller : magnitude x < magnitude y)
  | negative (first : isNegative x = true) (second : isNegative y = true)
      (greater : magnitude y < magnitude x)

/-- The more likely token is first, and of two equally likely ones that with the
lesser bytes. -/
def Precedes (a b : TokenLogProb) : Prop :=
  Beneath b.logProb a.logProb ∨
    a.logProb.toBits = b.logProb.toBits ∧ Text.Utf8.encode a.token < Text.Utf8.encode b.token

namespace CompletionScores

/-- The alternatives of each token are a map: no text has two probabilities. -/
def Distinct (scores : CompletionScores) : Prop :=
  ∀ entries, some entries ∈ scores.alternatives.getD [] → (entries.map Prod.fst).Nodup

/-- The same scores, with the entries of each map met in another order. -/
structure Reordered (scores other : CompletionScores) : Prop where
  tokens : other.tokens = scores.tokens
  tokenLogProbs : other.tokenLogProbs = scores.tokenLogProbs
  alternatives (index : Nat) : Option.Rel (Option.Rel List.Perm)
    (scores.alternatives.bind (·[index]?)) (other.alternatives.bind (·[index]?))

/-- The entry for the token at a place. -/
structure Describes (scores : CompletionScores) (index : Nat) (entry : LogProb) : Prop where
  logProb : entry.logProb =
    match scores.tokenLogProbs.bind (·[index]?) with
    | some (some logProb) => logProb
    | _ => 0
  complete : (entry.top.map fun alternative => (alternative.token, alternative.logProb)).Perm
    (match scores.alternatives.bind (·[index]?) with
    | some (some entries) => entries
    | _ => [])
  ordered : entry.top.Pairwise Precedes

end CompletionScores

end Colloquy.Chat
