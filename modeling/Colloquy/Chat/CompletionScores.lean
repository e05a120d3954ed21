import Colloquy.Response.Usage

/-! Log probabilities in parallel arrays, by position of the token. Every array
may be missing or short and may have gaps. -/
namespace Colloquy.Chat

structure CompletionScores where
  tokens : Option (List String) := none
  tokenLogProbs : Option (List (Option Float)) := none
  alternatives : Option (List (Option (List (String × Float)))) := none

namespace CompletionScores

def encode (scores : CompletionScores) : Json :=
  Json.record [("tokens", some (Json.orNull (Json.ofList .text) scores.tokens)),
    ("token_logprobs", some (Json.orNull (Json.ofList (Json.orNull Json.real)) scores.tokenLogProbs)),
    ("top_logprobs", some (Json.orNull (Json.ofList (Json.orNull encodeAlternatives))
      scores.alternatives))]
where
  encodeAlternatives (entries : List (String × Float)) : Json :=
    .object (entries.map fun entry => (entry.1, Json.real entry.2))

def decode? (d : Draft) : Option CompletionScores := do
  let r ← d.record? ["tokens", "token_logprobs", "top_logprobs"]
  let tokens ← r.optional "tokens" (Draft.list? Draft.text?)
  let tokenLogProbs ← r.optional "token_logprobs" (Draft.list? (Draft.orNull? Draft.real?))
  let alternatives ← r.optional "top_logprobs" (Draft.list? (Draft.orNull? alternatives?))
  return { tokens, tokenLogProbs, alternatives }
where
  alternatives? (d : Draft) : Option (List (String × Float)) :=
    (d.dictionary? Draft.real?).map (·.entries)

end CompletionScores

/-- The place of a double in the total order of doubles: negative zero comes just
before zero, and a NaN beyond the infinity of its sign. -/
def totalRank (x : Float) : Int :=
  let bits := x.toBits.toNat
  let signBit := UInt64.size / 2
  if bits < signBit then bits else (signBit : Int) - 1 - bits

/-- More likely first; of equally likely tokens the lesser text first. -/
def ranksBefore (a b : TokenLogProb) : Bool :=
  totalRank b.logProb < totalRank a.logProb ||
    (totalRank a.logProb == totalRank b.logProb && a.token ≤ b.token)

def rank (alternatives : List (String × Float)) : List TokenLogProb :=
  (alternatives.map fun entry => TokenLogProb.mk entry.1 entry.2).mergeSort ranksBefore

namespace CompletionScores

/-- The `index`-th element of an array, if there is one and it is no gap. -/
def at? {α : Type} (array : Option (List (Option α))) (index : Nat) : Option α :=
  (array.getD [])[index]?.join

/-- One entry for each token. A missing probability is zero, and missing
alternatives are none. -/
def logProbs (scores : CompletionScores) : List LogProb :=
  (scores.tokens.getD []).mapIdx fun index token =>
    { token
      logProb := (at? scores.tokenLogProbs index).getD 0
      top := ((at? scores.alternatives index).map rank).getD [] }

end CompletionScores

end Colloquy.Chat
