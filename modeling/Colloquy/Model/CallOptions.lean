import Colloquy.Json.Record

/-! The settings of a call. They are data only; what becomes of them is up to the
caller. -/
namespace Colloquy

structure CallOptions where
  maxOutputTokens : Option UInt32 := none
  temperature : Option Float32 := none
  topP : Option Float32 := none
  stopSequences : List String := []
  seed : Option UInt64 := none
  headers : Dictionary String := .empty

namespace CallOptions

def encode (o : CallOptions) : Json :=
  Json.record [("max_output_tokens", o.maxOutputTokens.map fun count => .natural count.toNat),
    ("temperature", o.temperature.map fun value => Json.real value.toFloat),
    ("top_p", o.topP.map fun value => Json.real value.toFloat),
    ("stop_sequences", Json.ofNonempty .text o.stopSequences),
    ("seed", o.seed.map fun seed => .natural seed.toNat),
    ("headers", if o.headers.isEmpty then none else some (Json.ofDictionary .text o.headers))]

def decode? (d : Draft) : Option CallOptions := do
  let r ← d.record? ["max_output_tokens", "temperature", "top_p", "stop_sequences", "seed", "headers"]
  let maxOutputTokens ← r.optional "max_output_tokens" Draft.word32?
  let temperature ← r.optional "temperature" Draft.single?
  let topP ← r.optional "top_p" Draft.single?
  let stopSequences ← r.defaulted "stop_sequences" [] (Draft.list? Draft.text?)
  let seed ← r.optional "seed" Draft.word64?
  let headers ← r.defaulted "headers" .empty (Draft.dictionary? Draft.text?)
  return { maxOutputTokens, temperature, topP, stopSequences, seed, headers }

end CallOptions

end Colloquy
