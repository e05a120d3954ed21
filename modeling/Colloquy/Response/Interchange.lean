import Colloquy.Response.Detail
import Colloquy.Stream.History

/-! Where it makes a difference whether an opening or an event is told first. Both may say
who sends the response, and both may bring metadata; nothing else of a builder is told by
both. -/
namespace Colloquy

/-- A part of a response that an opening and an event may both tell. -/
inductive SharedPart where
  | responseInfo
  | metadata
  deriving DecidableEq, Repr

def Opening.meets (o : Opening) : Event → SharedPart → Bool
  | .responseMetadata _ _ _, .responseInfo => o.responseInfo.isSome
  | .finish told, .metadata => told.metadata.isSome && o.metadata.isSome
  | _, _ => false

/-- Builders that were told the same opening and the same event, one of them the opening
first (`early`) and the other the event (`late`). They are equal but for a part that both
tell, and only if the event was taken. There an event adds to what the opening said or
takes its place, while an opening replaces who sends the response and merges its metadata. -/
structure Interchange (o : Opening) (event : Event) (taken : Bool) (early late : Builder) : Prop where
  rest : early = { late with response := { late.response with
    responseInfo := early.response.responseInfo
    metadata := early.response.metadata } }
  responseInfo : (taken && o.meets event .responseInfo) = false →
    early.response.responseInfo = late.response.responseInfo
  metadata : (taken && o.meets event .metadata) = false →
    early.response.metadata = late.response.metadata
  responseInfoMet : (taken && o.meets event .responseInfo) = true →
    early.response.responseInfo = ResponseInfo.toldOf o.responseInfo event.info? ∧
      late.response.responseInfo = o.responseInfo
  metadataMet : (taken && o.meets event .metadata) = true →
    early.response.metadata = event.exchange.metadata ∧
      late.response.metadata = o.metadata.map (Metadata.mergeInto event.exchange.metadata)

end Colloquy
