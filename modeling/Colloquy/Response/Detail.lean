import Colloquy.Response.Session

/-! Details of the exchange behind a response. A detail is there or not, whatever its
value is. An input that sets a detail replaces what was known of it by what the input
itself has, which may be nothing. -/
namespace Colloquy

inductive Detail where
  | id
  | modelId
  | timestamp
  | prompt
  | settings
  | headers
  | body
  | metadata (service : String)
  deriving DecidableEq, Repr

structure Exchange where
  rawCall : RawCall := {}
  rawResponse : Option RawResponse := none
  requestInfo : Option RequestInfo := none
  responseInfo : Option ResponseInfo := none
  metadata : Option Metadata := none

/-- Whether a detail is there and not empty. -/
def Exchange.has (e : Exchange) : Detail → Bool
  | .id => e.responseInfo.any fun info => !info.id.isEmpty
  | .modelId => e.responseInfo.any fun info => !info.modelId.isEmpty
  | .timestamp => e.responseInfo.any fun info => info.timestamp.isSome
  | .prompt => e.rawCall.prompt.isSome
  | .settings => !e.rawCall.settings.isEmpty
  | .headers => e.rawResponse.any fun raw => !raw.headers.isEmpty
  | .body => e.requestInfo.any fun info => !info.body.isEmpty
  | .metadata service => e.metadata.any fun metadata => metadata.contains service

def Response.exchange (r : Response) : Exchange where
  rawCall := r.rawCall
  rawResponse := r.rawResponse
  requestInfo := r.requestInfo
  responseInfo := r.responseInfo
  metadata := r.metadata

namespace Opening

def exchange (o : Opening) : Exchange where
  rawCall := o.rawCall
  rawResponse := o.rawResponse
  requestInfo := o.requestInfo
  responseInfo := o.responseInfo
  metadata := o.metadata

/-- An opening sets each part that it has as a whole, and of the metadata the entries
that it has. -/
def sets (o : Opening) : Detail → Bool
  | .id => o.responseInfo.isSome
  | .modelId => o.responseInfo.isSome
  | .timestamp => o.responseInfo.isSome
  | .prompt => !o.rawCall.isEmpty
  | .settings => !o.rawCall.isEmpty
  | .headers => o.rawResponse.isSome
  | .body => o.requestInfo.isSome
  | .metadata service => o.exchange.has (.metadata service)

end Opening

namespace Event

def exchange : Event → Exchange
  | .responseMetadata id modelId timestamp => { responseInfo := some { id, modelId, timestamp } }
  | .finish told => { metadata := told.metadata }
  | _ => {}

/-- The identifier is set by every event that could tell it, a model and a time only
where they are told. A finish sets the metadata as a whole. -/
def sets : Event → Detail → Bool
  | .responseMetadata _ _ _, .id => true
  | .responseMetadata _ modelId _, .modelId => !modelId.isEmpty
  | .responseMetadata _ _ timestamp, .timestamp => timestamp.isSome
  | .finish told, .metadata _ => told.metadata.isSome
  | _, _ => false

end Event

namespace Input

def exchange : Input → Exchange
  | .event e => e.exchange
  | .opening o => o.exchange

def sets : Input → Detail → Bool
  | .event e => e.sets
  | .opening o => o.sets

end Input

namespace Builder

/-- The inputs of a run that were taken. -/
def takenInputs (b : Builder) (inputs : List Input) : List Input :=
  ((b.steps inputs).filter Step.isTaken).map Step.input

end Builder

end Colloquy
