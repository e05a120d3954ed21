import Colloquy.ApiFailure
import Colloquy.Conversation.Message
import Colloquy.Response.Builder

/-! Every way in which an operation of the library fails. -/
namespace Colloquy

inductive Feature where
  | images
  | fileAttachments
  | toolMessages
  | toolCallMessages
  deriving DecidableEq, Repr

def Feature.name : Feature → String
  | .images => "images"
  | .fileAttachments => "file attachments"
  | .toolMessages => "tool messages"
  | .toolCallMessages => "tool-call messages"

inductive Failure where
  | invalidPrompt (message : String)
  | unsupportedContent (role : Role) (block : BlockKind)
  | unsupportedFeature (feature : Feature)
  | encoding (message : String)
  /-- An event was rejected; the response is what was put together before it. -/
  | aggregation (cause : Rejection) (response : Response)
  | streamFailure (failure : StreamFailure)
  | apiCall (failure : ApiFailure)
  /-- A text that is not the document expected of it. -/
  | malformedJson (text : String)
  | noContent (message : String)
  | transport (message : String)
  | stream (message : String)

namespace Failure

/-- What is shown of a failure. For a malformed document a fixed wording, `not the expected
document`, stands where the JSON reader would say in its own words what is wrong and where. -/
def message : Failure → String
  | .invalidPrompt message => s!"invalid prompt: {message}"
  | .unsupportedContent role block => s!"unsupported {block.name} block in {role.name} message"
  | .unsupportedFeature feature => s!"'{feature.name}' functionality not supported"
  | .encoding message => s!"encoding failed: {message}"
  | .aggregation cause _ => cause.message
  | .streamFailure failure => s!"stream error: {failure.message}"
  | .apiCall failure => failure.text
  | .malformedJson text => s!"JSON parsing failed: not the expected document; text: {text}"
  | .noContent message => s!"no content generated: {message}"
  | .transport message => s!"transport error: {message}"
  | .stream message => s!"stream error: {message}"

/-- Only a failure status of the service is ever worth another try. -/
def isRetryable : Failure → Bool
  | .apiCall failure => failure.retryable
  | _ => false

def response? : Failure → Option Response
  | .aggregation _ response => some response
  | .streamFailure failure => some failure.response
  | _ => none

end Failure

end Colloquy
