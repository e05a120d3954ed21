import Colloquy.Chat.CompletionScores
import Colloquy.Chat.Prompt
import Colloquy.Proofs.Chat.Admission
import Colloquy.Proofs.Chat.Advice
import Colloquy.Proofs.Chat.Alternatives
import Colloquy.Proofs.Chat.Gathering
import Colloquy.Proofs.Chat.Outcome
import Colloquy.Proofs.Chat.SentBack
import Colloquy.Proofs.Chat.Streaming
import Colloquy.Proofs.Chat.ToolNames
import Colloquy.Proofs.Chat.Totals
import Colloquy.Proofs.Dictionary
import Colloquy.Proofs.Offender
import Colloquy.Proofs.Json.Doubles
import Colloquy.Proofs.Model.Scripted
import Colloquy.Proofs.Text.Base64
import Colloquy.Proofs.Text.Utf8
import Colloquy.Proofs.Time.Timestamp
import Colloquy.Proofs.Response.Conclusion
import Colloquy.Proofs.Response.Details
import Colloquy.Proofs.Response.Interchange
import Colloquy.Proofs.Response.Replay
import Colloquy.Proofs.Response.Signatures
import Colloquy.Proofs.Sse.Framing
import Colloquy.Proofs.Transcript.Continuation
import Colloquy.Transcript.Basic
import Colloquy.Proofs.Json.Values
import Colloquy.Proofs.Json.Measure
import Colloquy.Proofs.Json.Survival
import Colloquy.Proofs.Json.Text
import Colloquy.Proofs.Conversation.Survival
import Colloquy.Proofs.Response.Survival
import Colloquy.Proofs.Stream.Survival
import Colloquy.Chat.Totals
import Colloquy.Proofs.Text.Faults
