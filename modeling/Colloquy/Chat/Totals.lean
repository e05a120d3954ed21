import Colloquy.Chat.Fragments
import Colloquy.Chat.Reply

/-! The tokens of a call in total, against those that the service reports. A report has two
counts of a word each, and the total has to fit into a word again. -/
namespace Colloquy

/-- Input and output together, however many they are. -/
def Usage.tokens (u : Usage) : Nat :=
  u.inputTokens.toNat + u.outputTokens.toNat

namespace Chat

/-- The tokens that are reported. Where nothing is reported there are none. -/
def reportedTokens : Option TokenReport → Nat
  | some report => report.inputTokens.toNat + report.outputTokens.toNat
  | none => 0

/-- The usage of a response of which this was reported. -/
structure Counted (report : Option TokenReport) (u : Usage) : Prop where
  copied : u = (report.map TokenReport.usage).getD {}
  exact_iff : (∃ total, u.totalTokens? = some total ∧ total.toNat = u.tokens) ↔
    reportedTokens report < UInt64.size
  /-- Of what a word cannot hold there is no total, not even a wrong one. -/
  beyond : UInt64.size ≤ reportedTokens report → u.totalTokens? = none

/-- The members of a body that has a report and little else. -/
def reportMembers (report : TokenReport) : List (String × Option Json) :=
  [("choices", some (.array [Json.record []])), ("usage", some report.encode)]

/-- The text of such a body. It can be read as a reply, and as a chunk. -/
def reportText (report : TokenReport) : String :=
  (Json.record (reportMembers report)).sorted.render

end Chat

end Colloquy
