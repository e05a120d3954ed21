import Colloquy.Failure
import Colloquy.Model.CallOptions

/-! A language model that answers from a script, for tests. It has one queue of
replies and one of streams, and it keeps every prompt it was given. -/
namespace Colloquy

structure ScriptedModel where
  providerName : String := "mock-provider"
  modelId : String := "mock-model"
  replies : List (Except Failure Response) := []
  streams : List (Opening × List Event) := []
  prompts : List (List Message) := []
  calls : Nat := 0
  streamCalls : Nat := 0

namespace ScriptedModel

def ofReplies (replies : List (Except Failure Response)) : ScriptedModel :=
  { replies }

def withProviderName (m : ScriptedModel) (providerName : String) : ScriptedModel :=
  { m with providerName }

def withModelId (m : ScriptedModel) (modelId : String) : ScriptedModel :=
  { m with modelId }

def withStream (m : ScriptedModel) (opening : Opening) (events : List Event) : ScriptedModel :=
  { m with streams := m.streams ++ [(opening, events)] }

def remaining (m : ScriptedModel) : Nat :=
  m.replies.length

def generate (m : ScriptedModel) (prompt : List Message) (_ : CallOptions) :
    ScriptedModel × Except Failure Response :=
  ({ m with
      replies := m.replies.tail
      prompts := m.prompts ++ [prompt]
      calls := m.calls + 1 },
    m.replies.head?.getD (.ok {}))

def stream (m : ScriptedModel) (prompt : List Message) (_ : CallOptions) :
    ScriptedModel × (Opening × List Event) :=
  ({ m with
      streams := m.streams.tail
      prompts := m.prompts ++ [prompt]
      streamCalls := m.streamCalls + 1 },
    m.streams.head?.getD ({}, []))

end ScriptedModel

end Colloquy
