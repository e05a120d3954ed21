import Colloquy.Model.Scripted

/-! A scripted model as it is used: calls of both kinds, one after another and in any
order. Each kind is answered from a queue of its own, and every prompt is kept. -/
namespace Colloquy

inductive CallKind where
  | generate
  | stream
  deriving DecidableEq, Repr

structure Call where
  kind : CallKind
  prompt : List Message
  options : CallOptions := {}

inductive Answer where
  | reply (reply : Except Failure Response)
  | stream (opening : Opening) (events : List Event)

namespace ScriptedModel

def answer (m : ScriptedModel) (call : Call) : ScriptedModel × Answer :=
  match call.kind with
  | .generate =>
    let (next, reply) := m.generate call.prompt call.options
    (next, .reply reply)
  | .stream =>
    let (next, (opening, events)) := m.stream call.prompt call.options
    (next, .stream opening events)

def serve (m : ScriptedModel) : List Call → ScriptedModel × List Answer
  | [] => (m, [])
  | call :: rest =>
    let (next, answer) := m.answer call
    let (last, answers) := next.serve rest
    (last, answer :: answers)

end ScriptedModel

def callsOf (kind : CallKind) (calls : List Call) : List Call :=
  calls.filter fun call => call.kind == kind

/-- The answers to the calls of one kind. -/
def answersTo (kind : CallKind) (calls : List Call) (answers : List Answer) : List Answer :=
  ((calls.zip answers).filter fun served => served.1.kind == kind).map Prod.snd

/-- What a model is to answer, for each kind of call in the order of the calls. -/
structure Script where
  providerName : String := "mock-provider"
  modelId : String := "mock-model"
  replies : List (Except Failure Response) := []
  streams : List (Opening × List Event) := []

namespace Script

def model (script : Script) : ScriptedModel :=
  script.streams.foldl (fun m stream => m.withStream stream.1 stream.2)
    (((ScriptedModel.ofReplies script.replies).withProviderName script.providerName).withModelId script.modelId)

/-- The answer to a call after other calls. Only those of its own kind count, and after
the last of its queue the answer is empty. -/
def answer (script : Script) (before : List Call) (call : Call) : Answer :=
  match call.kind with
  | .generate => .reply (script.replies[(callsOf .generate before).length]?.getD (.ok {}))
  | .stream =>
    let (opening, events) := script.streams[(callsOf .stream before).length]?.getD ({}, [])
    .stream opening events

/-- A model with this script after some calls. -/
structure Standing (script : Script) (calls : List Call) (m : ScriptedModel) : Prop where
  replies : m.replies = script.replies.drop (callsOf .generate calls).length
  streams : m.streams = script.streams.drop (callsOf .stream calls).length
  prompts : m.prompts = calls.map Call.prompt
  generated : m.calls = (callsOf .generate calls).length
  streamed : m.streamCalls = (callsOf .stream calls).length
  providerName : m.providerName = script.providerName
  modelId : m.modelId = script.modelId

/-- Calls and their answers, and the model that is left. -/
structure Serves (script : Script) (calls : List Call) (last : ScriptedModel) (answers : List Answer) :
    Prop extends Standing script calls last where
  answered : answers.length = calls.length
  answer : ∀ before call after, calls = before ++ call :: after →
    answers[before.length]? = some (script.answer before call)
  remaining : last.remaining = script.replies.length - (callsOf .generate calls).length
  /-- Either kind of call is answered as if there were no calls of the other. -/
  apart : ∀ kind, answersTo kind calls answers = (script.model.serve (callsOf kind calls)).2

end Script

end Colloquy
