import Colloquy.Model.Calls
import Mathlib.Data.List.Basic
import Mathlib.Data.List.Induction

/-! A scripted model has two queues, and a call takes from the one of its kind. So each
kind is answered in the order of its script however the calls are mixed, while the
prompts of all of them are kept in the order of the calls. -/
namespace Colloquy

theorem callsOf_cons_same (call : Call) (rest : List Call) :
    callsOf call.kind (call :: rest) = call :: callsOf call.kind rest := by
  rw [callsOf, List.filter_cons_of_pos (by simp), callsOf]

theorem callsOf_cons_other {kind : CallKind} {call : Call} (other : call.kind ≠ kind) (rest : List Call) :
    callsOf kind (call :: rest) = callsOf kind rest := by
  rw [callsOf, List.filter_cons_of_neg (by simpa using other), callsOf]

theorem callsOf_concat (kind : CallKind) (calls : List Call) (call : Call) :
    callsOf kind (calls ++ [call]) = callsOf kind calls ++ if call.kind = kind then [call] else [] := by
  by_cases same : call.kind = kind <;> simp [callsOf, same]

namespace ScriptedModel

theorem answer_generate {call : Call} (kind : call.kind = .generate) (m : ScriptedModel) :
    m.answer call =
      ({ m with
          replies := m.replies.tail
          prompts := m.prompts ++ [call.prompt]
          calls := m.calls + 1 },
        .reply (m.replies.head?.getD (.ok {}))) := by
  simp only [answer, kind, generate]

theorem answer_stream {call : Call} (kind : call.kind = .stream) (m : ScriptedModel) :
    m.answer call =
      ({ m with
          streams := m.streams.tail
          prompts := m.prompts ++ [call.prompt]
          streamCalls := m.streamCalls + 1 },
        .stream (m.streams.head?.getD ({}, [])).1 (m.streams.head?.getD ({}, [])).2) := by
  simp only [answer, kind, stream]

/-- Two models that have the same answers left for one kind of call. -/
def Alike (kind : CallKind) (m other : ScriptedModel) : Prop :=
  match kind with
  | .generate => m.replies = other.replies
  | .stream => m.streams = other.streams

theorem Alike.trans {kind : CallKind} {m middle other : ScriptedModel} (first : Alike kind m middle)
    (second : Alike kind middle other) : Alike kind m other := by
  cases kind <;> exact Eq.trans first second

theorem Alike.answer {m other : ScriptedModel} {call : Call} (alike : Alike call.kind m other) :
    (m.answer call).2 = (other.answer call).2 ∧ Alike call.kind (m.answer call).1 (other.answer call).1 := by
  cases kind : call.kind with
  | generate =>
    rw [kind] at alike
    have same : m.replies = other.replies := alike
    rw [answer_generate kind, answer_generate kind, same]
    exact ⟨rfl, rfl⟩
  | stream =>
    rw [kind] at alike
    have same : m.streams = other.streams := alike
    rw [answer_stream kind, answer_stream kind, same]
    exact ⟨rfl, rfl⟩

/-- A call leaves the answers to the other kind where they are. -/
theorem alike_answer_other {kind : CallKind} {call : Call} (other : call.kind ≠ kind) (m : ScriptedModel) :
    Alike kind (m.answer call).1 m := by
  cases asked : call.kind with
  | generate =>
    cases kind with
    | generate => exact absurd asked other
    | stream => rw [answer_generate asked]; exact rfl
  | stream =>
    cases kind with
    | generate => rw [answer_stream asked]; exact rfl
    | stream => exact absurd asked other

theorem serve_append (m : ScriptedModel) (calls more : List Call) :
    m.serve (calls ++ more) =
      (((m.serve calls).1.serve more).1, (m.serve calls).2 ++ ((m.serve calls).1.serve more).2) := by
  induction calls generalizing m with
  | nil => rfl
  | cons call rest ih => simp only [List.cons_append, serve, ih]

theorem length_serve (m : ScriptedModel) (calls : List Call) : (m.serve calls).2.length = calls.length := by
  induction calls generalizing m with
  | nil => rfl
  | cons call rest ih => simp only [serve, List.length_cons, ih]

theorem answersTo_serve {kind : CallKind} {m other : ScriptedModel} (alike : Alike kind m other)
    (calls : List Call) : answersTo kind calls (m.serve calls).2 = (other.serve (callsOf kind calls)).2 := by
  induction calls generalizing m other with
  | nil => rfl
  | cons call rest ih =>
    by_cases same : call.kind = kind
    · subst same
      obtain ⟨told, left⟩ := alike.answer
      have first : answersTo call.kind (call :: rest) (m.serve (call :: rest)).2 =
          (m.answer call).2 :: answersTo call.kind rest ((m.answer call).1.serve rest).2 := by
        simp [answersTo, serve]
      rw [first, callsOf_cons_same, told, ih left]
      rfl
    · have skipped : answersTo kind (call :: rest) (m.serve (call :: rest)).2 =
          answersTo kind rest ((m.answer call).1.serve rest).2 := by
        simp [answersTo, serve, same]
      rw [skipped, callsOf_cons_other same]
      exact ih ((alike_answer_other same m).trans alike)

theorem foldl_withStream (streams : List (Opening × List Event)) (m : ScriptedModel) :
    streams.foldl (fun m stream => m.withStream stream.1 stream.2) m =
      { m with streams := m.streams ++ streams } := by
  induction streams generalizing m with
  | nil => rw [List.append_nil]; rfl
  | cons stream rest ih =>
    rw [List.foldl_cons, ih, withStream, List.append_assoc]
    rfl

end ScriptedModel

namespace Script

theorem standing_model (script : Script) : script.Standing [] script.model := by
  rw [model, ScriptedModel.foldl_withStream]
  exact ⟨rfl, rfl, rfl, rfl, rfl, rfl, rfl⟩

/-- A call advances the queue of its kind by one, and no other. -/
theorem Standing.answer {script : Script} {calls : List Call} {m : ScriptedModel}
    (standing : script.Standing calls m) (call : Call) :
    script.Standing (calls ++ [call]) (m.answer call).1 ∧ (m.answer call).2 = script.answer calls call := by
  cases kind : call.kind with
  | generate =>
    rw [ScriptedModel.answer_generate kind]
    refine ⟨?_, ?_⟩
    · constructor <;>
        simp [callsOf_concat, kind, standing.replies, standing.streams, standing.prompts, standing.generated,
          standing.streamed, standing.providerName, standing.modelId]
    · rw [Script.answer, kind, standing.replies, List.head?_drop]
  | stream =>
    rw [ScriptedModel.answer_stream kind]
    refine ⟨?_, ?_⟩
    · constructor <;>
        simp [callsOf_concat, kind, standing.replies, standing.streams, standing.prompts, standing.generated,
          standing.streamed, standing.providerName, standing.modelId]
    · rw [Script.answer, kind, standing.streams, List.head?_drop]

theorem standing_serve (script : Script) (calls : List Call) :
    script.Standing calls (script.model.serve calls).1 := by
  induction calls using List.reverseRecOn with
  | nil => exact script.standing_model
  | append_singleton calls call ih =>
    rw [ScriptedModel.serve_append]
    exact (ih.answer call).1

/-- However calls of both kinds are mixed, each is answered by the next of its own queue,
and with an empty answer after the last; all of them are counted and their prompts kept. -/
theorem mixed_calls_served (script : Script) (calls : List Call) :
    script.Serves calls (script.model.serve calls).1 (script.model.serve calls).2 := by
  have standing := script.standing_serve calls
  refine
    { toStanding := standing, answered := script.model.length_serve calls, answer := ?answer,
      remaining := ?remaining, apart := ?apart }
  case answer =>
    rintro before call after rfl
    obtain ⟨-, told⟩ := (script.standing_serve before).answer call
    rw [ScriptedModel.serve_append, List.getElem?_append_right (Nat.le_of_eq (ScriptedModel.length_serve ..)),
      ScriptedModel.length_serve, Nat.sub_self, ← told]
    rfl
  case remaining => rw [ScriptedModel.remaining, standing.replies, List.length_drop]
  case apart =>
    intro kind
    apply ScriptedModel.answersTo_serve
    cases kind <;> rfl

/-- The first reply waits for the first call of its kind. -/
example :
    (({ replies := [.error (.transport "busy")] } : Script).model.serve
      [⟨.stream, [], {}⟩, ⟨.generate, [], {}⟩, ⟨.generate, [], {}⟩]).2 =
      [.stream {} [], .reply (.error (.transport "busy")), .reply (.ok {})] := rfl

end Script

end Colloquy
