/-
  Fleet/Answers.lean --- what a node makes of a request, and the server of its answer.

  The request that `Hub.Dispatch` writes starts one call of `executeJob`, which asks
  Ollama for that request and nothing else.  The one envelope that the call writes is read
  as a frame for the same job, and what a node writes of its own accord is never one.
-/
import Nuvonode.Contract.Messages
import Nuvonode.Fleet.Links

set_option autoImplicit false

namespace Nuvonode.Fleet

open Nuvonode.Foundation Nuvonode.Database Nuvonode.Service Nuvonode.Handler Nuvonode.Ws
  Nuvonode.Contract

variable {Time : Type} {time : TextForm Time} {float : TextForm FiniteFloat}

/-! ## The request -/

/-- The payload of the request of a dispatch, as the node gets it. -/
def requestData (float : TextForm FiniteFloat) (payload : JobRequestPayload) :
    Option Json :=
  some ((Writer.struct (Wire.jobRequestFields float)).encode (wirePayload payload))

/-- The job that the node decodes from it. -/
def nodeJob (payload : JobRequestPayload) : Node.JobRequestPayload FiniteFloat :=
  chatJob payload.jobID payload.modelSlug payload.runtimeModelName payload.messages
    payload.temperature (Int64.ofInt payload.maxTokens) (Int64.ofInt payload.timeoutSeconds)

section Request

variable {payload : JobRequestPayload}

theorem unmarshal_requestData :
    (Node.jobRequestReader float).unmarshal (requestData float payload) =
      some (nodeJob payload) := jobRequest_recovered

/-- A request starts one call. -/
theorem started_request {id : DispatchID} {now : Time} :
    started time id (Wire.dispatch time float now (wirePayload payload)) =
      [(id, { payload := requestData float payload, stage := .started })] := by
  rw [started, jobPayload_dispatch]
  rfl

/-- The call asks Ollama for the job of the request. -/
theorem askedJob_requestData :
    Node.askedJob float (requestData float payload) =
      some (nodeJob payload) :=
  (Node.askedJob_eq_some_iff float).mpr ⟨unmarshal_requestData, rfl⟩

end Request

/-! ## The answer -/

/-- The frame of what comes of a request to Ollama. -/
def nodeFrame (jobID : String) (outcome : Node.OllamaOutcome) (latencyMS : Int64) :
    CompletionFrame :=
  match outcome.chat with
  | .error text => .jobError jobID "ollama_failed" text
  | .ok response => .jobResult jobID response.content "stop"
      (some { promptTokens := response.promptEvalCount
              completionTokens := response.evalCount
              totalTokens := response.promptEvalCount + response.evalCount
              source := "runtime_reported" }) latencyMS

@[simp] theorem nodeFrame_jobID (jobID : String) (outcome : Node.OllamaOutcome)
    (latencyMS : Int64) : (nodeFrame jobID outcome latencyMS).jobID = jobID := by
  unfold nodeFrame
  split <;> rfl

/-- The frame that an envelope is read as, where it answers a job. -/
def answerOf (envelope : Node.Envelope Time Node.Payload) : Option CompletionFrame :=
  completionFrame (serverMessage envelope.payload)

section Answer

variable {payload : JobRequestPayload} {conn : ConnID} {now : Nat}
  {newID : UUID} {publicID : String} {envelope : Node.Envelope Time Node.Payload}

/-- What the server does with an envelope of its right type. -/
theorem frameEvent_writeJSON (h : envelope.type = messageType envelope.payload) :
    frameEvent time conn now newID publicID (Node.writeJSON time envelope) =
      messageEvent conn now newID publicID (serverMessage envelope.payload) := by
  rw [frameEvent, receive_writeJSON h]
  rfl

/-- The one envelope of a call that returns, and the frame it is read as. -/
theorem executeJob_requestData (outcome : Node.OllamaOutcome) (latencyMS : Int64)
    (stamp : Node.Stamp Time) :
    ∃ envelope, Node.executeJob float (requestData float payload)
        (fun _ => outcome) latencyMS stamp = [envelope] ∧
      envelope.type = messageType envelope.payload ∧
      answerOf envelope = some (nodeFrame payload.jobID outcome latencyMS) := by
  have hruntime : (nodeJob payload).runtime = "ollama" := rfl
  have hjobID : (nodeJob payload).jobID = payload.jobID := rfl
  simp only [Node.executeJob, unmarshal_requestData, hruntime, hjobID, ne_eq, not_true_eq_false,
    if_false, nodeFrame]
  cases outcome.chat with
  | error text => exact ⟨_, rfl, rfl, rfl⟩
  | ok response => exact ⟨_, rfl, rfl, rfl⟩

/-- An answer is read as its frame. -/
theorem frameEvent_answer {frame : CompletionFrame}
    (htype : envelope.type = messageType envelope.payload) (h : answerOf envelope = some frame) :
    frameEvent time conn now newID publicID (Node.writeJSON time envelope) =
      some (.network (.complete conn frame)) := by
  rw [frameEvent_writeJSON htype]
  unfold answerOf at h
  cases hmessage : serverMessage envelope.payload with
  | hello _ | heartbeat _ | modelList _ =>
      rw [hmessage] at h
      cases h
  | jobResult _ | jobError _ =>
      rw [hmessage] at h
      cases h
      rfl

/-- A frame that completes nothing: it says hello, or nothing that matters here. -/
def Silent (time : TextForm Time) (data : Json) : Prop :=
  ∀ conn now newID publicID e, frameEvent time conn now newID publicID data = some e →
    ∃ payload, e = .hello conn now newID publicID payload

/-- What a node writes of its own accord completes nothing. -/
theorem silent_announcement {announcement : Announcement} {stamp : Node.Stamp Time}
    (h : envelope ∈ announcement.envelopes stamp) : Silent time (Node.writeJSON time envelope) := by
  intro conn now newID publicID e he
  cases announcement with
  | hello instanceKey ollamaURL hostname goos goarch =>
      rw [List.mem_singleton.mp h, frameEvent_writeJSON rfl] at he
      change (if instanceKey = "" then none else _) = _ at he
      split at he
      · cases he
      · cases he
        exact ⟨_, rfl⟩
  | modelList tags =>
      cases tags with
      | error text => cases h
      | ok models =>
          rw [List.mem_singleton.mp h, frameEvent_writeJSON rfl] at he
          cases he
  | heartbeat =>
      rw [List.mem_singleton.mp h, frameEvent_writeJSON rfl] at he
      cases he

end Answer

/-! ## A call for a request -/

/-- A call for a payload, however far it is. -/
def Follows (float : TextForm FiniteFloat) (payload : Option Json)
    (call : Node.Execution Time FiniteFloat) : Prop :=
  call.payload = payload ∧
    (call.stage ≠ .started → call.job = Node.askedJob float payload) ∧
    ∀ written, call.written = some written → ∃ outcome latencyMS stamp,
      written = Node.executeJob float payload (fun _ => outcome) latencyMS stamp

section Follows

variable {payload : Option Json} {call call' : Node.Execution Time FiniteFloat}

theorem follows_started : Follows float payload
    ({ payload, stage := .started } : Node.Execution Time FiniteFloat) :=
  ⟨rfl, fun h => absurd rfl h, fun _ => nofun⟩

theorem Follows.ask (h : Follows float payload call) (hask : call.ask float = some call') :
    Follows float payload call' := by
  obtain ⟨-, rfl⟩ := Node.Execution.ask_eq_some hask
  exact ⟨h.1, fun _ => by rw [← h.1]; rfl, fun _ => nofun⟩

theorem Follows.finish (h : Follows float payload call) {outcome : Node.OllamaOutcome}
    {latencyMS : Int64} {stamp : Node.Stamp Time}
    (hfinish : call.finish float outcome latencyMS stamp = some call') :
    Follows float payload call' ∧ call'.written =
      some (Node.executeJob float payload (fun _ => outcome) latencyMS stamp) := by
  obtain ⟨job, hstage, rfl⟩ := Node.Execution.finish_eq_some hfinish
  obtain ⟨rfl, hjob, -⟩ := h
  have hasked : call.job = Node.askedJob float call.payload := hjob (by simp [hstage])
  refine ⟨⟨rfl, fun _ => ?_, ?_⟩, rfl⟩
  · rw [← hasked]
    simp [Node.Execution.job, hstage]
  · rintro written ⟨⟩
    exact ⟨outcome, latencyMS, stamp, rfl⟩

/-- A call that can still move has written nothing. -/
theorem written_of_running (h : call.running = true) : call.written = none := by
  obtain ⟨payload, stage⟩ := call
  cases stage with
  | returned job written => cases h
  | started | asked _ => rfl

end Follows

end Nuvonode.Fleet
