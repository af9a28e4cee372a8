/-
  Contract/Messages.lean --- the server and the nodes speak the same protocol.

  Each message type is declared twice, with tags of its own on either side.  Struct by
  struct, what the fields of the one side write is read by the fields of the other;
  from that, a dispatched job reaches the node as it was built, the node answers it
  once whatever Ollama does, and the server recovers everything that a node sends.
-/
import Nuvonode.Handler.Chat
import Nuvonode.Node.Serve
import Nuvonode.Ws.Wire

set_option autoImplicit false

namespace Nuvonode.Contract

open Nuvonode.Foundation Nuvonode.Ws.Wire Nuvonode.Node

variable {Time F : Type} {time : TextForm Time} {float : TextForm F}

/-! ## From the server to a node -/

section Request

theorem chatMessage_recovered (message : Ws.ChatMessage) :
    chatMessageReader.decode ((Writer.struct chatMessageFields).encode message)
        chatMessageReader.zero =
      some { role := message.role, content := message.content } := by
  rw [chatMessageReader, chatMessageFields, Reader.struct_decode,
    readMembers_tag rfl (Reader.text_decode _ _), readMembers_tag rfl (Reader.text_decode _ _)]
  rfl

/-- The map of the parameters is written in the order of its keys. -/
theorem parameters_encode (temperature : Option F) (maxTokens : Int64) :
    (parameterWriter float).map.encode
        [("temperature", .float temperature), ("max_tokens", .int maxTokens)] =
      .object [("max_tokens", Writer.int.encode maxTokens),
        ("temperature", (Writer.float float).pointer.encode temperature)] := by
  have horder : ¬ "temperature" ≤ "max_tokens" := by decide
  simp [Writer.map, List.insertionSort, List.orderedInsert, horder, parameterWriter]

/-- The job that a node is asked for by a payload. -/
def chatJob (jobPublicID slug runtimeModelName : String) (messages : List Ws.ChatMessage)
    (temperature : Option F) (maxTokens timeoutSeconds : Int64) : Node.JobRequestPayload F where
  jobID := jobPublicID
  modelSlug := slug
  runtime := "ollama"
  runtimeModelName := runtimeModelName
  messages := messages.map fun message => { role := message.role, content := message.content }
  parameters := { temperature := temperature, maxTokens := maxTokens, topP := none }
  timeoutSeconds := timeoutSeconds

variable {jobPublicID slug runtimeModelName : String} {messages : List Ws.ChatMessage}
  {temperature : Option F} {maxTokens timeoutSeconds : Int64} {now : Time}

theorem parameters_recovered (old : JobParameters F) :
    (jobParametersReader float).decode
        ((parameterWriter float).map.encode
          (chatPayload jobPublicID slug runtimeModelName messages temperature maxTokens
            timeoutSeconds).parameters)
        old =
      some { temperature := temperature, maxTokens := maxTokens, topP := old.topP } := by
  rw [chatPayload, parameters_encode]
  change readMembers _ _ _ = _
  rw [readMembers_cons rfl (Reader.int_decode _ _),
    readMembers_cons rfl ((recovers_float float).pointer temperature _), Option.map_id]
  rfl

theorem jobRequest_recovered :
    (jobRequestReader float).decode
        ((Writer.struct (jobRequestFields float)).encode
          (chatPayload jobPublicID slug runtimeModelName messages temperature maxTokens
            timeoutSeconds))
        (jobRequestReader float).zero =
      some (chatJob jobPublicID slug runtimeModelName messages temperature maxTokens
        timeoutSeconds) := by
  rw [jobRequestReader, jobRequestFields, Reader.struct_decode,
    readMembers_tag rfl (Reader.text_decode _ _), readMembers_tag rfl (Reader.text_decode _ _),
    readMembers_tag rfl (Reader.text_decode _ _), readMembers_tag rfl (Reader.text_decode _ _),
    readMembers_tag rfl (Reader.slice_decode chatMessage_recovered _),
    readMembers_tag rfl (parameters_recovered _),
    readMembers_tag rfl (Reader.int_decode _ _)]
  rfl

/-- A payload with its parameters as fields, as the completion of a request has it. -/
def flattened (payload : Ws.Wire.JobRequestPayload Ws.FiniteFloat) : Ws.JobRequestPayload where
  jobID := payload.jobID
  modelSlug := payload.modelSlug
  runtime := payload.runtime
  runtimeModelName := payload.runtimeModelName
  messages := payload.messages
  temperature :=
    match payload.parameters.lookup "temperature" with
    | some (.float temperature) => temperature
    | _ => none
  maxTokens :=
    match payload.parameters.lookup "max_tokens" with
    | some (.int n) => n.toInt
    | _ => 0
  timeoutSeconds := payload.timeoutSeconds.toInt

/-- The payload of a completion is the one on the wire. -/
theorem flattened_chatPayload {job : Handler.ChatJob} {cfg : Service.Config}
    (hmax : maxTokens.toInt = job.maxTokens)
    (htimeout : timeoutSeconds.toInt = cfg.jobTimeoutSeconds) :
    flattened (chatPayload job.publicID job.model.slug job.route.runtimeModelName
      job.request.messages job.request.temperature maxTokens timeoutSeconds) =
        job.payload cfg := by
  rw [Handler.ChatJob.payload, ← hmax, ← htimeout]
  rfl

/-- The envelope of a dispatched job, as a node decodes it. -/
theorem jobPayload_dispatch (payload : Ws.Wire.JobRequestPayload F) :
    jobPayload time (dispatch time float now payload) =
      some (some ((Writer.struct (jobRequestFields float)).encode payload)) := by
  have henvelope : decodeEnvelope time (dispatch time float now payload) =
      some { type := "server.job_request"
             messageID := "msg_" ++ payload.jobID
             sentAt := now
             payload := some ((Writer.struct (jobRequestFields float)).encode payload) } := by
    rw [decodeEnvelope, dispatch, Reader.unmarshal, jobRequestMessageFields, Reader.struct_decode,
      readMembers_tag rfl (Reader.text_decode _ _), readMembers_tag rfl (Reader.text_decode _ _),
      readMembers_tag rfl (Reader.time_decode time _ _), readMembers_tag rfl rfl]
    rfl
  rw [jobPayload, henvelope]
  rfl

/-- **A dispatched job reaches the node as it was built.** -/
theorem decodeJob_dispatch :
    decodeJob time float
        (dispatch time float now
          (chatPayload jobPublicID slug runtimeModelName messages temperature maxTokens
            timeoutSeconds)) =
      some (chatJob jobPublicID slug runtimeModelName messages temperature maxTokens
        timeoutSeconds) := by
  rw [decodeJob, jobPayload_dispatch]
  exact jobRequest_recovered

end Request

/-! ## From a node to the server -/

/-- A usage as the server has it. -/
def serverUsage (usage : Node.JobUsage) : Ws.JobUsage where
  promptTokens := usage.promptTokens
  completionTokens := usage.completionTokens
  totalTokens := usage.totalTokens
  source := usage.source

/-- An entry of a model list as the server has it. -/
def serverModel (entry : Node.RuntimeModelEntry) : Ws.RuntimeModelEntry where
  runtimeModelName := entry.runtimeModelName
  digest := entry.digest
  sizeBytes := entry.sizeBytes

/-- Every field of a payload, in the types of the server. -/
def serverMessage : Payload → Message
  | .hello payload => .hello
      { instanceKey := payload.instanceKey
        appVersion := payload.appVersion
        hostname := payload.hostname
        os := payload.os
        arch := payload.arch
        ollamaURL := payload.ollamaURL }
  | .modelList payload => .modelList
      { runtime := payload.runtime
        models := payload.models.map serverModel }
  | .heartbeat payload => .heartbeat
      { status := payload.status
        currentJobID := payload.currentJobID
        queueDepth := payload.queueDepth
        gpuUtilizationPercent := payload.gpuUtilizationPercent
        gpuTemperatureC := payload.gpuTemperatureC
        availableVRAMMB := payload.availableVRAMMB }
  | .jobResult payload => .jobResult
      { jobID := payload.jobID
        content := payload.content
        finishReason := payload.finishReason
        usage := payload.usage.map serverUsage
        latencyMS := payload.latencyMS
        errorCode := ""
        errorMessage := "" }
  | .jobError payload => .jobError
      { jobID := payload.jobID
        errorCode := payload.errorCode
        errorMessage := payload.errorMessage }

/-- The type that a payload is sent under. -/
def messageType : Payload → String
  | .hello _ => "provider.hello"
  | .modelList _ => "provider.model_list"
  | .heartbeat _ => "provider.heartbeat"
  | .jobResult _ => "provider.job_result"
  | .jobError _ => "provider.job_error"

section Payloads

theorem eq_of_isEmpty_text {text : String} (h : Writer.text.isEmpty text = true) : text = "" :=
  of_decide_eq_true h

theorem eq_of_isEmpty_int {n : Int64} (h : Writer.int.isEmpty n = true) : n = 0 :=
  of_decide_eq_true h

theorem eq_of_isEmpty_pointer {α : Type} {writer : Writer α} {a : Option α}
    (h : writer.pointer.isEmpty a = true) : a = none := Option.isNone_iff_eq_none.mp h

theorem hello_recovered (payload : Node.HelloPayload) :
    helloReader.unmarshal (some ((Writer.struct helloFields).encode payload)) =
      some { instanceKey := payload.instanceKey
             appVersion := payload.appVersion
             hostname := payload.hostname
             os := payload.os
             arch := payload.arch
             ollamaURL := payload.ollamaURL } := by
  rw [Reader.unmarshal, helloReader, helloFields, Reader.struct_decode,
    readMembers_tag rfl (Reader.text_decode _ _), readMembers_tag rfl (Reader.text_decode _ _),
    readMembers_tag rfl (Reader.text_decode _ _), readMembers_tag rfl (Reader.text_decode _ _),
    readMembers_tag rfl (Reader.text_decode _ _), readMembers_tag rfl (Reader.text_decode _ _)]
  rfl

/-- An entry without a digest or a size has none where it is read. -/
theorem runtimeModel_recovered (entry : Node.RuntimeModelEntry) :
    runtimeModelReader.decode ((Writer.struct runtimeModelFields).encode entry)
        runtimeModelReader.zero = some (serverModel entry) := by
  rw [runtimeModelReader, runtimeModelFields, Reader.struct_decode,
    readMembers_tag rfl (Reader.text_decode _ _),
    readMembers_omitEmpty rfl (Reader.text_decode _ _)
      fun hempty => by rw [eq_of_isEmpty_text hempty]; rfl,
    readMembers_omitEmpty rfl (Reader.int_decode _ _)
      fun hempty => by rw [eq_of_isEmpty_int hempty]; rfl]
  rfl

theorem modelList_recovered (payload : Node.ModelListPayload) :
    modelListReader.unmarshal (some ((Writer.struct modelListFields).encode payload)) =
      some { runtime := payload.runtime, models := payload.models.map serverModel } := by
  rw [Reader.unmarshal, modelListReader, modelListFields, Reader.struct_decode,
    readMembers_tag rfl (Reader.text_decode _ _),
    readMembers_tag rfl (Reader.slice_decode runtimeModel_recovered _)]
  rfl

/-- A reading that is left out stays absent, as it was sent. -/
theorem heartbeat_recovered (payload : Node.HeartbeatPayload) :
    heartbeatReader.unmarshal (some ((Writer.struct heartbeatFields).encode payload)) =
      some { status := payload.status
             currentJobID := payload.currentJobID
             queueDepth := payload.queueDepth
             gpuUtilizationPercent := payload.gpuUtilizationPercent
             gpuTemperatureC := payload.gpuTemperatureC
             availableVRAMMB := payload.availableVRAMMB } := by
  rw [Reader.unmarshal, heartbeatReader, heartbeatFields, Reader.struct_decode,
    readMembers_tag rfl (Reader.text_decode _ _),
    readMembers_tag rfl (recovers_text.pointer _ _),
    readMembers_tag rfl (Reader.int_decode _ _),
    readMembers_omitEmpty rfl (recovers_int.pointer _ _)
      fun hempty => by rw [eq_of_isEmpty_pointer hempty]; rfl,
    readMembers_omitEmpty rfl (recovers_int.pointer _ _)
      fun hempty => by rw [eq_of_isEmpty_pointer hempty]; rfl,
    readMembers_omitEmpty rfl (recovers_int.pointer _ _)
      fun hempty => by rw [eq_of_isEmpty_pointer hempty]; rfl]
  simp only [Option.map_id, id]
  rfl

theorem jobUsage_recovers : Recovers (Writer.struct jobUsageFields) jobUsageReader serverUsage := by
  intro usage old
  refine ⟨Json.noConfusion, ?_⟩
  rw [jobUsageReader, jobUsageFields, Reader.struct_decode,
    readMembers_tag rfl (Reader.int_decode _ _), readMembers_tag rfl (Reader.int_decode _ _),
    readMembers_tag rfl (Reader.int_decode _ _), readMembers_tag rfl (Reader.text_decode _ _)]
  rfl

theorem jobResult_recovered (payload : Node.JobResultPayload) :
    jobResultReader.unmarshal (some ((Writer.struct jobResultFields).encode payload)) =
      some { jobID := payload.jobID
             content := payload.content
             finishReason := payload.finishReason
             usage := payload.usage.map serverUsage
             latencyMS := payload.latencyMS
             errorCode := ""
             errorMessage := "" } := by
  rw [Reader.unmarshal, jobResultReader, jobResultFields, Reader.struct_decode,
    readMembers_tag rfl (Reader.text_decode _ _), readMembers_tag rfl (Reader.text_decode _ _),
    readMembers_tag rfl (Reader.text_decode _ _),
    readMembers_omitEmpty rfl (jobUsage_recovers.pointer _ _)
      fun hempty => by rw [eq_of_isEmpty_pointer hempty]; rfl,
    readMembers_tag rfl (Reader.int_decode _ _)]
  rfl

theorem jobError_recovered (payload : Node.JobErrorPayload) :
    jobErrorReader.unmarshal (some ((Writer.struct jobErrorFields).encode payload)) =
      some { jobID := payload.jobID
             errorCode := payload.errorCode
             errorMessage := payload.errorMessage } := by
  rw [Reader.unmarshal, jobErrorReader, jobErrorFields, Reader.struct_decode,
    readMembers_tag rfl (Reader.text_decode _ _), readMembers_tag rfl (Reader.text_decode _ _),
    readMembers_tag rfl (Reader.text_decode _ _)]
  rfl

/-- A payload is read under the type that it is sent under. -/
theorem readPayload_encode (payload : Payload) :
    readPayload (messageType payload) (some (payloadWriter.encode payload)) =
      some (serverMessage payload) := by
  cases payload with
  | hello payload => exact congrArg (Option.map Message.hello) (hello_recovered payload)
  | modelList payload =>
      exact congrArg (Option.map Message.modelList) (modelList_recovered payload)
  | heartbeat payload =>
      exact congrArg (Option.map Message.heartbeat) (heartbeat_recovered payload)
  | jobResult payload =>
      exact congrArg (Option.map Message.jobResult) (jobResult_recovered payload)
  | jobError payload => exact congrArg (Option.map Message.jobError) (jobError_recovered payload)

end Payloads

/-! ## Envelopes -/

section Envelopes

/-- What the server makes of an envelope that a node wrote. -/
def serverReceived (envelope : Node.Envelope Time Payload) : Received Time where
  type := envelope.type
  messageID := envelope.messageID
  sentAt := envelope.sentAt
  message := serverMessage envelope.payload

theorem receive_writeJSON {envelope : Node.Envelope Time Payload}
    (h : envelope.type = messageType envelope.payload) :
    receive time (writeJSON time envelope) = some (serverReceived envelope) := by
  have henvelope : (envelopeReader time).unmarshal (some (writeJSON time envelope)) =
      some { type := envelope.type
             messageID := envelope.messageID
             sentAt := envelope.sentAt
             payload := some (payloadWriter.encode envelope.payload) } := by
    rw [Reader.unmarshal, writeJSON, envelopeReader, envelopeFields, Reader.struct_decode,
      readMembers_tag rfl (Reader.text_decode _ _),
      readMembers_omitEmpty rfl (Reader.text_decode _ _)
        fun hempty => by rw [eq_of_isEmpty_text hempty]; rfl,
      readMembers_omitEmpty rfl (Reader.time_decode time _ _)
        fun hempty => absurd hempty Bool.false_ne_true,
      readMembers_tag rfl rfl]
    rfl
  have hpayload : readPayload envelope.type (some (payloadWriter.encode envelope.payload)) =
      some (serverMessage envelope.payload) := by
    rw [h]
    exact readPayload_encode envelope.payload
  rw [receive, henvelope, Option.bind_some, hpayload]
  rfl

/-- Whether an envelope answers a job. -/
def Answers (jobID : String) (envelope : Node.Envelope Time Payload) : Prop :=
  (∃ result : Node.JobResultPayload, envelope.type = "provider.job_result" ∧
    envelope.payload = .jobResult result ∧ result.jobID = jobID) ∨
  ∃ error : Node.JobErrorPayload, envelope.type = "provider.job_error" ∧
    envelope.payload = .jobError error ∧ error.jobID = jobID

/-- A job that decodes is answered once, at each exit of `executeJob`. -/
theorem executeJob_answers {payload : Option Json} {job : Node.JobRequestPayload F}
    (hjob : (jobRequestReader float).unmarshal payload = some job)
    (ollama : OllamaChatRequest F → OllamaOutcome) (latencyMS : Int64) (stamp : Stamp Time) :
    ∃ envelope, executeJob float payload ollama latencyMS stamp = [envelope] ∧
      Answers job.jobID envelope := by
  rw [executeJob, hjob]
  by_cases hruntime : job.runtime ≠ "ollama"
  · simp only [if_pos hruntime]
    exact ⟨_, rfl, .inr ⟨_, rfl, rfl, rfl⟩⟩
  · simp only [if_neg hruntime]
    cases (ollama job.chatRequest).chat with
    | error text => exact ⟨_, rfl, .inr ⟨_, rfl, rfl, rfl⟩⟩
    | ok response => exact ⟨_, rfl, .inl ⟨_, rfl, rfl, rfl⟩⟩

theorem Answers.type_eq {jobID : String} {envelope : Node.Envelope Time Payload}
    (h : Answers jobID envelope) : envelope.type = messageType envelope.payload := by
  rcases h with ⟨result, htype, hpayload, -⟩ | ⟨error, htype, hpayload, -⟩
  · rw [htype, hpayload]
    rfl
  · rw [htype, hpayload]
    rfl

/-- Everything that a session writes has the type of its payload. -/
theorem Sends.type_eq {envelope : Node.Envelope Time Payload} (h : Sends time float envelope) :
    envelope.type = messageType envelope.payload := by
  cases h with
  | hello stamp instanceKey ollamaURL hostname goos goarch => rfl
  | modelList stamp tags hmem =>
      cases tags with
      | error text => cases hmem
      | ok models =>
          rw [List.mem_singleton.mp hmem]
          rfl
  | heartbeat stamp => rfl
  | job data ollama latencyMS stamp hmem =>
      unfold readMessage at hmem
      cases hpayload : jobPayload time data with
      | none =>
          rw [hpayload] at hmem
          cases hmem
      | some payload =>
          rw [hpayload] at hmem
          cases hjob : (jobRequestReader float).unmarshal payload with
          | none =>
              simp only [executeJob, hjob] at hmem
              cases hmem
          | some job =>
              obtain ⟨answer, hlist, hanswers⟩ := executeJob_answers hjob ollama latencyMS stamp
              simp only [hlist, List.mem_singleton] at hmem
              exact hmem ▸ hanswers.type_eq

end Envelopes

/-- **The two programs speak the same protocol.** -/
theorem programs_agree {Time F : Type} (time : TextForm Time) (float : TextForm F) :
    (∀ (jobPublicID slug runtimeModelName : String) (messages : List Ws.ChatMessage)
        (temperature : Option F) (maxTokens timeoutSeconds : Int64) (now : Time),
      let payload := chatPayload jobPublicID slug runtimeModelName messages temperature maxTokens
        timeoutSeconds
      decodeJob time float (dispatch time float now payload) =
          some (chatJob jobPublicID slug runtimeModelName messages temperature maxTokens
            timeoutSeconds) ∧
        ∀ (ollama : OllamaChatRequest F → OllamaOutcome) (latencyMS : Int64) (stamp : Stamp Time),
          ∃ envelope,
            readMessage time float (dispatch time float now payload) ollama latencyMS stamp =
                [envelope] ∧
              Answers jobPublicID envelope) ∧
      ∀ envelope, Sends time float envelope →
        receive time (writeJSON time envelope) = some (serverReceived envelope) := by
  refine ⟨?_, fun envelope hsends => receive_writeJSON (Sends.type_eq hsends)⟩
  intro jobPublicID slug runtimeModelName messages temperature maxTokens timeoutSeconds now payload
  refine ⟨decodeJob_dispatch, fun ollama latencyMS stamp => ?_⟩
  have hjob : (jobRequestReader float).unmarshal
      (some ((Writer.struct (jobRequestFields float)).encode payload)) =
        some (chatJob jobPublicID slug runtimeModelName messages temperature maxTokens
          timeoutSeconds) := jobRequest_recovered
  rw [readMessage, jobPayload_dispatch]
  exact executeJob_answers hjob ollama latencyMS stamp

/-- A clock with one time. -/
def sampleTime : TextForm Unit where
  format := fun _ => "2026-01-01T00:00:00Z".toList
  parse := fun text => if text = "2026-01-01T00:00:00Z".toList then some () else none
  parse_format := fun _ => if_pos rfl
  zero := ()

/-- The temperatures zero and a half. -/
def sampleFloat : TextForm Bool where
  format := fun half => if half then "0.5".toList else "0".toList
  parse := fun literal =>
    if literal = "0.5".toList then some true else if literal = "0".toList then some false else none
  parse_format := by decide
  zero := false

/-- A request with a temperature reaches the node, and a heartbeat the server. -/
theorem sample_messages_agree :
    decodeJob sampleTime sampleFloat
        (dispatch sampleTime sampleFloat ()
          (chatPayload "job_1" "qwen" "qwen:7b" [{ role := "user", content := "ping" }]
            (some true) 8 120)) =
        some (chatJob "job_1" "qwen" "qwen:7b" [{ role := "user", content := "ping" }] (some true) 8
          120) ∧
      receive sampleTime (writeJSON sampleTime (sendHeartbeat ⟨"1", ()⟩)) =
        some (serverReceived (sendHeartbeat ⟨"1", ()⟩)) := by
  obtain ⟨hrequests, hsends⟩ := programs_agree sampleTime sampleFloat
  exact ⟨(hrequests "job_1" "qwen" "qwen:7b" [{ role := "user", content := "ping" }] (some true) 8
    120 ()).1, hsends _ (.heartbeat ⟨"1", ()⟩)⟩

end Nuvonode.Contract
