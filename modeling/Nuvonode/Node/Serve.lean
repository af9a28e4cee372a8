/-
  Node/Serve.lean --- what a node writes to the server, and how it executes a job.

  From `provider-node/internal/node/serve.go` and `ollama/chat.go`.  Of the
  configuration a session reads two texts.  The address of an Ollama is a function
  from requests to outcomes; how long it took and what the clock says are arguments.
-/
import Nuvonode.Node.Messages

set_option autoImplicit false

namespace Nuvonode.Node

open Nuvonode.Foundation

/-! ## Ollama -/

/-- An entry of `/api/tags`. -/
structure OllamaModel where
  name : String
  digest : String
  sizeBytes : Int64
  deriving DecidableEq

/-- The values of the options of a chat: a `float64` and an `int`. -/
inductive OllamaOption (F : Type) where
  | float (value : F)
  | int (n : Int64)

structure OllamaChatRequest (F : Type) where
  model : String
  messages : List ChatMessage
  stream : Bool
  options : List (String × OllamaOption F)

/-- The fields of a `ChatResponse` that a node reads. -/
structure OllamaChatResponse where
  content : String
  promptEvalCount : Int64
  evalCount : Int64
  deriving DecidableEq

/-- What comes of a request to Ollama. -/
inductive OllamaOutcome where
  /-- No response: the request cannot be built or sent, or its time is up. -/
  | failed (text : String)
  /-- A response; an error is that of a body that does not decode. -/
  | answered (status : Int) (body : Except String OllamaChatResponse)

/-- `Client.Chat`, with the text of its error. -/
def OllamaOutcome.chat : OllamaOutcome → Except String OllamaChatResponse
  | .failed text => .error text
  | .answered status body =>
      if status < 200 ∨ 299 < status then
        .error ("ollama chat status " ++ String.ofList (formatInt status))
      else body

/-! ## Envelopes -/

/-- What the clock gives a new envelope: the digits of its message id, and the time. -/
structure Stamp (Time : Type) where
  digits : String
  sentAt : Time

section Serve

variable {Time F : Type}

def newEnvelope (stamp : Stamp Time) (messageType : String) (payload : Payload) :
    Envelope Time Payload where
  type := messageType
  messageID := "msg_" ++ stamp.digits
  sentAt := stamp.sentAt
  payload := payload

def sendHello (stamp : Stamp Time) (instanceKey ollamaURL hostname goos goarch : String) :
    Envelope Time Payload :=
  newEnvelope stamp "provider.hello" <| .hello
    { instanceKey := instanceKey
      appVersion := "dev"
      hostname := hostname
      os := goos
      arch := goarch
      ollamaURL := ollamaURL }

/-- `strings.TrimSuffix`. -/
def trimSuffix (text suffix : String) : String :=
  if suffix.toList.isSuffixOf text.toList then
    String.ofList (text.toList.take (text.length - suffix.length))
  else text

def normalizeRuntimeModelName (name : String) : String := trimSuffix name ":latest"

/-- `sendModelList`, of what `Tags` returns. -/
def sendModelList (stamp : Stamp Time) :
    Except String (List OllamaModel) → List (Envelope Time Payload)
  | .error _ => []
  | .ok models =>
      [newEnvelope stamp "provider.model_list" <| .modelList
        { runtime := "ollama"
          models := models.map fun model =>
            { runtimeModelName := normalizeRuntimeModelName model.name
              digest := model.digest
              sizeBytes := model.sizeBytes } }]

/-- What a tick of `serveOnce` writes. -/
def sendHeartbeat (stamp : Stamp Time) : Envelope Time Payload :=
  newEnvelope stamp "provider.heartbeat" <| .heartbeat
    { status := "online"
      currentJobID := none
      queueDepth := 0
      gpuUtilizationPercent := none
      gpuTemperatureC := none
      availableVRAMMB := none }

/-! ## Jobs -/

/-- The request to Ollama for a job. -/
def JobRequestPayload.chatRequest (job : JobRequestPayload F) : OllamaChatRequest F where
  model := job.runtimeModelName
  messages := job.messages
  stream := false
  options :=
    (match job.parameters.temperature with
      | some temperature => [("temperature", .float temperature)]
      | none => []) ++
    if 0 < job.parameters.maxTokens then [("num_predict", .int job.parameters.maxTokens)] else []

variable (time : TextForm Time) (float : TextForm F)

/-- `executeJob`: the envelopes that it writes. -/
def executeJob (payload : Option Json) (ollama : OllamaChatRequest F → OllamaOutcome)
    (latencyMS : Int64) (stamp : Stamp Time) : List (Envelope Time Payload) :=
  match (jobRequestReader float).unmarshal payload with
  | none => []
  | some job =>
      if job.runtime ≠ "ollama" then
        [newEnvelope stamp "provider.job_error" <| .jobError
          { jobID := job.jobID
            errorCode := "unsupported_runtime"
            errorMessage := "Only Ollama runtime is supported in V1 provider node." }]
      else match (ollama job.chatRequest).chat with
        | .error text =>
            [newEnvelope stamp "provider.job_error" <| .jobError
              { jobID := job.jobID, errorCode := "ollama_failed", errorMessage := text }]
        | .ok response =>
            [newEnvelope stamp "provider.job_result" <| .jobResult
              { jobID := job.jobID
                content := response.content
                finishReason := "stop"
                usage := some
                  { promptTokens := response.promptEvalCount
                    completionTokens := response.evalCount
                    totalTokens := response.promptEvalCount + response.evalCount
                    source := "runtime_reported" }
                latencyMS := latencyMS }]

/-- The payload that `readLoop` starts a job with. -/
def jobPayload (data : Json) : Option (Option Json) :=
  match decodeEnvelope time data with
  | none => none
  | some envelope => if envelope.type = "server.job_request" then some envelope.payload else none

/-- The job that is decoded from a message. -/
def decodeJob (data : Json) : Option (JobRequestPayload F) :=
  (jobPayload time data).bind (jobRequestReader float).unmarshal

/-- What a message of the server makes a node write. -/
def readMessage (data : Json) (ollama : OllamaChatRequest F → OllamaOutcome) (latencyMS : Int64)
    (stamp : Stamp Time) : List (Envelope Time Payload) :=
  match jobPayload time data with
  | none => []
  | some payload => executeJob float payload ollama latencyMS stamp

/-- `conn.WriteJSON` of an envelope. -/
def writeJSON (envelope : Envelope Time Payload) : Json :=
  (Writer.struct (envelopeFields time)).encode envelope

/-- What a session writes. -/
inductive Sends : Envelope Time Payload → Prop
  | hello (stamp : Stamp Time) (instanceKey ollamaURL hostname goos goarch : String) :
      Sends (sendHello stamp instanceKey ollamaURL hostname goos goarch)
  | modelList {envelope : Envelope Time Payload} (stamp : Stamp Time)
      (tags : Except String (List OllamaModel)) (h : envelope ∈ sendModelList stamp tags) :
      Sends envelope
  | heartbeat (stamp : Stamp Time) : Sends (sendHeartbeat stamp)
  | job {envelope : Envelope Time Payload} (data : Json)
      (ollama : OllamaChatRequest F → OllamaOutcome) (latencyMS : Int64) (stamp : Stamp Time)
      (h : envelope ∈ readMessage time float data ollama latencyMS stamp) : Sends envelope

end Serve

end Nuvonode.Node
