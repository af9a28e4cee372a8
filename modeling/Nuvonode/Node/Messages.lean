/-
  Node/Messages.lean --- the node's side of the messages, with their tags.

  From `provider-node/internal/protocol/messages.go`.  The types are declared apart
  from the server's; what the node sends has a writer and what it receives a reader.
-/
import Nuvonode.Foundation.Json

set_option autoImplicit false

namespace Nuvonode.Node

open Nuvonode.Foundation

/-! ## What a node sends -/

/-- An envelope; the last parameter is what `any` holds. -/
structure Envelope (Time α : Type) where
  type : String
  messageID : String
  sentAt : Time
  payload : α

structure HelloPayload where
  instanceKey : String
  appVersion : String
  hostname : String
  os : String
  arch : String
  ollamaURL : String
  deriving DecidableEq

structure RuntimeModelEntry where
  runtimeModelName : String
  digest : String
  sizeBytes : Int64
  deriving DecidableEq

structure ModelListPayload where
  runtime : String
  models : List RuntimeModelEntry
  deriving DecidableEq

structure HeartbeatPayload where
  status : String
  currentJobID : Option String
  queueDepth : Int64
  gpuUtilizationPercent : Option Int64
  gpuTemperatureC : Option Int64
  availableVRAMMB : Option Int64
  deriving DecidableEq

structure JobUsage where
  promptTokens : Int64
  completionTokens : Int64
  totalTokens : Int64
  source : String
  deriving DecidableEq

structure JobResultPayload where
  jobID : String
  content : String
  finishReason : String
  usage : Option JobUsage
  latencyMS : Int64
  deriving DecidableEq

structure JobErrorPayload where
  jobID : String
  errorCode : String
  errorMessage : String
  deriving DecidableEq

/-- The payloads that a node sends. -/
inductive Payload where
  | hello (payload : HelloPayload)
  | modelList (payload : ModelListPayload)
  | heartbeat (payload : HeartbeatPayload)
  | jobResult (payload : JobResultPayload)
  | jobError (payload : JobErrorPayload)
  deriving DecidableEq

section Writers

def helloFields : List (WriteField HelloPayload) :=
  [ .tag .text "instance_key" (·.instanceKey), .tag .text "app_version" (·.appVersion),
    .tag .text "hostname" (·.hostname), .tag .text "os" (·.os), .tag .text "arch" (·.arch),
    .tag .text "ollama_url" (·.ollamaURL) ]

def runtimeModelFields : List (WriteField RuntimeModelEntry) :=
  [ .tag .text "runtime_model_name" (·.runtimeModelName), .omitEmpty .text "digest" (·.digest),
    .omitEmpty .int "size_bytes" (·.sizeBytes) ]

def modelListFields : List (WriteField ModelListPayload) :=
  [ .tag .text "runtime" (·.runtime),
    .tag (Writer.struct runtimeModelFields).slice "models" (·.models) ]

def heartbeatFields : List (WriteField HeartbeatPayload) :=
  [ .tag .text "status" (·.status), .tag Writer.text.pointer "current_job_id" (·.currentJobID),
    .tag .int "queue_depth" (·.queueDepth),
    .omitEmpty Writer.int.pointer "gpu_utilization_percent" (·.gpuUtilizationPercent),
    .omitEmpty Writer.int.pointer "gpu_temperature_c" (·.gpuTemperatureC),
    .omitEmpty Writer.int.pointer "available_vram_mb" (·.availableVRAMMB) ]

def jobUsageFields : List (WriteField JobUsage) :=
  [ .tag .int "prompt_tokens" (·.promptTokens),
    .tag .int "completion_tokens" (·.completionTokens),
    .tag .int "total_tokens" (·.totalTokens), .tag .text "source" (·.source) ]

def jobResultFields : List (WriteField JobResultPayload) :=
  [ .tag .text "job_id" (·.jobID), .tag .text "content" (·.content),
    .tag .text "finish_reason" (·.finishReason),
    .omitEmpty (Writer.struct jobUsageFields).pointer "usage" (·.usage),
    .tag .int "latency_ms" (·.latencyMS) ]

def jobErrorFields : List (WriteField JobErrorPayload) :=
  [ .tag .text "job_id" (·.jobID), .tag .text "error_code" (·.errorCode),
    .tag .text "error_message" (·.errorMessage) ]

def payloadWriter : Writer Payload where
  encode
    | .hello payload => (Writer.struct helloFields).encode payload
    | .modelList payload => (Writer.struct modelListFields).encode payload
    | .heartbeat payload => (Writer.struct heartbeatFields).encode payload
    | .jobResult payload => (Writer.struct jobResultFields).encode payload
    | .jobError payload => (Writer.struct jobErrorFields).encode payload
  isEmpty := fun _ => false

def envelopeFields {Time : Type} (time : TextForm Time) :
    List (WriteField (Envelope Time Payload)) :=
  [ .tag .text "type" Envelope.type, .omitEmpty .text "message_id" Envelope.messageID,
    .omitEmpty (.time time) "sent_at" Envelope.sentAt,
    .tag payloadWriter "payload" Envelope.payload ]

end Writers

/-! ## What a node receives -/

structure ChatMessage where
  role : String
  content : String
  deriving DecidableEq

structure JobParameters (F : Type) where
  temperature : Option F
  maxTokens : Int64
  topP : Option F

structure JobRequestPayload (F : Type) where
  jobID : String
  modelSlug : String
  runtime : String
  runtimeModelName : String
  messages : List ChatMessage
  parameters : JobParameters F
  timeoutSeconds : Int64

section Readers

variable {Time F : Type} (time : TextForm Time) (float : TextForm F)

def chatMessageReader : Reader ChatMessage :=
  .struct { role := "", content := "" }
    [ .tag .text "role" (·.role) fun m role => { m with role },
      .tag .text "content" (·.content) fun m content => { m with content } ]

def jobParametersReader : Reader (JobParameters F) :=
  .struct { temperature := none, maxTokens := 0, topP := none }
    [ .tag (Reader.float float).pointer "temperature" (·.temperature)
        fun p temperature => { p with temperature },
      .tag .int "max_tokens" (·.maxTokens) fun p maxTokens => { p with maxTokens },
      .tag (Reader.float float).pointer "top_p" (·.topP) fun p topP => { p with topP } ]

def jobRequestReader : Reader (JobRequestPayload F) :=
  .struct
    { jobID := "", modelSlug := "", runtime := "", runtimeModelName := "", messages := [],
      parameters := (jobParametersReader float).zero, timeoutSeconds := 0 }
    [ .tag .text "job_id" (·.jobID) fun p jobID => { p with jobID },
      .tag .text "model_slug" (·.modelSlug) fun p modelSlug => { p with modelSlug },
      .tag .text "runtime" (·.runtime) fun p runtime => { p with runtime },
      .tag .text "runtime_model_name" (·.runtimeModelName)
        fun p runtimeModelName => { p with runtimeModelName },
      .tag chatMessageReader.slice "messages" (·.messages)
        fun p messages => { p with messages },
      .tag (jobParametersReader float) "parameters" (·.parameters)
        fun p parameters => { p with parameters },
      .tag .int "timeout_seconds" (·.timeoutSeconds)
        fun p timeoutSeconds => { p with timeoutSeconds } ]

/-- `DecodeEnvelope`; the payload is a `json.RawMessage`. -/
def decodeEnvelope (data : Json) : Option (Envelope Time (Option Json)) :=
  (Reader.struct { type := "", messageID := "", sentAt := time.zero, payload := none }
    [ .tag .text "type" Envelope.type fun e type => { e with type },
      .tag .text "message_id" Envelope.messageID fun e messageID => { e with messageID },
      .tag (.time time) "sent_at" Envelope.sentAt fun e sentAt => { e with sentAt },
      .tag .raw "payload" Envelope.payload fun e payload => { e with payload } ]).unmarshal
    (some data)

end Readers

end Nuvonode.Node
