/-
  Ws/Wire.lean --- the server's side of the messages, with their tags.

  From `ws/protocol.go`, `ws/hub.go` and the dispatch of `ChatCompletions`.  What the
  server sends has a writer and what it receives has a reader, each field under its
  tag.  A Go string is a text, and a `float64` of a request one that JSON has a number
  for.
-/
import Nuvonode.Foundation.Json
import Nuvonode.Ws.Protocol

set_option autoImplicit false

namespace Nuvonode.Ws.Wire

open Nuvonode.Foundation

/-! ## The request of a job -/

/-- The values of `map[string]any` that a request has: a `*float64` and an `int`. -/
inductive Parameter (F : Type) where
  | float (value : Option F)
  | int (n : Int64)

structure JobRequestPayload (F : Type) where
  jobID : String
  modelSlug : String
  runtime : String
  runtimeModelName : String
  messages : List ChatMessage
  parameters : List (String × Parameter F)
  timeoutSeconds : Int64

/-- The struct that `Hub.Dispatch` writes. -/
structure JobRequestMessage (Time F : Type) where
  type : String
  messageID : String
  sentAt : Time
  payload : JobRequestPayload F

section Request

variable {Time F : Type} (time : TextForm Time) (float : TextForm F)

def chatMessageFields : List (WriteField ChatMessage) :=
  [.tag .text "role" ChatMessage.role, .tag .text "content" ChatMessage.content]

def parameterWriter : Writer (Parameter F) where
  encode
    | .float value => (Writer.float float).pointer.encode value
    | .int n => Writer.int.encode n
  isEmpty := fun _ => false

def jobRequestFields : List (WriteField (JobRequestPayload F)) :=
  [ .tag .text "job_id" JobRequestPayload.jobID,
    .tag .text "model_slug" JobRequestPayload.modelSlug,
    .tag .text "runtime" JobRequestPayload.runtime,
    .tag .text "runtime_model_name" JobRequestPayload.runtimeModelName,
    .tag (Writer.struct chatMessageFields).slice "messages" JobRequestPayload.messages,
    .tag (parameterWriter float).map "parameters" JobRequestPayload.parameters,
    .tag .int "timeout_seconds" JobRequestPayload.timeoutSeconds ]

def jobRequestMessageFields : List (WriteField (JobRequestMessage Time F)) :=
  [ .tag .text "type" JobRequestMessage.type,
    .tag .text "message_id" JobRequestMessage.messageID,
    .tag (.time time) "sent_at" JobRequestMessage.sentAt,
    .tag (.struct (jobRequestFields float)) "payload" JobRequestMessage.payload ]

/-- The payload that `ChatCompletions` dispatches. -/
def chatPayload (jobPublicID slug runtimeModelName : String) (messages : List ChatMessage)
    (temperature : Option F) (maxTokens timeoutSeconds : Int64) : JobRequestPayload F where
  jobID := jobPublicID
  modelSlug := slug
  runtime := "ollama"
  runtimeModelName := runtimeModelName
  messages := messages
  parameters := [("temperature", .float temperature), ("max_tokens", .int maxTokens)]
  timeoutSeconds := timeoutSeconds

/-- What `Hub.Dispatch` writes to the connection. -/
def dispatch (now : Time) (payload : JobRequestPayload F) : Json :=
  (Writer.struct (jobRequestMessageFields time float)).encode
    { type := "server.job_request"
      messageID := "msg_" ++ payload.jobID
      sentAt := now
      payload := payload }

end Request

/-! ## What a node sends -/

structure Envelope (Time : Type) where
  type : String
  messageID : String
  sentAt : Time
  payload : Option Json

/-- The payload of a `provider.hello`, with the address of its Ollama. -/
structure HelloPayload extends Ws.HelloPayload where
  ollamaURL : String
  deriving DecidableEq

structure JobErrorPayload where
  jobID : String
  errorCode : String
  errorMessage : String
  deriving DecidableEq

section Readers

def envelopeReader {Time : Type} (time : TextForm Time) : Reader (Envelope Time) :=
  .struct { type := "", messageID := "", sentAt := time.zero, payload := none }
    [ .tag .text "type" Envelope.type fun e type => { e with type },
      .tag .text "message_id" Envelope.messageID fun e messageID => { e with messageID },
      .tag (.time time) "sent_at" Envelope.sentAt fun e sentAt => { e with sentAt },
      .tag .raw "payload" Envelope.payload fun e payload => { e with payload } ]

def helloReader : Reader HelloPayload :=
  .struct { instanceKey := "", appVersion := "", hostname := "", os := "", arch := "",
            ollamaURL := "" }
    [ .tag .text "instance_key" (·.instanceKey) fun p instanceKey => { p with instanceKey },
      .tag .text "app_version" (·.appVersion) fun p appVersion => { p with appVersion },
      .tag .text "hostname" (·.hostname) fun p hostname => { p with hostname },
      .tag .text "os" (·.os) fun p os => { p with os },
      .tag .text "arch" (·.arch) fun p arch => { p with arch },
      .tag .text "ollama_url" (·.ollamaURL) fun p ollamaURL => { p with ollamaURL } ]

def heartbeatReader : Reader HeartbeatPayload :=
  .struct { status := "", currentJobID := none, queueDepth := 0, gpuUtilizationPercent := none,
            gpuTemperatureC := none, availableVRAMMB := none }
    [ .tag .text "status" (·.status) fun p status => { p with status },
      .tag Reader.text.pointer "current_job_id" (·.currentJobID)
        fun p currentJobID => { p with currentJobID },
      .tag .int "queue_depth" (·.queueDepth) fun p queueDepth => { p with queueDepth },
      .tag Reader.int.pointer "gpu_utilization_percent" (·.gpuUtilizationPercent)
        fun p gpuUtilizationPercent => { p with gpuUtilizationPercent },
      .tag Reader.int.pointer "gpu_temperature_c" (·.gpuTemperatureC)
        fun p gpuTemperatureC => { p with gpuTemperatureC },
      .tag Reader.int.pointer "available_vram_mb" (·.availableVRAMMB)
        fun p availableVRAMMB => { p with availableVRAMMB } ]

def runtimeModelReader : Reader RuntimeModelEntry :=
  .struct { runtimeModelName := "", digest := "", sizeBytes := 0 }
    [ .tag .text "runtime_model_name" (·.runtimeModelName)
        fun e runtimeModelName => { e with runtimeModelName },
      .tag .text "digest" (·.digest) fun e digest => { e with digest },
      .tag .int "size_bytes" (·.sizeBytes) fun e sizeBytes => { e with sizeBytes } ]

def modelListReader : Reader ModelListPayload :=
  .struct { runtime := "", models := [] }
    [ .tag .text "runtime" (·.runtime) fun p runtime => { p with runtime },
      .tag runtimeModelReader.slice "models" (·.models) fun p models => { p with models } ]

def jobUsageReader : Reader JobUsage :=
  .struct { promptTokens := 0, completionTokens := 0, totalTokens := 0, source := "" }
    [ .tag .int "prompt_tokens" (·.promptTokens) fun u promptTokens => { u with promptTokens },
      .tag .int "completion_tokens" (·.completionTokens)
        fun u completionTokens => { u with completionTokens },
      .tag .int "total_tokens" (·.totalTokens) fun u totalTokens => { u with totalTokens },
      .tag .text "source" (·.source) fun u source => { u with source } ]

/-- The two fields of an error have the tag `json:"-"`. -/
def jobResultReader : Reader JobResultPayload :=
  .struct { jobID := "", content := "", finishReason := "", usage := none, latencyMS := 0,
            errorCode := "", errorMessage := "" }
    [ .tag .text "job_id" (·.jobID) fun p jobID => { p with jobID },
      .tag .text "content" (·.content) fun p content => { p with content },
      .tag .text "finish_reason" (·.finishReason) fun p finishReason => { p with finishReason },
      .tag jobUsageReader.pointer "usage" (·.usage) fun p usage => { p with usage },
      .tag .int "latency_ms" (·.latencyMS) fun p latencyMS => { p with latencyMS } ]

def jobErrorReader : Reader JobErrorPayload :=
  .struct { jobID := "", errorCode := "", errorMessage := "" }
    [ .tag .text "job_id" (·.jobID) fun p jobID => { p with jobID },
      .tag .text "error_code" (·.errorCode) fun p errorCode => { p with errorCode },
      .tag .text "error_message" (·.errorMessage) fun p errorMessage => { p with errorMessage } ]

end Readers

/-! ## What the server makes of it -/

/-- A payload as `ProviderWS` decodes it. -/
inductive Message where
  | hello (payload : HelloPayload)
  | heartbeat (payload : HeartbeatPayload)
  | modelList (payload : ModelListPayload)
  | jobResult (payload : JobResultPayload)
  | jobError (payload : JobErrorPayload)
  deriving DecidableEq

/-- A message with the other fields of its envelope. -/
structure Received (Time : Type) where
  type : String
  messageID : String
  sentAt : Time
  message : Message

/-- The payload of a type; the reports of hardware are left out, which no node sends. -/
def readPayload (type : String) (payload : Option Json) : Option Message :=
  match type with
  | "provider.hello" => (helloReader.unmarshal payload).map .hello
  | "provider.heartbeat" => (heartbeatReader.unmarshal payload).map .heartbeat
  | "provider.model_list" => (modelListReader.unmarshal payload).map .modelList
  | "provider.job_result" => (jobResultReader.unmarshal payload).map .jobResult
  | "provider.job_error" => (jobErrorReader.unmarshal payload).map .jobError
  | _ => none

/-- What `ProviderWS` reads from a frame. -/
def receive {Time : Type} (time : TextForm Time) (data : Json) : Option (Received Time) :=
  ((envelopeReader time).unmarshal (some data)).bind fun envelope =>
    (readPayload envelope.type envelope.payload).map fun message =>
      { type := envelope.type
        messageID := envelope.messageID
        sentAt := envelope.sentAt
        message := message }

end Nuvonode.Ws.Wire
