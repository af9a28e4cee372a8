/-
  Ws/Protocol.lean --- the messages between the server and a provider's node.

  From `ws/hub.go` and `ws/protocol.go`.  Go's `int` is an `Int64`, so a message
  whose numbers do not decode cannot be written down; such a message is ignored by
  the source.  A `provider.job_result` has no error fields of its own: they are
  not part of its JSON, and only the completion of a `provider.job_error` sets them.
-/
set_option autoImplicit false

namespace Nuvonode.Ws

structure ChatMessage where
  role : String
  content : String
  deriving DecidableEq

/-- A `float64` that JSON can carry, which is neither infinite nor `NaN`, by its bits. -/
structure FiniteFloat where
  bits : BitVec 64
  finite : bits.extractLsb' 52 11 ≠ BitVec.allOnes 11
  deriving DecidableEq

/-- The payload of a `server.job_request`. -/
structure JobRequestPayload where
  jobID : String
  modelSlug : String
  runtime : String
  runtimeModelName : String
  messages : List ChatMessage
  temperature : Option FiniteFloat
  maxTokens : Int
  timeoutSeconds : Int
  deriving DecidableEq

structure JobUsage where
  promptTokens : Int64
  completionTokens : Int64
  totalTokens : Int64
  source : String
  deriving DecidableEq

/-- What the hub hands to the request that waits for a job. -/
structure JobResultPayload where
  jobID : String
  content : String
  finishReason : String
  usage : Option JobUsage
  latencyMS : Int64
  errorCode : String
  errorMessage : String
  deriving DecidableEq

/-- The frames that complete a job. -/
inductive CompletionFrame where
  | jobResult (jobID content finishReason : String) (usage : Option JobUsage) (latencyMS : Int64)
  | jobError (jobID errorCode errorMessage : String)
  deriving DecidableEq

/-- The job a frame names. -/
def CompletionFrame.jobID : CompletionFrame → String
  | .jobResult jobID _ _ _ _ => jobID
  | .jobError jobID _ _ => jobID

/-- The payload that `ProviderWS` completes the job with. -/
def CompletionFrame.payload : CompletionFrame → JobResultPayload
  | .jobResult jobID content finishReason usage latencyMS =>
      { jobID, content, finishReason, usage, latencyMS, errorCode := "", errorMessage := "" }
  | .jobError jobID errorCode errorMessage =>
      { jobID, content := "", finishReason := "", usage := none, latencyMS := 0, errorCode,
        errorMessage }

@[simp] theorem CompletionFrame.payload_jobID (frame : CompletionFrame) :
    frame.payload.jobID = frame.jobID := by
  cases frame <;> rfl

/-- The payload of a `provider.hello`, but for the address of its Ollama. -/
structure HelloPayload where
  instanceKey : String
  appVersion : String
  hostname : String
  os : String
  arch : String
  deriving DecidableEq

structure HeartbeatPayload where
  status : String
  currentJobID : Option String
  queueDepth : Int64
  gpuUtilizationPercent : Option Int64
  gpuTemperatureC : Option Int64
  availableVRAMMB : Option Int64
  deriving DecidableEq

structure RuntimeModelEntry where
  runtimeModelName : String
  digest : String
  sizeBytes : Int64
  deriving DecidableEq

structure ModelListPayload where
  runtime : String
  models : List RuntimeModelEntry
  deriving DecidableEq

structure GPUReport where
  name : String
  vramMB : Int64
  driver : String
  deriving DecidableEq

/-- The payload of a `provider.hardware_report`, but for the raw report. -/
structure HardwareReportPayload where
  cpuModel : String
  ramMB : Int64
  gpus : List GPUReport
  deriving DecidableEq

/-- The errors of `Hub.Dispatch`: no connection, no answer in time, or what the
connection said when the request was written. -/
inductive DispatchError where
  | providerUnavailable
  | jobTimeout
  | writeFailed (text : String)
  deriving DecidableEq

/-- `err.Error()`. -/
def DispatchError.text : DispatchError → String
  | .providerUnavailable => "provider unavailable"
  | .jobTimeout => "job timeout"
  | .writeFailed text => text

end Nuvonode.Ws
