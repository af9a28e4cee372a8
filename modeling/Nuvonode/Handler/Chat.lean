/-
  Handler/Chat.lean --- one chat completion request, statement by statement.

  From `Handler.ChatCompletions` in `handler/handlers.go`, with `httpx/errors.go`
  and the `OpenAIService` of `service/services.go`.  A call is always in a phase:
  what it does next, with what it has found so far.  One step of a call is one
  database statement or transaction, or the return of `Hub.Dispatch`; the checks
  between two statements belong to the step before them.

  A call also keeps a history that no step reads: the job row it created, the
  reservation, release and settlement it committed, and what `Dispatch` returned.
-/
import Nuvonode.Repository.Routing
import Nuvonode.Service.Wallet
import Nuvonode.Ws.Protocol

set_option autoImplicit false

namespace Nuvonode.Handler

open Nuvonode.Foundation Nuvonode.Database Nuvonode.Repository Nuvonode.Service Nuvonode.Ws

/-! ## Requests and responses -/

structure ChatRequest where
  model : String
  messages : List ChatMessage
  maxTokens : Int64
  temperature : Option FiniteFloat
  stream : Bool
  deriving DecidableEq

inductive Response where
  | error (status : Nat) (code message : String)
  | completion (jobPublicID providerPublicID modelSlug content finishReason : String)
      (promptTokens completionTokens totalTokens : ℤ)
  deriving DecidableEq

/-- The HTTP status of a response. -/
def Response.status : Response → Nat
  | .error status _ _ => status
  | .completion .. => 200

/-- The code of an error response. -/
def Response.code : Response → Option String
  | .error _ code _ => some code
  | .completion .. => none

/-- `httpx.Handle`. -/
def handle : Err → Response
  | .notFound => .error 404 "not_found" "Resource not found."
  | .invalidInput => .error 400 "invalid_request" "Invalid request body."
  | .invalidCredentials => .error 401 "unauthorized" "Invalid credentials."
  | .forbidden => .error 403 "forbidden" "Admin access required."
  | .insufficientCredits =>
      .error 402 "insufficient_credits"
        "The project does not have enough credits for this request."
  | .duplicateKey => .error 400 "invalid_request" "Resource already exists."
  | _ => .error 500 "internal_error" "Internal server error."

/-- No error is answered with 200. -/
theorem handle_status (e : Err) : (handle e).status ≠ 200 := by
  cases e <;> decide

/-- The checks of the request body; `none` is a body that does not parse. -/
def validate : Option ChatRequest → Except Response ChatRequest
  | none => .error (.error 400 "invalid_request" "Invalid request body.")
  | some req =>
      if req.stream then
        .error (.error 400 "streaming_not_implemented"
          "Streaming chat completions are planned for V1.1. Send stream=false for V1.")
      else if trimSpace req.model = "" ∨ req.messages = [] then
        .error (.error 400 "invalid_request" "Invalid request body.")
      else if req.messages.any fun m =>
          m.content = "" ∨ m.role ≠ "system" ∧ m.role ≠ "user" ∧ m.role ≠ "assistant" then
        .error (.error 400 "invalid_request" "Invalid request body.")
      else .ok req

/-! ## The `OpenAIService` -/

/-- `auth.ValidAPIKeyFormat`: the prefix, and at least four parts between underscores. -/
def validAPIKeyFormat (token : String) : Bool :=
  "pvn_live_".toList.isPrefixOf token.toList && 4 ≤ token.toList.count '_' + 1

/-- `OpenAIService.ResolveAPIKey`. -/
def resolveAPIKey (P : Platform) (cfg : Config) (token : String) (db : DB) :
    Except Err APIKeyAuth :=
  if validAPIKeyFormat token then resolveKeyHash (P.hashToken cfg.apiKeyPepper token) db
  else .error .invalidCredentials

/-! ## What a request computes -/

/-- A request with the rows it has found. -/
structure ChatJob where
  auth : APIKeyAuth
  request : ChatRequest
  model : ModelRow
  route : RoutableProvider
  publicID : String
  requestID : String
  deriving DecidableEq

namespace ChatJob

/-- The bytes of all messages. -/
def inputChars (job : ChatJob) : ℤ :=
  (job.request.messages.map fun m => (m.content.utf8ByteSize : ℤ)).sum

def inputTokens (job : ChatJob) : ℤ := estimateTokensFromChars job.inputChars

/-- The output tokens to reserve for. -/
def maxTokens (job : ChatJob) : ℤ :=
  if job.request.maxTokens ≤ 0 then job.model.defaultMaxOutputTokens
  else job.request.maxTokens.toInt

def reservedCredits (P : Platform) (job : ChatJob) : Int64 :=
  priceCredits P job.inputTokens job.maxTokens job.model.inputCreditPer1K
    job.model.outputCreditPer1K

/-- The arguments of `OpenAIService.CreateJob`. -/
def spec (P : Platform) (job : ChatJob) : JobSpec where
  publicID := job.publicID
  projectID := job.auth.projectID
  userID := job.auth.userID
  apiKeyID := job.auth.apiKeyID
  modelID := job.model.id
  modelVersionID := job.route.modelVersionID
  providerID := job.route.providerID
  providerInstanceID := job.route.providerInstanceID
  requestID := job.requestID
  inputTokens := job.inputTokens
  outputTokens := job.maxTokens
  reservedCredits := job.reservedCredits P

/-- What is written to the provider. -/
def payload (cfg : Config) (job : ChatJob) : JobRequestPayload where
  jobID := job.publicID
  modelSlug := job.model.slug
  runtime := "ollama"
  runtimeModelName := job.route.runtimeModelName
  messages := job.request.messages
  temperature := job.request.temperature
  maxTokens := job.maxTokens
  timeoutSeconds := cfg.jobTimeoutSeconds

/-- The counts that a result is billed for. -/
def billedTokens (job : ChatJob) (result : JobResultPayload) : ℤ × ℤ × TokenSource :=
  let completionChars : ℤ := result.content.utf8ByteSize
  match result.usage with
  | none => validateReportedTokens job.inputChars completionChars 0 0
  | some usage =>
      validateReportedTokens job.inputChars completionChars usage.promptTokens.toInt
        usage.completionTokens.toInt

/-- The price of a result. -/
def price (P : Platform) (job : ChatJob) (result : JobResultPayload) : Int64 :=
  priceCredits P (job.billedTokens result).1 (job.billedTokens result).2.1
    job.model.inputCreditPer1K job.model.outputCreditPer1K

/-- The cost of a result: its price, but no more than is reserved. -/
def actualCost (P : Platform) (job : ChatJob) (result : JobResultPayload) : Int64 :=
  if job.reservedCredits P < job.price P result then job.reservedCredits P
  else job.price P result

/-- The argument of `WalletService.FinalizeUsage`. -/
def settlement (P : Platform) (job : ChatJob) (walletID jobID : UUID)
    (result : JobResultPayload) : UsageSettlement where
  userWalletID := walletID
  providerPublicID := job.route.providerPublicID
  reservedCredits := job.reservedCredits P
  actualCostCredits := job.actualCost P result
  providerRewardCredits :=
    providerReward P (job.actualCost P result) (binary64 job.model.providerRewardRatio)
  jobID := jobID
  projectID := job.auth.projectID
  userID := job.auth.userID
  modelID := job.model.id
  providerID := job.route.providerID
  providerInstanceID := job.route.providerInstanceID
  inputTokens := (job.billedTokens result).1
  outputTokens := (job.billedTokens result).2.1
  tokenSource := tokenSourceText (job.billedTokens result).2.2
  latencyMS := result.latencyMS.toInt

/-- The answer to a settled request. -/
def completion (job : ChatJob) (result : JobResultPayload) : Response :=
  .completion job.publicID job.route.providerPublicID job.model.slug result.content
    result.finishReason (job.billedTokens result).1 (job.billedTokens result).2.1
    ((job.billedTokens result).1 + (job.billedTokens result).2.1)

/-- The cost of a result is at most the reservation. -/
theorem actualCost_le (P : Platform) (job : ChatJob) (result : JobResultPayload) :
    (job.actualCost P result).toInt ≤ (job.reservedCredits P).toInt := by
  unfold actualCost
  split
  · exact le_refl _
  · rename_i hle
    rw [Int64.lt_iff_toInt_lt] at hle
    omega

/-- The source of the counts is one the table accepts. -/
theorem settlement_sourceText (P : Platform) (job : ChatJob) (walletID jobID : UUID)
    (result : JobResultPayload) :
    ∃ source, tokenSourceOf (job.settlement P walletID jobID result).sourceText = some source := by
  refine ⟨(job.billedTokens result).2.2, ?_⟩
  have htext : ∀ source : TokenSource, tokenSourceText source ≠ "" := by
    intro source
    cases source <;> decide
  rw [UsageSettlement.sourceText, settlement, if_neg (htext _), tokenSourceOf_text]

end ChatJob

/-! ## Failures after the dispatch -/

/-- How a dispatched request fails: why its credits are released, what is written on
the job, and what the caller is told. -/
structure Failure where
  releaseReason : String
  code : String
  message : String
  response : Response
  deriving DecidableEq

/-- `Dispatch` returned an error. -/
def dispatchFailure (e : DispatchError) : Failure where
  releaseReason := "provider_unavailable_release"
  code := "provider_unavailable"
  message := e.text
  response := .error 503 "provider_unavailable"
    "No connected provider is currently available for this model."

/-- The provider reported an error. -/
def providerFailure (result : JobResultPayload) : Failure where
  releaseReason := "provider_failed_release"
  code := result.errorCode
  message := result.errorMessage
  response := .error 502 "provider_failed" result.errorMessage

/-! ## Calls -/

/-- What a call does next. -/
inductive Phase where
  /-- Resolve the API key. -/
  | received
  /-- Look the model up. -/
  | authenticated (auth : APIKeyAuth) (request : ChatRequest)
  /-- Find a provider. -/
  | modelFound (auth : APIKeyAuth) (request : ChatRequest) (model : ModelRow)
  /-- Create the job. -/
  | routed (job : ChatJob)
  /-- Reserve the credits. -/
  | created (job : ChatJob) (jobID : UUID)
  /-- Mark the job failed, as its credits could not be reserved. -/
  | refused (job : ChatJob) (jobID : UUID) (e : Err)
  /-- Mark the job dispatched. -/
  | reserved (job : ChatJob) (jobID walletID : UUID)
  /-- Wait for `Dispatch`. -/
  | dispatched (job : ChatJob) (jobID walletID : UUID)
  /-- Release the credits of a failed job. -/
  | failing (job : ChatJob) (jobID walletID : UUID) (failure : Failure)
  /-- Mark the job failed. -/
  | released (job : ChatJob) (jobID walletID : UUID) (failure : Failure)
  /-- Settle. -/
  | answered (job : ChatJob) (jobID walletID : UUID) (result : JobResultPayload)
  /-- Release the credits of a settlement that failed. -/
  | unsettled (job : ChatJob) (jobID walletID : UUID) (e : Err)
  /-- Nothing: the caller has its response. -/
  | done (response : Response)
  deriving DecidableEq

/-- A transaction of a call that moved its reservation. -/
inductive Commit where
  | reserve (walletID : UUID) (amount : Int64)
  | release (walletID : UUID) (amount : Int64)
  | settle (input : UsageSettlement)
  deriving DecidableEq

structure Call where
  id : Nat
  bearer : String
  requestID : String
  body : Option ChatRequest
  phase : Phase
  /-- The job row the call created. -/
  jobID : Option UUID
  /-- What the call did to its reservation, in order. -/
  commits : List Commit
  /-- What `Dispatch` returned. -/
  outcome : Option (Except DispatchError CompletionFrame)
  deriving DecidableEq

/-- A call that has just arrived. -/
def Call.arrived (id : Nat) (bearer requestID : String) (body : Option ChatRequest) : Call where
  id := id
  bearer := bearer
  requestID := requestID
  body := body
  phase := .received
  jobID := none
  commits := []
  outcome := none

/-- The call in its next phase. -/
def Call.goto (call : Call) (phase : Phase) : Call := { call with phase }

/-- The call with one more commit. -/
def Call.committed (call : Call) (commit : Commit) : Call :=
  { call with commits := call.commits ++ [commit] }

/-- What a step takes from outside: the id of a row it inserts, the time, and the row
that the database returns where the order leaves a choice. -/
structure Env where
  newID : UUID
  now : String
  route : Option RoutableProvider
  deriving DecidableEq

/-- `time.Now` in the public id of a job. -/
def jobPublicID (now : String) : String := "job_" ++ now

section Step

variable (P : Platform) (cfg : Config)

/-- The next statement of a call; `none` while it waits and when it is done. -/
def Call.advance (env : Env) (db : DB) (call : Call) : Option (DB × Call) :=
  match call.phase with
  | .received =>
      match resolveAPIKey P cfg call.bearer db with
      | .error e => some (db, call.goto (.done (handle e)))
      | .ok auth =>
          match validate call.body with
          | .error response => some (db, call.goto (.done response))
          | .ok request => some (db, call.goto (.authenticated auth request))
  | .authenticated auth request =>
      match activeModelBySlug request.model db with
      | .error e => some (db, call.goto (.done (if e = .notFound then
          .error 404 "model_not_found" "Requested model was not found." else handle e)))
      | .ok model =>
          if model.externalOnly && !cfg.externalConnectorsEnabled then
            some (db, call.goto (.done (.error 400 "external_connectors_disabled"
              "This model requires an external connector, but external connectors are disabled on this deployment.")))
          else some (db, call.goto (.modelFound auth request model))
  | .modelFound auth request model =>
      if findsRoute model.id db env.route then
        match env.route with
        | none => some (db, call.goto (.done (.error 503 "model_unavailable"
            "No approved online provider is currently available for this model.")))
        | some route => some (db, call.goto (.routed
            { auth, request, model, route, publicID := jobPublicID env.now,
              requestID := call.requestID }))
      else none
  | .routed job =>
      match (createInferenceJob env.newID (job.spec P)).exec db with
      | .error e => some (db, call.goto (.done (handle e)))
      | .ok (jobID, db') =>
          some (db', { call.goto (.created job jobID) with jobID := some jobID })
  | .created job jobID =>
      match (reserveForUser job.auth.userID (job.reservedCredits P)
          "chat_completion_reservation").exec db with
      | .error e => some (db, call.goto (.refused job jobID e))
      | .ok (walletID, db') =>
          some (db', (call.goto (.reserved job jobID walletID)).committed
            (.reserve walletID (job.reservedCredits P)))
  | .refused _ jobID e =>
      match (markJobFailed jobID .failed "insufficient_credits" e.text).exec db with
      | .error _ => some (db, call.goto (.done (handle e)))
      | .ok (_, db') => some (db', call.goto (.done (handle e)))
  | .reserved job jobID walletID =>
      match (markJobDispatched jobID).exec db with
      | .error _ => some (db, call.goto (.dispatched job jobID walletID))
      | .ok (_, db') => some (db', call.goto (.dispatched job jobID walletID))
  | .dispatched .. => none
  | .failing job jobID walletID failure =>
      match (release walletID (job.reservedCredits P) failure.releaseReason).exec db with
      | .error _ => some (db, call.goto (.released job jobID walletID failure))
      | .ok (_, db') =>
          some (db', (call.goto (.released job jobID walletID failure)).committed
            (.release walletID (job.reservedCredits P)))
  | .released _ jobID _ failure =>
      match (markJobFailed jobID .failed failure.code failure.message).exec db with
      | .error _ => some (db, call.goto (.done failure.response))
      | .ok (_, db') => some (db', call.goto (.done failure.response))
  | .answered job jobID walletID result =>
      match (finalizeUsage (job.settlement P walletID jobID result)).exec db with
      | .error e => some (db, call.goto (.unsettled job jobID walletID e))
      | .ok (_, db') =>
          some (db', (call.goto (.done (job.completion result))).committed
            (.settle (job.settlement P walletID jobID result)))
  | .unsettled job _ walletID e =>
      match (release walletID (job.reservedCredits P) "settlement_failed_release").exec db with
      | .error _ => some (db, call.goto (.done (handle e)))
      | .ok (_, db') =>
          some (db', (call.goto (.done (handle e))).committed
            (.release walletID (job.reservedCredits P)))
  | .done _ => none

/-- `Dispatch` returns. -/
def Call.deliver (outcome : Except DispatchError CompletionFrame) (call : Call) : Option Call :=
  match call.phase with
  | .dispatched job jobID walletID =>
      let next : Phase := match outcome with
        | .error e => .failing job jobID walletID (dispatchFailure e)
        | .ok frame =>
            if frame.payload.errorCode ≠ "" then
              .failing job jobID walletID (providerFailure frame.payload)
            else .answered job jobID walletID frame.payload
      some { call.goto next with outcome := some outcome }
  | _ => none

end Step

end Nuvonode.Handler
