/-
  Contract/Nodes.lean --- the server with the nodes that the repository ships.

  The hub asks nobody whose answer a frame is, and `Complete` may wait for ever.  Where
  every provider runs the node of this repository neither matters: a request is run once,
  by the node that it was written to, and what a caller is answered with is what the
  Ollama of the chosen provider said to exactly its messages.
-/
import Nuvonode.Contract.Jobs
import Nuvonode.Fleet.Invariant
import Nuvonode.Handler.CallRequest

set_option autoImplicit false

namespace Nuvonode.Contract

open Nuvonode.Foundation Nuvonode.Database Nuvonode.Repository Nuvonode.Service Nuvonode.Handler
  Nuvonode.Ws Nuvonode.Fleet

variable {Time : Type}

/-! ## End to end -/

/-- A completion that a caller was answered with: what Ollama answered, asked by a node of
the provider, for the job of the request. -/
def MadeByItsNode (cfg : Config) (m : Deployment Time) (call : Call) (response : Response) :
    Prop :=
  ∃ (job : ChatJob) (conn : ConnID) (session : Session)
      (execution : Node.Execution Time FiniteFloat) (envelope : Node.Envelope Time Node.Payload)
      (outcome : Node.OllamaOutcome) (latencyMS : Int64) (answer : Node.OllamaChatResponse)
      (promptTokens completionTokens : ℤ),
    call.body = some job.request ∧ job.model.slug = job.request.model ∧
    -- The node asked its Ollama for the job of this request.
    m.api.network.session conn = some session ∧
    session.providerPublicID = job.route.providerPublicID ∧
    (call.id, execution) ∈ (m.link conn).executions ∧
    execution.job = some (nodeJob (job.payload cfg)) ∧
    -- It wrote down what Ollama answered.
    execution.written = some [envelope] ∧
    answerOf envelope = some (nodeFrame job.publicID outcome latencyMS) ∧
    outcome.chat = .ok answer ∧
    -- That is the response.
    response = .completion job.publicID session.providerPublicID job.request.model answer.content
      "stop" promptTokens completionTokens (promptTokens + completionTokens)

/-- A frame without an error is what Ollama answered. -/
theorem answer_of_nodeFrame {jobID : String} {outcome : Node.OllamaOutcome} {latencyMS : Int64}
    (h : (nodeFrame jobID outcome latencyMS).payload.errorCode = "") :
    ∃ answer, outcome.chat = .ok answer ∧
      (nodeFrame jobID outcome latencyMS).payload.content = answer.content ∧
      (nodeFrame jobID outcome latencyMS).payload.finishReason = "stop" := by
  unfold nodeFrame at h ⊢
  cases hchat : outcome.chat with
  | error text =>
      rw [hchat] at h
      exact absurd h (by simp [CompletionFrame.payload])
  | ok answer => exact ⟨answer, rfl, rfl, rfl⟩

/-- In every run of the server with its nodes, every request that is answered with 200 is
answered with what the Ollama of the provider it was routed to said, when a node of that
provider asked it for the messages and the model of exactly this request. -/
theorem completions_are_made_by_their_nodes (P : Platform) (cfg : Config) (time : TextForm Time)
    (float : TextForm FiniteFloat) {es : List (FleetEvent Time)} {m : Deployment Time}
    (hreach : (fleetMachine P cfg time float).Reaches Machine.anyStep es m) :
    ∀ call ∈ m.api.service.calls, ∀ response, call.phase = .done response →
      response.status = 200 → MadeByItsNode cfg m call response := by
  obtain ⟨es', hapi⟩ := api_reaches hreach
  obtain ⟨hinv, hrequested⟩ := requested_of_reaches hapi
  obtain ⟨-, htied⟩ := tied_of_reaches hapi
  have hcarries := Deployment.carries_of_reaches hreach
  intro call hcall response hphase hok
  obtain ⟨job, frame, dispatch, delivery, ⟨hbody, hslug⟩, -, hcode, rfl, hdispatch, hreturned, rfl,
    hprovider, hpayload⟩ := hrequested.of_completed hinv htied hcall hphase hok
  have hhas : dispatch.Has delivery := .inr (.inr hreturned)
  obtain ⟨-, envelope, hanswered, hframe⟩ := hcarries.deliveries _ _ _ hdispatch hhas
  obtain ⟨hsent, -, dispatch', execution, outcome, latencyMS, hdispatch', hmem,
    hwritten, hjob, hframe'⟩ := (hcarries.links delivery.conn).answer hanswered
  obtain rfl := Option.some.inj (hdispatch.symm.trans hdispatch')
  obtain ⟨⟨session, dispatch', hsession, hdispatch', hsame⟩, -⟩ := hcarries.written _ _ hsent
  obtain rfl := Option.some.inj (hdispatch.symm.trans hdispatch')
  have hname : dispatch.payload.jobID = job.publicID := by rw [hpayload]; rfl
  have hdelivered : delivery.frame = nodeFrame job.publicID outcome latencyMS := by
    rw [← hname]
    exact Option.some.inj (hframe.symm.trans hframe')
  rw [hdelivered] at hcode
  obtain ⟨answer, hchat, hcontent, hfinish⟩ := answer_of_nodeFrame hcode
  have hresponse : job.completion delivery.frame.payload =
      .completion job.publicID session.providerPublicID job.request.model answer.content "stop"
        (job.billedTokens delivery.frame.payload).1 (job.billedTokens delivery.frame.payload).2.1
        ((job.billedTokens delivery.frame.payload).1 +
          (job.billedTokens delivery.frame.payload).2.1) := by
    rw [ChatJob.completion, hslug, hsame, hprovider, hdelivered, hcontent, hfinish]
  exact ⟨job, delivery.conn, session, execution, envelope, outcome, latencyMS, answer,
    _, _, hbody, hslug, hsession, hsame.trans hprovider, hmem, hpayload ▸ hjob, hwritten,
    hname ▸ hframe', hchat, hresponse⟩

/-! ## At most once -/

/-- In every run of the server with its nodes, every call of `executeJob` is for a request
that `Dispatch` wrote to a session of the provider it was called for, and has the payload
of that request; and no two calls on any connections ask Ollama for the same job, nor is
a job asked for whose request still waits to be read. -/
theorem jobs_run_at_most_once (P : Platform) (cfg : Config) (time : TextForm Time)
    (float : TextForm FiniteFloat) {es : List (FleetEvent Time)} {m : Deployment Time}
    (hreach : (fleetMachine P cfg time float).Reaches Machine.anyStep es m) :
    (∀ conn id execution, (id, execution) ∈ (m.link conn).executions →
      ∃ session dispatch, m.api.network.session conn = some session ∧
        m.api.network.dispatch id = some dispatch ∧ dispatch.phase.Written ∧
        session.providerPublicID = dispatch.providerPublicID ∧
        execution.payload = requestData float dispatch.payload ∧
        ∀ job, execution.job = some job → job = nodeJob dispatch.payload) ∧
      (∀ conn conn' id id' execution execution' job job',
        (id, execution) ∈ (m.link conn).executions →
        (id', execution') ∈ (m.link conn').executions →
        execution.job = some job → execution'.job = some job' → job.jobID = job'.jobID →
          conn = conn' ∧ id = id' ∧ execution = execution') ∧
      ∀ conn conn' id execution data, (id, execution) ∈ (m.link conn).executions →
        (id, data) ∉ (m.link conn').requests := by
  obtain ⟨es', hapi⟩ := api_reaches hreach
  obtain ⟨hinv, hnamed⟩ := named_of_reaches hapi
  have hdistinct := hnamed.distinct hinv
  have hcarries := Deployment.carries_of_reaches hreach
  -- A job is asked for under the name of its dispatch, on the connection it was sent to.
  have hasks : ∀ conn id execution, (id, execution) ∈ (m.link conn).executions →
      m.sent id = some conn ∧ ∃ dispatch, m.api.network.dispatch id = some dispatch ∧
        execution.payload = requestData float dispatch.payload ∧
        ∀ job, execution.job = some job → job = nodeJob dispatch.payload := by
    intro conn id execution hmem
    have hcarried : id ∈ (m.link conn).carried :=
      List.mem_append_right _ (List.mem_map.mpr ⟨(id, execution), hmem, rfl⟩)
    obtain ⟨dispatch, hdispatch, hpayload, hjob, -⟩ :=
      (hcarries.links conn).executions id execution hmem
    refine ⟨(hcarries.links conn).sent id hcarried, dispatch, hdispatch, hpayload,
      fun job hsome => ?_⟩
    have hstage : execution.stage ≠ .started := by
      intro hstarted
      rw [Node.Execution.job, hstarted] at hsome
      cases hsome
    rw [hjob hstage, askedJob_requestData] at hsome
    exact (Option.some.inj hsome).symm
  refine ⟨fun conn id execution hmem => ?_,
    fun conn conn' id id' execution execution' job job' hmem hmem' hjob hjob' hname => ?_,
    fun conn conn' id execution data hmem hrequest => ?_⟩
  · obtain ⟨hsent, dispatch, hdispatch, hpayload, hjob⟩ := hasks conn id execution hmem
    obtain ⟨⟨session, other, hsession, hother, hsame⟩, other', hother', hwritten⟩ :=
      hcarries.written id conn hsent
    obtain rfl := Option.some.inj (hdispatch.symm.trans hother)
    obtain rfl := Option.some.inj (hdispatch.symm.trans hother')
    exact ⟨session, dispatch, hsession, hdispatch, hwritten, hsame, hpayload, hjob⟩
  · obtain ⟨hsent, dispatch, hdispatch, -, hasked⟩ := hasks conn id execution hmem
    obtain ⟨hsent', dispatch', hdispatch', -, hasked'⟩ :=
      hasks conn' id' execution' hmem'
    rw [hasked job hjob, hasked' job' hjob'] at hname
    obtain rfl := hdistinct id id' dispatch dispatch' hdispatch hdispatch' hname
    obtain rfl : conn = conn' := Option.some.inj (hsent.symm.trans hsent')
    have honce : ((m.link conn).executions.map Prod.fst).Nodup :=
      (hcarries.links conn).once.of_append_right
    obtain ⟨-, rfl⟩ := Prod.mk.inj (List.inj_on_of_nodup_map honce hmem hmem' rfl)
    exact ⟨rfl, rfl, rfl⟩
  · obtain ⟨hsent, -⟩ := hasks conn id execution hmem
    have hqueued : id ∈ (m.link conn').requests.map Prod.fst :=
      List.mem_map.mpr ⟨(id, data), hrequest, rfl⟩
    have hsent' := (hcarries.links conn').sent id (List.mem_append_left _ hqueued)
    obtain rfl : conn = conn' := Option.some.inj (hsent.symm.trans hsent')
    exact List.disjoint_of_nodup_append (hcarries.links conn).once hqueued
      (List.mem_map.mpr ⟨(id, execution), hmem, rfl⟩)

/-! ## Read loops -/

/-- In every run of the server with its nodes, every frame is read on a session of the
provider that the job was dispatched to, and finds the channel of its job empty.  So nobody
else's answer is returned, and no read loop ever waits to send. -/
theorem read_loops_never_wait (P : Platform) (cfg : Config) (time : TextForm Time)
    (float : TextForm FiniteFloat) {es : List (FleetEvent Time)} {m : Deployment Time}
    (hreach : (fleetMachine P cfg time float).Reaches Machine.anyStep es m) :
    (∃ es', networkMachine.Reaches (fun n e n' => OwnFrames n e n' ∧ FindsRoom n e n') es'
        m.api.network) ∧
      OwnAnswers m.api.network ∧
      ∀ conn session channel frame, m.api.network.session conn = some session →
        session.phase = .completing channel frame →
          ∃ n', m.api.network.next (.send conn) = some n' := by
  have hcarries := Deployment.carries_of_reaches hreach
  refine ⟨?_, fun id dispatch delivery hdispatch hphase => ?_,
    fun conn session channel frame hsession hphase => ?_⟩
  · refine (hreach.invariant_trace (fun es m =>
      (fleetMachine P cfg time float).Reaches Machine.anyStep es m ∧ ∃ es',
        networkMachine.Reaches (fun n e n' => OwnFrames n e n' ∧ FindsRoom n e n') es'
          m.api.network) ?_ ?_).2
    · exact fun m hstart => ⟨.start hstart, [], .start hstart.1.2⟩
    · rintro es a e b ⟨hbefore, es', hnetwork⟩ hnext -
      obtain ⟨es'', hapi⟩ := api_reaches hbefore
      obtain ⟨hinv, hnamed⟩ := named_of_reaches hapi
      have hregistered := registered_of_reaches hnetwork
      refine ⟨hbefore.snoc hnext trivial, ?_⟩
      rcases (Deployment.carries_of_reaches hbefore).guarded hregistered (hnamed.distinct hinv)
        (Deployment.step_of_next hnext) with hsame | ⟨e', hstep, hguard⟩
      · exact ⟨es', hsame ▸ hnetwork⟩
      · exact ⟨es' ++ [e'], hnetwork.snoc hstep hguard⟩
  · have hgiven := hcarries.deliveries id dispatch delivery hdispatch (.inr (.inr hphase))
    have hsent := (hcarries.links delivery.conn).sent_of_gave hgiven
    obtain ⟨⟨session, dispatch', hsession, hdispatch', hsame⟩, -⟩ := hcarries.written _ _ hsent
    obtain rfl := Option.some.inj (hdispatch.symm.trans hdispatch')
    exact ⟨session, hsession, hsame⟩
  · obtain ⟨hgiven, hempty⟩ := hcarries.completing conn session channel frame hsession hphase
    have hsent := (hcarries.links conn).sent_of_gave hgiven
    obtain ⟨-, dispatch, hdispatch, -⟩ := hcarries.written _ _ hsent
    have hbuffer : dispatch.buffer = none := by
      refine Option.eq_none_iff_forall_not_mem.mpr fun delivery hsome => ?_
      exact hempty dispatch delivery hdispatch (.inl hsome)
    refine ⟨(m.api.network.setSession conn (session.goto .reading)).setDispatch channel
      (dispatch.fill { conn, frame }), ?_⟩
    simp only [Network.next, hsession, hphase, hdispatch, hbuffer, Option.bind_eq_bind,
      Option.bind_some]

/-! ## A sample run -/

/-- The text of 0.7, and of every other number its bits. -/
def sampleNumbers : TextForm FiniteFloat where
  format := fun a =>
    if a = sampleTemperature then "0.7".toList else Nat.toDigits 10 a.bits.toNat
  parse := fun literal =>
    if literal = "0.7".toList then some sampleTemperature
    else
      let bits := BitVec.ofNat 64 (Nat.ofDigitChars 10 literal 0)
      if hfinite : bits.extractLsb' 52 11 ≠ BitVec.allOnes 11 then some ⟨bits, hfinite⟩ else none
  parse_format := fun a => by
    by_cases htemperature : a = sampleTemperature
    · rw [if_pos htemperature, if_pos rfl, htemperature]
    · have hdigits : Nat.toDigits 10 a.bits.toNat ≠ "0.7".toList := by
        intro hsame
        have hpoint : '.' ∈ Nat.toDigits 10 a.bits.toNat := hsame ▸ by decide
        exact absurd (Nat.isDigit_of_mem_toDigits (by decide) (by decide) hpoint) (by decide)
      have hbits : BitVec.ofNat 64 (Nat.ofDigitChars 10 (Nat.toDigits 10 a.bits.toNat) 0) =
          a.bits := by
        rw [Nat.ofDigitChars_ten_toDigits, BitVec.ofNat_toNat, BitVec.setWidth_eq]
      simp only [if_neg htemperature, if_neg hdigits, hbits, dif_pos a.finite]
  zero := ⟨0#64, by decide⟩

/-- The sample server, and no connection. -/
def freshDeployment : Deployment Unit where
  api := freshApi
  link := fun _ => .fresh
  sent := fun _ => none

/-- Run the sample deployment. -/
def runFleet (es : List (FleetEvent Unit)) : Option (Deployment Unit) :=
  Machine.exec (Deployment.next samplePlatform sampleConfig sampleTime sampleNumbers)
    (fun _ _ _ => true) freshDeployment es

/-- The sample deployment after some events. -/
def fleetAfter (es : List (FleetEvent Unit)) : Deployment Unit :=
  (runFleet es).getD freshDeployment

theorem reaches_fleetAfter {es : List (FleetEvent Unit)} (h : (runFleet es).isSome) :
    (fleetMachine samplePlatform sampleConfig sampleTime sampleNumbers).Reaches Machine.anyStep es
      (fleetAfter es) :=
  Machine.reaches_of_exec (fun _ _ _ _ => trivial) ⟨start_freshApi, fun _ => rfl, fun _ => rfl⟩ h

/-- A second request comes, and the node reads both. -/
def readEvents : List (FleetEvent Unit) :=
  waitingEvents.dropLast.map .api ++ [.write 0 ()] ++
    [.api (.service (.arrive 1 "pvn_live_a_b" "req_b"
      (some ⟨"llama", [⟨"user", "again"⟩], 60, none, false⟩)))] ++
    List.replicate 6 (.api (.service (.advance 1
      { sampleEnv with newID := 10, now := "20250101000001.000000000" }))) ++
    [.api (.dispatch 1), .api (.network (.lookup 1)), .api (.network (.openJob 1)),
      .write 1 (), .read 0, .read 0]

/-- The node runs both.  The answer of the second settles, and that of the first is read. -/
def executedEvents : List (FleetEvent Unit) :=
  readEvents ++ [.ask 0 0, .ask 0 1, .finish 0 1 (.answered 200 (.ok ⟨"hi again", 2, 3⟩)) 700
      ⟨"1", ()⟩, .finish 0 0 (.answered 200 (.ok ⟨"hi there", 2, 2⟩)) 900 ⟨"2", ()⟩,
    .receive 0 0 0 "", .api (.network (.send 0)), .api (.network (.receive 1)),
    .api (.network (.closeJob 1)), .api (.deliver 1),
    .api (.service (.advance 1 sampleEnv)), .receive 0 0 0 ""]

/-- The answer of the first is returned to it, and settles. -/
def settledEvents : List (FleetEvent Unit) :=
  executedEvents ++ (answerEvents 0).tail.map .api

/-- What the sample requests are answered with. -/
def sampleCompletions : List Response :=
  [.completion "job_20250101000000.000000000" "prv_b" "llama" "hi there" "stop" 2 2 4,
    .completion "job_20250101000001.000000000" "prv_b" "llama" "hi again" "stop" 2 3 5]

/-- Each sample request is answered with what the Ollama of its provider said to it. -/
theorem sample_completion_is_made_by_its_node :
    (fleetAfter settledEvents).api.service.calls.map Call.phase =
        sampleCompletions.map Phase.done ∧
      ∀ call ∈ (fleetAfter settledEvents).api.service.calls, ∀ response ∈ sampleCompletions,
        call.phase = .done response →
          MadeByItsNode sampleConfig (fleetAfter settledEvents) call response := by
  obtain ⟨hrun, hphases⟩ : (runFleet settledEvents).isSome ∧
      (fleetAfter settledEvents).api.service.calls.map Call.phase =
        sampleCompletions.map Phase.done := by
    decide +kernel
  have hok : ∀ response ∈ sampleCompletions, response.status = 200 := by decide
  exact ⟨hphases, fun call hcall response hresponse hphase =>
    completions_are_made_by_their_nodes samplePlatform sampleConfig sampleTime sampleNumbers
      (reaches_fleetAfter hrun) call hcall response hphase (hok response hresponse)⟩

/-- Both sample requests are run, each once, and no other call asks for their jobs. -/
theorem sample_job_runs_once :
    ((fleetAfter executedEvents).link 0).executions.map (fun execution =>
        (execution.1, execution.2.job.map Node.JobRequestPayload.jobID)) =
        [(0, some "job_20250101000000.000000000"), (1, some "job_20250101000001.000000000")] ∧
      (∀ id id' execution execution' job job',
        (id, execution) ∈ ((fleetAfter executedEvents).link 0).executions →
        (id', execution') ∈ ((fleetAfter executedEvents).link 0).executions →
        execution.job = some job → execution'.job = some job' → job.jobID = job'.jobID →
          id = id' ∧ execution = execution') ∧
      ∀ conn id execution data, (id, execution) ∈ ((fleetAfter executedEvents).link 0).executions →
        (id, data) ∉ ((fleetAfter executedEvents).link conn).requests := by
  obtain ⟨hrun, hjobs⟩ : (runFleet executedEvents).isSome ∧
      ((fleetAfter executedEvents).link 0).executions.map (fun execution =>
        (execution.1, execution.2.job.map Node.JobRequestPayload.jobID)) =
        [(0, some "job_20250101000000.000000000"), (1, some "job_20250101000001.000000000")] := by
    decide +kernel
  obtain ⟨-, honce, hqueued⟩ := jobs_run_at_most_once samplePlatform sampleConfig sampleTime
    sampleNumbers (reaches_fleetAfter hrun)
  exact ⟨hjobs, fun id id' execution execution' job job' hmem hmem' hjob hjob' hname =>
      (honce 0 0 id id' execution execution' job job' hmem hmem' hjob hjob' hname).2,
    fun conn id execution data hmem => hqueued 0 conn id execution data hmem⟩

/-- The session that has read the second answer, that to the first sample request, can send
it. -/
theorem sample_read_loop_sends :
    ∃ session channel frame n', (fleetAfter executedEvents).api.network.session 0 = some session ∧
      session.phase = .completing channel frame ∧
      (fleetAfter executedEvents).api.network.next (.send 0) = some n' := by
  obtain ⟨hrun, hphase⟩ : (runFleet executedEvents).isSome ∧
      ((fleetAfter executedEvents).api.network.session 0).map Session.phase =
        some (.completing 0 (.jobResult "job_20250101000000.000000000" "hi there" "stop"
          (some ⟨2, 2, 4, "runtime_reported"⟩) 900)) := by
    decide +kernel
  obtain ⟨session, hsession, hcompleting⟩ := Option.map_eq_some_iff.mp hphase
  obtain ⟨-, -, hsends⟩ := read_loops_never_wait samplePlatform sampleConfig sampleTime
    sampleNumbers (reaches_fleetAfter hrun)
  obtain ⟨n', hnext⟩ := hsends 0 session _ _ hsession hcompleting
  exact ⟨session, _, _, n', hsession, hcompleting, hnext⟩

end Nuvonode.Contract
