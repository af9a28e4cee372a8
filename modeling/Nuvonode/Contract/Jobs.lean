/-
  Contract/Jobs.lean --- the jobs of the requests, from their rows to their answers.

  A row of `inference_jobs` only moves forward and stands still once it has finished.
  Its public id is the name that the hub finds the request by, so what a request is
  given is the first answer that was sent for its own job.
-/
import Nuvonode.Contract.Answers
import Nuvonode.Contract.Delivery
import Nuvonode.Handler.JobNames

set_option autoImplicit false

namespace Nuvonode.Contract

open Nuvonode.Foundation Nuvonode.Database Nuvonode.Repository Nuvonode.Service Nuvonode.Handler
  Nuvonode.Ws

/-- However the requests and the other operations run on from a reachable state, no job is
lost and each one keeps what its request wrote down for it.  It moves from queued to
dispatched to succeeded, or to failed from either of the first two, and a job that has
finished stays exactly as it is.  Public ids are unique.  A job is charged only when it
succeeded, and at most what was reserved. -/
theorem jobs_run_their_course (P : Platform) (cfg : Config) {es es' : List ServiceEvent}
    {s s' : ChatService} (hreach : (chatMachine P cfg).Reaches Machine.anyStep es s)
    (hsteps : (chatMachine P cfg).Steps Machine.anyStep s es' s') :
    Table.Unique JobRow.publicID s'.db.inferenceJobs ∧
      (∀ id row, s.db.job id = some row → ∃ row', s'.db.job id = some row' ∧
        JobBecomes row row' ∧ JobRow.terms row' = JobRow.terms row ∧
        (Ended row.status → row' = row)) ∧
      ∀ id row, s'.db.job id = some row → JobSane row := by
  obtain ⟨hinv, -⟩ := jobTable_of_reaches hreach
  obtain ⟨-, htable⟩ := jobTable_of_reaches (hreach.steps hsteps)
  refine ⟨htable.unique, fun id row hrow => ?_, htable.sane⟩
  obtain ⟨-, row', hrow', hbecomes⟩ := job_becomes hinv hsteps hrow
  exact ⟨row', hrow', hbecomes, hbecomes.terms_eq, hbecomes.eq_of_ended⟩

/-- The job of the sample request is dispatched, and then it has succeeded for good. -/
theorem sample_job_succeeds :
    ((sampleAfter dispatchEvents).db.job 7).map JobRow.status = some .dispatched ∧
      ((sampleAfter (dispatchEvents ++ settleEvents)).db.job 7).map JobRow.status =
        some .succeeded ∧
      ∀ es s, (chatMachine samplePlatform sampleConfig).Steps Machine.anyStep
          (sampleAfter (dispatchEvents ++ settleEvents)) es s →
        s.db.job 7 = (sampleAfter (dispatchEvents ++ settleEvents)).db.job 7 := by
  obtain ⟨hrun, hdispatched, hsucceeded⟩ :
      (runSample freshService (dispatchEvents ++ settleEvents)).isSome ∧
        ((sampleAfter dispatchEvents).db.job 7).map JobRow.status = some .dispatched ∧
        ((sampleAfter (dispatchEvents ++ settleEvents)).db.job 7).map JobRow.status =
          some .succeeded := by
    decide +kernel
  refine ⟨hdispatched, hsucceeded, fun es s hsteps => ?_⟩
  obtain ⟨row, hrow, hstatus⟩ := Option.map_eq_some_iff.mp hsucceeded
  have hreach := (reaches_sampleAfter hrun).mono fun _ _ _ _ => trivial
  obtain ⟨row', hrow', -, -, hstays⟩ :=
    (jobs_run_their_course samplePlatform sampleConfig hreach hsteps).2.1 7 row hrow
  rw [hrow', hstays (.inl hstatus), hrow]

/-! ## A request and its answer -/

/-- What an event of the server sends to a channel. -/
def answersSent (s : Api) (e : ApiEvent) (s' : Api) : List Delivery :=
  match e with
  | .network e => sends s.network e s'.network
  | _ => []

/-- What the server sends, its network does. -/
theorem answersSent_of_step {P : Platform} {cfg : Config} {s s' : Api} {e : ApiEvent}
    (h : s.Step P cfg e s') : (s'.network = s.network ∧ answersSent s e s' = []) ∨
      ∃ e', s.network.next e' = some s'.network ∧
        answersSent s e s' = sends s.network e' s'.network := by
  cases h with
  | network _ hnext => exact .inr ⟨_, hnext, rfl⟩
  | connect _ hnext => exact .inr ⟨_, hnext, rfl⟩
  | refuseHello hnext => exact .inr ⟨_, hnext, rfl⟩
  | hello _ _ _ hnext => exact .inr ⟨_, hnext, rfl⟩
  | dispatch _ _ hnext => exact .inr ⟨_, hnext, rfl⟩
  | _ => exact .inl ⟨rfl, rfl⟩

/-- The answers that a run of the server sends are those that a run of its network sends, in
which each job is dispatched under a name of its own. -/
theorem logged_of_reaches {P : Platform} {cfg : Config} {guard : Api → ApiEvent → Api → Prop}
    {es : List ApiEvent} {s : Api} {log : List Delivery}
    (h : ((apiMachine P cfg).recorded answersSent).Reaches (Machine.onState guard) es (s, log)) :
    ∃ es', loggedNetwork.Reaches (Machine.onState FreshJob) es' (s.network, log) := by
  refine (h.invariant_trace (fun es s => (Invariant P s.1.service ∧ Named s.1) ∧
    ∃ es', loggedNetwork.Reaches (Machine.onState FreshJob) es' (s.1.network, s.2)) ?_ ?_).2
  · rintro ⟨a, log⟩ ⟨hstart, rfl⟩
    have hreach : (apiMachine P cfg).Reaches guard [] a := .start hstart
    exact ⟨named_of_reaches hreach, [], .start ⟨hstart.2, rfl⟩⟩
  · rintro es ⟨a, log⟩ e ⟨b, log'⟩ ⟨⟨hinv, hnamed⟩, es', hreach⟩ ⟨hnext, hlog⟩ -
    have hstep := Api.step_of_next hnext
    have hinv' := hstep.invariant hinv
    have hnamed' := hnamed.step hinv hstep
    refine ⟨⟨hinv', hnamed'⟩, ?_⟩
    have hlog' : log' = log ++ answersSent a e b := hlog
    rcases answersSent_of_step hstep with ⟨hsame, hnone⟩ | ⟨e', hnext', hsent⟩
    · refine ⟨es', ?_⟩
      rw [hlog', hnone, List.append_nil, hsame]
      exact hreach
    · have hfresh := freshJob_of_distinct (Network.step_of_next hnext') (hnamed'.distinct hinv')
      exact ⟨es' ++ [e'], hreach.snoc ⟨hnext', hlog'.trans (by rw [hsent])⟩ hfresh⟩

/-- What a call was given is the first answer that was sent for its job. -/
def GivenItsOwn (s : Api) (log : List Delivery) (call : Call) : Prop :=
  ∀ frame, call.outcome = some (.ok frame) → ∃ jobID row delivery,
    call.jobID = some jobID ∧ s.service.db.job jobID = some row ∧
    row.publicID = frame.jobID ∧ firstSent log row.publicID = some delivery ∧
    delivery.frame = frame

/-- In every run of the server with the log of the answers that its events send, and whatever
the sessions send: the hub knows exactly the jobs of the dispatches in flight; a call is given
the first answer that was sent for the job of its own row; and no two calls are given answers
for the same job. -/
theorem requests_get_their_own_answers (P : Platform) (cfg : Config) {es : List ApiEvent}
    {s : Api} {log : List Delivery}
    (hlogged : ((apiMachine P cfg).recorded answersSent).Reaches
      (Machine.onState Machine.anyStep) es (s, log)) :
    (∃ es', loggedNetwork.Reaches (Machine.onState FreshJob) es' (s.network, log)) ∧
      (∀ jobID id, s.network.hub.jobs jobID = some id ↔ ∃ dispatch,
        s.network.dispatch id = some dispatch ∧ dispatch.payload.jobID = jobID ∧
          dispatch.phase.InFlight) ∧
      (∀ call ∈ s.service.calls, GivenItsOwn s log call) ∧
      ∀ call ∈ s.service.calls, ∀ call' ∈ s.service.calls, ∀ frame frame',
        call.outcome = some (.ok frame) → call'.outcome = some (.ok frame') →
        frame.jobID = frame'.jobID → call = call' := by
  have hreach := hlogged.forget
  obtain ⟨es', hnetwork⟩ := logged_of_reaches hlogged
  have hdelivering := delivering_of_reaches hnetwork
  obtain ⟨hinv, htied⟩ := tied_of_reaches hreach
  obtain ⟨-, hnamed⟩ := named_of_reaches hreach
  -- The job that a given frame names is that of the dispatch and of the call's own row.
  have hgiven : ∀ call ∈ s.service.calls, ∀ frame, call.outcome = some (.ok frame) →
      OwnName s call.id frame.jobID ∧
        ∃ delivery, firstSent log frame.jobID = some delivery ∧ delivery.frame = frame := by
    intro call hcall frame houtcome
    have hselect : s.service.call call.id = some call := Table.select_of_mem hinv.ids hcall
    obtain ⟨dispatch, result, hdispatch, hphase, heq⟩ := htied.outcome _ _ _ hselect houtcome
    cases result with
    | error e => cases heq
    | ok delivery =>
        have hfirst := (hdelivering.agrees _ _ hdispatch).2 delivery (.inr hphase)
        obtain rfl : frame = delivery.frame := Except.ok.inj heq
        rw [(jobID_of_firstSent hfirst).1]
        exact ⟨hnamed.dispatches _ _ hdispatch, delivery, hfirst, rfl⟩
  refine ⟨⟨es', hnetwork⟩, fun jobID id => ⟨hdelivering.registered jobID id, ?_⟩,
    fun call hcall frame houtcome => ?_,
    fun call hcall call' hcall' frame frame' houtcome houtcome' hsame => ?_⟩
  · rintro ⟨dispatch, hdispatch, rfl, hflight⟩
    exact hdelivering.findable id dispatch hdispatch hflight
  · obtain ⟨⟨own, jobID, row, hown, hjobID, hrow, hname⟩, delivery, hfirst, hframe⟩ :=
      hgiven call hcall frame houtcome
    have hselect : s.service.call call.id = some call := Table.select_of_mem hinv.ids hcall
    obtain rfl := Option.some.inj (hselect.symm.trans hown)
    exact ⟨jobID, row, delivery, hjobID, hrow, hname, by rw [hname, hfirst], hframe⟩
  · have hid := hnamed.eq_of_name hinv (hgiven call hcall frame houtcome).1
      (hsame ▸ (hgiven call' hcall' frame' houtcome').1)
    have hselect := Table.select_of_mem hinv.ids hcall
    rw [hid, Table.select_of_mem hinv.ids hcall'] at hselect
    exact (Option.some.inj hselect).symm

/-- The sample request is given what was sent first for its job. -/
theorem sample_request_is_answered :
    ∃ log delivery, ((apiMachine samplePlatform sampleConfig).recorded answersSent).Reaches
        (Machine.onState Machine.anyStep) (waitingEvents ++ answerEvents 0)
        (apiAfter (waitingEvents ++ answerEvents 0), log) ∧
      firstSent log "job_20250101000000.000000000" = some delivery ∧
      delivery.frame = answerFrame ∧
      (apiAfter (waitingEvents ++ answerEvents 0)).service.calls.map Call.outcome =
        [some (.ok answerFrame)] := by
  obtain ⟨hrun, hcalls⟩ :
      (runApi (fun _ _ _ => true) (waitingEvents ++ answerEvents 0)).isSome ∧
        (apiAfter (waitingEvents ++ answerEvents 0)).service.calls.map Call.outcome =
          [some (.ok answerFrame)] := by
    decide +kernel
  obtain ⟨log, hlogged⟩ := (reaches_apiAfter hrun).record answersSent
  obtain ⟨-, -, hgiven, -⟩ := requests_get_their_own_answers samplePlatform sampleConfig hlogged
  obtain ⟨call, hcall, houtcome⟩ : ∃ call ∈
      (apiAfter (waitingEvents ++ answerEvents 0)).service.calls,
        call.outcome = some (.ok answerFrame) := by
    rw [← List.mem_map, hcalls]
    exact List.mem_singleton.mpr rfl
  obtain ⟨-, row, delivery, -, -, hname, hfirst, hframe⟩ := hgiven call hcall answerFrame houtcome
  exact ⟨log, delivery, hlogged, by rw [← hfirst, hname]; rfl, hframe, hcalls⟩

end Nuvonode.Contract
