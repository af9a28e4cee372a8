/-
  Contract/Completion.lean --- which jobs are finished when their call is.

  A call marks its job dispatched and then has one more chance to change its status:
  the settlement, or the failure it records.  Either can be refused for a value that
  the provider chose, and a timeout is recorded as an ordinary failure.  `Completable`
  excludes exactly these steps; then every job ends as it should.
-/
import Nuvonode.Contract.Reservations

set_option autoImplicit false

namespace Nuvonode.Contract

open Nuvonode.Foundation Nuvonode.Database Nuvonode.Repository Nuvonode.Service Nuvonode.Handler
  Nuvonode.Ws

/-! ## What a finished job is -/

/-- The job of a finished call has the status its end calls for. -/
def Finished (db : DB) (call : Call) (response : Response) (jobID : UUID) : Prop :=
  ∃ row, db.job jobID = some row ∧
    (row.status = .succeeded ↔ response.status = 200 ∧ (db.usage jobID).isSome) ∧
    (call.outcome = some (.error .jobTimeout) → row.status = .timedOut) ∧
    (¬ (response.status = 200 ∧ (db.usage jobID).isSome) →
      call.outcome ≠ some (.error .jobTimeout) → row.status = .failed)

/-! ## Which steps complete a job -/

/-- What `Dispatch` returned can be recorded as it was: it is no timeout, and its texts
can be stored. -/
def Recordable : Except DispatchError CompletionFrame → Prop
  | .error .providerUnavailable => True
  | .error .jobTimeout => False
  | .error (.writeFailed text) => storable text = true
  | .ok frame => frame.payload.errorCode ≠ "" →
      (storable frame.payload.errorCode && storable frame.payload.errorMessage) = true

/-- A settlement that the tables and the wallet accept. -/
structure Settleable (db : DB) (input : UsageSettlement) : Prop where
  columns : input.fitsColumns = true
  cost : 0 ≤ input.actualCostCredits.toInt
  reward : 0 ≤ input.providerRewardCredits.toInt
  balance : ∀ wallet ∈ db.wallet input.userWalletID, input.FitsBalance wallet

/-- The settlement that a call is about to make. -/
def settling (P : Platform) (s : ChatService) (id : Nat) : Option UsageSettlement :=
  (s.call id).bind fun call =>
    match call.phase with
    | .answered job jobID walletID result => some (job.settlement P walletID jobID result)
    | _ => none

/-- The guard: what `Dispatch` returns can be recorded, and what is settled can be. -/
def Completable (P : Platform) (s : ChatService) (e : ServiceEvent) (_ : ChatService) : Prop :=
  match e with
  | .deliver _ outcome => Recordable outcome
  | .advance id _ => ∀ input ∈ settling P s id, Settleable s.db input
  | _ => True

/-- The texts of a refused reservation can be stored. -/
theorem storable_refusal (e : Err) :
    (storable "insufficient_credits" && storable e.text) = true := by
  cases e <;> decide

/-- A recordable failure is no timeout and has texts that can be stored. -/
theorem storable_failure {outcome : Except DispatchError CompletionFrame} {failure : Failure}
    (h : (∃ e, outcome = .error e ∧ failure = dispatchFailure e) ∨
      (∃ frame, outcome = .ok frame ∧ frame.payload.errorCode ≠ "" ∧
        failure = providerFailure frame.payload)) (hrecordable : Recordable outcome) :
    (storable failure.code && storable failure.message) = true ∧
      outcome ≠ .error .jobTimeout := by
  have hcode : storable "provider_unavailable" = true := by decide
  have htext : storable "provider unavailable" = true := by decide
  obtain ⟨e, rfl, rfl⟩ | ⟨frame, rfl, hreported, rfl⟩ := h
  · cases e with
    | providerUnavailable => exact ⟨Bool.and_eq_true_iff.mpr ⟨hcode, htext⟩, nofun⟩
    | jobTimeout => exact absurd hrecordable id
    | writeFailed text => exact ⟨Bool.and_eq_true_iff.mpr ⟨hcode, hrecordable⟩, nofun⟩
  · exact ⟨hrecordable hreported, nofun⟩

/-! ## The invariant of a run that completes its jobs -/

/-- What the guard establishes of a call in each phase. -/
def Completing (db : DB) (call : Call) : Prop :=
  call.outcome ≠ some (.error .jobTimeout) ∧
    match call.phase with
    | .failing _ _ _ failure | .released _ _ _ failure =>
        (storable failure.code && storable failure.message) = true
    | .unsettled .. => False
    | .done response => ∀ jobID, call.jobID = some jobID → ∃ row, db.job jobID = some row ∧
        (row.status = .succeeded ∧ response.status = 200 ∧ (db.usage jobID).isSome ∨
          row.status = .failed ∧ response.status ≠ 200)
    | _ => True

section Completing

variable {P : Platform} {cfg : Config} {s s' : ChatService} {db db' : DB} {call call' : Call}
  {e : ServiceEvent}

theorem Completing.finished (h : Completing db call) {response : Response} {jobID : UUID}
    (hdone : call.phase = .done response) (hjobID : call.jobID = some jobID) :
    Finished db call response jobID := by
  obtain ⟨houtcome, hphase⟩ := h
  simp only [hdone] at hphase
  obtain ⟨row, hrow, ⟨hstatus, hok, hused⟩ | ⟨hstatus, hok⟩⟩ := hphase jobID hjobID
  · exact ⟨row, hrow, iff_of_true hstatus ⟨hok, hused⟩, fun ht => absurd ht houtcome,
      fun hnot _ => absurd ⟨hok, hused⟩ hnot⟩
  · refine ⟨row, hrow, iff_of_false ?_ fun hboth => hok hboth.1, fun ht => absurd ht houtcome,
      fun _ _ => hstatus⟩
    rw [hstatus]
    exact JobStatus.noConfusion

theorem Completing.keep (h : Completing db call) {other : Option UUID}
    (hkeeps : KeepsOthers other db db')
    (hother : ∀ jobID, call.jobID = some jobID → other ≠ some jobID) : Completing db' call := by
  refine ⟨h.1, ?_⟩
  have hphase := h.2
  cases hcall : call.phase <;> simp only [hcall] at hphase ⊢
  case done response =>
    intro jobID hjobID
    rw [hkeeps.job jobID (hother jobID hjobID), hkeeps.usage jobID (hother jobID hjobID)]
    exact hphase jobID hjobID
  all_goals exact hphase

/-- A failure whose texts can be stored is recorded on a pending job. -/
theorem recorded_of_pending {jobID : UUID} {spec : JobSpec} {status : JobStatus}
    {code message : String} (h : Pending db jobID spec status)
    (htexts : (storable code && storable message) = true) :
    ∃ row, (afterwards (markJobFailed jobID .failed code message) db).job jobID = some row ∧
      row.status = .failed := by
  have hprovider : (db.provider spec.providerID).isSome := by
    have hparties := h.parties
    simp only [partiesExist, Bool.and_eq_true] at hparties
    exact hparties.1.2
  have hexec : (markJobFailed jobID .failed code message).exec db = .ok _ :=
    exec_markJobFailed htexts h.row rfl hprovider
  have hselect : (db.apply (.failJob jobID .failed code message)).job jobID =
      (db.job jobID).map (JobRow.fail .failed code message) :=
    Table.select_update_self fun _ => rfl
  rw [h.row] at hselect
  have hrow : (afterwards (markJobFailed jobID .failed code message) db).job jobID =
      some (JobRow.fail .failed code message { spec.row jobID with status }) := by
    rw [afterwards, hexec]
    exact hselect
  exact ⟨_, hrow, rfl⟩

/-- A settlement of a job that is pending, by the wallet that holds its reservation,
commits when the tables and the wallet accept it. -/
theorem settlement_commits (h : Invariant P s) (hcall : call ∈ s.calls) {job : ChatJob}
    {jobID walletID : UUID} {result : JobResultPayload}
    (hphase : call.phase = .answered job jobID walletID result)
    (hsettleable : Settleable s.db (job.settlement P walletID jobID result)) :
    ∃ db, (finalizeUsage (job.settlement P walletID jobID result)).exec s.db = .ok ((), db) := by
  have hinv := h.calls call hcall
  simp only [CallInv, hphase] at hinv
  obtain ⟨-, hcommits, hreserved⟩ := hinv
  obtain ⟨-, wallet, hfound, hheld⟩ := h.held hcall hcommits
  have hcovered : Covered s.db (job.settlement P walletID jobID result) :=
    ⟨hsettleable.reward, hsettleable.cost, ChatJob.actualCost_le P job result, wallet, hfound,
      hheld, hsettleable.balance wallet hfound⟩
  obtain ⟨source, hsource⟩ := ChatJob.settlement_sourceText P job walletID jobID result
  refine hcovered.commits h.ledger h.stats hsettleable.columns hsource hreserved.pending.unused ?_
  have hjob : (s.db.job jobID).isSome := Option.isSome_of_eq_some hreserved.pending.row
  exact Bool.and_eq_true_iff.mpr ⟨hjob, hreserved.pending.parties⟩

theorem settling_of_phase {job : ChatJob} {jobID walletID : UUID} {result : JobResultPayload}
    (hcall : s.call call.id = some call)
    (hphase : call.phase = .answered job jobID walletID result) :
    settling P s call.id = some (job.settlement P walletID jobID result) := by
  rw [settling, hcall, Option.bind_some, hphase]

/-- A call that waits for `Dispatch` takes no other step. -/
theorem deliver_of_dispatched {job : ChatJob} {jobID walletID : UUID}
    (hphase : call.phase = .dispatched job jobID walletID)
    (hstep : Stepped P cfg s call e db call') :
    ∃ outcome, e = .deliver call.id outcome ∧ call'.outcome = some outcome := by
  cases hstep with
  | advance hadvance =>
      rw [Call.advance, hphase] at hadvance
      cases hadvance
  | deliver hdeliver => exact ⟨_, rfl, outcome_of_deliver hdeliver⟩

/-- A step that is not the return of `Dispatch` keeps the outcome. -/
theorem Completing.step (h : Invariant P s) (hcall : s.call call.id = some call)
    (hcompleting : Completing s.db call) (hstep : Stepped P cfg s call e db call')
    (hguard : Completable P s e s') : Completing db call' := by
  have hmem := (Table.mem_of_select hcall).1
  have hinv := h.calls call hmem
  obtain ⟨houtcome, hbefore⟩ := hcompleting
  -- The settlement that is about to be made is acceptable.
  have hsettles : ∀ {job : ChatJob} {jobID walletID : UUID} {result : JobResultPayload},
      call.phase = .answered job jobID walletID result →
      Settleable s.db (job.settlement P walletID jobID result) := by
    intro job jobID walletID result hphase
    cases hstep with
    | advance _ => exact hguard _ (settling_of_phase hcall hphase)
    | deliver hdeliver =>
        rw [Call.deliver, hphase] at hdeliver
        cases hdeliver
  have htransition := hstep.transition
  cases htransition with
  | search hsearching hnext =>
      have hnone := ((callInv_of_searching hsearching).mp hinv).1
      refine ⟨houtcome, ?_⟩
      rcases hnext with hnext | ⟨response, rfl, -⟩
      · cases hnext' : (call.goto _).phase <;> simp only
        all_goals
          simp only [Call.goto] at hnext'
          simp [hnext', Phase.Searching] at hnext
      · intro jobID hjobID
        rw [Call.goto, hnone] at hjobID
        cases hjobID
  | recordRefusal hphase =>
      simp only [CallInv, hphase] at hinv
      refine ⟨houtcome, fun jobID hjobID => ?_⟩
      obtain rfl := Option.some.inj (hinv.1.symm.trans hjobID)
      obtain ⟨row, hrow, hstatus⟩ := recorded_of_pending hinv.2.2 (storable_refusal _)
      exact ⟨row, hrow, .inr ⟨hstatus, handle_status _⟩⟩
  | @fail job jobID walletID failure outcome hphase hfailure =>
      obtain ⟨outcome', rfl, hsame⟩ := deliver_of_dispatched hphase hstep
      obtain rfl : outcome = outcome' := Option.some.inj hsame
      obtain ⟨htexts, htimeout⟩ := storable_failure hfailure hguard
      exact ⟨fun heq => htimeout (Option.some.inj heq), htexts⟩
  | answer hphase _ => exact ⟨by simp, trivial⟩
  | release hphase _ =>
      simp only [hphase] at hbefore
      exact ⟨houtcome, hbefore⟩
  | keep hphase _ =>
      simp only [hphase] at hbefore
      exact ⟨houtcome, hbefore⟩
  | recordFailure hphase =>
      simp only [hphase] at hbefore
      simp only [CallInv, hphase] at hinv
      refine ⟨houtcome, fun jobID hjobID => ?_⟩
      obtain rfl := Option.some.inj (hinv.1.symm.trans hjobID)
      obtain ⟨row, hrow, hstatus⟩ := recorded_of_pending hinv.2.2.1.pending hbefore
      exact ⟨row, hrow, .inr ⟨hstatus, hinv.2.2.2.status⟩⟩
  | settle hphase hsettled =>
      simp only [CallInv, hphase] at hinv
      refine ⟨houtcome, fun jobID hjobID => ?_⟩
      obtain rfl := Option.some.inj (hinv.1.symm.trans hjobID)
      have hrow := hsettled.job
      rw [ChatJob.settlement, hinv.2.2.pending.row] at hrow
      exact ⟨_, hrow, .inl ⟨rfl, rfl, hsettled.recorded⟩⟩
  | unsettle hphase hrefused =>
      obtain ⟨db', hexec⟩ := settlement_commits h hmem hphase (hsettles hphase)
      rw [hexec] at hrefused
      cases hrefused
  | returnCredits hphase _ => simp [hphase] at hbefore
  | keepCredits hphase _ => simp [hphase] at hbefore
  | _ => exact ⟨houtcome, trivial⟩

/-- A finished call takes no step. -/
theorem not_stepped_of_done {response : Response} (hdone : call.phase = .done response) :
    ¬ Stepped P cfg s call e db call' := by
  intro hstep
  cases hstep with
  | advance hadvance =>
      rw [Call.advance, hdone] at hadvance
      cases hadvance
  | deliver hdeliver =>
      rw [Call.deliver, hdone] at hdeliver
      cases hdeliver

theorem completing_of_reaches {es : List ServiceEvent}
    (hreach : (chatMachine P cfg).Reaches (Completable P) es s) :
    Invariant P s ∧ ∀ call ∈ s.calls, Completing s.db call := by
  refine hreach.invariant
    (fun s => Invariant P s ∧ ∀ call ∈ s.calls, Completing s.db call) ?_ ?_
  · rintro s ⟨hfresh, hcalls⟩
    exact ⟨.start hfresh hcalls, by simp [hcalls]⟩
  · rintro s e s' ⟨hinv, hcompleting⟩ hnext hguard
    refine ⟨hinv.step hnext, ?_⟩
    cases kind_of_next hnext with
    | background hstep =>
        intro call hcall
        exact (hcompleting call hcall).keep (.of_background hstep none) fun _ _ => nofun
    | arrive _ =>
        intro call hcall
        rcases List.mem_append.mp hcall with hold | hnew
        · exact hcompleting call hold
        · rw [List.mem_singleton.mp hnew]
          exact ⟨nofun, trivial⟩
    | @call call call' db hcall hstep =>
        have hmem := (Table.mem_of_select hcall).1
        have htransition := hstep.transition
        intro new hnew
        rcases ChatService.mem_put hnew with rfl | ⟨hold, hne⟩
        · exact (hcompleting call hmem).step hinv hcall hstep hguard
        · exact (hcompleting new hold).keep (htransition.keeps (hinv.calls call hmem))
            fun _ hjob => hinv.other_job hmem htransition hold hne hjob

end Completing

/-- In a run in which every outcome of a dispatch can be recorded and every settlement is
accepted, the job of a finished call is succeeded when the call was answered with 200 and
has its usage record, and failed otherwise; and no later step changes it. -/
theorem jobs_are_finished (P : Platform) (cfg : Config) {es : List ServiceEvent}
    {s : ChatService} (hreach : (chatMachine P cfg).Reaches (Completable P) es s) :
    (∀ call ∈ s.calls, ∀ response jobID, call.phase = .done response →
        call.jobID = some jobID → Finished s.db call response jobID) ∧
      ∀ es' s', (chatMachine P cfg).Steps (Completable P) s es' s' →
        ∀ call ∈ s.calls, ∀ response jobID, call.phase = .done response →
          call.jobID = some jobID →
          s'.call call.id = some call ∧ s'.db.job jobID = s.db.job jobID := by
  obtain ⟨hinv, hcompleting⟩ := completing_of_reaches hreach
  refine ⟨fun call hcall response jobID hdone hjobID =>
    (hcompleting call hcall).finished hdone hjobID, ?_⟩
  intro es' s' hsteps call hcall response jobID hdone hjobID
  have hselect : s.call call.id = some call := Table.select_of_mem hinv.ids hcall
  obtain ⟨-, call', hcall', rfl, hjob⟩ := hinv.track
    (fun db other => other = call ∧ db.job jobID = s.db.job jobID) hsteps hselect ⟨rfl, rfl⟩
    (by
      rintro db db' _ other ⟨rfl, hjob⟩ hkeeps hother
      exact ⟨rfl, (hkeeps.job jobID (hother jobID hjobID)).trans hjob⟩)
    (by
      rintro a b e _ call' _ _ ⟨rfl, -⟩ hstep _
      exact absurd hstep (not_stepped_of_done hdone))
  exact ⟨hcall', hjob⟩

/-! ## Sample runs -/

instance (outcome : Except DispatchError CompletionFrame) : Decidable (Recordable outcome) :=
  match outcome with
  | .error .providerUnavailable => isTrue trivial
  | .error .jobTimeout => isFalse id
  | .error (.writeFailed text) => inferInstanceAs (Decidable (storable text = true))
  | .ok frame => inferInstanceAs (Decidable (frame.payload.errorCode ≠ "" → _))

instance (input : UsageSettlement) (wallet : WalletRow) : Decidable (input.FitsBalance wallet) :=
  inferInstanceAs (Decidable (_ ∧ _))

instance (db : DB) (input : UsageSettlement) : Decidable (Settleable db input) :=
  decidable_of_iff
    (input.fitsColumns = true ∧ 0 ≤ input.actualCostCredits.toInt ∧
      0 ≤ input.providerRewardCredits.toInt ∧
      ∀ wallet ∈ db.wallet input.userWalletID, input.FitsBalance wallet)
    ⟨fun h => ⟨h.1, h.2.1, h.2.2.1, h.2.2.2⟩, fun h => ⟨h.columns, h.cost, h.reward, h.balance⟩⟩

instance (s : ChatService) (e : ServiceEvent) (s' : ChatService) :
    Decidable (Completable samplePlatform s e s') :=
  match e with
  | .deliver _ outcome => inferInstanceAs (Decidable (Recordable outcome))
  | .advance id _ =>
      inferInstanceAs (Decidable (∀ input ∈ settling samplePlatform s id, Settleable s.db input))
  | .register .. => isTrue trivial
  | .createProvider .. => isTrue trivial
  | .adminAdjust .. => isTrue trivial
  | .setApproval .. => isTrue trivial
  | .disableProvider .. => isTrue trivial
  | .changeCatalog _ => isTrue trivial
  | .arrive .. => isTrue trivial

/-- The sample call that settles is answered with 200, and its job has succeeded. -/
theorem sample_job_is_finished :
    (chatMachine samplePlatform sampleConfig).Reaches (Completable samplePlatform)
        (dispatchEvents ++ settleEvents) (sampleAfter (dispatchEvents ++ settleEvents)) ∧
      ∀ call ∈ (sampleAfter (dispatchEvents ++ settleEvents)).calls, ∀ response jobID,
        call.phase = .done response → call.jobID = some jobID →
          Finished (sampleAfter (dispatchEvents ++ settleEvents)).db call response jobID := by
  have hrun : Machine.exec (next samplePlatform sampleConfig)
      (fun s e s' => decide (Completable samplePlatform s e s')) freshService
      (dispatchEvents ++ settleEvents) =
        some (sampleAfter (dispatchEvents ++ settleEvents)) := by
    decide +kernel
  have hsteps : (chatMachine samplePlatform sampleConfig).Steps (Completable samplePlatform)
      freshService (dispatchEvents ++ settleEvents)
      (sampleAfter (dispatchEvents ++ settleEvents)) :=
    Machine.steps_of_exec (fun _ _ _ hcheck => of_decide_eq_true hcheck) hrun
  have hreach : (chatMachine samplePlatform sampleConfig).Reaches (Completable samplePlatform)
      (dispatchEvents ++ settleEvents) (sampleAfter (dispatchEvents ++ settleEvents)) :=
    ⟨freshService, ⟨⟨_, rfl⟩, rfl⟩, hsteps⟩
  exact ⟨hreach, (jobs_are_finished samplePlatform sampleConfig hreach).1⟩

/-- The provider answers with a latency that does not fit `INT`: the settlement fails, and
the credits are released. -/
def lateEvents : List ServiceEvent :=
  [.deliver 0 (.ok (.jobResult "job_20250101000000.000000000" "hi there" "stop" none 2147483648)),
    .advance 0 sampleEnv, .advance 0 sampleEnv]

/-- The call returns an error and leaves its job dispatched. -/
theorem late_answer_leaves_job_dispatched :
    ∃ s, (chatMachine samplePlatform sampleConfig).Reaches Machine.anyStep
        (dispatchEvents ++ lateEvents) s ∧
      ∃ call ∈ s.calls,
        call.phase = .done (.error 500 "internal_error" "Internal server error.") ∧
        call.jobID = some 7 ∧
        (s.db.job 7).map JobRow.status = some .dispatched ∧
        ¬ Finished s.db call (.error 500 "internal_error" "Internal server error.") 7 := by
  obtain ⟨hrun, hcalls, hstatus⟩ :
      (runSample freshService (dispatchEvents ++ lateEvents)).isSome ∧
        (sampleAfter (dispatchEvents ++ lateEvents)).calls.map (fun call =>
          (call.phase, call.jobID, call.outcome)) = [(.done (.error 500 "internal_error"
            "Internal server error."), some 7, some (.ok (.jobResult
              "job_20250101000000.000000000" "hi there" "stop" none 2147483648)))] ∧
        ((sampleAfter (dispatchEvents ++ lateEvents)).db.job 7).map JobRow.status =
          some .dispatched := by
    decide +kernel
  have hreach := (reaches_sampleAfter hrun).mono fun _ _ _ _ => trivial
  refine ⟨_, hreach, ?_⟩
  obtain ⟨call, hcall, hfields⟩ : ∃ call ∈ (sampleAfter (dispatchEvents ++ lateEvents)).calls,
      (call.phase, call.jobID, call.outcome) = _ :=
    List.mem_map.mp (hcalls ▸ List.mem_singleton_self _)
  obtain ⟨hphase, hrest⟩ := Prod.mk.inj hfields
  obtain ⟨hjobID, houtcome⟩ := Prod.mk.inj hrest
  refine ⟨call, hcall, hphase, hjobID, hstatus, ?_⟩
  rintro ⟨row, hrow, -, -, hfailed⟩
  rw [hrow, Option.map_some, Option.some.injEq] at hstatus
  have hstatus' : row.status = .failed := by
    refine hfailed (fun hboth => ?_) ?_
    · exact absurd hboth.1 (by decide)
    · rw [houtcome]
      exact nofun
  rw [hstatus] at hstatus'
  cases hstatus'

end Nuvonode.Contract
