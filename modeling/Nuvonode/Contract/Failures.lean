/-
  Contract/Failures.lean --- when a reported failure is not billed.

  `ProviderWS` folds a `provider.job_error` into the payload of a result, and the
  request tells them apart by the error code.  So an error with an empty code is an
  answer, and is billed; and a text that the job row cannot store leaves the job
  dispatched.
-/
import Nuvonode.Contract.Completion

set_option autoImplicit false

namespace Nuvonode.Contract

open Nuvonode.Foundation Nuvonode.Database Nuvonode.Repository Nuvonode.Service Nuvonode.Handler
  Nuvonode.Ws

/-- The request returned its whole reservation and settled nothing, its job is failed
and has no usage record, and it was not answered with 200. -/
def NotBilled (db : DB) (call : Call) (response : Response) : Prop :=
  response.status ≠ 200 ∧ ∃ jobID row walletID, call.jobID = some jobID ∧
    db.job jobID = some row ∧ row.status = .failed ∧ db.usage jobID = none ∧
    call.commits = [.reserve walletID row.reservedCredits, .release walletID row.reservedCredits]

/-- The wallet and the amount of the release that a call is about to make for a failure
its provider reported. -/
def releasing (P : Platform) (s : ChatService) (id : Nat) : Option (UUID × Int64) :=
  (s.call id).bind fun call =>
    match call.phase, call.outcome with
    | .failing job _ walletID _, some (.ok _) => some (walletID, job.reservedCredits P)
    | _, _ => none

/-- The guard: the balance that such a release leaves fits `int64`. -/
def ReleaseFits (P : Platform) (s : ChatService) (e : ServiceEvent) (_ : ChatService) : Prop :=
  match e with
  | .advance id _ => ∀ r ∈ releasing P s id, ∀ wallet ∈ s.db.wallet r.1,
      wallet.balanceCredits.toInt + r.2.toInt ≤ maxInt64
  | _ => True

/-! ## A call whose provider reported an error -/

/-- What a call does with the code and the message of a reported error, phase by phase. -/
def Reporting (P : Platform) (db : DB) (call : Call) (code message : String) : Prop :=
  match call.phase with
  | .failing _ _ _ failure => code ≠ "" ∧ failure.code = code ∧ failure.message = message
  | .released job _ walletID failure => code ≠ "" ∧ failure.code = code ∧
      failure.message = message ∧ call.commits =
        [.reserve walletID (job.reservedCredits P), .release walletID (job.reservedCredits P)]
  | .answered .. | .unsettled .. => code = ""
  | .done response => ∃ jobID row, call.jobID = some jobID ∧ db.job jobID = some row ∧
      (code = "" ∧ row.status ≠ .failed ∨
        code ≠ "" ∧ response.status ≠ 200 ∧ db.usage jobID = none ∧
          (row.status = .failed ↔ storable code = true ∧ storable message = true) ∧
          ∃ walletID, call.commits = [.reserve walletID row.reservedCredits,
            .release walletID row.reservedCredits])
  | _ => False

/-- `Reporting`, of the error the call was given. -/
def Reports (P : Platform) (db : DB) (call : Call) : Prop :=
  ∀ name code message, call.outcome = some (.ok (.jobError name code message)) →
    Reporting P db call code message

section Reporting

variable {P : Platform} {cfg : Config} {s s' : ChatService} {db db' : DB} {call call' : Call}
  {e : ServiceEvent} {code message : String}

theorem Reporting.keep (h : Reporting P db call code message) {other : Option UUID}
    (hkeeps : KeepsOthers other db db')
    (hother : ∀ jobID, call.jobID = some jobID → other ≠ some jobID) :
    Reporting P db' call code message := by
  unfold Reporting at h ⊢
  cases hphase : call.phase <;> simp only [hphase] at h ⊢
  case done response =>
    obtain ⟨jobID, row, hjobID, hrow, hcases⟩ := h
    refine ⟨jobID, row, hjobID, ?_, ?_⟩
    · rw [hkeeps.job jobID (hother jobID hjobID), hrow]
    · rw [hkeeps.usage jobID (hother jobID hjobID)]
      exact hcases
  all_goals exact h

/-- Recording a reported failure on a dispatched job marks it failed exactly when the
texts can be stored. -/
theorem Reserved.markJobFailed {job : ChatJob} {jobID walletID : UUID}
    (h : Reserved P db job jobID walletID .dispatched) : ∃ row,
      (afterwards (Repository.markJobFailed jobID .failed code message) db).job jobID = some row ∧
      row.reservedCredits = job.reservedCredits P ∧
      (afterwards (Repository.markJobFailed jobID .failed code message) db).usage jobID = none ∧
      (row.status = .failed ↔ storable code = true ∧ storable message = true) := by
  obtain ⟨row, hrow, hcredits, hunused⟩ : ∃ row,
      (afterwards (Repository.markJobFailed jobID .failed code message) db).job jobID = some row ∧
      _ ∧ _ := h.pending.markJobFailed
  refine ⟨row, hrow, hcredits, hunused, ?_⟩
  rw [← Bool.and_eq_true_iff]
  constructor
  · intro hstatus
    rcases afterwards_markJobFailed db jobID with hsame | ⟨htexts, -⟩
    · rw [hsame, h.pending.row, Option.some.injEq] at hrow
      rw [← hrow] at hstatus
      cases hstatus
    · exact htexts
  · intro htexts
    obtain ⟨row', hrow', hstatus⟩ := recorded_of_pending h.pending htexts
    rw [hrow, Option.some.injEq] at hrow'
    rwa [hrow']

/-- A call that is about to release for a reported failure can do so. -/
theorem release_of_fits (h : Invariant P s) (hcall : s.call call.id = some call) {job : ChatJob}
    {jobID walletID : UUID} {failure : Failure} {frame : CompletionFrame}
    (hphase : call.phase = .failing job jobID walletID failure)
    (houtcome : call.outcome = some (.ok frame)) (hstep : Stepped P cfg s call e db call')
    (hguard : ReleaseFits P s e s') :
    ∃ db, (release walletID (job.reservedCredits P) failure.releaseReason).exec s.db =
      .ok ((), db) := by
  have hmem := (Table.mem_of_select hcall).1
  have hinv := h.calls call hmem
  simp only [CallInv, hphase] at hinv
  obtain ⟨-, hcommits, -, hproper⟩ := hinv
  obtain ⟨hpos, wallet, hfound, hheld⟩ := h.held hmem hcommits
  have hreleasing : releasing P s call.id = some (walletID, job.reservedCredits P) := by
    simp only [releasing, hcall, Option.bind_some, hphase, houtcome]
  cases hstep with
  | advance _ =>
      have hfits := hguard _ hreleasing wallet hfound
      have hexec : (release walletID (job.reservedCredits P) failure.releaseReason).exec s.db = _ :=
        exec_release h.ledger hfound hpos hheld hfits
      rw [if_pos hproper.reason] at hexec
      exact ⟨_, hexec⟩
  | deliver hdeliver =>
      rw [Call.deliver, hphase] at hdeliver
      cases hdeliver

/-- Every step of a call keeps to what was reported to it. -/
theorem Reports.step (h : Invariant P s) (hcall : s.call call.id = some call)
    (hreports : Reports P s.db call) (hstep : Stepped P cfg s call e db call')
    (hguard : ReleaseFits P s e s') : Reports P db call' := by
  have hinv := h.calls call (Table.mem_of_select hcall).1
  have htransition := hstep.transition
  -- Before `Dispatch` returns nothing is reported.
  have hearly : ∀ {p : Prop} {name code message : String},
      call.outcome = some (.ok (.jobError name code message)) →
      (Reporting P s.db call code message → False) → p :=
    fun houtcome hfalse => (hfalse (hreports _ _ _ houtcome)).elim
  intro name code message houtcome
  cases htransition with
  | search hsearching _ =>
      refine hearly houtcome fun hreporting => ?_
      unfold Reporting at hreporting
      cases hphase : call.phase <;> simp [hphase, Phase.Searching] at hsearching hreporting
  | create hphase | refuse hphase | reserve hphase | dispatch hphase =>
      refine hearly houtcome fun hreporting => ?_
      simp only [Reporting, hphase] at hreporting
  | recordRefusal hphase =>
      refine hearly houtcome fun hreporting => ?_
      simp only [Reporting, hphase] at hreporting
  | fail hphase hfailure =>
      obtain ⟨e, rfl, -⟩ | ⟨frame, rfl, hcode, rfl⟩ := hfailure
      · cases houtcome
      · cases houtcome
        exact ⟨hcode, rfl, rfl⟩
  | answer hphase hcode =>
      cases houtcome
      exact hcode
  | release hphase _ =>
      have hreporting := hreports _ _ _ houtcome
      simp only [Reporting, hphase] at hreporting
      simp only [CallInv, hphase] at hinv
      refine ⟨hreporting.1, hreporting.2.1, hreporting.2.2, ?_⟩
      rw [Call.committed, Call.goto, hinv.2.1]
      rfl
  | keep hphase hrefused =>
      obtain ⟨db', hexec⟩ := release_of_fits h hcall hphase houtcome hstep hguard
      rw [hexec] at hrefused
      cases hrefused
  | recordFailure hphase =>
      have hreporting := hreports _ _ _ houtcome
      simp only [Reporting, hphase] at hreporting
      simp only [CallInv, hphase] at hinv
      obtain ⟨hcode, rfl, rfl, hcommits⟩ := hreporting
      obtain ⟨row, hrow, hcredits, hunused, hstatus⟩ := Reserved.markJobFailed hinv.2.2.1
      rw [← hcredits] at hcommits
      exact ⟨_, row, hinv.1, hrow, .inr ⟨hcode, hinv.2.2.2.status, hunused, hstatus, _, hcommits⟩⟩
  | settle hphase hsettled =>
      have hreporting := hreports _ _ _ houtcome
      simp only [Reporting, hphase] at hreporting
      simp only [CallInv, hphase] at hinv
      have hrow := hsettled.job
      rw [ChatJob.settlement, hinv.2.2.pending.row] at hrow
      exact ⟨_, _, hinv.1, hrow, .inl ⟨hreporting, JobStatus.noConfusion⟩⟩
  | unsettle hphase _ =>
      have hreporting := hreports _ _ _ houtcome
      simp only [Reporting, hphase] at hreporting
      exact hreporting
  | returnCredits hphase hposted =>
      have hreporting := hreports _ _ _ houtcome
      simp only [Reporting, hphase] at hreporting
      simp only [CallInv, hphase] at hinv
      have hrow := (hinv.2.2.posted hposted).pending.row
      exact ⟨_, _, hinv.1, hrow, .inl ⟨hreporting, JobStatus.noConfusion⟩⟩
  | keepCredits hphase _ =>
      have hreporting := hreports _ _ _ houtcome
      simp only [Reporting, hphase] at hreporting
      simp only [CallInv, hphase] at hinv
      exact ⟨_, _, hinv.1, hinv.2.2.pending.row, .inl ⟨hreporting, JobStatus.noConfusion⟩⟩

theorem reports_of_reaches {es : List ServiceEvent}
    (hreach : (chatMachine P cfg).Reaches (ReleaseFits P) es s) :
    Invariant P s ∧ ∀ call ∈ s.calls, Reports P s.db call := by
  refine hreach.invariant
    (fun s => Invariant P s ∧ ∀ call ∈ s.calls, Reports P s.db call) ?_ ?_
  · rintro s ⟨hfresh, hcalls⟩
    exact ⟨.start hfresh hcalls, by simp [hcalls]⟩
  · rintro s e s' ⟨hinv, hreports⟩ hnext hguard
    refine ⟨hinv.step hnext, ?_⟩
    cases kind_of_next hnext with
    | background hstep =>
        intro call hcall name code message houtcome
        exact (hreports call hcall _ _ _ houtcome).keep (.of_background hstep none)
          fun _ _ => nofun
    | arrive _ =>
        intro call hcall
        rcases List.mem_append.mp hcall with hold | hnew
        · exact hreports call hold
        · rw [List.mem_singleton.mp hnew]
          exact fun _ _ _ => nofun
    | @call call call' db hcall hstep =>
        have hmem := (Table.mem_of_select hcall).1
        have htransition := hstep.transition
        intro new hnew
        rcases ChatService.mem_put hnew with rfl | ⟨hold, hne⟩
        · exact (hreports call hmem).step hinv hcall hstep hguard
        · intro name code message houtcome
          exact (hreports new hold _ _ _ houtcome).keep
            (htransition.keeps (hinv.calls call hmem))
            fun _ hjob => hinv.other_job hmem htransition hold hne hjob

end Reporting

/-- In a run in which the release of a reported failure fits the wallet, a request whose
provider reported an error is not billed, and its job is marked failed, exactly when the
error code is not empty and both texts can be stored. -/
theorem reported_failure_not_billed_iff (P : Platform) (cfg : Config) {es : List ServiceEvent}
    {s : ChatService} (hreach : (chatMachine P cfg).Reaches (ReleaseFits P) es s) :
    ∀ call ∈ s.calls, ∀ response name code message, call.phase = .done response →
      call.outcome = some (.ok (.jobError name code message)) →
      (NotBilled s.db call response ↔
        code ≠ "" ∧ storable code = true ∧ storable message = true) := by
  intro call hcall response name code message hdone houtcome
  obtain ⟨-, hreports⟩ := reports_of_reaches hreach
  have hreporting := hreports call hcall _ _ _ houtcome
  simp only [Reporting, hdone] at hreporting
  obtain ⟨jobID, row, hjobID, hrow, hcases⟩ := hreporting
  constructor
  · rintro ⟨-, jobID', row', walletID, hjobID', hrow', hfailed, -, -⟩
    obtain rfl := Option.some.inj (hjobID.symm.trans hjobID')
    obtain rfl := Option.some.inj (hrow.symm.trans hrow')
    rcases hcases with ⟨-, hnot⟩ | ⟨hcode, -, -, hstatus, -⟩
    · exact absurd hfailed hnot
    · exact ⟨hcode, hstatus.mp hfailed⟩
  · rintro ⟨hcode, htexts⟩
    rcases hcases with ⟨hempty, -⟩ | ⟨-, hok, hunused, hstatus, walletID, hcommits⟩
    · exact absurd hempty hcode
    · exact ⟨hok, jobID, row, walletID, hjobID, hrow, hstatus.mpr htexts, hunused, hcommits⟩

/-! ## Sample runs -/

instance (s : ChatService) (e : ServiceEvent) (s' : ChatService) :
    Decidable (ReleaseFits samplePlatform s e s') :=
  match e with
  | .advance id _ => inferInstanceAs (Decidable (∀ r ∈ releasing samplePlatform s id,
      ∀ wallet ∈ s.db.wallet r.1, wallet.balanceCredits.toInt + r.2.toInt ≤ maxInt64))
  | .deliver .. => isTrue trivial
  | .register .. => isTrue trivial
  | .createProvider .. => isTrue trivial
  | .adminAdjust .. => isTrue trivial
  | .setApproval .. => isTrue trivial
  | .disableProvider .. => isTrue trivial
  | .changeCatalog _ => isTrue trivial
  | .arrive .. => isTrue trivial

/-- The provider of the sample call reports an error with this code. -/
def reportEvent (code : String) : ServiceEvent :=
  .deliver 0 (.ok (.jobError "job_20250101000000.000000000" code "out of memory"))

/-- The events of a sample call whose provider reports a code: the release, and the mark. -/
def failureEvents : List ServiceEvent :=
  dispatchEvents ++ [reportEvent "oom", .advance 0 sampleEnv, .advance 0 sampleEnv]

/-- The sample call whose provider reports the code `oom` is not billed. -/
theorem sample_failure_not_billed :
    (chatMachine samplePlatform sampleConfig).Reaches (ReleaseFits samplePlatform) failureEvents
        (sampleAfter failureEvents) ∧
      ∃ call ∈ (sampleAfter failureEvents).calls,
        NotBilled (sampleAfter failureEvents).db call
          (.error 502 "provider_failed" "out of memory") := by
  have hrun : Machine.exec (next samplePlatform sampleConfig)
      (fun s e s' => decide (ReleaseFits samplePlatform s e s')) freshService failureEvents =
        some (sampleAfter failureEvents) := by
    decide +kernel
  have hsteps : (chatMachine samplePlatform sampleConfig).Steps (ReleaseFits samplePlatform)
      freshService failureEvents (sampleAfter failureEvents) :=
    Machine.steps_of_exec (fun _ _ _ hcheck => of_decide_eq_true hcheck) hrun
  have hreach : (chatMachine samplePlatform sampleConfig).Reaches (ReleaseFits samplePlatform)
      failureEvents (sampleAfter failureEvents) := ⟨freshService, ⟨⟨_, rfl⟩, rfl⟩, hsteps⟩
  have hcalls : (sampleAfter failureEvents).calls.map (fun call => (call.phase, call.outcome)) =
      [(.done (.error 502 "provider_failed" "out of memory"), some (.ok
        (.jobError "job_20250101000000.000000000" "oom" "out of memory")))] := by
    decide +kernel
  obtain ⟨call, hcall, hfields⟩ : ∃ call ∈ (sampleAfter failureEvents).calls,
      (call.phase, call.outcome) = _ := List.mem_map.mp (hcalls ▸ List.mem_singleton_self _)
  obtain ⟨hphase, houtcome⟩ := Prod.mk.inj hfields
  have htexts : "oom" ≠ "" ∧ storable "oom" = true ∧ storable "out of memory" = true := by decide
  exact ⟨hreach, call, hcall,
    (reported_failure_not_billed_iff samplePlatform sampleConfig hreach call hcall _ _ _ _ hphase
      houtcome).mpr htexts⟩

/-- The events of a sample call whose provider reports an empty code: the settlement. -/
def emptyCodeEvents : List ServiceEvent :=
  dispatchEvents ++ [reportEvent "", .advance 0 sampleEnv]

/-- An error with an empty code is billed, and answered with 200. -/
theorem empty_error_code_is_billed :
    ∃ s, (chatMachine samplePlatform sampleConfig).Reaches Machine.anyStep emptyCodeEvents s ∧
      (s.db.usage 7).map UsageRow.costCredits = some 2 ∧
      ∃ call ∈ s.calls, ∃ response, call.phase = .done response ∧ response.status = 200 ∧
        call.outcome = some (.ok
          (.jobError "job_20250101000000.000000000" "" "out of memory")) ∧
        ¬ NotBilled s.db call response := by
  obtain ⟨hrun, hcost, hcalls⟩ : (runSample freshService emptyCodeEvents).isSome ∧
      ((sampleAfter emptyCodeEvents).db.usage 7).map UsageRow.costCredits = some 2 ∧
      (sampleAfter emptyCodeEvents).calls.map (fun call => (call.phase, call.outcome)) =
        [(.done (.completion "job_20250101000000.000000000" "prv_b" "llama" "" "" 2 0 2),
          some (.ok (.jobError "job_20250101000000.000000000" "" "out of memory")))] := by
    decide +kernel
  have hreach := (reaches_sampleAfter hrun).mono fun _ _ _ _ => trivial
  refine ⟨_, hreach, hcost, ?_⟩
  obtain ⟨call, hcall, hfields⟩ : ∃ call ∈ (sampleAfter emptyCodeEvents).calls,
      (call.phase, call.outcome) = _ := List.mem_map.mp (hcalls ▸ List.mem_singleton_self _)
  obtain ⟨hphase, houtcome⟩ := Prod.mk.inj hfields
  exact ⟨call, hcall, _, hphase, rfl, houtcome, fun hnot => hnot.1 rfl⟩

end Nuvonode.Contract
