/-
  Contract/Blame.lean --- which failures a provider's statistics count.

  Every error exit of a request records a plain failure of the job's provider: the one
  before the dispatch too, and the one after a timeout.  `Accountable` excludes the exits
  that count a failure the provider had no part in, or under the wrong name, or not at all.
-/
import Nuvonode.Contract.Answers
import Nuvonode.Contract.Completion
import Nuvonode.Ws.Channels

set_option autoImplicit false

namespace Nuvonode.Contract

open Nuvonode.Foundation Nuvonode.Database Nuvonode.Repository Nuvonode.Service Nuvonode.Handler
  Nuvonode.Ws

/-! ## What is counted -/

/-- The failed jobs of a provider, zero where it has no statistics. -/
def failedJobs (db : DB) (providerID : UUID) : Nat :=
  ((db.stats providerID).map StatsRow.failedJobs).getD 0

/-- The timed out jobs of a provider, zero where it has no statistics. -/
def timeoutJobs (db : DB) (providerID : UUID) : Nat :=
  ((db.stats providerID).map StatsRow.timeoutJobs).getD 0

/-- The provider of the job that a call created. -/
def jobProvider (db : DB) (call : Call) : Option UUID :=
  (call.jobID.bind db.job).bind JobRow.providerID

/-- The call ended without success. -/
def Unsuccessful (call : Call) : Prop :=
  match call.phase with
  | .done response => response.status ≠ 200
  | _ => False

/-- The request of a call was written to a connection. -/
def Sent (es : List ApiEvent) (id : Nat) : Prop := .network (.write id none) ∈ es

/-- A job of the provider whose `Dispatch` ended with `ErrJobTimeout`. -/
def TimedOutJob (db : DB) (providerID : UUID) (call : Call) : Prop :=
  jobProvider db call = some providerID ∧ Unsuccessful call ∧
    call.outcome = some (.error .jobTimeout)

/-- A job of the provider that was written to a connection, and ended without success for
another reason. -/
def FailedJob (es : List ApiEvent) (db : DB) (providerID : UUID) (call : Call) : Prop :=
  jobProvider db call = some providerID ∧ Unsuccessful call ∧ Sent es call.id ∧
    call.outcome ≠ some (.error .jobTimeout)

instance (call : Call) : Decidable (Unsuccessful call) := by
  unfold Unsuccessful
  split <;> infer_instance

instance (es : List ApiEvent) (id : Nat) : Decidable (Sent es id) :=
  inferInstanceAs (Decidable (_ ∈ _))

instance (db : DB) (providerID : UUID) : DecidablePred (TimedOutJob db providerID) :=
  fun _ => inferInstanceAs (Decidable (_ ∧ _ ∧ _))

instance (es : List ApiEvent) (db : DB) (providerID : UUID) :
    DecidablePred (FailedJob es db providerID) :=
  fun _ => inferInstanceAs (Decidable (_ ∧ _ ∧ _ ∧ _))

/-! ## Which steps are accounted for -/

/-- What `Dispatch` returned is counted as what it was: a result whose failure can be
recorded, or a write that failed and cannot be. -/
def Attributable : Except DispatchError CompletionFrame → Prop
  | .error .providerUnavailable => False
  | .error .jobTimeout => False
  | .error (.writeFailed text) => storable text = false
  | .ok frame => frame.payload.errorCode ≠ "" →
      (storable frame.payload.errorCode && storable frame.payload.errorMessage) = true

/-- The reservation that a call is about to make. -/
def reserving (P : Platform) (s : ChatService) (id : Nat) : Option (UUID × Int64) :=
  (s.call id).bind fun call =>
    match call.phase with
    | .created job _ => some (job.auth.userID, job.reservedCredits P)
    | _ => none

/-- The guard of the requests: a reservation that is made is covered, what `Dispatch`
returns can be attributed, and what is settled is accepted. -/
def AccountableCall (P : Platform) (s : ChatService) (e : ServiceEvent) (_ : ChatService) :
    Prop :=
  match e with
  | .deliver _ outcome => Attributable outcome
  | .advance id _ => (∀ r ∈ reserving P s id, Reservable s.db r.1 r.2) ∧
      ∀ input ∈ settling P s id, Settleable s.db input
  | _ => True

/-- The guard of the server. -/
def Accountable (P : Platform) (s : Api) (e : ApiEvent) (s' : Api) : Prop :=
  match e with
  | .service e => AccountableCall P s.service e s'.service
  | .deliver id => ∀ dispatch ∈ s.network.dispatch id, ∀ outcome,
      dispatch.phase = .returned outcome → Attributable (outcome.map Delivery.frame)
  | _ => True

/-! ## The statistics -/

section Statistics

variable {db : DB} {row : StatsRow} {providerID other : UUID}

/-- A plain failure is one more failed job of its provider. -/
theorem counts_putFailed {db' : DB} (hstats : db'.providerStats = db.providerStats) :
    failedJobs (db'.apply (.putStats (StatsRow.failed .failed providerID (db'.stats providerID))))
        other = failedJobs db other + (if providerID = other then 1 else 0) ∧
      timeoutJobs (db'.apply (.putStats (StatsRow.failed .failed providerID
        (db'.stats providerID)))) other = timeoutJobs db other := by
  have hsame : ∀ id, db'.stats id = db.stats id := fun id => by rw [DB.stats, hstats, DB.stats]
  have hid : (StatsRow.failed .failed providerID (db.stats providerID)).providerID =
      providerID := by
    cases hold : db.stats providerID with
    | none => rfl
    | some old => exact (Table.mem_of_select hold).2
  simp only [failedJobs, timeoutJobs, DB.stats_putStats, hsame, hid]
  by_cases hother : providerID = other
  · subst hother
    cases hold : db.stats providerID <;> simp [StatsRow.failed]
  · simp [hother]

/-- A settled job is no failure. -/
theorem counts_settled {latencyMS : ℤ}
    (h : StatsRow.settled latencyMS providerID (db.stats providerID) = some row) (other : UUID) :
    failedJobs (db.apply (.putStats row)) other = failedJobs db other ∧
      timeoutJobs (db.apply (.putStats row)) other = timeoutJobs db other := by
  have hkept : row.providerID = providerID ∧
      row.failedJobs = ((db.stats providerID).map StatsRow.failedJobs).getD 0 ∧
      row.timeoutJobs = ((db.stats providerID).map StatsRow.timeoutJobs).getD 0 := by
    cases hold : db.stats providerID with
    | none =>
        rw [hold] at h
        obtain ⟨avg, -, h⟩ := Option.bind_eq_some_iff.mp h
        obtain ⟨trust, -, h⟩ := Option.bind_eq_some_iff.mp h
        cases h
        exact ⟨rfl, rfl, rfl⟩
    | some old =>
        rw [hold] at h
        obtain ⟨avg, -, h⟩ := Option.bind_eq_some_iff.mp h
        cases h
        exact ⟨(Table.mem_of_select hold).2, rfl, rfl⟩
  obtain ⟨hid, hfailed, htimeout⟩ := hkept
  simp only [failedJobs, timeoutJobs, DB.stats_putStats, hid]
  by_cases hother : providerID = other
  · subst hother
    simp [hfailed, htimeout]
  · simp [hother]

theorem counts_of_settled {input : UsageSettlement} {db' : DB} (h : Settled input db db') :
    failedJobs db' other = failedJobs db other ∧ timeoutJobs db' other = timeoutJobs db other := by
  obtain ⟨db₁, db₂, db₃, source, stats, h₁, h₂, h₃, -, hrow, rfl⟩ := h.effect
  have hsame : db₃.providerStats = db.providerStats := by rw [h₃.frame, h₂.frame, h₁.frame]
  have hstats : ∀ id, db₃.stats id = db.stats id := fun id => by rw [DB.stats, hsame, DB.stats]
  have hput := counts_settled hrow other
  simp only [failedJobs, timeoutJobs, hstats] at hput ⊢
  exact hput

end Statistics

/-! ## A call and its failure -/

/-- What is known of a call of an accountable run, phase by phase. -/
def Accounted (call : Call) : Prop :=
  match call.phase with
  | .failing _ _ _ failure | .released _ _ _ failure =>
      (∃ frame, call.outcome = some (.ok frame)) ∧
          (storable failure.code && storable failure.message) = true ∨
        (∃ text, call.outcome = some (.error (.writeFailed text))) ∧
          (storable failure.code && storable failure.message) = false
  | .answered .. => ∃ frame, call.outcome = some (.ok frame)
  | .refused .. | .unsettled .. => False
  | .done _ => call.outcome ≠ some (.error .jobTimeout)
  | _ => call.outcome = none

/-- The call ended without success after `Dispatch` returned a frame. -/
def Reported (db : DB) (providerID : UUID) (call : Call) : Prop :=
  jobProvider db call = some providerID ∧ Unsuccessful call ∧
    ∃ frame, call.outcome = some (.ok frame)

instance (outcome : Option (Except DispatchError CompletionFrame)) :
    Decidable (∃ frame, outcome = some (.ok frame)) :=
  match outcome with
  | none => isFalse (by simp)
  | some (.error _) => isFalse (by simp)
  | some (.ok frame) => isTrue ⟨frame, rfl⟩

instance (db : DB) (providerID : UUID) : DecidablePred (Reported db providerID) :=
  fun _ => inferInstanceAs (Decidable (_ ∧ _ ∧ _))

section Step

variable {P : Platform} {cfg : Config} {s s' : ChatService} {db db' : DB} {call call' : Call}
  {e : ServiceEvent}

/-- An attributable outcome is accounted for. -/
theorem accounted_of_failure {outcome : Except DispatchError CompletionFrame} {failure : Failure}
    (h : (∃ e, outcome = .error e ∧ failure = dispatchFailure e) ∨
      (∃ frame, outcome = .ok frame ∧ frame.payload.errorCode ≠ "" ∧
        failure = providerFailure frame.payload)) (hattributable : Attributable outcome)
    {job : ChatJob} {jobID walletID : UUID}
    (hphase : call.phase = .failing job jobID walletID failure)
    (houtcome : call.outcome = some outcome) : Accounted call := by
  simp only [Accounted, hphase, houtcome]
  obtain ⟨e, rfl, rfl⟩ | ⟨frame, rfl, hreported, rfl⟩ := h
  · cases e with
    | providerUnavailable => exact hattributable.elim
    | jobTimeout => exact hattributable.elim
    | writeFailed text =>
        refine .inr ⟨⟨text, rfl⟩, ?_⟩
        rw [Bool.and_eq_false_iff]
        exact .inr hattributable
  · exact .inl ⟨⟨frame, rfl⟩, hattributable hreported⟩

theorem Accounted.step (h : Invariant P s) (hcall : s.call call.id = some call)
    (haccounted : Accounted call) (hstep : Stepped P cfg s call e db call')
    (hguard : AccountableCall P s e s') : Accounted call' := by
  have hinv := h.calls call (Table.mem_of_select hcall).1
  have htransition := hstep.transition
  cases htransition with
  | search hsearching hnext =>
      have hnone : call.outcome = none := by
        unfold Accounted at haccounted
        cases hphase : call.phase <;> simp only [hphase, Phase.Searching] at hsearching haccounted
        all_goals exact haccounted
      rcases hnext with hlater | ⟨response, rfl, -⟩
      · rename_i phase
        unfold Accounted
        cases hphase : phase <;> simp [hphase, Phase.Searching] at hlater <;>
          simpa [Call.goto] using hnone
      · simp [Accounted, Call.goto, hnone]
  | create hphase _ _ | reserve hphase _ _ _ | dispatch hphase =>
      simp only [Accounted, hphase] at haccounted
      exact haccounted
  | @refuse job jobID e hphase =>
      -- A reservation that is covered is not refused.
      cases hstep with
      | @advance env _ _ hadvance =>
          have hreserving : reserving P s call.id =
              some (job.auth.userID, job.reservedCredits P) := by
            simp only [reserving, hcall, Option.bind_some, hphase]
          obtain ⟨r, hexec⟩ : ∃ r, (reserveForUser job.auth.userID (job.reservedCredits P)
              "chat_completion_reservation").exec s.db = .ok r :=
            exec_reserveForUser h.ledger (hguard.1 _ hreserving) (by decide)
          rw [Call.advance, hphase] at hadvance
          simp only [hexec] at hadvance
          simp [Call.goto, Call.committed] at hadvance
      | deliver hdeliver =>
          rw [Call.deliver, hphase] at hdeliver
          cases hdeliver
  | recordRefusal hphase | returnCredits hphase _ | keepCredits hphase _ =>
      simp [Accounted, hphase] at haccounted
  | fail hphase hfailure =>
      obtain ⟨outcome, rfl, hsame⟩ := deliver_of_dispatched hphase hstep
      exact accounted_of_failure hfailure (Option.some.inj hsame ▸ hguard) rfl rfl
  | answer hphase _ => exact ⟨_, rfl⟩
  | release hphase _ | keep hphase _ =>
      simp only [Accounted, hphase] at haccounted
      exact haccounted
  | recordFailure hphase =>
      simp only [Accounted, hphase] at haccounted
      rcases haccounted with ⟨⟨frame, houtcome⟩, -⟩ | ⟨⟨text, houtcome⟩, -⟩ <;>
        simp [Accounted, Call.goto, houtcome]
  | settle hphase _ =>
      simp only [Accounted, hphase] at haccounted
      obtain ⟨frame, houtcome⟩ := haccounted
      simp [Accounted, Call.goto, Call.committed, houtcome]
  | @unsettle job jobID walletID result _ hphase hrefused =>
      cases hstep with
      | advance _ =>
          obtain ⟨db', hexec⟩ := settlement_commits h (Table.mem_of_select hcall).1 hphase
            (hguard.2 _ (settling_of_phase hcall hphase))
          rw [hexec] at hrefused
          cases hrefused
      | deliver hdeliver =>
          rw [Call.deliver, hphase] at hdeliver
          cases hdeliver

/-- A call that takes a step is not finished. -/
theorem not_unsuccessful_of_stepped (hstep : Stepped P cfg s call e db call') :
    ¬ Unsuccessful call := by
  unfold Unsuccessful
  cases hphase : call.phase with
  | done response => exact absurd hstep (not_stepped_of_done hphase)
  | _ => exact id

/-- A step of an accounted call counts it as a failed job exactly when it comes to be one. -/
theorem counts_of_transition (h : Transition P db call db' call') (hinv : CallInv P db call)
    (haccounted : Accounted call) (providerID : UUID) :
    failedJobs db' providerID =
        failedJobs db providerID + (if Reported db' providerID call' then 1 else 0) ∧
      timeoutJobs db' providerID = timeoutJobs db providerID := by
  -- A step to a call that has not failed, which leaves the statistics alone.
  have hquiet : ∀ {db' : DB} {call' : Call}, db'.providerStats = db.providerStats →
      ¬ Reported db' providerID call' →
      failedJobs db' providerID =
          failedJobs db providerID + (if Reported db' providerID call' then 1 else 0) ∧
        timeoutJobs db' providerID = timeoutJobs db providerID := by
    intro db' call' hstats hnot
    simp [failedJobs, timeoutJobs, DB.stats, hstats, hnot]
  cases h with
  | @search phase hsearching _ =>
      refine hquiet rfl fun hreported => ?_
      have hnone := ((callInv_of_searching hsearching).mp hinv).1
      have hprovider := hreported.1
      simp [jobProvider, Call.goto, hnone] at hprovider
  | reserve _ _ _ hposted =>
      exact hquiet (by rw [hposted.frame]) fun hreported => hreported.2.1
  | release _ hposted => exact hquiet (by rw [hposted.frame]) fun hreported => hreported.2.1
  | recordRefusal hphase | returnCredits hphase _ | keepCredits hphase _ =>
      simp [Accounted, hphase] at haccounted
  | @settle job jobID walletID result _ hphase hsettled =>
      have hnot : ¬ Reported db' providerID ((call.goto (.done (job.completion result))).committed
          (.settle (job.settlement P walletID jobID result))) :=
        fun hreported => hreported.2.1 rfl
      rw [if_neg hnot]
      exact counts_of_settled hsettled
  | @recordFailure job jobID walletID failure hphase =>
      simp only [Accounted, hphase] at haccounted
      simp only [CallInv, hphase] at hinv
      obtain ⟨hjobID, -, hreserved, hproper⟩ := hinv
      have hpending := hreserved.pending
      rcases haccounted with ⟨houtcome, htexts⟩ | ⟨⟨text, houtcome⟩, htexts⟩
      · -- The failure is recorded, on the provider of the job.
        have hprovider : (db.provider job.route.providerID).isSome := by
          have hparties := hpending.parties
          simp only [partiesExist, Bool.and_eq_true] at hparties
          exact hparties.1.2
        have hexec : (markJobFailed jobID .failed failure.code failure.message).exec db = .ok _ :=
          exec_markJobFailed htexts hpending.row rfl hprovider
        have hrow : (db.apply (.failJob jobID .failed failure.code failure.message)).job jobID =
            (db.job jobID).map (JobRow.fail .failed failure.code failure.message) :=
          Table.select_update_self fun _ => rfl
        have hjob : jobProvider (afterwards (markJobFailed jobID .failed failure.code
            failure.message) db) (call.goto (.done failure.response)) =
              some job.route.providerID := by
          rw [afterwards, hexec]
          simp only [jobProvider, Call.goto, hjobID, Option.bind_some]
          exact (congrArg (Option.bind · JobRow.providerID) hrow).trans (by rw [hpending.row]; rfl)
        have hreported : Reported (afterwards (markJobFailed jobID .failed failure.code
            failure.message) db) providerID (call.goto (.done failure.response)) ↔
              job.route.providerID = providerID := by
          rw [Reported, hjob, Option.some.injEq]
          exact and_iff_left ⟨hproper.status, houtcome⟩
        rw [if_congr hreported rfl rfl, afterwards, hexec]
        exact counts_putFailed rfl
      · -- The write failed, and its text cannot be stored.
        have hexec : (markJobFailed jobID .failed failure.code failure.message).exec db =
            .error .invalidText := exec_markJobFailed_of_nul htexts
        rw [afterwards, hexec]
        refine hquiet rfl fun hreported => ?_
        obtain ⟨frame, hframe⟩ := hreported.2.2
        rw [Call.goto, houtcome] at hframe
        cases hframe
  | _ => exact hquiet rfl fun hreported => hreported.2.1

end Step

/-! ## Runs -/

/-- The statistics count the failures that `Dispatch` delivered, and no timeout. -/
structure Blamed (P : Platform) (s : ChatService) : Prop where
  invariant : Invariant P s
  accounted : ∀ call ∈ s.calls, Accounted call
  failed : ∀ providerID, (failedJobs s.db providerID : ℤ) =
    Table.total (fun call => if Reported s.db providerID call then 1 else 0) s.calls
  timeouts : ∀ providerID, timeoutJobs s.db providerID = 0

section Runs

variable {P : Platform} {cfg : Config} {s s' : ChatService} {e : ServiceEvent}

theorem Blamed.start (hfresh : Fresh s.db) (hcalls : s.calls = []) : Blamed P s := by
  obtain ⟨catalog, hdb⟩ := hfresh
  refine ⟨.start ⟨catalog, hdb⟩ hcalls, by simp [hcalls], fun providerID => ?_,
    fun providerID => ?_⟩
  · rw [hcalls, hdb]
    rfl
  · rw [hdb]
    rfl

/-- A change that keeps the jobs of the calls keeps who is reported. -/
theorem reported_congr {db db' : DB} {call : Call} {other : Option UUID} {providerID : UUID}
    (hkeeps : KeepsOthers other db db')
    (hother : ∀ jobID, call.jobID = some jobID → other ≠ some jobID) :
    Reported db' providerID call ↔ Reported db providerID call := by
  have hprovider : jobProvider db' call = jobProvider db call := by
    unfold jobProvider
    cases hjobID : call.jobID with
    | none => rfl
    | some jobID => rw [Option.bind_some, Option.bind_some, hkeeps.job jobID (hother jobID hjobID)]
  rw [Reported, hprovider, Reported]

theorem Blamed.step (h : Blamed P s) (hnext : next P cfg s e = some s')
    (hguard : AccountableCall P s e s') : Blamed P s' := by
  have hinv' := h.invariant.step hnext
  cases kind_of_next hnext with
  | background hstep =>
      have hstats : ∀ providerID, (s.on _).db.stats providerID = s.db.stats providerID :=
        fun providerID => by rw [DB.stats, ChatService.on, hstep.stats, DB.stats]
      refine ⟨hinv', h.accounted, fun providerID => ?_, fun providerID => ?_⟩
      · rw [failedJobs, hstats]
        refine (h.failed providerID).trans (Table.total_congr fun call _ => ?_)
        have hsame : Reported (s.on _).db providerID call ↔ Reported s.db providerID call :=
          reported_congr (.of_background hstep none) fun _ _ hnone =>
            absurd hnone.symm (Option.some_ne_none _)
        rw [if_congr hsame rfl rfl]
      · rw [timeoutJobs, hstats]
        exact h.timeouts providerID
  | arrive hfree =>
      refine ⟨hinv', fun call hcall => ?_, fun providerID => ?_, h.timeouts⟩
      · rcases List.mem_append.mp hcall with hold | hnew
        · exact h.accounted call hold
        · rw [List.mem_singleton.mp hnew]
          exact rfl
      · rw [Table.total_insert, if_neg fun hreported => hreported.2.1, Int.add_zero]
        exact h.failed providerID
  | @call old new db hold hstep =>
      have hmem := (Table.mem_of_select hold).1
      have htransition := hstep.transition
      have hinv := h.invariant.calls old hmem
      have hcounts := counts_of_transition htransition hinv (h.accounted old hmem)
      refine ⟨hinv', fun call hcall => ?_, fun providerID => ?_, fun providerID => ?_⟩
      · rcases ChatService.mem_put hcall with rfl | ⟨hother, -⟩
        · exact (h.accounted old hmem).step h.invariant hold hstep hguard
        · exact h.accounted call hother
      · -- The other calls are reported as before, and this one was not.
        have hsame : ∀ call ∈ s.calls, (Reported db providerID call ↔
            Reported s.db providerID call) := by
          intro call hcall
          by_cases hid : call.id = new.id
          · rw [htransition.id_eq] at hid
            obtain rfl : call = old := Option.some.inj
              ((Table.select_of_mem h.invariant.ids hcall).symm.trans (hid ▸ hold))
            have hnot := not_unsuccessful_of_stepped hstep
            exact iff_of_false (fun hreported => hnot hreported.2.1)
              fun hreported => hnot hreported.2.1
          · exact reported_congr (htransition.keeps hinv) fun _ hjob =>
              h.invariant.other_job hmem htransition hcall hid hjob
        have hbefore : Table.total (fun call => if Reported db providerID call then (1 : ℤ) else 0)
            s.calls = failedJobs s.db providerID :=
          (Table.total_congr fun call hcall => if_congr (hsame call hcall) rfl rfl).trans
            (h.failed providerID).symm
        have htotal : Table.total (fun call => if Reported db providerID call then (1 : ℤ) else 0)
            (Table.update Call.id s.calls new.id fun _ => new) = _ :=
          Table.total_update _ h.invariant.ids (htransition.id_eq ▸ hold)
        have hnot : ¬ Reported db providerID old := fun hreported =>
          not_unsuccessful_of_stepped hstep hreported.2.1
        rw [ChatService.put, htotal, hbefore, if_neg hnot, (hcounts providerID).1]
        split <;> simp
      · exact (hcounts providerID).2.trans (h.timeouts providerID)

/-- A step of a call that `Dispatch` has not returned to changes no statistics. -/
theorem Blamed.quiet (h : Blamed P s) {env : Env} {id : Nat} {call : Call}
    (hcall : s.call id = some call) (houtcome : call.outcome = none)
    (hnext : next P cfg s (.advance id env) = some s')
    (hguard : AccountableCall P s (.advance id env) s') :
    s'.db.providerStats = s.db.providerStats := by
  obtain ⟨hmem, rfl⟩ := Table.mem_of_select hcall
  obtain ⟨old, hold, hnext⟩ := Option.bind_eq_some_iff.mp hnext
  obtain ⟨⟨db, call'⟩, hadvance, hnext⟩ := Option.bind_eq_some_iff.mp hnext
  cases hnext
  obtain rfl := Option.some.inj (hcall.symm.trans hold)
  have haccounted := h.accounted call hmem
  have htransition := transition_of_advance hadvance
  cases htransition with
  | reserve _ _ _ hposted | release _ hposted => rw [ChatService.put, hposted.frame]
  | recordRefusal hphase | returnCredits hphase _ | keepCredits hphase _ =>
      simp [Accounted, hphase] at haccounted
  | recordFailure hphase | settle hphase _ => simp [Accounted, hphase, houtcome] at haccounted
  | _ => rfl

end Runs

/-- What holds of an accountable run of the server. -/
structure BlamedRun (P : Platform) (cfg : Config) (es : List ApiEvent) (s : Api) : Prop where
  blamed : Blamed P s.service
  tied : Tied cfg s
  written : WrittenAre (Sent es) s.network

section Server

variable {P : Platform} {cfg : Config} {es : List ApiEvent} {s s' : Api} {e : ApiEvent}

/-- The requests of an accountable server are accountable. -/
theorem blamed_of_step (h : Blamed P s.service) (hstep : s.Step P cfg e s')
    (hguard : Accountable P s e s') : Blamed P s'.service := by
  cases hstep with
  | service _ hnext => exact h.step hnext hguard
  | @hello _ _ _ _ _ _ _ catalog _ _ _ hfollows _ =>
      have hnext : next P cfg s.service (.changeCatalog catalog) =
          some (s.service.on { s.service.db with catalog }) := by
        simp only [next, hfollows, if_true]
      exact h.step hnext trivial
  | @deliver id dispatch outcome service hdispatch hphase hnext =>
      exact h.step hnext (hguard dispatch hdispatch outcome hphase)
  | _ => exact h

theorem BlamedRun.step (h : BlamedRun P cfg es s) (hstep : s.Step P cfg e s')
    (hguard : Accountable P s e s') : BlamedRun P cfg (es ++ [e]) s' := by
  refine ⟨blamed_of_step h.blamed hstep hguard, h.tied.step h.blamed.invariant hstep, ?_⟩
  have hsent : ∀ id, Sent (es ++ [e]) id ↔ Sent es id ∨ e = .network (.write id none) := by
    intro id
    simp [Sent, eq_comm]
  intro id
  rw [hsent]
  by_cases hlocal : ∃ e', e = .network e'
  · obtain ⟨e', rfl⟩ := hlocal
    cases hstep with
    | network _ hnext =>
        rw [ApiEvent.network.injEq]
        exact h.written.step (Network.step_of_next hnext) id
  · -- No other event writes a request.
    have hnot : e ≠ .network (.write id none) := fun heq => hlocal ⟨_, heq⟩
    rw [or_iff_left hnot]
    rcases hstep.network_part with hsame | ⟨e', hnext, rfl | hshared⟩
    · rw [hsame]
      exact h.written id
    · exact absurd ⟨e', rfl⟩ hlocal
    · refine (or_iff_left ?_).symm.trans (h.written.step (Network.step_of_next hnext) id)
      rintro rfl
      cases hshared

theorem blamedRun_of_reaches (h : (apiMachine P cfg).Reaches (Accountable P) es s) :
    BlamedRun P cfg es s := by
  refine h.invariant_trace (BlamedRun P cfg) ?_ fun es s e s' hrun hnext hguard =>
    hrun.step (Api.step_of_next hnext) hguard
  rintro s ⟨⟨hfresh, hcalls⟩, hnetwork⟩
  refine ⟨.start hfresh hcalls, .start hcalls hnetwork, fun id => ?_⟩
  rw [hnetwork]
  exact iff_of_false (by simp [Sent]) (by simp [Network.start])

/-- The job of a finished request was written, and no timeout ended it, exactly when
`Dispatch` returned a frame. -/
theorem BlamedRun.sent_iff (h : BlamedRun P cfg es s) {call : Call}
    (hcall : call ∈ s.service.calls) (hdone : Unsuccessful call) :
    (Sent es call.id ∧ call.outcome ≠ some (.error .jobTimeout)) ↔
      ∃ frame, call.outcome = some (.ok frame) := by
  have hselect : s.service.call call.id = some call :=
    Table.select_of_mem h.blamed.invariant.ids hcall
  constructor
  · rintro ⟨hsent, htimeout⟩
    obtain ⟨dispatch, hdispatch, hwritten⟩ := (h.written call.id).mp hsent
    obtain ⟨call', hcall', hplace⟩ := h.tied.route call.id dispatch hdispatch
    obtain rfl := Option.some.inj (hselect.symm.trans hcall')
    rcases hplace with ⟨-, hsome⟩ | ⟨job, jobID, walletID, hphase, -⟩
    · obtain ⟨outcome, houtcome⟩ := Option.isSome_iff_exists.mp hsome
      obtain ⟨dispatch', result, hdispatch', hphase, rfl⟩ :=
        h.tied.outcome call.id call outcome hselect houtcome
      obtain rfl := Option.some.inj (hdispatch.symm.trans hdispatch')
      rw [hphase] at hwritten
      cases result with
      | ok delivery => exact ⟨delivery.frame, houtcome⟩
      | error e =>
          cases e with
          | jobTimeout => exact absurd houtcome htimeout
          | _ => exact hwritten.elim
    · simp [Unsuccessful, hphase] at hdone
  · rintro ⟨frame, houtcome⟩
    obtain ⟨dispatch, result, hdispatch, hphase, heq⟩ :=
      h.tied.outcome call.id call _ hselect houtcome
    refine ⟨(h.written call.id).mpr ⟨dispatch, hdispatch, ?_⟩, by simp [houtcome]⟩
    cases result with
    | ok delivery =>
        rw [hphase]
        exact trivial
    | error e => cases heq

end Server

/-- In a run in which every reservation is covered, every dispatch returns a result whose
failure can be recorded, and every settlement is accepted: the statistics of a provider
count its timed out jobs and its failed jobs, and a request that was not dispatched changes
none of them. -/
theorem providers_are_blamed_for_their_jobs (P : Platform) (cfg : Config) {es : List ApiEvent}
    {s : Api} (hreach : (apiMachine P cfg).Reaches (Accountable P) es s) :
    (∀ providerID, timeoutJobs s.service.db providerID =
        s.service.calls.countP (fun call =>
          decide (TimedOutJob s.service.db providerID call)) ∧
      failedJobs s.service.db providerID =
        s.service.calls.countP (fun call =>
          decide (FailedJob es s.service.db providerID call))) ∧
      ∀ id env call s', s.service.call id = some call → call.outcome = none →
        (apiMachine P cfg).step s (.service (.advance id env)) s' →
        Accountable P s (.service (.advance id env)) s' →
          s'.service.db.providerStats = s.service.db.providerStats := by
  have hrun := blamedRun_of_reaches hreach
  refine ⟨fun providerID => ⟨?_, ?_⟩, fun id env call s' hcall houtcome hnext hguard => ?_⟩
  · rw [hrun.blamed.timeouts, eq_comm, List.countP_eq_zero]
    intro call hcall htimedOut
    obtain ⟨-, hdone, houtcome⟩ := of_decide_eq_true htimedOut
    have haccounted := hrun.blamed.accounted call hcall
    unfold Unsuccessful at hdone
    cases hphase : call.phase <;> simp only [hphase] at hdone
    simp only [Accounted, hphase] at haccounted
    exact haccounted houtcome
  · have htotal := hrun.blamed.failed providerID
    rw [Table.total_indicator, Nat.cast_inj] at htotal
    rw [htotal]
    refine List.countP_congr fun call hcall => ?_
    rw [decide_eq_true_iff, decide_eq_true_iff, Reported, FailedJob]
    refine and_congr_right fun _ => and_congr_right fun hdone => ?_
    exact (hrun.sent_iff hcall hdone).symm
  · have hstep := Api.step_of_next hnext
    cases hstep with
    | service _ hserved => exact hrun.blamed.quiet hcall houtcome hserved hguard

/-! ## Sample runs -/

instance (db : DB) (userID : UUID) (amount : Int64) : Decidable (Reservable db userID amount) :=
  decidable_of_iff
    (0 < amount.toInt ∧ ∃ walletID ∈ db.walletOf (.user, userID), ∃ wallet ∈ db.wallet walletID,
      amount.toInt ≤ wallet.balanceCredits.toInt ∧
        wallet.reservedCredits.toInt + amount.toInt ≤ maxInt64)
    ⟨fun h => ⟨h.1, h.2⟩, fun h => ⟨h.positive, h.wallet⟩⟩

instance (outcome : Except DispatchError CompletionFrame) : Decidable (Attributable outcome) :=
  match outcome with
  | .error .providerUnavailable => isFalse id
  | .error .jobTimeout => isFalse id
  | .error (.writeFailed text) => inferInstanceAs (Decidable (storable text = false))
  | .ok frame => inferInstanceAs (Decidable (frame.payload.errorCode ≠ "" → _))

instance (s : ChatService) (e : ServiceEvent) (s' : ChatService) :
    Decidable (AccountableCall samplePlatform s e s') :=
  match e with
  | .deliver _ outcome => inferInstanceAs (Decidable (Attributable outcome))
  | .advance id _ => inferInstanceAs (Decidable
      ((∀ r ∈ reserving samplePlatform s id, Reservable s.db r.1 r.2) ∧
        ∀ input ∈ settling samplePlatform s id, Settleable s.db input))
  | .register .. => isTrue trivial
  | .createProvider .. => isTrue trivial
  | .adminAdjust .. => isTrue trivial
  | .setApproval .. => isTrue trivial
  | .disableProvider .. => isTrue trivial
  | .changeCatalog _ => isTrue trivial
  | .arrive .. => isTrue trivial

instance (phase : DispatchPhase) (p : Except DispatchError Delivery → Prop) [DecidablePred p] :
    Decidable (∀ outcome, phase = .returned outcome → p outcome) :=
  match phase with
  | .returned outcome => decidable_of_iff (p outcome)
      ⟨fun h _ heq => DispatchPhase.returned.inj heq ▸ h, fun h => h outcome rfl⟩
  | .called => isTrue fun _ => nofun
  | .found _ => isTrue fun _ => nofun
  | .opened _ => isTrue fun _ => nofun
  | .waiting _ => isTrue fun _ => nofun
  | .finishing _ => isTrue fun _ => nofun

instance (s : Api) (e : ApiEvent) (s' : Api) : Decidable (Accountable samplePlatform s e s') :=
  match e with
  | .service e =>
      inferInstanceAs (Decidable (AccountableCall samplePlatform s.service e s'.service))
  | .deliver id => inferInstanceAs (Decidable (∀ dispatch ∈ s.network.dispatch id, ∀ outcome,
      dispatch.phase = .returned outcome → Attributable (outcome.map Delivery.frame)))
  | .network _ => isTrue trivial
  | .connect .. => isTrue trivial
  | .hello .. => isTrue trivial
  | .dispatch _ => isTrue trivial

/-- The provider of the sample request reports an error. -/
def oomEvents : List ApiEvent :=
  waitingEvents ++
    [.network (.complete 0 (.jobError "job_20250101000000.000000000" "oom" "out of memory")),
      .network (.send 0), .network (.receive 0), .network (.closeJob 0), .deliver 0,
      .service (.advance 0 sampleEnv), .service (.advance 0 sampleEnv)]

/-- A provider that reports an error has one failed job, and no timed out one. -/
theorem sample_provider_is_blamed :
    ∃ s, (apiMachine samplePlatform sampleConfig).Reaches (Accountable samplePlatform)
        oomEvents s ∧
      failedJobs s.service.db 5 = 1 ∧
      s.service.calls.countP (fun call => decide (FailedJob oomEvents s.service.db 5 call)) =
        1 := by
  obtain ⟨s, hreach, hfailed⟩ : ∃ s, (apiMachine samplePlatform sampleConfig).Reaches
      (Accountable samplePlatform) oomEvents s ∧ failedJobs s.service.db 5 = 1 :=
    Machine.exists_of_exec start_freshApi (by decide +kernel)
  have hcounts := providers_are_blamed_for_their_jobs samplePlatform sampleConfig hreach
  exact ⟨s, hreach, hfailed, (hcounts.1 5).2.symm.trans hfailed⟩

/-- A user asks for more tokens than the starting credits pay for. -/
def unpaidEvents : List ApiEvent :=
  ([.register 1 2 "usr_a" ⟨"a@example.com", "password", "Ada"⟩,
    .register 3 4 "usr_b" ⟨"b@example.com", "password", "Bob"⟩,
    .createProvider 5 6 "prv_b" "pvn_provider_b" 3 "box",
    .changeCatalog chatCatalog,
    .arrive 0 "pvn_live_a_b" "req_a" (some ⟨"llama", [⟨"user", "hello"⟩], 50000, none, false⟩)] :
      List ServiceEvent).map .service ++
  List.replicate 6 (.service (.advance 0 sampleEnv))

/-- The request is refused for its credits, and the provider it would have gone to has a
failed job and no trust. -/
theorem unpaid_request_blames_provider :
    ∃ s, (apiMachine samplePlatform sampleConfig).Reaches Machine.anyStep unpaidEvents s ∧
      s.service.calls.map Call.phase = [.done (.error 402 "insufficient_credits"
        "The project does not have enough credits for this request.")] ∧
      s.service.db.stats 5 = some ⟨5, 1, 0, 1, 0, none, 0, 0⟩ ∧
      s.service.calls.countP
        (fun call => decide (FailedJob unpaidEvents s.service.db 5 call)) = 0 := by
  exact Machine.exists_of_exec start_freshApi (by decide +kernel)

end Nuvonode.Contract
