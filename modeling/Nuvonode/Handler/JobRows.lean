/-
  Handler/JobRows.lean --- what a step makes of the rows of `inference_jobs`.

  A row is inserted once, under a public id that no row has, and from then on only its
  status moves, with what is written beside it: queued, dispatched, succeeded or failed.
-/
import Nuvonode.Handler.Invariant
import Mathlib.Logic.Relation

set_option autoImplicit false

namespace Nuvonode.Handler

open Nuvonode.Foundation Nuvonode.Database Nuvonode.Repository Nuvonode.Service Nuvonode.Ws

/-! ## Moves of one row -/

/-- What one step may make of a job row. -/
inductive JobMoves (row : JobRow) : JobRow → Prop where
  | dispatch : row.status = .queued → JobMoves row row.dispatch
  | fail (code message : String) : row.status = .queued ∨ row.status = .dispatched →
      JobMoves row (row.fail .failed code message)
  | settle (cost reward : Int64) : row.status = .dispatched → 0 ≤ cost.toInt →
      cost.toInt ≤ row.reservedCredits.toInt → 0 ≤ reward.toInt →
      JobMoves row (row.settle cost reward)

/-- The statuses from which a row does not move. -/
def Ended (status : JobStatus) : Prop := status = .succeeded ∨ status = .failed

/-- What a request wrote down when it created its job. -/
def JobRow.terms (row : JobRow) : JobSpec × Option UUID × Option UUID :=
  ({ publicID := row.publicID, projectID := row.projectID, userID := row.userID
     apiKeyID := row.apiKeyID, modelID := row.modelID, modelVersionID := row.modelVersionID
     providerID := row.providerID.getD 0, providerInstanceID := row.providerInstanceID.getD 0
     requestID := row.requestID, inputTokens := row.estimatedInputTokens
     outputTokens := row.estimatedOutputTokens, reservedCredits := row.reservedCredits },
    row.providerID, row.providerInstanceID)

section Moves

variable {row row' : JobRow}

theorem JobMoves.id_eq (h : JobMoves row row') : row'.id = row.id := by
  cases h <;> rfl

theorem JobMoves.terms_eq (h : JobMoves row row') : JobRow.terms row' = JobRow.terms row := by
  cases h <;> rfl

theorem JobMoves.publicID_eq (h : JobMoves row row') : row'.publicID = row.publicID := by
  cases h <;> rfl

/-- A finished row does not move. -/
theorem JobMoves.not_ended (h : JobMoves row row') : ¬ Ended row.status := by
  cases h with
  | dispatch hstatus => simp [Ended, hstatus]
  | fail _ _ hstatus => rcases hstatus with hstatus | hstatus <;> simp [Ended, hstatus]
  | settle _ _ hstatus => simp [Ended, hstatus]

/-- Any number of moves. -/
abbrev JobBecomes : JobRow → JobRow → Prop := Relation.ReflTransGen JobMoves

theorem JobBecomes.id_eq (h : JobBecomes row row') : row'.id = row.id := by
  induction h with
  | refl => rfl
  | tail _ hmove ih => exact hmove.id_eq.trans ih

theorem JobBecomes.terms_eq (h : JobBecomes row row') :
    JobRow.terms row' = JobRow.terms row := by
  induction h with
  | refl => rfl
  | tail _ hmove ih => exact hmove.terms_eq.trans ih

/-- A finished row stays as it is. -/
theorem JobBecomes.eq_of_ended (h : JobBecomes row row') (hended : Ended row.status) :
    row' = row := by
  induction h with
  | refl => rfl
  | tail _ hmove ih => exact absurd (ih ▸ hended) hmove.not_ended

/-- A row is queued, dispatched, succeeded or failed; it is charged only when it has
succeeded, and then at most what was reserved for it; and it has an error exactly when it
has failed. -/
structure JobSane (row : JobRow) : Prop where
  status : row.status = .queued ∨ row.status = .dispatched ∨ Ended row.status
  charged : row.status = .succeeded → 0 ≤ row.actualCostCredits.toInt ∧
    row.actualCostCredits.toInt ≤ row.reservedCredits.toInt ∧
    0 ≤ row.providerRewardCredits.toInt
  free : row.status ≠ .succeeded → row.actualCostCredits = 0 ∧ row.providerRewardCredits = 0
  error : row.status = .failed ↔ row.errorCode.isSome

/-- A row without an error that is queued or dispatched. -/
theorem JobSane.no_error (h : JobSane row)
    (hstatus : row.status = .queued ∨ row.status = .dispatched) : ¬ row.errorCode.isSome := by
  intro hsome
  have hfailed := h.error.mpr hsome
  rcases hstatus with hstatus | hstatus <;> simp [hstatus] at hfailed

theorem jobSane_new (spec : JobSpec) (id : UUID) : JobSane (spec.row id) :=
  ⟨.inl rfl, JobStatus.noConfusion, fun _ => ⟨rfl, rfl⟩,
    ⟨JobStatus.noConfusion, fun h => absurd h (by simp [JobSpec.row])⟩⟩

theorem JobMoves.sane (h : JobMoves row row') (hsane : JobSane row) : JobSane row' := by
  cases h with
  | dispatch hstatus =>
      have hfree := hsane.free (by simp [hstatus])
      exact ⟨.inr (.inl rfl), JobStatus.noConfusion, fun _ => hfree,
        ⟨JobStatus.noConfusion, fun hsome => absurd hsome (hsane.no_error (.inl hstatus))⟩⟩
  | fail code message hstatus =>
      have hfree := hsane.free (by rcases hstatus with hstatus | hstatus <;> simp [hstatus])
      exact ⟨.inr (.inr (.inr rfl)), JobStatus.noConfusion, fun _ => hfree,
        ⟨fun _ => rfl, fun _ => rfl⟩⟩
  | settle cost reward hstatus hcost hle hreward =>
      exact ⟨.inr (.inr (.inl rfl)), fun _ => ⟨hcost, hle, hreward⟩, fun hne => absurd rfl hne,
        ⟨JobStatus.noConfusion, fun hsome => absurd hsome (hsane.no_error (.inr hstatus))⟩⟩

end Moves

/-! ## Steps on the table -/

/-- What one step does to the table of jobs. -/
inductive JobsStep (db db' : DB) : Prop where
  | same : db'.inferenceJobs = db.inferenceJobs → JobsStep db db'
  | insert {spec : JobSpec} {id : UUID} : db.job id = none →
      Table.select JobRow.publicID db.inferenceJobs spec.publicID = none →
      db'.inferenceJobs = Table.insert db.inferenceJobs (spec.row id) → JobsStep db db'
  | update {row : JobRow} {change : JobRow → JobRow} : db.job row.id = some row →
      JobMoves row (change row) → (∀ other, (change other).id = other.id) →
      (∀ other, (change other).publicID = other.publicID) →
      db'.inferenceJobs = Table.update JobRow.id db.inferenceJobs row.id change →
      JobsStep db db'

section Steps

variable {P : Platform} {cfg : Config} {db db' : DB} {call call' : Call}

/-- The public id of a new job was free. -/
theorem publicID_free_of_create {id r : UUID} {job : JobSpec} {seen : DB → Prop}
    {ws ws' : List DbWrite}
    (h : Tx.Yields (S := store) seen db (createInferenceJob id job) ws r ws') :
    Table.select JobRow.publicID (store.applyAll db ws).inferenceJobs job.publicID = none := by
  simp only [createInferenceJob, Tx.yields_bind, yields_require, yields_unique, yields_lockJob,
    yields_lockJobPublicID, yields_references, Tx.yields_perform, Tx.yields_pure] at h
  obtain ⟨_, _, ⟨-, rfl⟩, _, _, ⟨-, rfl⟩, _, _, ⟨-, rfl⟩, _, _, ⟨hpublicID, rfl⟩, -⟩ := h
  exact Option.map_eq_none_iff.mp hpublicID.symm

/-- A failure that is recorded for a job that has not finished. -/
theorem jobsStep_markJobFailed {jobID : UUID} {code message : String} {row : JobRow}
    (hrow : db.job jobID = some row) (hstatus : row.status = .queued ∨ row.status = .dispatched) :
    JobsStep db (afterwards (markJobFailed jobID .failed code message) db) := by
  rcases afterwards_markJobFailed db jobID with hsame | ⟨-, stats, hfailed⟩
  · exact .same (by rw [hsame])
  · obtain rfl : row.id = jobID := (Table.mem_of_select hrow).2
    refine @JobsStep.update _ _ row (JobRow.fail .failed code message) hrow
      (.fail code message hstatus) (fun _ => rfl) (fun _ => rfl) ?_
    rw [hfailed]
    rfl

/-- A job that the caller has not finished with is queued or dispatched. -/
theorem jobsStep_of_advance {env : Env} (hinv : CallInv P db call)
    (h : call.advance P cfg env db = some (db', call')) : JobsStep db db' := by
  have hposted : ∀ {walletID : UUID} {entryType : EntryType} {amount reservedDelta : Int64}
      {reason : String} {createdBy : Option UUID},
      Posted walletID entryType amount reservedDelta reason createdBy db db' →
        JobsStep db db' := by
    intro walletID entryType amount reservedDelta reason createdBy hposted
    exact .same (by rw [hposted.frame])
  cases transition_of_advance h with
  | @create job jobID hphase hfree _ =>
      simp only [Call.advance, hphase] at h
      split at h
      · simp [Call.goto] at h
      · rename_i id db₁ hexec
        simp only [Option.some.injEq, Prod.mk.injEq] at h
        obtain ⟨ws, hyields, rfl⟩ := yields_of_exec hexec
        have hname := publicID_free_of_create hyields
        exact .insert hfree hname rfl
  | reserve _ _ _ hentry => exact hposted hentry
  | release _ hentry => exact hposted hentry
  | returnCredits _ hentry => exact hposted hentry
  | recordRefusal hphase =>
      simp only [CallInv, hphase] at hinv
      exact jobsStep_markJobFailed hinv.2.2.row (.inl rfl)
  | recordFailure hphase =>
      simp only [CallInv, hphase] at hinv
      exact jobsStep_markJobFailed hinv.2.2.1.pending.row (.inr rfl)
  | @dispatch job jobID walletID hphase =>
      simp only [CallInv, hphase] at hinv
      let row : JobRow := { (job.spec P).row jobID with status := .queued }
      have hrow : db.job row.id = some row := hinv.2.2.pending.row
      exact .update hrow (.dispatch rfl) (fun _ => rfl) (fun _ => rfl) rfl
  | @settle job jobID walletID result db' hphase hsettled =>
      simp only [CallInv, hphase] at hinv
      obtain ⟨source, -, hjobs⟩ := hsettled.tables
      obtain ⟨-, hcost, hreward⟩ := hsettled.amounts
      let row : JobRow := { (job.spec P).row jobID with status := .dispatched }
      have hrow : db.job row.id = some row := hinv.2.2.pending.row
      exact .update hrow (.settle _ _ rfl hcost (ChatJob.actualCost_le P job result) hreward)
        (fun _ => rfl) (fun _ => rfl) hjobs
  | _ => exact .same rfl

/-- What any step of the service does to the table of jobs. -/
theorem jobsStep_of_next {s s' : ChatService} {e : ServiceEvent} (hinv : Invariant P s)
    (hnext : next P cfg s e = some s') : JobsStep s.db s'.db := by
  cases kind_of_next hnext with
  | background hstep => exact .same hstep.jobs
  | arrive _ => exact .same rfl
  | call hcall hstepped =>
      have hcallInv := hinv.calls _ (Table.mem_of_select hcall).1
      cases hstepped with
      | advance hadvance => exact jobsStep_of_advance hcallInv hadvance
      | deliver _ => exact .same rfl

/-- A row stays, moved at most once. -/
theorem JobsStep.job_after (h : JobsStep db db') {id : UUID} {row : JobRow}
    (hrow : db.job id = some row) :
    ∃ row', db'.job id = some row' ∧ (row' = row ∨ JobMoves row row') := by
  cases h with
  | same hjobs => exact ⟨row, by rw [DB.job, hjobs]; exact hrow, .inl rfl⟩
  | insert hfree _ hjobs =>
      exact ⟨row, by rw [DB.job, hjobs]; exact Table.select_insert_of_some hrow, .inl rfl⟩
  | @update moved change hmoved hmove hid _ hjobs =>
      by_cases hsame : moved.id = id
      · subst hsame
        obtain rfl := Option.some.inj (hmoved.symm.trans hrow)
        refine ⟨change moved, ?_, .inr hmove⟩
        have hselect : db'.job moved.id = (db.job moved.id).map change := by
          rw [DB.job, hjobs]
          exact Table.select_update_self hid
        rw [hselect, hrow]
        rfl
      · refine ⟨row, ?_, .inl rfl⟩
        rw [DB.job, hjobs, Table.select_update_of_ne hid (Ne.symm hsame)]
        exact hrow

/-- A row is an old one, moved at most once, or new. -/
theorem JobsStep.job_before (h : JobsStep db db') {id : UUID} {row : JobRow}
    (hrow : db'.job id = some row) :
    (∃ old, db.job id = some old ∧ (row = old ∨ JobMoves old row)) ∨
      ∃ spec : JobSpec, row = spec.row id := by
  cases hold : db.job id with
  | some old =>
      obtain ⟨row', hrow', hmoved⟩ := h.job_after hold
      obtain rfl := Option.some.inj (hrow.symm.trans hrow')
      exact .inl ⟨old, rfl, hmoved⟩
  | none =>
      cases h with
      | same hjobs =>
          rw [DB.job, hjobs] at hrow
          rw [DB.job, hrow] at hold
          cases hold
      | @insert spec newID hfree hname hjobs =>
          rw [DB.job, hjobs, Table.select_insert] at hrow
          rw [DB.job] at hold
          rw [hold, Option.none_or] at hrow
          split at hrow
          · rename_i hid
            cases hrow
            exact .inr ⟨spec, by rw [← hid]; rfl⟩
          · cases hrow
      | update hmoved hmove hid _ hjobs =>
          rw [DB.job, hjobs, Table.select_update hid] at hrow
          rw [DB.job] at hold
          rw [hold] at hrow
          cases hrow

/-- No two jobs have the same public id. -/
theorem JobsStep.unique (h : JobsStep db db')
    (hunique : Table.Unique JobRow.publicID db.inferenceJobs) :
    Table.Unique JobRow.publicID db'.inferenceJobs := by
  cases h with
  | same hjobs => rwa [hjobs]
  | insert _ hname hjobs =>
      rw [hjobs]
      exact Table.unique_insert hunique hname
  | update _ _ _ hname hjobs =>
      rw [hjobs]
      exact Table.unique_update hname hunique

end Steps

/-! ## Runs -/

section Runs

variable {P : Platform} {cfg : Config} {s s' : ChatService}
  {guard : ChatService → ServiceEvent → ChatService → Prop} {es : List ServiceEvent}

/-- What a run makes of a row. -/
theorem job_becomes (hinv : Invariant P s)
    (hsteps : (chatMachine P cfg).Steps guard s es s') {id : UUID} {row : JobRow}
    (hrow : s.db.job id = some row) :
    Invariant P s' ∧ ∃ row', s'.db.job id = some row' ∧ JobBecomes row row' := by
  refine hsteps.preserves
    (fun _ s => Invariant P s ∧ ∃ row', s.db.job id = some row' ∧ JobBecomes row row')
    ⟨hinv, row, hrow, .refl⟩ ?_
  rintro _ a e b ⟨hinv, mid, hmid, hbecomes⟩ hnext -
  obtain ⟨row', hrow', rfl | hmove⟩ := (jobsStep_of_next hinv hnext).job_after hmid
  · exact ⟨hinv.step hnext, row', hrow', hbecomes⟩
  · exact ⟨hinv.step hnext, row', hrow', hbecomes.tail hmove⟩

/-- The rows of a reachable state. -/
structure JobTable (db : DB) : Prop where
  unique : Table.Unique JobRow.publicID db.inferenceJobs
  sane : ∀ id row, db.job id = some row → JobSane row

theorem JobTable.step {db db' : DB} (h : JobTable db) (hstep : JobsStep db db') :
    JobTable db' where
  unique := hstep.unique h.unique
  sane := by
    intro id row hrow
    rcases hstep.job_before hrow with ⟨old, hold, rfl | hmove⟩ | ⟨spec, rfl⟩
    · exact h.sane id row hold
    · exact hmove.sane (h.sane id old hold)
    · exact jobSane_new spec id

theorem jobTable_of_reaches (h : (chatMachine P cfg).Reaches guard es s) :
    Invariant P s ∧ JobTable s.db := by
  refine h.invariant (fun s => Invariant P s ∧ JobTable s.db) ?_ ?_
  · rintro s ⟨⟨catalog, hdb⟩, hcalls⟩
    refine ⟨.start ⟨catalog, hdb⟩ hcalls, ?_⟩
    rw [hdb]
    exact ⟨List.nodup_nil, fun _ _ => nofun⟩
  · rintro a e b ⟨hinv, htable⟩ hnext -
    exact ⟨hinv.step hnext, htable.step (jobsStep_of_next hinv hnext)⟩

end Runs

end Nuvonode.Handler
