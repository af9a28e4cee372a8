/-
  Handler/CallInvariant.lean --- what a call can rely on in each phase.

  `CallInv` ties the phase of a call to its job row and to what it has committed.
  A step of the call itself establishes it for the next phase; a step of anything
  else keeps it, since it keeps the rows of this job and loses nothing that is
  referred to.
-/
import Nuvonode.Handler.Frame

set_option autoImplicit false

namespace Nuvonode.Handler

open Nuvonode.Foundation Nuvonode.Database Nuvonode.Repository Nuvonode.Service Nuvonode.Ws

/-! ## Jobs that are not finished -/

/-- A job row that is as it was created but for its status, without a usage record. -/
structure Pending (db : DB) (jobID : UUID) (spec : JobSpec) (status : JobStatus) : Prop where
  row : db.job jobID = some { spec.row jobID with status }
  unused : db.usage jobID = none
  parties : partiesExist spec.projectID spec.userID spec.modelID spec.providerID
    spec.providerInstanceID db = true

/-- A pending job whose credits are reserved in the wallet of its user. -/
structure Reserved (P : Platform) (db : DB) (job : ChatJob) (jobID walletID : UUID)
    (status : JobStatus) : Prop where
  pending : Pending db jobID (job.spec P) status
  wallet : db.walletOf (.user, job.auth.userID) = some walletID
  positive : 0 < (job.reservedCredits P).toInt

section Pending

variable {P : Platform} {db db' : DB} {jobID walletID : UUID} {spec : JobSpec}
  {status : JobStatus} {job : ChatJob} {other : Option UUID}

theorem Pending.keep (h : Pending db jobID spec status) (hkeeps : KeepsOthers other db db')
    (hother : other ≠ some jobID) : Pending db' jobID spec status where
  row := (hkeeps.job jobID hother).trans h.row
  unused := (hkeeps.usage jobID hother).trans h.unused
  parties := hkeeps.persists.parties _ _ _ _ _ h.parties

theorem Reserved.keep (h : Reserved P db job jobID walletID status)
    (hkeeps : KeepsOthers other db db') (hother : other ≠ some jobID) :
    Reserved P db' job jobID walletID status where
  pending := h.pending.keep hkeeps hother
  wallet := hkeeps.persists.walletOf _ _ h.wallet
  positive := h.positive

/-- An entry keeps every job pending. -/
theorem Reserved.posted (h : Reserved P db job jobID walletID status) {other : UUID}
    {entryType : EntryType} {amount reservedDelta : Int64} {reason : String}
    {createdBy : Option UUID}
    (hposted : Posted other entryType amount reservedDelta reason createdBy db db') :
    Reserved P db' job jobID walletID status := by
  have hkeeps : KeepsOthers none db db' := .of_posted hposted none
  exact h.keep hkeeps nofun

/-- A new job is pending. -/
theorem pending_insertJob (hbooks : Books db) (hfree : db.job jobID = none)
    (hparties : partiesExist spec.projectID spec.userID spec.modelID spec.providerID
      spec.providerInstanceID db = true) :
    Pending (db.apply (.insertJob (spec.row jobID))) jobID spec .queued where
  row := by
    have hselect : (db.apply (.insertJob (spec.row jobID))).job jobID = some (spec.row jobID) :=
      Table.select_insert_self hfree
    exact hselect
  unused := hbooks.usage_none hfree
  parties := hparties

/-- A dispatched job is pending. -/
theorem Reserved.dispatch (h : Reserved P db job jobID walletID status) :
    Reserved P (db.apply (.dispatchJob jobID)) job jobID walletID .dispatched where
  pending := by
    have hselect : (db.apply (.dispatchJob jobID)).job jobID = (db.job jobID).map JobRow.dispatch :=
      Table.select_update_self fun _ => rfl
    refine ⟨?_, h.pending.unused, h.pending.parties⟩
    rw [hselect, h.pending.row]
    rfl
  wallet := h.wallet
  positive := h.positive

/-- Recording the failure of a pending job leaves a row with its reservation, and no
usage record. -/
theorem Pending.markJobFailed (h : Pending db jobID spec status) {code message : String} :
    ∃ row, (afterwards (Repository.markJobFailed jobID .failed code message) db).job jobID =
        some row ∧ row.reservedCredits = spec.reservedCredits ∧
      (afterwards (Repository.markJobFailed jobID .failed code message) db).usage jobID = none := by
  rcases afterwards_markJobFailed db jobID with hsame | ⟨-, stats, hfailed⟩
  · rw [hsame]
    exact ⟨_, h.row, rfl, h.unused⟩
  · rw [hfailed]
    have hselect : (db.apply (.failJob jobID .failed code message)).job jobID =
        (db.job jobID).map (JobRow.fail .failed code message) :=
      Table.select_update_self fun _ => rfl
    refine ⟨_, hselect.trans (by rw [h.row]; rfl), rfl, h.unused⟩

end Pending

/-! ## The invariant of a call -/

/-- A finished job and what its call did to the reservation. -/
inductive Closed (db : DB) (commits : List Commit) (response : Response) (jobID : UUID) :
    Prop where
  | failed {row : JobRow} : db.job jobID = some row → db.usage jobID = none →
      response.status ≠ 200 →
      (commits = [] ∨ 0 < row.reservedCredits.toInt ∧ ∃ walletID,
        (commits = [.reserve walletID row.reservedCredits] ∨
          commits = [.reserve walletID row.reservedCredits,
            .release walletID row.reservedCredits])) →
      Closed db commits response jobID
  | settled {row : JobRow} (input : UsageSettlement) : db.job jobID = some row →
      row.status = .succeeded → (db.usage jobID).isSome → response.status = 200 →
      commits = [.reserve input.userWalletID row.reservedCredits, .settle input] →
      input.reservedCredits = row.reservedCredits →
      Closed db commits response jobID

/-- A failure that is not answered with 200, and whose reason the ledger can store. -/
structure Failure.Proper (failure : Failure) : Prop where
  status : failure.response.status ≠ 200
  reason : storable failure.releaseReason = true

/-- What holds of a call between two of its steps. -/
def CallInv (P : Platform) (db : DB) (call : Call) : Prop :=
  match call.phase with
  | .received | .authenticated .. | .modelFound .. | .routed .. =>
      call.jobID = none ∧ call.commits = []
  | .created job jobID | .refused job jobID _ =>
      call.jobID = some jobID ∧ call.commits = [] ∧ Pending db jobID (job.spec P) .queued
  | .reserved job jobID walletID =>
      call.jobID = some jobID ∧ call.commits = [.reserve walletID (job.reservedCredits P)] ∧
        Reserved P db job jobID walletID .queued
  | .dispatched job jobID walletID | .answered job jobID walletID _
  | .unsettled job jobID walletID _ =>
      call.jobID = some jobID ∧ call.commits = [.reserve walletID (job.reservedCredits P)] ∧
        Reserved P db job jobID walletID .dispatched
  | .failing job jobID walletID failure =>
      call.jobID = some jobID ∧ call.commits = [.reserve walletID (job.reservedCredits P)] ∧
        Reserved P db job jobID walletID .dispatched ∧ failure.Proper
  | .released job jobID walletID failure =>
      call.jobID = some jobID ∧
        (call.commits = [.reserve walletID (job.reservedCredits P)] ∨
          call.commits = [.reserve walletID (job.reservedCredits P),
            .release walletID (job.reservedCredits P)]) ∧
        Reserved P db job jobID walletID .dispatched ∧ failure.Proper
  | .done response =>
      match call.jobID with
      | none => call.commits = [] ∧ response.status ≠ 200
      | some jobID => Closed db call.commits response jobID

section Keeping

variable {P : Platform} {db db' : DB} {call call' : Call} {jobID : UUID} {other : Option UUID}
  {commits : List Commit} {response : Response}

theorem Closed.keep (h : Closed db commits response jobID) (hkeeps : KeepsOthers other db db')
    (hother : other ≠ some jobID) : Closed db' commits response jobID := by
  have hjob := hkeeps.job jobID hother
  have husage := hkeeps.usage jobID hother
  cases h with
  | failed hrow hunused hstatus hcommits =>
      exact .failed (hjob.trans hrow) (husage.trans hunused) hstatus hcommits
  | settled input hrow hsucceeded hused hstatus hcommits hamount =>
      exact .settled input (hjob.trans hrow) hsucceeded (husage ▸ hused) hstatus hcommits hamount

theorem callInv_of_searching (h : call.phase.Searching) :
    CallInv P db call ↔ call.jobID = none ∧ call.commits = [] := by
  unfold CallInv
  cases hphase : call.phase <;> simp [hphase, Phase.Searching] at h ⊢

/-- A step that is about other jobs keeps the invariant of a call. -/
theorem CallInv.keep (h : CallInv P db call) (hkeeps : KeepsOthers other db db')
    (hother : ∀ jobID, call.jobID = some jobID → other ≠ some jobID) : CallInv P db' call := by
  unfold CallInv at h ⊢
  cases hphase : call.phase <;> simp only [hphase] at h ⊢
  case created | refused => exact ⟨h.1, h.2.1, h.2.2.keep hkeeps (hother _ h.1)⟩
  case reserved | dispatched | answered | unsettled =>
    exact ⟨h.1, h.2.1, h.2.2.keep hkeeps (hother _ h.1)⟩
  case failing | released => exact ⟨h.1, h.2.1, h.2.2.1.keep hkeeps (hother _ h.1), h.2.2.2⟩
  case done =>
    cases hjobID : call.jobID with
    | none => simpa only [hjobID] using h
    | some jobID =>
        simp only [hjobID] at h ⊢
        exact h.keep hkeeps (hother jobID hjobID)
  all_goals exact h

/-- The job of a call exists. -/
theorem CallInv.job_isSome (h : CallInv P db call) (hjobID : call.jobID = some jobID) :
    (db.job jobID).isSome := by
  have hpending : ∀ {id : UUID} {spec : JobSpec} {status : JobStatus}, call.jobID = some id →
      Pending db id spec status → (db.job jobID).isSome := by
    intro id spec status hid hpending
    obtain rfl : id = jobID := Option.some.inj (hid.symm.trans hjobID)
    exact Option.isSome_of_eq_some hpending.row
  unfold CallInv at h
  cases hphase : call.phase <;> simp only [hphase] at h
  case created | refused => exact hpending h.1 h.2.2
  case reserved | dispatched | answered | unsettled => exact hpending h.1 h.2.2.pending
  case failing | released => exact hpending h.1 h.2.2.1.pending
  case done =>
    simp only [hjobID] at h
    cases h with
    | failed hrow => exact Option.isSome_of_eq_some hrow
    | settled _ hrow => exact Option.isSome_of_eq_some hrow
  all_goals
    rw [h.1] at hjobID
    cases hjobID

/-- A call that holds a reservation has a job with that many credits. -/
theorem CallInv.reservation (h : CallInv P db call) {walletID : UUID} {amount : Int64}
    (hcommits : call.commits = [.reserve walletID amount]) : 0 < amount.toInt ∧
      ∃ jobID row, call.jobID = some jobID ∧ db.job jobID = some row ∧
        row.reservedCredits = amount := by
  have hempty : ∀ {p : Prop}, call.commits = [] → p := by
    intro p hnil
    rw [hnil] at hcommits
    cases hcommits
  have hreserved : ∀ {job : ChatJob} {jobID other : UUID} {status : JobStatus},
      call.jobID = some jobID → call.commits = [.reserve other (job.reservedCredits P)] →
      Reserved P db job jobID other status → 0 < amount.toInt ∧
        ∃ jobID row, call.jobID = some jobID ∧ db.job jobID = some row ∧
          row.reservedCredits = amount := by
    intro job jobID other status hjobID hcommits' hreserved
    rw [hcommits'] at hcommits
    cases hcommits
    exact ⟨hreserved.positive, jobID, _, hjobID, hreserved.pending.row, rfl⟩
  unfold CallInv at h
  cases hphase : call.phase <;> simp only [hphase] at h
  case created | refused => exact hempty h.2.1
  case reserved | dispatched | answered | unsettled => exact hreserved h.1 h.2.1 h.2.2
  case failing => exact hreserved h.1 h.2.1 h.2.2.1
  case released =>
    rcases h.2.1 with hone | htwo
    · exact hreserved h.1 hone h.2.2.1
    · rw [htwo] at hcommits
      cases hcommits
  case done =>
    cases hjobID : call.jobID with
    | none =>
        simp only [hjobID] at h
        exact hempty h.1
    | some jobID =>
        simp only [hjobID] at h
        cases h with
        | @failed row hrow _ _ hshape =>
            rcases hshape with hnil | ⟨hpos, other, hone | htwo⟩
            · exact hempty hnil
            · rw [hone] at hcommits
              cases hcommits
              exact ⟨hpos, jobID, row, rfl, hrow, rfl⟩
            · rw [htwo] at hcommits
              cases hcommits
        | settled _ _ _ _ _ htwo _ =>
            rw [htwo] at hcommits
            cases hcommits
  all_goals exact hempty h.2

end Keeping

/-! ## A step of the call itself -/

theorem failure_proper {outcome : Except DispatchError CompletionFrame} {failure : Failure}
    (h : (∃ e, outcome = .error e ∧ failure = dispatchFailure e) ∨
      (∃ frame, outcome = .ok frame ∧ frame.payload.errorCode ≠ "" ∧
        failure = providerFailure frame.payload)) : failure.Proper := by
  obtain ⟨e, -, rfl⟩ | ⟨frame, -, -, rfl⟩ := h
  · have hreason : storable "provider_unavailable_release" = true := by decide
    exact ⟨by simp [dispatchFailure, Response.status], hreason⟩
  · have hreason : storable "provider_failed_release" = true := by decide
    exact ⟨by simp [providerFailure, Response.status], hreason⟩

section Own

variable {P : Platform} {db db' : DB} {call call' : Call}

/-- The number of a call stays. -/
theorem Transition.id_eq (h : Transition P db call db' call') : call'.id = call.id := by
  cases h <;> rfl

/-- The job of a call stays, once there is one, and is a new one when it is created. -/
theorem Transition.jobID_cases (h : Transition P db call db' call') (hinv : CallInv P db call) :
    call'.jobID = call.jobID ∨
      call.jobID = none ∧ ∃ jobID, call'.jobID = some jobID ∧ db.job jobID = none := by
  cases h with
  | create hphase hfree _ =>
      simp only [CallInv, hphase] at hinv
      exact .inr ⟨hinv.1, _, rfl, hfree⟩
  | _ => exact .inl rfl

/-- A step of a call keeps the rows of every job but its own. -/
theorem Transition.keeps (h : Transition P db call db' call') (hinv : CallInv P db call) :
    KeepsOthers call'.jobID db db' := by
  cases h with
  | create hphase hfree _ =>
      refine ⟨persists_apply db _, fun id hid => ?_, fun _ _ => rfl⟩
      exact Table.select_insert_of_ne fun heq => hid (congrArg some heq)
  | reserve _ _ _ hposted => exact .of_posted hposted _
  | release _ hposted => exact .of_posted hposted _
  | returnCredits _ hposted => exact .of_posted hposted _
  | dispatch hphase =>
      simp only [CallInv, hphase] at hinv
      refine ⟨persists_apply db _, fun id hid => ?_, fun _ _ => rfl⟩
      refine Table.select_update_of_ne (fun _ => rfl) fun heq => hid ?_
      rw [heq]
      exact hinv.1
  | recordRefusal hphase =>
      simp only [CallInv, hphase] at hinv
      rw [Call.goto, hinv.1]
      exact .of_markJobFailed
  | recordFailure hphase =>
      simp only [CallInv, hphase] at hinv
      rw [Call.goto, hinv.1]
      exact .of_markJobFailed
  | settle hphase hsettled =>
      simp only [CallInv, hphase] at hinv
      rw [Call.committed, Call.goto, hinv.1]
      exact .of_settled hsettled
  | _ => exact .refl _ _

/-- A step of a call leads to the invariant of its next phase. -/
theorem Transition.callInv (h : Transition P db call db' call') (hbooks : Books db)
    (hinv : CallInv P db call) : CallInv P db' call' := by
  cases h with
  | search hsearching hnext =>
      obtain ⟨hjobID, hcommits⟩ := (callInv_of_searching hsearching).mp hinv
      rcases hnext with hnext | ⟨response, rfl, hstatus⟩
      · exact (callInv_of_searching hnext).mpr ⟨hjobID, hcommits⟩
      · simp only [CallInv, Call.goto, hjobID]
        exact ⟨hcommits, hstatus⟩
  | create hphase hfree hparties =>
      simp only [CallInv, hphase] at hinv
      exact ⟨rfl, hinv.2, pending_insertJob hbooks hfree hparties⟩
  | refuse hphase =>
      simp only [CallInv, hphase] at hinv
      exact hinv
  | reserve hphase hpos hwallet hposted =>
      simp only [CallInv, hphase] at hinv
      obtain ⟨hjobID, hcommits, hpending⟩ := hinv
      refine ⟨hjobID, by simp [Call.committed, Call.goto, hcommits], ?_⟩
      exact (Reserved.mk hpending hwallet hpos).posted hposted
  | recordRefusal hphase =>
      simp only [CallInv, hphase] at hinv
      obtain ⟨hjobID, hcommits, hpending⟩ := hinv
      simp only [CallInv, Call.goto, hjobID]
      obtain ⟨row, hrow, -, hunused⟩ := hpending.markJobFailed
      exact .failed hrow hunused (handle_status _) (.inl hcommits)
  | dispatch hphase =>
      simp only [CallInv, hphase] at hinv
      exact ⟨hinv.1, hinv.2.1, hinv.2.2.dispatch⟩
  | fail hphase hfailure =>
      simp only [CallInv, hphase] at hinv
      exact ⟨hinv.1, hinv.2.1, hinv.2.2, failure_proper hfailure⟩
  | answer hphase hcode =>
      simp only [CallInv, hphase] at hinv
      exact hinv
  | release hphase hposted =>
      simp only [CallInv, hphase] at hinv
      obtain ⟨hjobID, hcommits, hreserved, hproper⟩ := hinv
      exact ⟨hjobID, .inr (by simp [Call.committed, Call.goto, hcommits]),
        hreserved.posted hposted, hproper⟩
  | keep hphase hrefused =>
      simp only [CallInv, hphase] at hinv
      exact ⟨hinv.1, .inl hinv.2.1, hinv.2.2⟩
  | recordFailure hphase =>
      simp only [CallInv, hphase] at hinv
      obtain ⟨hjobID, hcommits, hreserved, hproper⟩ := hinv
      simp only [CallInv, Call.goto, hjobID]
      obtain ⟨row, hrow, hcredits, hunused⟩ := hreserved.pending.markJobFailed
      refine .failed hrow hunused hproper.status (.inr ?_)
      rw [hcredits]
      exact ⟨hreserved.positive, _, hcommits⟩
  | @settle job jobID walletID result db' hphase hsettled =>
      simp only [CallInv, hphase] at hinv
      obtain ⟨hjobID, hcommits, hreserved⟩ := hinv
      simp only [CallInv, Call.goto, Call.committed, hjobID]
      have hrow : db'.job jobID = (db.job jobID).map _ := hsettled.job
      rw [hreserved.pending.row] at hrow
      exact .settled (job.settlement P walletID jobID result) hrow rfl hsettled.recorded rfl
        (by rw [hcommits]; rfl) rfl
  | unsettle hphase hrefused =>
      simp only [CallInv, hphase] at hinv
      exact hinv
  | returnCredits hphase hposted =>
      simp only [CallInv, hphase] at hinv
      obtain ⟨hjobID, hcommits, hreserved⟩ := hinv
      simp only [CallInv, Call.goto, Call.committed, hjobID]
      have hpending := (hreserved.posted hposted).pending
      exact .failed hpending.row hpending.unused (handle_status _)
        (.inr ⟨hreserved.positive, _, .inr (by rw [hcommits]; rfl)⟩)
  | keepCredits hphase hrefused =>
      simp only [CallInv, hphase] at hinv
      obtain ⟨hjobID, hcommits, hreserved⟩ := hinv
      simp only [CallInv, Call.goto, hjobID]
      exact .failed hreserved.pending.row hreserved.pending.unused (handle_status _)
        (.inr ⟨hreserved.positive, _, .inl hcommits⟩)

end Own

end Nuvonode.Handler
