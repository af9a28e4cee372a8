/-
  Handler/System.lean --- any number of calls on one database.

  The state is the database and the calls.  Everything happens at the granularity
  of transactions: a call takes its next statement, `Dispatch` returns to a call
  that waits for it, or something else changes the database.  What a provider does
  is not restricted: `Dispatch` may return any frame and any error.

  `Transition` says once what a call can do to the database and to itself.
-/
import Nuvonode.Handler.Chat
import Nuvonode.Foundation.Machine
import Nuvonode.Service.Books
import Nuvonode.Service.Operations
import Nuvonode.Service.Progress

set_option autoImplicit false

namespace Nuvonode.Handler

open Nuvonode.Foundation Nuvonode.Database Nuvonode.Repository Nuvonode.Service Nuvonode.Ws

/-- The database and the calls. -/
structure ChatService where
  db : DB
  calls : List Call
  deriving DecidableEq

inductive ServiceEvent where
  | register (userID walletID : UUID) (publicID : String) (input : RegisterInput)
  | createProvider (providerID walletID : UUID) (publicID token : String) (ownerUserID : UUID)
      (name : String)
  | adminAdjust (actorUserID : UUID) (target : String) (amount : Int64) (reason : String)
  | setApproval (actorUserID : UUID) (providerPublicID : String) (approval : ApprovalStatus)
  | disableProvider (actorUserID : UUID) (providerPublicID : String)
  /-- Projects, keys, models, versions, instances or advertisements change. -/
  | changeCatalog (catalog : Catalog)
  | arrive (id : Nat) (bearer requestID : String) (body : Option ChatRequest)
  | advance (id : Nat) (env : Env)
  | deliver (id : Nat) (outcome : Except DispatchError CompletionFrame)
  deriving DecidableEq

namespace ChatService

/-- A call by its number. -/
def call (s : ChatService) (id : Nat) : Option Call := Table.select Call.id s.calls id

/-- The service on another database. -/
def on (s : ChatService) (db : DB) : ChatService := { s with db }

/-- Replace a call. -/
def put (s : ChatService) (db : DB) (call : Call) : ChatService where
  db := db
  calls := Table.update Call.id s.calls call.id fun _ => call

end ChatService

/-- The database a statement leaves, or the one it found when it fails. -/
def orSame (db : DB) : Except Err DB → DB
  | .ok db' => db'
  | .error _ => db

section Next

variable (P : Platform) (cfg : Config)

/-- What an event does; `none` where it cannot happen. -/
def next (s : ChatService) : ServiceEvent → Option ChatService
  | .register userID walletID publicID input =>
      some (s.on (afterwards (register P cfg userID walletID publicID input) s.db))
  | .createProvider providerID walletID publicID token ownerUserID name =>
      some (s.on (afterwards
        (createProviderAccount P cfg providerID walletID publicID token ownerUserID name) s.db))
  | .adminAdjust actorUserID target amount reason =>
      some (s.on (afterwards (adminAdjust actorUserID target amount reason) s.db))
  | .setApproval actorUserID providerPublicID approval =>
      some (s.on (orSame s.db
        (updateProviderApproval actorUserID providerPublicID approval s.db)))
  | .disableProvider actorUserID providerPublicID =>
      some (s.on (orSame s.db (disableProvider actorUserID providerPublicID s.db)))
  | .changeCatalog catalog =>
      if catalogFollows s.db.catalog catalog then some (s.on { s.db with catalog }) else none
  | .arrive id bearer requestID body =>
      if (s.call id).isNone then
        some { s with calls := Table.insert s.calls (.arrived id bearer requestID body) }
      else none
  | .advance id env => do
      let call ← s.call id
      let (db, call') ← call.advance P cfg env s.db
      return s.put db call'
  | .deliver id outcome => do
      let call ← s.call id
      let call' ← call.deliver outcome
      return s.put s.db call'

/-- The service, from a fresh database with no call. -/
abbrev chatMachine : Machine ChatService ServiceEvent :=
  Machine.ofNext (fun s => Fresh s.db ∧ s.calls = []) (next P cfg)

end Next

/-! ## What a call can do -/

/-- The phases before a job row exists. -/
def Phase.Searching : Phase → Prop
  | .received => True
  | .authenticated .. => True
  | .modelFound .. => True
  | .routed .. => True
  | _ => False

/-- One step of a call. -/
inductive Transition (P : Platform) (db : DB) (call : Call) : DB → Call → Prop where
  | search {phase : Phase} : call.phase.Searching →
      phase.Searching ∨ (∃ response, phase = .done response ∧ response.status ≠ 200) →
      Transition P db call db (call.goto phase)
  | create {job : ChatJob} {jobID : UUID} : call.phase = .routed job → db.job jobID = none →
      partiesExist job.auth.projectID job.auth.userID job.model.id job.route.providerID
        job.route.providerInstanceID db = true →
      Transition P db call (db.apply (.insertJob ((job.spec P).row jobID)))
        { call.goto (.created job jobID) with jobID := some jobID }
  | refuse {job : ChatJob} {jobID : UUID} {e : Err} : call.phase = .created job jobID →
      Transition P db call db (call.goto (.refused job jobID e))
  | reserve {job : ChatJob} {jobID walletID : UUID} {db' : DB} :
      call.phase = .created job jobID → 0 < (job.reservedCredits P).toInt →
      db.walletOf (.user, job.auth.userID) = some walletID →
      Posted walletID .reserve (-job.reservedCredits P) (job.reservedCredits P)
        "chat_completion_reservation" none db db' →
      Transition P db call db' ((call.goto (.reserved job jobID walletID)).committed
        (.reserve walletID (job.reservedCredits P)))
  | recordRefusal {job : ChatJob} {jobID : UUID} {e : Err} :
      call.phase = .refused job jobID e →
      Transition P db call
        (afterwards (markJobFailed jobID .failed "insufficient_credits" e.text) db)
        (call.goto (.done (handle e)))
  | dispatch {job : ChatJob} {jobID walletID : UUID} :
      call.phase = .reserved job jobID walletID →
      Transition P db call (db.apply (.dispatchJob jobID))
        (call.goto (.dispatched job jobID walletID))
  | fail {job : ChatJob} {jobID walletID : UUID} {failure : Failure}
      {outcome : Except DispatchError CompletionFrame} :
      call.phase = .dispatched job jobID walletID →
      (∃ e, outcome = .error e ∧ failure = dispatchFailure e) ∨
        (∃ frame, outcome = .ok frame ∧ frame.payload.errorCode ≠ "" ∧
          failure = providerFailure frame.payload) →
      Transition P db call db
        { call.goto (.failing job jobID walletID failure) with outcome := some outcome }
  | answer {job : ChatJob} {jobID walletID : UUID} {frame : CompletionFrame} :
      call.phase = .dispatched job jobID walletID → frame.payload.errorCode = "" →
      Transition P db call db
        { call.goto (.answered job jobID walletID frame.payload) with outcome := some (.ok frame) }
  | release {job : ChatJob} {jobID walletID : UUID} {failure : Failure} {db' : DB} :
      call.phase = .failing job jobID walletID failure →
      Posted walletID .releaseReserve (job.reservedCredits P) (-job.reservedCredits P)
        failure.releaseReason none db db' →
      Transition P db call db' ((call.goto (.released job jobID walletID failure)).committed
        (.release walletID (job.reservedCredits P)))
  | keep {job : ChatJob} {jobID walletID : UUID} {failure : Failure} {e : Err} :
      call.phase = .failing job jobID walletID failure →
      (Service.release walletID (job.reservedCredits P) failure.releaseReason).exec db = .error e →
      Transition P db call db (call.goto (.released job jobID walletID failure))
  | recordFailure {job : ChatJob} {jobID walletID : UUID} {failure : Failure} :
      call.phase = .released job jobID walletID failure →
      Transition P db call
        (afterwards (markJobFailed jobID .failed failure.code failure.message) db)
        (call.goto (.done failure.response))
  | settle {job : ChatJob} {jobID walletID : UUID} {result : JobResultPayload} {db' : DB} :
      call.phase = .answered job jobID walletID result →
      Settled (job.settlement P walletID jobID result) db db' →
      Transition P db call db' ((call.goto (.done (job.completion result))).committed
        (.settle (job.settlement P walletID jobID result)))
  | unsettle {job : ChatJob} {jobID walletID : UUID} {result : JobResultPayload} {e : Err} :
      call.phase = .answered job jobID walletID result →
      (finalizeUsage (job.settlement P walletID jobID result)).exec db = .error e →
      Transition P db call db (call.goto (.unsettled job jobID walletID e))
  | returnCredits {job : ChatJob} {jobID walletID : UUID} {e : Err} {db' : DB} :
      call.phase = .unsettled job jobID walletID e →
      Posted walletID .releaseReserve (job.reservedCredits P) (-job.reservedCredits P)
        "settlement_failed_release" none db db' →
      Transition P db call db' ((call.goto (.done (handle e))).committed
        (.release walletID (job.reservedCredits P)))
  | keepCredits {job : ChatJob} {jobID walletID : UUID} {e e' : Err} :
      call.phase = .unsettled job jobID walletID e →
      (Service.release walletID (job.reservedCredits P) "settlement_failed_release").exec db =
        .error e' →
      Transition P db call db (call.goto (.done (handle e)))

section Inversion

variable {P : Platform} {cfg : Config} {db db' : DB} {call call' : Call}

/-- A request body that is refused is not answered with 200. -/
theorem validate_status {body : Option ChatRequest} {response : Response}
    (h : validate body = .error response) : response.status ≠ 200 := by
  unfold validate at h
  split at h
  · cases h
    decide
  · split at h
    · cases h
      decide
    · split at h
      · cases h
        decide
      · split at h
        · cases h
          decide
        · cases h

/-- Every statement of a call is one of the transitions. -/
theorem transition_of_advance {env : Env} (h : call.advance P cfg env db = some (db', call')) :
    Transition P db call db' call' := by
  unfold Call.advance at h
  split at h
  · -- The API key and the body.
    rename_i hphase
    have hsearching : call.phase.Searching := by simp [hphase, Phase.Searching]
    split at h
    · rename_i e _
      cases h
      exact .search hsearching (.inr ⟨_, rfl, handle_status e⟩)
    · split at h
      · rename_i response hbody
        cases h
        exact .search hsearching (.inr ⟨_, rfl, validate_status hbody⟩)
      · cases h
        exact .search hsearching (.inl trivial)
  · -- The model.
    rename_i hphase
    have hsearching : call.phase.Searching := by simp [hphase, Phase.Searching]
    split at h
    · rename_i e _
      cases h
      refine .search hsearching (.inr ⟨_, rfl, ?_⟩)
      split
      · decide
      · exact handle_status e
    · split at h
      · cases h
        exact .search hsearching (.inr ⟨_, rfl, by decide⟩)
      · cases h
        exact .search hsearching (.inl trivial)
  · -- The route.
    rename_i hphase
    have hsearching : call.phase.Searching := by simp [hphase, Phase.Searching]
    split at h
    · split at h
      · cases h
        exact .search hsearching (.inr ⟨_, rfl, by decide⟩)
      · cases h
        exact .search hsearching (.inl trivial)
    · cases h
  · -- The job row.
    rename_i job hphase
    have hsearching : call.phase.Searching := by simp [hphase, Phase.Searching]
    split at h
    · rename_i e _
      cases h
      exact .search hsearching (.inr ⟨_, rfl, handle_status e⟩)
    · rename_i jobID db₁ hexec
      cases h
      obtain ⟨ws, hyields, rfl⟩ := yields_of_exec hexec
      obtain ⟨rfl, hfree, ⟨old, rfl, hparties⟩, hresult⟩ := yields_createInferenceJob hyields
      rw [hresult]
      exact .create hphase hfree hparties
  · -- The reservation.
    rename_i job jobID hphase
    split at h
    · cases h
      exact .refuse hphase
    · rename_i walletID db₁ hexec
      cases h
      obtain ⟨ws, hyields, rfl⟩ := yields_of_exec hexec
      obtain ⟨hpos, ⟨old, rfl, hwallet⟩, hposted⟩ := yields_reserveForUser hyields
      exact .reserve hphase (pos_iff.mp hpos) hwallet hposted
  · rename_i job jobID e hphase
    have hafter : db' = afterwards (markJobFailed jobID .failed "insufficient_credits" e.text) db ∧
        call' = call.goto (.done (handle e)) := by
      unfold afterwards
      split at h <;> cases h <;> rename_i hexec <;> rw [hexec] <;> exact ⟨rfl, rfl⟩
    rw [hafter.1, hafter.2]
    exact .recordRefusal hphase
  · rename_i job jobID walletID hphase
    cases h
    exact .dispatch hphase
  · cases h
  · -- The release of a failed job's credits.
    rename_i job jobID walletID failure hphase
    split at h
    · rename_i e hexec
      cases h
      exact .keep hphase hexec
    · rename_i r db₁ hexec
      cases h
      obtain ⟨ws, hyields, rfl⟩ := yields_of_exec hexec
      exact .release hphase (yields_release hyields)
  · rename_i job jobID walletID failure hphase
    have hafter : db' = afterwards (markJobFailed jobID .failed failure.code failure.message) db ∧
        call' = call.goto (.done failure.response) := by
      unfold afterwards
      split at h <;> cases h <;> rename_i hexec <;> rw [hexec] <;> exact ⟨rfl, rfl⟩
    rw [hafter.1, hafter.2]
    exact .recordFailure hphase
  · -- The settlement.
    rename_i job jobID walletID result hphase
    split at h
    · rename_i e hexec
      cases h
      exact .unsettle hphase hexec
    · rename_i r db₁ hexec
      cases h
      obtain ⟨ws, hyields, rfl⟩ := yields_of_exec hexec
      exact .settle hphase (yields_finalizeUsage hyields)
  · -- The release after a settlement that failed.
    rename_i job jobID walletID e hphase
    split at h
    · rename_i e' hexec
      cases h
      exact .keepCredits hphase hexec
    · rename_i r db₁ hexec
      cases h
      obtain ⟨ws, hyields, rfl⟩ := yields_of_exec hexec
      exact .returnCredits hphase (yields_release hyields)
  · cases h

/-- The return of `Dispatch` is one of the transitions. -/
theorem transition_of_deliver {outcome : Except DispatchError CompletionFrame}
    (h : call.deliver outcome = some call') : Transition P db call db call' := by
  unfold Call.deliver at h
  split at h
  · rename_i job jobID walletID hphase
    cases outcome with
    | error e =>
        cases h
        exact .fail hphase (.inl ⟨e, rfl, rfl⟩)
    | ok frame =>
        simp only [Option.some.injEq] at h
        subst h
        by_cases hcode : frame.payload.errorCode = ""
        · rw [if_neg (not_not.mpr hcode)]
          exact .answer hphase hcode
        · rw [if_pos hcode]
          exact .fail hphase (.inr ⟨frame, rfl, hcode, rfl⟩)
  · cases h

/-- A statement of a call does not change what `Dispatch` returned. -/
theorem outcome_of_advance {env : Env} (h : call.advance P cfg env db = some (db', call')) :
    call'.outcome = call.outcome := by
  have htransition := transition_of_advance h
  cases htransition with
  | fail hphase _ | answer hphase _ =>
      rw [Call.advance, hphase] at h
      cases h
  | _ => rfl

/-- What `Dispatch` returns is remembered. -/
theorem outcome_of_deliver {outcome : Except DispatchError CompletionFrame}
    (h : call.deliver outcome = some call') : call'.outcome = some outcome := by
  unfold Call.deliver at h
  split at h
  · cases h
    rfl
  · cases h

end Inversion

end Nuvonode.Handler
