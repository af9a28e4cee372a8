/-
  Handler/Frame.lean --- what a step leaves alone.

  An event that is not a step of a call is a background change of the database.  A
  step of a call writes its own job row and the records of that job, and no other
  call's.
-/
import Nuvonode.Handler.System

set_option autoImplicit false

namespace Nuvonode.Handler

open Nuvonode.Foundation Nuvonode.Database Nuvonode.Repository Nuvonode.Service Nuvonode.Ws

/-! ## Background events -/

section Background

variable {db db' : DB}

theorem background_afterwards {α : Type} {p : Sql α}
    (h : ∀ r db', p.exec db = .ok (r, db') → Background db db') :
    Background db (afterwards p db) := by
  unfold afterwards
  split
  · rename_i r db' hexec
    exact h r db' hexec
  · exact .refl db

theorem background_orSame {result : Except Err DB}
    (h : ∀ db', result = .ok db' → Background db db') : Background db (orSame db result) := by
  cases result with
  | error e => exact .refl db
  | ok db' => exact h db' rfl

/-- A change of the catalog that deletes nothing. -/
theorem background_catalog {catalog : Catalog} (h : catalogFollows db.catalog catalog = true) :
    Background db { db with catalog } :=
  .of_tables (.of_follows h (fun _ h => h) (fun _ h => h) fun _ _ h => h) rfl rfl rfl rfl rfl

theorem background_updateProvider {actorUserID : UUID} {providerPublicID action : String}
    {change : ProviderRow → ProviderRow} {r : UUID × DB}
    (h : updateProvider actorUserID providerPublicID action change db = .ok r)
    (hkeeps : ∀ row, (change row).id = row.id) : Background db r.2 := by
  unfold updateProvider at h
  split at h
  · split at h
    · cases h
    · rename_i row _
      split at h
      · cases h
      · split at h
        · cases h
        · cases h
          refine .of_tables (.of_tables rfl (fun _ h => h) (fun id h => ?_) fun _ _ h => h)
            rfl rfl rfl rfl rfl
          have hselect : Table.select ProviderRow.id
              (Table.update ProviderRow.id db.providers row.id change) id =
                (db.provider id).map _ := Table.select_update hkeeps id
          rw [DB.provider, hselect, Option.isSome_map]
          exact h
  · cases h

theorem background_updateProviderApproval {actorUserID : UUID} {providerPublicID : String}
    {approval : ApprovalStatus}
    (h : updateProviderApproval actorUserID providerPublicID approval db = .ok db') :
    Background db db' := by
  obtain ⟨r, hr, rfl⟩ := eq_ok_of_map h
  exact background_updateProvider hr fun _ => rfl

theorem background_disableProvider {actorUserID : UUID} {providerPublicID : String}
    (h : disableProvider actorUserID providerPublicID db = .ok db') : Background db db' := by
  obtain ⟨r, hr, rfl⟩ := eq_ok_of_map h
  refine (background_updateProvider hr fun _ => rfl).trans (background_catalog ?_)
  simp only [catalogFollows, keepsIDs_refl, Bool.true_and]
  exact keepsIDs_update fun _ => rfl

end Background

/-! ## The kinds of step -/

section Kinds

variable {P : Platform} {cfg : Config} {s s' : ChatService} {e : ServiceEvent}

/-- A call that is stepped, and the event that steps it. -/
inductive Stepped (P : Platform) (cfg : Config) (s : ChatService) (call : Call) :
    ServiceEvent → DB → Call → Prop where
  | advance {env : Env} {db : DB} {call' : Call} :
      call.advance P cfg env s.db = some (db, call') →
      Stepped P cfg s call (.advance call.id env) db call'
  | deliver {outcome : Except DispatchError CompletionFrame} {call' : Call} :
      call.deliver outcome = some call' →
      Stepped P cfg s call (.deliver call.id outcome) s.db call'

/-- A step of a call is a transition. -/
theorem Stepped.transition {call call' : Call} {db : DB} (h : Stepped P cfg s call e db call') :
    Transition P s.db call db call' := by
  cases h with
  | advance h => exact transition_of_advance h
  | deliver h => exact transition_of_deliver h

/-- What an event can be. -/
inductive Kind (P : Platform) (cfg : Config) (s : ChatService) (e : ServiceEvent) :
    ChatService → Prop where
  | background {db : DB} : Background s.db db → Kind P cfg s e (s.on db)
  | arrive {id : Nat} {bearer requestID : String} {body : Option ChatRequest} :
      s.call id = none →
      Kind P cfg s e { s with calls := Table.insert s.calls (.arrived id bearer requestID body) }
  | call {call call' : Call} {db : DB} : s.call call.id = some call →
      Stepped P cfg s call e db call' → Kind P cfg s e (s.put db call')

theorem kind_of_next (h : next P cfg s e = some s') : Kind P cfg s e s' := by
  cases e with
  | register userID walletID publicID input =>
      cases h
      exact .background (background_afterwards fun _ _ => background_register)
  | createProvider providerID walletID publicID token ownerUserID name =>
      cases h
      exact .background (background_afterwards fun _ _ => background_createProviderAccount)
  | adminAdjust actorUserID target amount reason =>
      cases h
      exact .background (background_afterwards fun _ _ => background_adminAdjust)
  | setApproval actorUserID providerPublicID approval =>
      cases h
      exact .background (background_orSame fun _ => background_updateProviderApproval)
  | disableProvider actorUserID providerPublicID =>
      cases h
      exact .background (background_orSame fun _ => background_disableProvider)
  | changeCatalog catalog =>
      simp only [next] at h
      split at h
      · rename_i hfollows
        cases h
        exact .background (background_catalog hfollows)
      · cases h
  | arrive id bearer requestID body =>
      simp only [next] at h
      split at h
      · rename_i hfree
        cases h
        exact .arrive (Option.isNone_iff_eq_none.mp hfree)
      · cases h
  | advance id env =>
      obtain ⟨call, hcall, h⟩ := Option.bind_eq_some_iff.mp h
      obtain ⟨⟨db, call'⟩, hadvance, h⟩ := Option.bind_eq_some_iff.mp h
      cases h
      obtain rfl : call.id = id := (Table.mem_of_select hcall).2
      exact .call hcall (.advance hadvance)
  | deliver id outcome =>
      obtain ⟨call, hcall, h⟩ := Option.bind_eq_some_iff.mp h
      obtain ⟨call', hdeliver, h⟩ := Option.bind_eq_some_iff.mp h
      cases h
      obtain rfl : call.id = id := (Table.mem_of_select hcall).2
      exact .call hcall (.deliver hdeliver)

end Kinds

/-! ## The rows of other jobs -/

/-- Nothing that refers to a row is lost, and the rows of every job but one are kept. -/
structure KeepsOthers (jobID : Option UUID) (db db' : DB) : Prop where
  persists : Persists db db'
  job : ∀ id, jobID ≠ some id → db'.job id = db.job id
  usage : ∀ id, jobID ≠ some id → db'.usage id = db.usage id

section Others

variable {P : Platform} {db db' : DB} {call call' : Call} {jobID : UUID}

theorem KeepsOthers.refl (jobID : Option UUID) (db : DB) : KeepsOthers jobID db db :=
  ⟨.refl db, fun _ _ => rfl, fun _ _ => rfl⟩

theorem KeepsOthers.of_background (h : Background db db') (jobID : Option UUID) :
    KeepsOthers jobID db db' :=
  ⟨h.persists, fun _ _ => by rw [DB.job, h.jobs, DB.job], fun _ _ => by
    rw [DB.usage, h.usage, DB.usage]⟩

theorem KeepsOthers.of_posted {walletID : UUID} {entryType : EntryType}
    {amount reservedDelta : Int64} {reason : String} {createdBy : Option UUID}
    (h : Posted walletID entryType amount reservedDelta reason createdBy db db')
    (jobID : Option UUID) : KeepsOthers jobID db db' :=
  ⟨h.persists, fun _ _ => by rw [h.frame]; rfl, fun _ _ => by rw [h.frame]; rfl⟩

/-- Recording a failure leaves the database alone or changes the status and the texts of
its own job, and statistics. -/
theorem afterwards_markJobFailed (db : DB) (jobID : UUID) {status : JobStatus}
    {code message : String} :
    afterwards (markJobFailed jobID status code message) db = db ∨
      (storable code && storable message) = true ∧ ∃ stats,
        afterwards (markJobFailed jobID status code message) db =
          { db.apply (.failJob jobID status code message) with providerStats := stats } := by
  unfold afterwards
  split
  · rename_i r db' hexec
    obtain ⟨ws, hyields, rfl⟩ := yields_of_exec hexec
    obtain ⟨htexts, db₁, rfl, hresult | ⟨providerID, hresult⟩⟩ := yields_markJobFailed hyields
    · exact .inr ⟨htexts, db.providerStats, by rw [hresult]; rfl⟩
    · exact .inr ⟨htexts, _, by rw [hresult]; rfl⟩
  · exact .inl rfl

theorem KeepsOthers.of_markJobFailed {status : JobStatus} {code message : String} :
    KeepsOthers (some jobID) db (afterwards (markJobFailed jobID status code message) db) := by
  rcases afterwards_markJobFailed db jobID with hsame | ⟨-, stats, hfailed⟩
  · rw [hsame]
    exact .refl _ _
  · rw [hfailed]
    refine ⟨.of_tables rfl (fun _ h => h) (fun _ h => h) fun _ _ h => h, fun id hid => ?_,
      fun _ _ => rfl⟩
    exact Table.select_update_of_ne (fun _ => rfl) fun heq => hid (by rw [heq])

theorem KeepsOthers.of_settled {input : UsageSettlement} (h : Settled input db db') :
    KeepsOthers (some input.jobID) db db' := by
  obtain ⟨source, hrecords, hjobs⟩ := h.tables
  refine ⟨h.persists, fun id hid => ?_, fun id hid => ?_⟩
  · rw [DB.job, hjobs]
    exact Table.select_update_of_ne (fun _ => rfl) fun heq => hid (by rw [heq])
  · have hne : (input.record source).jobID ≠ id := fun heq => hid (congrArg some heq)
    rw [DB.usage, hrecords]
    exact Table.select_insert_of_ne hne

end Others

end Nuvonode.Handler
