/-
  Handler/Offers.lean --- what a step of the market does to the table of models.

  Only a create, an edit and a pause of a model write the table, and the first two pass a
  check.  Every other statement either shows something, and is one of another table, or
  leaves the registry alone.
-/
import Nuvonode.Handler.Registration
import Nuvonode.Service.Models

set_option autoImplicit false

namespace Nuvonode.Handler

open Nuvonode.Foundation Nuvonode.Database Nuvonode.Repository Nuvonode.Service Nuvonode.Ws

/-! ## The table of models -/

/-- What a step can do to the table of models. -/
inductive ModelsChange (models : List ModelRow) : List ModelRow → Prop where
  | same : ModelsChange models models
  | create {input : ModelInput} {row : ModelRow} :
      validModelInput (normalizeModelInput input) = true →
      StoresInput (normalizeModelInput input) row →
      ModelsChange models (Table.insert models row)
  | update {patch : ModelPatch} {old row : ModelRow} :
      validModelPatch (normalizeModelPatch patch) = true → old ∈ models →
      StoresPatch (normalizeModelPatch patch) old row →
      ModelsChange models (Table.update ModelRow.id models old.id fun _ => row)
  | pause {id : UUID} : ModelsChange models
      (Table.update ModelRow.id models id fun row => { row with status := .paused })

/-- What a step that edits no model can do to the table. -/
inductive Unedited (models : List ModelRow) : List ModelRow → Prop where
  | same : Unedited models models
  | create {input : ModelInput} {row : ModelRow} :
      validModelInput (normalizeModelInput input) = true →
      StoresInput (normalizeModelInput input) row → Unedited models (Table.insert models row)
  | pause {id : UUID} : Unedited models
      (Table.update ModelRow.id models id fun row => { row with status := .paused })

theorem Unedited.of_eq {models models' : List ModelRow} (h : models' = models) :
    Unedited models models' := h ▸ .same

theorem Unedited.change {models models' : List ModelRow} (h : Unedited models models') :
    ModelsChange models models' := by
  cases h with
  | same => exact .same
  | create hvalid hstores => exact .create hvalid hstores
  | pause => exact .pause

/-- A statement that shows something writes another table. -/
theorem models_of_facts {now : Nat} {r r' : Registry} {facts : List Fact}
    (h : r.Change now facts r') (hfacts : facts ≠ []) :
    r'.catalog.models = r.catalog.models := by
  cases h with
  | models _ => exact absurd rfl hfacts
  | _ => rfl

section Statements

variable {P : Platform} {cfg : Config} {now : Nat} {db db' : DB}

/-- A request of the dashboard that edits no model creates one or pauses one at most. -/
theorem unedited_request {user : UserRow} {r : DashboardRequest}
    (hother : ∀ modelPublicID patch, r ≠ .updateModel modelPublicID patch)
    (h : r.run P cfg now user db = .ok db') :
    Unedited db.catalog.models db'.catalog.models := by
  cases r with
  | createProject id publicID name limit =>
      have hchange := (registers_request h).change
      exact .of_eq (models_of_facts hchange (List.cons_ne_nil _ _))
  | createAPIKey id publicID plaintext keyPrefix projectPublicID name =>
      obtain ⟨⟨row, db₁⟩, hcreate, rfl⟩ := eq_ok_of_map h
      obtain ⟨project, -, hkey⟩ := projectCreateAPIKey_eq_ok hcreate
      obtain ⟨-, -, -, rfl⟩ := createAPIKey_eq_ok hkey
      exact .same
  | revokeAPIKey projectPublicID keyPublicID =>
      obtain ⟨project, -, hrevoke⟩ := projectRevokeAPIKey_eq_ok h
      obtain rfl := revokeAPIKey_eq_ok hrevoke
      exact .same
  | createModel id publicID input =>
      obtain ⟨⟨row, db₁⟩, hcreate, rfl⟩ := eq_ok_of_map h
      obtain ⟨hvalid, hstores, hmodels⟩ := accepted_create hcreate
      rw [hmodels]
      exact .create hvalid hstores
  | updateModel modelPublicID patch => exact absurd rfl (hother modelPublicID patch)
  | pauseModel modelPublicID =>
      obtain ⟨-, hpause⟩ := eq_ok_of_adminOnly h
      obtain ⟨old, -, hpause⟩ := eq_ok_of_bind hpause
      obtain ⟨audited, -, hpause⟩ := eq_ok_of_bind hpause
      cases hpause
      exact .pause
  | setApproval providerPublicID status =>
      obtain ⟨-, h⟩ := eq_ok_of_adminOnly h
      split at h
      · obtain ⟨row, -, hregisters⟩ :
            ∃ row : ProviderRow, _ ∧ Registers now db [.decided row.id _] db' :=
          registers_updateProviderApproval h
        exact .of_eq (models_of_facts hregisters.change (List.cons_ne_nil _ _))
      · cases h
  | disableProvider providerPublicID =>
      obtain ⟨-, h⟩ := eq_ok_of_adminOnly h
      obtain ⟨row, -, hregisters⟩ :
          ∃ row : ProviderRow, _ ∧ Registers now db [.disabled row.id] db' :=
        registers_disableProvider h
      exact .of_eq (models_of_facts hregisters.change (List.cons_ne_nil _ _))
  | setAdvertisementStatus publicID status =>
      obtain ⟨-, h⟩ := eq_ok_of_adminOnly h
      split at h
      · obtain ⟨parsed, -, hregisters⟩ : ∃ parsed, _ ∧ Registers now db [.judged _ parsed] db' :=
          registers_updateAdvertisementStatus h
        exact .of_eq (models_of_facts hregisters.change (List.cons_ne_nil _ _))
      · cases h

/-- No step of the requests writes the table of models. -/
theorem models_next {s s' : ChatService} {e : ServiceEvent}
    (hlocal : elsewhere (.service e) = false) (h : Handler.next P cfg s e = some s') :
    s'.db.catalog.models = s.db.catalog.models := by
  rcases registry_of_next hlocal h with
    hsame | ⟨providerID, walletID, publicID, token, ownerUserID, name, rfl⟩
  · exact congrArg (fun r => r.catalog.models) hsame
  · rw [← db_of_createProvider h]
    obtain ⟨providers, wallets, hdb⟩ := afterwards_createProviderAccount P cfg s.db providerID
      walletID ownerUserID publicID token name
    rw [hdb]

end Statements

section Steps

variable {P : Platform} {cfg : Config} {m m' : Market} {e : MarketEvent}

/-- A step of the market is an accepted edit of a model, or edits none. -/
theorem Market.Step.edit (h : m.Step P cfg e m') :
    (∃ userPublicID user modelPublicID patch row,
      e = .request userPublicID (.updateModel modelPublicID patch) ∧
        userFromJWT userPublicID m.db = .ok user ∧
        adminUpdateModel user modelPublicID patch m.db = .ok (row, m'.db)) ∨
      Unedited m.db.catalog.models m'.db.catalog.models := by
  cases h with
  | api hlocal hstep =>
      refine .inr ?_
      cases hstep with
      | service _ hnext => exact .of_eq (models_next hlocal hnext)
      | deliver _ _ hnext => exact .of_eq (models_next rfl hnext)
      | hello _ _ _ _ | refuseHello _ => cases hlocal
      | _ => exact .same
  | hello hstep =>
      refine .inr ?_
      cases hstep with
      | refuseHello _ => exact .same
      | hello _ hupsert _ _ =>
          have hregisters : Registers m.clock m.db [_] _ := (registers_upsertInstance hupsert).1
          exact .of_eq (models_of_facts hregisters.change (List.cons_ne_nil _ _))
  | frame _ _ _ _ hrun =>
      obtain ⟨instances, advertisements, hardwareReports, rfl⟩ := writes_frame hrun
      exact .inr (.of_eq rfl)
  | @request userPublicID user r db huser hrun =>
      have hdb : ((m.on db).pursue r).db = db := by cases r <;> rfl
      rw [hdb]
      cases r with
      | updateModel modelPublicID patch =>
          obtain ⟨⟨row, db₁⟩, hupdate, rfl⟩ := eq_ok_of_map hrun
          exact .inl ⟨userPublicID, user, modelPublicID, patch, row, rfl, huser, hupdate⟩
      | _ => exact .inr (unedited_request (fun _ _ => DashboardRequest.noConfusion) hrun)
  | _ => exact .inr .same

/-- A step of the market writes the table of models as an administrator's request does, or
leaves it alone. -/
theorem Market.Step.models (h : m.Step P cfg e m') :
    ModelsChange m.db.catalog.models m'.db.catalog.models := by
  rcases h.edit with ⟨_, user, modelPublicID, patch, row, -, -, hupdate⟩ | hunedited
  · obtain ⟨hvalid, old, hold, hstores, -, hmodels⟩ := accepted_update hupdate
    rw [hmodels]
    exact .update hvalid hold hstores
  · exact hunedited.change

end Steps

end Nuvonode.Handler
