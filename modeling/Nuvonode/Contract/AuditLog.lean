/-
  Contract/AuditLog.lean --- the audit log holds what administrators did, and nothing else.

  An operation that succeeds is its effect with one row in the log; one that fails is
  nothing.  So the log grows by the rows of the operations that succeed, in their order,
  and the adjustments in the ledger by those of the wallets.
-/
import Nuvonode.Service.Administration

set_option autoImplicit false

namespace Nuvonode.Contract

open Nuvonode.Foundation Nuvonode.Database Nuvonode.Repository Nuvonode.Service

/-! ## One operation -/

section Operation

variable {user : UserRow} {db db' changed : DB} {op : AdminOperation} {targetID : UUID}

/-- A database with one more row in the audit log. -/
def withAudit (row : AuditRow) (db : DB) : DB :=
  { db with auditLog := Table.insert db.auditLog row }

theorem audit_eq_ok {actorUserID targetID : UUID} {action targetType : String}
    (h : audit actorUserID action targetType targetID db = .ok db') :
    db' = withAudit ⟨actorUserID, action, targetType, targetID⟩ db := by
  unfold audit at h
  split at h
  · cases h
  · cases h
    rfl

/-- An administrator's statement on a provider, with its audit row. -/
theorem updateProvider_audited {actorUserID : UUID} {providerPublicID action : String}
    {change : ProviderRow → ProviderRow} {r : UUID × DB}
    (h : updateProvider actorUserID providerPublicID action change db = .ok r) :
    ∃ row, Table.select ProviderRow.publicID db.providers providerPublicID = some row ∧
      r = (row.id, withAudit ⟨actorUserID, action, "provider", row.id⟩
        { db with providers := Table.update ProviderRow.id db.providers row.id change }) := by
  unfold updateProvider at h
  split at h
  · split at h
    · cases h
    · rename_i row hselect
      split at h
      · cases h
      · split at h
        · cases h
        · cases h
          exact ⟨row, hselect, rfl⟩
  · cases h

theorem approvalText_decisionOf {status : String} {approval : ApprovalStatus}
    (h : decisionOf status = some approval) : approvalText approval = status := by
  unfold decisionOf at h
  split at h
  · rename_i hstatus
    cases h
    exact hstatus.symm
  · split at h
    · rename_i hstatus
      cases h
      exact hstatus.symm
    · cases h

/-- What the adjustment of a wallet does when it returns. -/
theorem adminAdjust_audited {actorUserID : UUID} {target reason : String} {amount : Int64}
    {r : WalletRow} (h : (adminAdjust actorUserID target amount reason).exec db = .ok (r, db')) :
    ∃ walletID changed,
      (AdminOperation.adjustWallet target amount reason).target db = some walletID ∧
        Posted walletID .adminAdjustment amount 0 ("admin_adjustment: " ++ trimSpace reason)
          (some actorUserID) db changed ∧
        db' = withAudit ⟨actorUserID, "wallet_admin_adjustment", "wallet", walletID⟩ changed := by
  obtain ⟨ws, hyields, rfl⟩ := Tx.yields_of_exec_nil (S := store) h
  unfold adminAdjust at hyields
  split at hyields
  · simp at hyields
  · simp only [Tx.yields_bind, yields_require, Tx.yields_query, yields_orFail, yields_lockWallet,
      yields_references, Tx.yields_perform] at hyields
    obtain ⟨_, _, ⟨-, rfl⟩, _, _, ⟨_, rfl, htarget, rfl⟩, walletID, _, ⟨hfound, rfl⟩, _, _,
      ⟨-, rfl⟩, _, _, hentry, _, _, ⟨-, rfl⟩, _, _, rfl, _, _, ⟨_, _, -, rfl⟩, -, rfl⟩ := hyields
    exact ⟨walletID, _, htarget.symm.trans hfound, yields_addLedger hentry, applyAll_snoc _ _ _⟩

/-- **An operation that returns is its effect with its audit row.** -/
theorem run_eq_ok (h : op.run user db = .ok db') :
    user.role = .admin ∧ ∃ targetID changed, op.target db = some targetID ∧
      AdminEffect user db op targetID changed ∧
      db' = withAudit (op.auditRow user targetID) changed := by
  cases op with
  | createModel id publicID input =>
      obtain ⟨⟨row, _⟩, hresult, rfl⟩ := eq_ok_of_map h
      obtain ⟨hadmin, hresult⟩ := eq_ok_of_adminOnly hresult
      split at hresult
      · obtain ⟨row', hrow, hresult⟩ := eq_ok_of_bind hresult
        split at hresult
        · cases hresult
        · obtain ⟨audited, haudit, hresult⟩ := eq_ok_of_bind hresult
          cases hresult
          obtain rfl := audit_eq_ok haudit
          exact ⟨hadmin, id, _, rfl, .createModel hrow, rfl⟩
      · cases hresult
  | updateModel modelPublicID patch =>
      obtain ⟨⟨row, _⟩, hresult, rfl⟩ := eq_ok_of_map h
      obtain ⟨hadmin, hresult⟩ := eq_ok_of_adminOnly hresult
      split at hresult
      · obtain ⟨old, hold, hresult⟩ := eq_ok_of_bind hresult
        obtain ⟨row', hrow, hresult⟩ := eq_ok_of_bind hresult
        split at hresult
        · cases hresult
        · obtain ⟨audited, haudit, hresult⟩ := eq_ok_of_bind hresult
          cases hresult
          obtain rfl := audit_eq_ok haudit
          refine ⟨hadmin, old.id, _, ?_, .updateModel hold hrow, rfl⟩
          exact congrArg (Option.map ModelRow.id) (select_of_modelByPublicID hold)
      · cases hresult
  | pauseModel modelPublicID =>
      obtain ⟨hadmin, hresult⟩ := eq_ok_of_adminOnly h
      obtain ⟨old, hold, hresult⟩ := eq_ok_of_bind hresult
      obtain ⟨audited, haudit, hresult⟩ := eq_ok_of_bind hresult
      cases hresult
      obtain rfl := audit_eq_ok haudit
      refine ⟨hadmin, old.id, _, ?_, .pauseModel hold, rfl⟩
      exact congrArg (Option.map ModelRow.id) (select_of_modelByPublicID hold)
  | setProviderApproval providerPublicID status =>
      obtain ⟨hadmin, hresult⟩ := eq_ok_of_adminOnly h
      split at hresult
      · rename_i approval hdecision
        obtain ⟨r, hr, rfl⟩ := eq_ok_of_map hresult
        obtain ⟨row, hselect, rfl⟩ := updateProvider_audited hr
        rw [approvalText_decisionOf hdecision]
        refine ⟨hadmin, row.id, _, ?_, .setProviderApproval hdecision hselect, rfl⟩
        exact congrArg (Option.map ProviderRow.id) hselect
      · cases hresult
  | disableProvider providerPublicID =>
      obtain ⟨hadmin, hresult⟩ := eq_ok_of_adminOnly h
      obtain ⟨r, hr, rfl⟩ := eq_ok_of_map hresult
      obtain ⟨row, hselect, rfl⟩ := updateProvider_audited hr
      refine ⟨hadmin, row.id, _, ?_, .disableProvider hselect, rfl⟩
      exact congrArg (Option.map ProviderRow.id) hselect
  | setAdvertisementStatus publicID status =>
      obtain ⟨hadmin, hresult⟩ := eq_ok_of_adminOnly h
      split at hresult
      · unfold updateProviderModelAdvertisementStatus at hresult
        split at hresult
        · cases hresult
        · split at hresult
          · cases hresult
          · rename_i row hselect
            obtain ⟨newStatus, hstatus, hresult⟩ := eq_ok_of_bind hresult
            obtain ⟨audited, haudit, hresult⟩ := eq_ok_of_bind hresult
            cases hresult
            obtain rfl := audit_eq_ok haudit
            refine ⟨hadmin, row.id, _, ?_, .setAdvertisementStatus ?_ hselect, rfl⟩
            · exact congrArg (Option.map AdvertisementRow.id) hselect
            · exact eq_some_of_orError hstatus
      · cases hresult
  | adjustWallet targetUserPublicID amount reason =>
      obtain ⟨⟨wallet, _⟩, hresult, rfl⟩ := eq_ok_of_map h
      obtain ⟨hadmin, hresult⟩ := eq_ok_of_adminOnly hresult
      obtain ⟨walletID, changed, htarget, hposted, rfl⟩ := adminAdjust_audited hresult
      exact ⟨hadmin, walletID, changed, htarget, .adjustWallet htarget hposted, rfl⟩

end Operation

/-! ## A sequence of operations -/

/-- An operation that a user attempts, with the database it finds. -/
structure Attempt where
  user : UserRow
  operation : AdminOperation
  before : DB

namespace Attempt

/-- What it returns. -/
def result (a : Attempt) : Except Err DB := a.operation.run a.user a.before

/-- The database that it leaves. -/
def after (a : Attempt) : DB := a.operation.apply a.user a.before

/-- The audit row that it owes: that of its target, where it succeeds. -/
def auditRow (a : Attempt) : Option AuditRow :=
  match a.result with
  | .ok _ => (a.operation.target a.before).map (a.operation.auditRow a.user)
  | .error _ => none

/-- The adjustment that it owes, where it succeeds. -/
def adjustment (a : Attempt) : Option (UUID × Int64) :=
  match a.result with
  | .ok _ => (a.operation.target a.before).bind fun targetID => a.operation.adjusts targetID
  | .error _ => none

end Attempt

/-- What users attempt one after another. -/
def attempts (db : DB) : List (UserRow × AdminOperation) → List Attempt
  | [] => []
  | (user, op) :: requests => ⟨user, op, db⟩ :: attempts (op.apply user db) requests

/-- The database after them. -/
def administer (db : DB) : List (UserRow × AdminOperation) → DB
  | [] => db
  | (user, op) :: requests => administer (op.apply user db) requests

/-- The adjustments that the ledger holds: the wallet and the amount of each. -/
def adjustments (db : DB) : List (UUID × Int64) :=
  (db.walletLedger.filter fun row => row.entryType = .adminAdjustment).map fun row =>
    (row.walletID, row.amountCredits)

section Sequence

variable {a : Attempt} {db : DB}

theorem Attempt.after_of_ok {db' : DB} (h : a.result = .ok db') : a.after = db' := by
  rw [Attempt.result] at h
  rw [Attempt.after, AdminOperation.apply, h]

theorem Attempt.after_of_error {e : Err} (h : a.result = .error e) : a.after = a.before := by
  rw [Attempt.result] at h
  rw [Attempt.after, AdminOperation.apply, h]

/-- An effect leaves the audit log alone. -/
theorem auditLog_of_effect {user : UserRow} {op : AdminOperation} {targetID : UUID} {changed : DB}
    (h : AdminEffect user db op targetID changed) : changed.auditLog = db.auditLog := by
  cases h with
  | adjustWallet _ hposted =>
      obtain ⟨wallet, -, -, -, rfl⟩ := hposted
      rfl
  | _ => rfl

/-- One attempt adds its audit row, where it owes one. -/
theorem auditLog_after (a : Attempt) :
    a.after.auditLog = a.before.auditLog ++ a.auditRow.toList := by
  cases hresult : a.result with
  | error e =>
      rw [Attempt.after_of_error hresult, Attempt.auditRow, hresult]
      exact (List.append_nil _).symm
  | ok db' =>
      obtain ⟨-, targetID, changed, htarget, heffect, rfl⟩ := run_eq_ok hresult
      rw [Attempt.after_of_ok hresult, Attempt.auditRow, hresult]
      simp only [htarget, withAudit, Table.insert, auditLog_of_effect heffect]
      rfl

/-- The entry of an adjustment is the last one. -/
theorem adjustments_post {wallet : WalletRow} {walletID : UUID} {amount reservedDelta : Int64}
    {reason : String} {createdBy : Option UUID} :
    adjustments (post db wallet walletID .adminAdjustment amount reservedDelta reason createdBy) =
      adjustments db ++ [(walletID, amount)] := by
  simp only [adjustments, post, Table.insert, List.filter_append, List.map_append]
  rfl

/-- An effect adds its adjustment to the ledger, where it is one. -/
theorem adjustments_of_effect {user : UserRow} {op : AdminOperation} {targetID : UUID}
    {changed : DB} (h : AdminEffect user db op targetID changed) :
    adjustments changed = adjustments db ++ (op.adjusts targetID).toList := by
  cases h with
  | adjustWallet _ hposted =>
      obtain ⟨wallet, -, -, -, rfl⟩ := hposted
      exact adjustments_post
  | _ => exact (List.append_nil _).symm

/-- One attempt adds its adjustment, where it owes one. -/
theorem adjustments_after (a : Attempt) :
    adjustments a.after = adjustments a.before ++ a.adjustment.toList := by
  cases hresult : a.result with
  | error e =>
      rw [Attempt.after_of_error hresult, Attempt.adjustment, hresult]
      exact (List.append_nil _).symm
  | ok db' =>
      obtain ⟨-, targetID, changed, htarget, heffect, rfl⟩ := run_eq_ok hresult
      have hledger : adjustments (withAudit (a.operation.auditRow a.user targetID) changed) =
          adjustments changed := rfl
      rw [Attempt.after_of_ok hresult, Attempt.adjustment, hresult, hledger,
        adjustments_of_effect heffect]
      simp only [htarget, Option.bind_some]

theorem filterMap_cons_eq_append {α β : Type} {f : α → Option β} {first : α} {rest : List α} :
    (first :: rest).filterMap f = (f first).toList ++ rest.filterMap f := by
  rw [List.filterMap_cons]
  cases f first <;> rfl

/-- The log and the adjustments after a sequence are those before it and of its attempts. -/
theorem administer_records (requests : List (UserRow × AdminOperation)) (db : DB) :
    (administer db requests).auditLog =
        db.auditLog ++ (attempts db requests).filterMap Attempt.auditRow ∧
      adjustments (administer db requests) =
        adjustments db ++ (attempts db requests).filterMap Attempt.adjustment := by
  induction requests generalizing db with
  | nil => exact ⟨(List.append_nil _).symm, (List.append_nil _).symm⟩
  | cons request requests ih =>
      obtain ⟨user, op⟩ := request
      obtain ⟨hlog, hadjustments⟩ := ih (op.apply user db)
      have hfirst := auditLog_after ⟨user, op, db⟩
      have hentry := adjustments_after ⟨user, op, db⟩
      rw [Attempt.after] at hfirst hentry
      rw [administer, attempts, hlog, hadjustments, hfirst, hentry, List.append_assoc,
        List.append_assoc, filterMap_cons_eq_append, filterMap_cons_eq_append]
      exact ⟨rfl, rfl⟩

/-- **The audit log is complete and exact.** -/
theorem audit_log_is_exact (db : DB) (requests : List (UserRow × AdminOperation)) :
    (administer db requests).auditLog =
        db.auditLog ++ (attempts db requests).filterMap Attempt.auditRow ∧
      adjustments (administer db requests) =
        adjustments db ++ (attempts db requests).filterMap Attempt.adjustment ∧
      ∀ a ∈ attempts db requests,
        (∀ db', a.result = .ok db' → a.user.role = .admin ∧ ∃ targetID changed,
          a.operation.target a.before = some targetID ∧
            a.auditRow = some (a.operation.auditRow a.user targetID) ∧
            AdminEffect a.user a.before a.operation targetID changed ∧
            a.after = withAudit (a.operation.auditRow a.user targetID) changed) ∧
          ∀ e, a.result = .error e →
            a.auditRow = none ∧ a.adjustment = none ∧ a.after = a.before := by
  obtain ⟨hlog, hadjustments⟩ := administer_records requests db
  refine ⟨hlog, hadjustments, fun a _ => ⟨fun db' hresult => ?_, fun e hresult => ?_⟩⟩
  · obtain ⟨hadmin, targetID, changed, htarget, heffect, rfl⟩ := run_eq_ok hresult
    refine ⟨hadmin, targetID, changed, htarget, ?_, heffect, Attempt.after_of_ok hresult⟩
    rw [Attempt.auditRow, hresult, htarget]
    rfl
  · refine ⟨?_, ?_, Attempt.after_of_error hresult⟩
    · rw [Attempt.auditRow, hresult]
    · rw [Attempt.adjustment, hresult]

end Sequence

end Nuvonode.Contract
