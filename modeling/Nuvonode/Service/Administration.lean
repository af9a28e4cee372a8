/-
  Service/Administration.lean --- the operations of an administrator that are audited.

  From the `AdminService` of `service/services.go`.  An operation is one statement, or
  one transaction for a wallet, so that one that fails leaves the database as it was.
-/
import Nuvonode.Service.Effects
import Nuvonode.Service.Management

set_option autoImplicit false

namespace Nuvonode.Service

open Nuvonode.Foundation Nuvonode.Database Nuvonode.Repository

/-- `AdminService.AdjustWallet`. -/
def adminAdjustWallet (user : UserRow) (targetUserPublicID : String) (amount : Int64)
    (reason : String) (db : DB) : Except Err (WalletRow × DB) :=
  adminOnly user ((adminAdjust user.id targetUserPublicID amount reason).exec db)

/-- A request to the `AdminService` that changes something; a generated id is in it. -/
inductive AdminOperation where
  | createModel (id : UUID) (publicID : String) (input : ModelInput)
  | updateModel (modelPublicID : String) (patch : ModelPatch)
  | pauseModel (modelPublicID : String)
  | setProviderApproval (providerPublicID status : String)
  | disableProvider (providerPublicID : String)
  | setAdvertisementStatus (publicID status : String)
  | adjustWallet (targetUserPublicID : String) (amount : Int64) (reason : String)
  deriving DecidableEq

namespace AdminOperation

/-- What an operation of a user returns. -/
def run (user : UserRow) (db : DB) : AdminOperation → Except Err DB
  | .createModel id publicID input => (adminCreateModel id publicID user input db).map Prod.snd
  | .updateModel modelPublicID patch => (adminUpdateModel user modelPublicID patch db).map Prod.snd
  | .pauseModel modelPublicID => adminPauseModel user modelPublicID db
  | .setProviderApproval providerPublicID status =>
      adminSetProviderApproval user providerPublicID status db
  | .disableProvider providerPublicID => adminDisableProvider user providerPublicID db
  | .setAdvertisementStatus publicID status => adminSetAdvertisementStatus user publicID status db
  | .adjustWallet targetUserPublicID amount reason =>
      (adminAdjustWallet user targetUserPublicID amount reason db).map Prod.snd

/-- The database after an operation; one that fails is rolled back. -/
def apply (user : UserRow) (db : DB) (op : AdminOperation) : DB :=
  match op.run user db with
  | .ok db' => db'
  | .error _ => db

/-- The `action` of its audit row. -/
def action : AdminOperation → String
  | .createModel .. => "model_created"
  | .updateModel .. => "model_updated"
  | .pauseModel .. => "model_paused"
  | .setProviderApproval _ status => "provider_" ++ status
  | .disableProvider .. => "provider_disabled"
  | .setAdvertisementStatus _ status => "provider_model_advertisement_" ++ status
  | .adjustWallet .. => "wallet_admin_adjustment"

/-- The `target_type` of its audit row. -/
def targetType : AdminOperation → String
  | .createModel .. | .updateModel .. | .pauseModel .. => "model"
  | .setProviderApproval .. | .disableProvider .. => "provider"
  | .setAdvertisementStatus .. => "provider_model_advertisement"
  | .adjustWallet .. => "wallet"

/-- The row that an operation is about. -/
def target (db : DB) : AdminOperation → Option UUID
  | .createModel id _ _ => some id
  | .updateModel modelPublicID _ | .pauseModel modelPublicID =>
      (Table.select ModelRow.publicID db.catalog.models modelPublicID).map ModelRow.id
  | .setProviderApproval providerPublicID _ | .disableProvider providerPublicID =>
      (Table.select ProviderRow.publicID db.providers providerPublicID).map ProviderRow.id
  | .setAdvertisementStatus publicID _ =>
      (Table.select AdvertisementRow.publicID db.catalog.advertisements publicID).map
        AdvertisementRow.id
  | .adjustWallet targetUserPublicID _ _ =>
      (Table.select UserRow.publicID db.users targetUserPublicID).bind fun user =>
        db.walletOf (.user, user.id)

/-- The audit row of an operation of a user on a row. -/
def auditRow (user : UserRow) (op : AdminOperation) (targetID : UUID) : AuditRow :=
  { actorUserID := user.id, action := op.action, targetType := op.targetType, targetID }

/-- The wallet and the amount of an adjustment. -/
def adjusts (targetID : UUID) : AdminOperation → Option (UUID × Int64)
  | .adjustWallet _ amount _ => some (targetID, amount)
  | _ => none

end AdminOperation

/-! ## What an operation is for -/

/-- The effect of an operation of a user on a row, without its audit row. -/
inductive AdminEffect (user : UserRow) (db : DB) : AdminOperation → UUID → DB → Prop where
  | createModel {id : UUID} {publicID : String} {input : ModelInput} {row : ModelRow} :
      (normalizeModelInput input).row id publicID = .ok row →
      AdminEffect user db (.createModel id publicID input) id
        { db with catalog := { db.catalog with models := Table.insert db.catalog.models row } }
  | updateModel {modelPublicID : String} {patch : ModelPatch} {old row : ModelRow} :
      modelByPublicID modelPublicID db = .ok old →
      (normalizeModelPatch patch).update old = .ok row →
      AdminEffect user db (.updateModel modelPublicID patch) old.id
        { db with catalog := { db.catalog with
          models := Table.update ModelRow.id db.catalog.models old.id fun _ => row } }
  | pauseModel {modelPublicID : String} {old : ModelRow} :
      modelByPublicID modelPublicID db = .ok old →
      AdminEffect user db (.pauseModel modelPublicID) old.id
        { db with catalog := { db.catalog with
          models := Table.update ModelRow.id db.catalog.models old.id
            fun row => { row with status := .paused } } }
  | setProviderApproval {providerPublicID status : String} {approval : ApprovalStatus}
      {row : ProviderRow} :
      decisionOf status = some approval →
      Table.select ProviderRow.publicID db.providers providerPublicID = some row →
      AdminEffect user db (.setProviderApproval providerPublicID status) row.id
        { db with
          providers := Table.update ProviderRow.id db.providers row.id
            (fun row => { row with approvalStatus := approval }) }
  | disableProvider {providerPublicID : String} {row : ProviderRow} :
      Table.select ProviderRow.publicID db.providers providerPublicID = some row →
      AdminEffect user db (.disableProvider providerPublicID) row.id
        { db with
          providers := Table.update ProviderRow.id db.providers row.id
            (fun row => { row with status := .disabled })
          catalog := { db.catalog with
            instances := Table.update InstanceRow.providerID db.catalog.instances row.id
              (fun row => { row with status := .offline }) } }
  | setAdvertisementStatus {publicID status : String} {newStatus : AdvertisementStatus}
      {row : AdvertisementRow} :
      advertisementStatusOf status = some newStatus →
      Table.select AdvertisementRow.publicID db.catalog.advertisements publicID = some row →
      AdminEffect user db (.setAdvertisementStatus publicID status) row.id
        { db with catalog := { db.catalog with
          advertisements := Table.update AdvertisementRow.publicID db.catalog.advertisements
            publicID fun row => { row with status := newStatus } } }
  | adjustWallet {targetUserPublicID reason : String} {amount : Int64} {walletID : UUID}
      {db' : DB} :
      (AdminOperation.adjustWallet targetUserPublicID amount reason).target db = some walletID →
      Posted walletID .adminAdjustment amount 0 ("admin_adjustment: " ++ trimSpace reason)
        (some user.id) db db' →
      AdminEffect user db (.adjustWallet targetUserPublicID amount reason) walletID db'

end Nuvonode.Service
