/-
  Database/Store.lean --- the database as a store of lockable rows.

  A lock is on a row, named by its primary key, or on an entry of a unique index.
  The writes are the `INSERT` and `UPDATE` statements of the service that run
  inside a wallet transaction; nothing is ever deleted.  `wallet_ledger` and
  `audit_log` are insert-only and no transaction looks a row of them up, so
  inserting there locks nothing.
-/
import Nuvonode.Foundation.Transaction
import Nuvonode.Database.Schema

set_option autoImplicit false

namespace Nuvonode.Database

open Nuvonode.Foundation

/-- What can be locked. -/
inductive RowKey where
  | wallet (id : UUID)
  | walletOwner (owner : OwnerType × UUID)
  | user (id : UUID)
  | userEmail (email : String)
  | userPublicID (publicID : String)
  | provider (id : UUID)
  | providerPublicID (publicID : String)
  | providerToken (tokenHash : String)
  | job (id : UUID)
  | jobPublicID (publicID : String)
  | usage (jobID : UUID)
  | stats (providerID : UUID)
  deriving DecidableEq

/-- What a locked read returns: the row, or the primary key an index entry leads to. -/
def RowKey.Row : RowKey → Type
  | .wallet _ => Option WalletRow
  | .walletOwner _ => Option UUID
  | .user _ => Option UserRow
  | .userEmail _ => Option UUID
  | .userPublicID _ => Option UUID
  | .provider _ => Option ProviderRow
  | .providerPublicID _ => Option UUID
  | .providerToken _ => Option UUID
  | .job _ => Option JobRow
  | .jobPublicID _ => Option UUID
  | .usage _ => Option UsageRow
  | .stats _ => Option StatsRow

/-- The latest version under a key. -/
def DB.get (db : DB) : (k : RowKey) → k.Row
  | .wallet id => db.wallet id
  | .walletOwner owner => db.walletOf owner
  | .user id => db.user id
  | .userEmail email => (Table.select UserRow.email db.users email).map UserRow.id
  | .userPublicID publicID => (Table.select UserRow.publicID db.users publicID).map UserRow.id
  | .provider id => db.provider id
  | .providerPublicID publicID =>
      (Table.select ProviderRow.publicID db.providers publicID).map ProviderRow.id
  | .providerToken tokenHash =>
      (Table.select ProviderRow.tokenHash db.providers tokenHash).map ProviderRow.id
  | .job id => db.job id
  | .jobPublicID publicID =>
      (Table.select JobRow.publicID db.inferenceJobs publicID).map JobRow.id
  | .usage jobID => db.usage jobID
  | .stats providerID => db.stats providerID

/-- The writes of the wallet transactions. -/
inductive DbWrite where
  | insertUser (row : UserRow)
  | insertWallet (row : WalletRow)
  | setWallet (id : UUID) (balance reserved : Int64)
  | insertLedger (row : LedgerRow)
  | insertProvider (row : ProviderRow)
  | setProviderWallet (id walletID : UUID)
  | insertJob (row : JobRow)
  | dispatchJob (id : UUID)
  | failJob (id : UUID) (status : JobStatus) (code message : String)
  | settleJob (id : UUID) (cost reward : Int64)
  | insertUsage (row : UsageRow)
  | putStats (row : StatsRow)
  | insertAudit (row : AuditRow)

/-- `UPDATE inference_jobs SET status='dispatched'`. -/
def JobRow.dispatch (job : JobRow) : JobRow := { job with status := .dispatched }

/-- `UPDATE inference_jobs SET status=$2, error_code=$3, error_message=$4`. -/
def JobRow.fail (status : JobStatus) (code message : String) (job : JobRow) : JobRow :=
  { job with status := status, errorCode := some code, errorMessage := some message }

/-- `UPDATE inference_jobs SET status='succeeded', actual_cost_credits=$2,
provider_reward_credits=$3`. -/
def JobRow.settle (cost reward : Int64) (job : JobRow) : JobRow :=
  { job with
    status := .succeeded, actualCostCredits := cost, providerRewardCredits := reward }

/-- `UPDATE wallets SET balance_credits=$1, reserved_credits=$2`. -/
def WalletRow.set (balance reserved : Int64) (row : WalletRow) : WalletRow :=
  { row with balanceCredits := balance, reservedCredits := reserved }

/-- `UPDATE providers SET wallet_id=$1`. -/
def ProviderRow.setWallet (walletID : UUID) (row : ProviderRow) : ProviderRow :=
  { row with walletID := some walletID }

/-- Perform a write. -/
def DB.apply (db : DB) : DbWrite → DB
  | .insertUser row => { db with users := Table.insert db.users row }
  | .insertWallet row => { db with wallets := Table.insert db.wallets row }
  | .setWallet id balance reserved =>
      { db with wallets :=
          Table.update WalletRow.id db.wallets id (WalletRow.set balance reserved) }
  | .insertLedger row => { db with walletLedger := Table.insert db.walletLedger row }
  | .insertProvider row => { db with providers := Table.insert db.providers row }
  | .setProviderWallet id walletID =>
      { db with providers :=
          Table.update ProviderRow.id db.providers id (ProviderRow.setWallet walletID) }
  | .insertJob row => { db with inferenceJobs := Table.insert db.inferenceJobs row }
  | .dispatchJob id =>
      { db with inferenceJobs :=
          Table.update JobRow.id db.inferenceJobs id JobRow.dispatch }
  | .failJob id status code message =>
      { db with inferenceJobs :=
          Table.update JobRow.id db.inferenceJobs id (JobRow.fail status code message) }
  | .settleJob id cost reward =>
      { db with inferenceJobs :=
          Table.update JobRow.id db.inferenceJobs id (JobRow.settle cost reward) }
  | .insertUsage row => { db with usageRecords := Table.insert db.usageRecords row }
  | .putStats row =>
      { db with providerStats := Table.upsert StatsRow.providerID db.providerStats row }
  | .insertAudit row => { db with auditLog := Table.insert db.auditLog row }

/-- What a write locks. -/
def DbWrite.touches : DbWrite → List RowKey
  | .insertUser row => [.user row.id, .userEmail row.email, .userPublicID row.publicID]
  | .insertWallet row => [.wallet row.id, .walletOwner (DB.walletOwner row)]
  | .setWallet id _ _ => [.wallet id]
  | .insertLedger _ => []
  | .insertProvider row =>
      [.provider row.id, .providerPublicID row.publicID, .providerToken row.tokenHash]
  | .setProviderWallet id _ => [.provider id]
  | .insertJob row => [.job row.id, .jobPublicID row.publicID]
  | .dispatchJob id => [.job id]
  | .failJob id _ _ _ => [.job id]
  | .settleJob id _ _ => [.job id]
  | .insertUsage row => [.usage row.jobID]
  | .putStats row => [.stats row.providerID]
  | .insertAudit _ => []

theorem DB.stats_putStats (db : DB) (row : StatsRow) (id : UUID) :
    (db.apply (.putStats row)).stats id =
      if row.providerID = id then some row else db.stats id :=
  Table.select_upsert

/-! ## The laws of the store -/

section Laws

variable {ρ κ κ' : Type} [DecidableEq κ] [DecidableEq κ'] {key : ρ → κ} {key' : ρ → κ'}
  {rows rows' : List ρ} {k : κ} {c : κ'} {row : ρ}

/-- An index entry is not moved by an update of other columns. -/
theorem map_select_update {α : Type} {column : ρ → α} {change : ρ → ρ}
    (hkey : ∀ row, key' (change row) = key' row)
    (hcolumn : ∀ row, column (change row) = column row) :
    (Table.select key' (Table.update key rows k change) c).map column =
      (Table.select key' rows c).map column := by
  rw [Table.select_update hkey]
  cases Table.select key' rows c with
  | none => rfl
  | some row =>
      by_cases hrow : key row = k <;> simp [hrow, hcolumn]

theorem select_insert_congr (h : Table.select key rows k = Table.select key rows' k) :
    Table.select key (Table.insert rows row) k =
      Table.select key (Table.insert rows' row) k := by
  rw [Table.select_insert, Table.select_insert, h]

theorem map_select_insert_congr {α : Type} {column : ρ → α}
    (h : (Table.select key rows k).map column = (Table.select key rows' k).map column) :
    (Table.select key (Table.insert rows row) k).map column =
      (Table.select key (Table.insert rows' row) k).map column := by
  rw [Table.select_insert, Table.select_insert, Option.map_or, Option.map_or, h]

theorem select_update_congr {change : ρ → ρ} {k' : κ}
    (hkeeps : ∀ row, key (change row) = key row)
    (h : Table.select key rows k' = Table.select key rows' k') :
    Table.select key (Table.update key rows k change) k' =
      Table.select key (Table.update key rows' k change) k' := by
  rw [Table.select_update hkeeps, Table.select_update hkeeps, h]

end Laws

theorem DB.get_apply_of_not_mem (db : DB) (w : DbWrite) (k : RowKey)
    (h : k ∉ w.touches) : (db.apply w).get k = db.get k := by
  cases w <;> cases k <;>
    simp only [DbWrite.touches, List.mem_cons, RowKey.user.injEq, RowKey.userEmail.injEq,
      RowKey.userPublicID.injEq, RowKey.wallet.injEq, RowKey.walletOwner.injEq,
      RowKey.provider.injEq, RowKey.providerPublicID.injEq, RowKey.providerToken.injEq,
      RowKey.job.injEq, RowKey.jobPublicID.injEq, RowKey.usage.injEq,
      RowKey.stats.injEq, reduceCtorEq, List.not_mem_nil, or_false, false_or,
      not_false_eq_true] at h <;>
    simp only [DB.get, DB.apply, DB.wallet, DB.walletOf, DB.user, DB.provider, DB.job, DB.usage,
      DB.stats]
  case insertUser.user => exact Table.select_insert_of_ne (Ne.symm h)
  case insertUser.userEmail => rw [Table.select_insert_of_ne (Ne.symm h)]
  case insertUser.userPublicID => rw [Table.select_insert_of_ne (Ne.symm h)]
  case insertWallet.wallet => exact Table.select_insert_of_ne (Ne.symm h)
  case insertWallet.walletOwner => rw [Table.select_insert_of_ne (Ne.symm h)]
  case setWallet.wallet => exact Table.select_update_of_ne (fun _ => rfl) h
  case setWallet.walletOwner => exact map_select_update (fun _ => rfl) (fun _ => rfl)
  case insertProvider.provider => exact Table.select_insert_of_ne (Ne.symm h)
  case insertProvider.providerPublicID => rw [Table.select_insert_of_ne (Ne.symm h)]
  case insertProvider.providerToken => rw [Table.select_insert_of_ne (Ne.symm h)]
  case setProviderWallet.provider => exact Table.select_update_of_ne (fun _ => rfl) h
  case setProviderWallet.providerPublicID => exact map_select_update (fun _ => rfl) (fun _ => rfl)
  case setProviderWallet.providerToken => exact map_select_update (fun _ => rfl) (fun _ => rfl)
  case insertJob.job => exact Table.select_insert_of_ne (Ne.symm h)
  case insertJob.jobPublicID => rw [Table.select_insert_of_ne (Ne.symm h)]
  case dispatchJob.job => exact Table.select_update_of_ne (fun _ => rfl) h
  case dispatchJob.jobPublicID => exact map_select_update (fun _ => rfl) (fun _ => rfl)
  case failJob.job => exact Table.select_update_of_ne (fun _ => rfl) h
  case failJob.jobPublicID => exact map_select_update (fun _ => rfl) (fun _ => rfl)
  case settleJob.job => exact Table.select_update_of_ne (fun _ => rfl) h
  case settleJob.jobPublicID => exact map_select_update (fun _ => rfl) (fun _ => rfl)
  case insertUsage.usage => exact Table.select_insert_of_ne (Ne.symm h)
  case putStats.stats => rw [Table.select_upsert, if_neg (Ne.symm h)]
  all_goals rfl

theorem DB.get_apply_congr (db db' : DB) (w : DbWrite) (k : RowKey)
    (h : db.get k = db'.get k) : (db.apply w).get k = (db'.apply w).get k := by
  by_cases hmem : k ∈ w.touches
  · cases w <;> cases k <;>
      simp only [DbWrite.touches, List.mem_cons, reduceCtorEq, List.not_mem_nil,
        or_false, false_or] at hmem <;>
      simp only [DB.get, DB.apply, DB.wallet, DB.walletOf, DB.user, DB.provider, DB.job,
        DB.usage, DB.stats] at h ⊢
    case insertUser.user => exact select_insert_congr h
    case insertUser.userEmail => exact map_select_insert_congr h
    case insertUser.userPublicID => exact map_select_insert_congr h
    case insertWallet.wallet => exact select_insert_congr h
    case insertWallet.walletOwner => exact map_select_insert_congr h
    case setWallet.wallet => exact select_update_congr (fun _ => rfl) h
    case insertProvider.provider => exact select_insert_congr h
    case insertProvider.providerPublicID => exact map_select_insert_congr h
    case insertProvider.providerToken => exact map_select_insert_congr h
    case setProviderWallet.provider => exact select_update_congr (fun _ => rfl) h
    case insertJob.job => exact select_insert_congr h
    case insertJob.jobPublicID => exact map_select_insert_congr h
    case dispatchJob.job => exact select_update_congr (fun _ => rfl) h
    case failJob.job => exact select_update_congr (fun _ => rfl) h
    case settleJob.job => exact select_update_congr (fun _ => rfl) h
    case insertUsage.usage => exact select_insert_congr h
    case putStats.stats => rw [Table.select_upsert, Table.select_upsert, h]
  · rw [DB.get_apply_of_not_mem db w k hmem, DB.get_apply_of_not_mem db' w k hmem, h]

/-- The store of the wallet transactions. -/
abbrev store : Store where
  State := DB
  Key := RowKey
  Row := RowKey.Row
  Write := DbWrite
  get := DB.get
  apply := DB.apply
  touches := DbWrite.touches
  get_apply_of_not_mem := DB.get_apply_of_not_mem
  get_apply_congr := DB.get_apply_congr

/-- One more write. -/
theorem applyAll_snoc (db : DB) (ws : List DbWrite) (w : DbWrite) :
    store.applyAll db (ws ++ [w]) = (store.applyAll db ws).apply w := by
  rw [Store.applyAll_append]
  rfl

end Nuvonode.Database
