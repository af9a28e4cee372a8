/-
  Database/Schema.lean --- the tables, from `database/migrations/000001_init.up.sql`.

  A table is the list of its rows.  A row keeps the columns that some modelled
  statement reads or writes; timestamps that only order a listing, generated
  public ids that nothing looks up and JSON metadata are left out.  A `BIGINT`
  amount of credits is an `Int64`, so that what the service computes in Go's
  `int64` can be stored and nothing else can; a counter of jobs is a natural
  number; a `NUMERIC` is a rational.  `CHECK (... IN (...))` columns are the
  inductive types below.
-/
import Nuvonode.Foundation.Table
import Mathlib.Data.Rat.Defs

set_option autoImplicit false

namespace Nuvonode.Database

/-- A `UUID` primary key.  Keys are only compared. -/
abbrev UUID : Type := Nat

inductive Role where
  | user | admin
  deriving DecidableEq

inductive OwnerType where
  | user | project | provider
  deriving DecidableEq

inductive EntryType where
  | grant | reserve | releaseReserve | debitUsage | creditProviderReward
  | adminAdjustment | refund
  deriving DecidableEq

inductive ApprovalStatus where
  | pending | approved | rejected
  deriving DecidableEq

inductive AccountStatus where
  | active | disabled
  deriving DecidableEq

inductive InstanceStatus where
  | online | offline | busy | draining
  deriving DecidableEq

inductive AdvertisementStatus where
  | pending | approved | rejected | disabled
  deriving DecidableEq

inductive ModelStatus where
  | active | paused | deprecated
  deriving DecidableEq

inductive Modality where
  | text | embedding | image | audio
  deriving DecidableEq

inductive ProjectStatus where
  | active | paused | disabled
  deriving DecidableEq

inductive APIKeyStatus where
  | active | revoked
  deriving DecidableEq

inductive JobStatus where
  | queued | dispatched | running | succeeded | failed | timedOut | cancelled
  deriving DecidableEq

inductive TokenSource where
  | runtimeReported | serverEstimated
  deriving DecidableEq

structure UserRow where
  id : UUID
  publicID : String
  email : String
  passwordHash : String
  displayName : String
  role : Role
  status : AccountStatus
  deleted : Bool
  deriving DecidableEq

structure WalletRow where
  id : UUID
  ownerType : OwnerType
  ownerID : UUID
  balanceCredits : Int64
  reservedCredits : Int64
  deriving DecidableEq

structure LedgerRow where
  walletID : UUID
  entryType : EntryType
  amountCredits : Int64
  reservedDelta : Int64
  balanceAfter : Int64
  reservedAfter : Int64
  reason : String
  createdBy : Option UUID
  deriving DecidableEq

structure ProviderRow where
  id : UUID
  publicID : String
  ownerUserID : UUID
  walletID : Option UUID
  name : String
  approvalStatus : ApprovalStatus
  status : AccountStatus
  tokenHash : String
  deleted : Bool
  deriving DecidableEq

structure InstanceRow where
  id : UUID
  publicID : String
  providerID : UUID
  instanceKey : String
  hostname : String
  os : String
  arch : String
  appVersion : String
  status : InstanceStatus
  lastHeartbeatAt : Option Nat
  currentJobID : Option UUID
  deriving DecidableEq

structure ProjectRow where
  id : UUID
  publicID : String
  ownerUserID : UUID
  name : String
  status : ProjectStatus
  monthlyCreditLimit : Option Int64
  currentMonthSpend : Int64
  spendPeriod : String
  deleted : Bool
  deriving DecidableEq

structure APIKeyRow where
  id : UUID
  publicID : String
  projectID : UUID
  name : String
  keyPrefix : String
  keyHash : String
  status : APIKeyStatus
  lastUsedAt : Option Nat
  revokedAt : Option Nat
  deriving DecidableEq

structure ModelRow where
  id : UUID
  publicID : String
  slug : String
  displayName : String
  description : String
  family : String
  modality : Modality
  status : ModelStatus
  contextLength : Int
  defaultMaxOutputTokens : Int
  inputCreditPer1K : Int64
  outputCreditPer1K : Int64
  providerRewardRatio : Rat
  minVRAMMB : Int
  recommendedVRAMMB : Int
  licenseName : String
  licenseURL : Option String
  licenseNotes : String
  communityAllowed : Bool
  externalOnly : Bool
  deleted : Bool
  deriving DecidableEq

structure ModelVersionRow where
  id : UUID
  modelID : UUID
  runtime : String
  runtimeModelName : String
  status : ModelStatus
  deriving DecidableEq

structure HardwareReportRow where
  providerInstanceID : UUID
  cpuModel : String
  ramMB : Int
  gpuName : String
  gpuVRAMMB : Int
  gpuDriver : String
  deriving DecidableEq

structure AdvertisementRow where
  id : UUID
  publicID : String
  providerID : UUID
  providerInstanceID : UUID
  modelID : Option UUID
  modelVersionID : Option UUID
  runtime : String
  runtimeModelName : String
  localDigest : String
  status : AdvertisementStatus
  deriving DecidableEq

structure JobRow where
  id : UUID
  publicID : String
  projectID : UUID
  userID : UUID
  apiKeyID : UUID
  modelID : UUID
  modelVersionID : UUID
  providerID : Option UUID
  providerInstanceID : Option UUID
  status : JobStatus
  requestID : String
  estimatedInputTokens : Int
  estimatedOutputTokens : Int
  reservedCredits : Int64
  actualCostCredits : Int64
  providerRewardCredits : Int64
  errorCode : Option String
  errorMessage : Option String
  deriving DecidableEq

structure UsageRow where
  jobID : UUID
  projectID : UUID
  userID : UUID
  modelID : UUID
  providerID : UUID
  providerInstanceID : UUID
  inputTokens : Int
  outputTokens : Int
  totalTokens : Int
  tokenSource : TokenSource
  costCredits : Int64
  providerRewardCredits : Int64
  latencyMS : Int
  deriving DecidableEq

structure StatsRow where
  providerID : UUID
  totalJobs : Nat
  succeededJobs : Nat
  failedJobs : Nat
  timeoutJobs : Nat
  avgLatencyMS : Option Rat
  successRate : Rat
  trustScore : Rat
  deriving DecidableEq

structure AuditRow where
  actorUserID : UUID
  action : String
  targetType : String
  targetID : UUID
  deriving DecidableEq

/-- The tables that no wallet transaction writes. -/
structure Catalog where
  projects : List ProjectRow
  apiKeys : List APIKeyRow
  models : List ModelRow
  modelVersions : List ModelVersionRow
  instances : List InstanceRow
  advertisements : List AdvertisementRow
  hardwareReports : List HardwareReportRow
  deriving DecidableEq

/-! ## What the catalog keeps -/

/-- Whether every row of one table still has a row with its id in another. -/
def keepsIDs {ρ : Type} (id : ρ → UUID) (rows rows' : List ρ) : Bool :=
  rows.all fun row => rows'.any fun row' => id row' == id row

/-- Whether a catalog can follow another: no statement deletes a row. -/
def catalogFollows (old new : Catalog) : Bool :=
  keepsIDs ProjectRow.id old.projects new.projects &&
  keepsIDs APIKeyRow.id old.apiKeys new.apiKeys &&
  keepsIDs ModelRow.id old.models new.models &&
  keepsIDs ModelVersionRow.id old.modelVersions new.modelVersions &&
  keepsIDs InstanceRow.id old.instances new.instances

theorem any_of_keepsIDs {ρ : Type} {id : ρ → UUID} {rows rows' : List ρ} {k : UUID}
    (h : keepsIDs id rows rows' = true) (hany : (rows.any fun row => id row == k) = true) :
    (rows'.any fun row => id row == k) = true := by
  obtain ⟨row, hrow, hid⟩ := List.any_eq_true.mp hany
  obtain ⟨row', hrow', hid'⟩ := List.any_eq_true.mp (List.all_eq_true.mp h row hrow)
  exact List.any_eq_true.mpr ⟨row', hrow', by simp_all⟩

theorem keepsIDs_refl {ρ : Type} (id : ρ → UUID) (rows : List ρ) : keepsIDs id rows rows = true :=
  List.all_eq_true.mpr fun row hrow => List.any_eq_true.mpr ⟨row, hrow, beq_self_eq_true _⟩

/-- An update of other columns keeps the ids. -/
theorem keepsIDs_update {ρ κ : Type} [DecidableEq κ] {id : ρ → UUID} {key : ρ → κ}
    {rows : List ρ} {k : κ} {change : ρ → ρ} (hkeeps : ∀ row, id (change row) = id row) :
    keepsIDs id rows (Foundation.Table.update key rows k change) = true := by
  refine List.all_eq_true.mpr fun row hrow => List.any_eq_true.mpr
    ⟨if key row = k then change row else row, Foundation.Table.mem_update.mpr ⟨row, hrow, rfl⟩, ?_⟩
  split
  · rw [hkeeps]
    exact beq_self_eq_true _
  · exact beq_self_eq_true _

theorem keepsIDs_insert {ρ : Type} {id : ρ → UUID} {rows : List ρ} {row : ρ} :
    keepsIDs id rows (Foundation.Table.insert rows row) = true :=
  List.all_eq_true.mpr fun old hold => List.any_eq_true.mpr
    ⟨old, List.mem_append_left _ hold, beq_self_eq_true _⟩

theorem catalogFollows_refl (catalog : Catalog) : catalogFollows catalog catalog = true := by
  simp only [catalogFollows, keepsIDs_refl, Bool.and_self]

/-- The database. -/
structure DB where
  users : List UserRow
  wallets : List WalletRow
  walletLedger : List LedgerRow
  providers : List ProviderRow
  inferenceJobs : List JobRow
  usageRecords : List UsageRow
  providerStats : List StatsRow
  auditLog : List AuditRow
  catalog : Catalog
  deriving DecidableEq

namespace DB

open Nuvonode.Foundation

/-- A wallet by its primary key. -/
def wallet (db : DB) (id : UUID) : Option WalletRow :=
  Table.select WalletRow.id db.wallets id

/-- The owner columns of a wallet, unique together. -/
def walletOwner (row : WalletRow) : OwnerType × UUID := (row.ownerType, row.ownerID)

/-- The wallet of an owner. -/
def walletOf (db : DB) (owner : OwnerType × UUID) : Option UUID :=
  (Table.select walletOwner db.wallets owner).map WalletRow.id

/-- A user by its primary key. -/
def user (db : DB) (id : UUID) : Option UserRow := Table.select UserRow.id db.users id

/-- A provider by its primary key. -/
def provider (db : DB) (id : UUID) : Option ProviderRow :=
  Table.select ProviderRow.id db.providers id

/-- A job by its primary key. -/
def job (db : DB) (id : UUID) : Option JobRow := Table.select JobRow.id db.inferenceJobs id

/-- The usage record of a job. -/
def usage (db : DB) (jobID : UUID) : Option UsageRow :=
  Table.select UsageRow.jobID db.usageRecords jobID

/-- The statistics of a provider. -/
def stats (db : DB) (providerID : UUID) : Option StatsRow :=
  Table.select StatsRow.providerID db.providerStats providerID

/-- A database with nothing in it but a catalog. -/
def seeded (catalog : Catalog) : DB where
  users := []
  wallets := []
  walletLedger := []
  providers := []
  inferenceJobs := []
  usageRecords := []
  providerStats := []
  auditLog := []
  catalog := catalog

end DB

end Nuvonode.Database
