/-
  Database/Records.lean --- the rows with the columns that only the dashboard reads.

  From `database/migrations/000001_init.up.sql`.  `Database/Schema` leaves out the
  columns that only order or fill a listing; here the tables that the dashboard
  lists have them.  `Records.db` forgets them again, and is the database that every
  statement of `Repository` works on.
-/
import Nuvonode.Database.Schema

set_option autoImplicit false

namespace Nuvonode.Database

open Nuvonode.Foundation

inductive TrustLevel where
  | community | verified | managed
  deriving DecidableEq

inductive UsageStatus where
  | settled | corrected
  deriving DecidableEq

/-- A project with the time of its creation, in microseconds as all of these. -/
structure ListedProject extends ProjectRow where
  createdAt : Nat
  deriving DecidableEq

structure ListedKey extends APIKeyRow where
  createdAt : Nat
  deriving DecidableEq

structure ListedEntry extends LedgerRow where
  publicID : String
  createdAt : Nat
  deriving DecidableEq

structure ListedProvider extends ProviderRow where
  regionHint : Option String
  trustLevel : TrustLevel
  allowAutoModelPull : Bool
  tokenPrefix : Option String
  createdAt : Nat
  deriving DecidableEq

structure ListedUsage extends UsageRow where
  publicID : String
  status : UsageStatus
  createdAt : Nat
  deriving DecidableEq

/-- The database as the dashboard sees it. -/
structure Records where
  users : List UserRow
  wallets : List WalletRow
  walletLedger : List ListedEntry
  projects : List ListedProject
  apiKeys : List ListedKey
  providers : List ListedProvider
  instances : List InstanceRow
  advertisements : List AdvertisementRow
  models : List ModelRow
  modelVersions : List ModelVersionRow
  inferenceJobs : List JobRow
  usageRecords : List ListedUsage
  providerStats : List StatsRow
  auditLog : List AuditRow
  hardwareReports : List HardwareReportRow
  deriving DecidableEq

namespace Records

/-- The tables without the columns of the listings. -/
def db (s : Records) : DB where
  users := s.users
  wallets := s.wallets
  walletLedger := s.walletLedger.map ListedEntry.toLedgerRow
  providers := s.providers.map ListedProvider.toProviderRow
  inferenceJobs := s.inferenceJobs
  usageRecords := s.usageRecords.map ListedUsage.toUsageRow
  providerStats := s.providerStats
  auditLog := s.auditLog
  catalog :=
    { projects := s.projects.map ListedProject.toProjectRow
      apiKeys := s.apiKeys.map ListedKey.toAPIKeyRow
      models := s.models
      modelVersions := s.modelVersions
      instances := s.instances
      advertisements := s.advertisements
      hardwareReports := s.hardwareReports }

/-- The constraints of the tables that the dashboard reads: primary keys, `UNIQUE` columns and
the references along which rows are owned. -/
structure Constraints (s : Records) : Prop where
  users_id : Table.Unique UserRow.id s.users
  users_publicID : Table.Unique UserRow.publicID s.users
  projects_id : Table.Unique (fun row => row.id) s.projects
  projects_publicID : Table.Unique (fun row => row.publicID) s.projects
  apiKeys_id : Table.Unique (fun row => row.id) s.apiKeys
  apiKeys_publicID : Table.Unique (fun row => row.publicID) s.apiKeys
  apiKeys_keyHash : Table.Unique (fun row => row.keyHash) s.apiKeys
  apiKeys_project : ∀ key ∈ s.apiKeys, ∃ project ∈ s.projects, project.id = key.projectID
  wallets_id : Table.Unique WalletRow.id s.wallets
  wallets_owner : Table.Unique DB.walletOwner s.wallets
  walletLedger_publicID : Table.Unique (fun row => row.publicID) s.walletLedger
  providers_id : Table.Unique (fun row => row.id) s.providers
  instances_id : Table.Unique InstanceRow.id s.instances
  advertisements_id : Table.Unique AdvertisementRow.id s.advertisements
  models_id : Table.Unique ModelRow.id s.models
  inferenceJobs_id : Table.Unique JobRow.id s.inferenceJobs
  usageRecords_publicID : Table.Unique (fun row => row.publicID) s.usageRecords
  usageRecords_project : ∀ usage ∈ s.usageRecords, ∃ project ∈ s.projects,
    project.id = usage.projectID

end Records

end Nuvonode.Database
