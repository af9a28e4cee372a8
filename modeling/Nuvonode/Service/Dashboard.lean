/-
  Service/Dashboard.lean --- what a signed-in user asks for and changes.

  From `repository/store.go` and `service/services.go`: the listings of a user's
  projects, keys, ledger, usage and providers, and the operations on projects and
  keys of `Service/Management` with the columns that the listings read.  Every
  listing is one `SELECT ... ORDER BY ... DESC`, so an operation has a set of
  responses.
-/
import Nuvonode.Database.Records
import Nuvonode.Foundation.Query
import Nuvonode.Service.Management

set_option autoImplicit false

namespace Nuvonode.Service

open Nuvonode.Foundation Nuvonode.Database Nuvonode.Repository

/-- `domain.UsageFilter`, with its times in nanoseconds. -/
structure UsageFilter where
  projectPublicID : String
  fromTime : Option Int
  toTime : Option Int
  modelSlug : String
  deriving DecidableEq

/-- `domain.UsageRecord`. -/
structure UsageRecord where
  publicID : String
  jobID : String
  projectID : String
  modelID : String
  modelSlug : String
  providerID : Option String
  providerInstanceID : Option String
  inputTokens : Int
  outputTokens : Int
  totalTokens : Int
  tokenSource : TokenSource
  costCredits : Int64
  latencyMS : Int
  status : UsageStatus
  createdAt : Nat
  deriving DecidableEq

/-- `domain.Project`. -/
structure Project where
  id : UUID
  publicID : String
  ownerUserID : UUID
  name : String
  status : ProjectStatus
  monthlyCreditLimit : Option Int64
  currentMonthSpend : Int64
  spendPeriod : String
  createdAt : Nat
  deriving DecidableEq

/-- `domain.APIKey`. -/
structure APIKey where
  id : UUID
  publicID : String
  projectID : UUID
  name : String
  keyPrefix : String
  status : APIKeyStatus
  createdAt : Nat
  deriving DecidableEq

/-- `domain.LedgerEntry`. -/
structure LedgerEntry where
  publicID : String
  entryType : EntryType
  amountCredits : Int64
  reservedDelta : Int64
  balanceAfter : Int64
  reservedAfter : Int64
  reason : String
  createdAt : Nat
  deriving DecidableEq

/-- `domain.Provider`. -/
structure Provider where
  id : UUID
  publicID : String
  ownerUserID : UUID
  name : String
  regionHint : Option String
  trustLevel : TrustLevel
  approvalStatus : ApprovalStatus
  status : AccountStatus
  allowAutoModelPull : Bool
  tokenPrefix : Option String
  createdAt : Nat
  deriving DecidableEq

/-- `domain.ProviderWithInstance`. -/
structure ProviderWithInstance extends Provider where
  instanceStatus : Option InstanceStatus
  instanceHeartbeat : Option Nat
  modelNames : List String
  deriving DecidableEq

/-! ## The columns that are selected -/

def projectColumns (row : ListedProject) : Project :=
  { row with }

def apiKeyColumns (row : ListedKey) : APIKey :=
  { row with }

def ledgerColumns (row : ListedEntry) : LedgerEntry :=
  { row with }

def providerColumns (row : ListedProvider) : Provider :=
  { row with }

/-! ## The statements -/

/-- `Store.WalletByOwner`, of a user. -/
def walletByOwner (ownerPublicID : String) (s : Records) : Except Err WalletRow :=
  if storable ownerPublicID then
    (do
      let user ← Table.select UserRow.publicID s.users ownerPublicID
      Table.select DB.walletOwner s.wallets (.user, user.id)).elim (.error .notFound) .ok
  else .error .invalidText

/-- `Store.LedgerForWallet`. -/
def ledgerForWallet (walletID : UUID) (s : Records) : Set (List LedgerEntry) :=
  List.map ledgerColumns '' Query.answers ListedEntry.createdAt (some 100)
    (s.walletLedger.filter fun entry => entry.walletID = walletID)

/-- `Store.ProjectsByOwner`. -/
def projectsByOwner (ownerUserID : UUID) (s : Records) : Set (List Project) :=
  List.map projectColumns '' Query.answers ListedProject.createdAt none
    (s.projects.filter fun project => project.ownerUserID = ownerUserID ∧ ¬ project.deleted)

/-- `Store.APIKeysByProject`. -/
def apiKeysByProject (projectID : UUID) (s : Records) : Set (List APIKey) :=
  List.map apiKeyColumns '' Query.answers ListedKey.createdAt none
    (s.apiKeys.filter fun key => key.projectID = projectID)

/-- A usage row with the rows that `Store.UsageByOwner` joins to it. -/
structure JoinedUsage where
  usage : ListedUsage
  job : JobRow
  project : ListedProject
  model : ModelRow
  provider : Option ListedProvider
  instance? : Option InstanceRow

/-- The joins of `Store.UsageByOwner`; only the last two are outer ones. -/
def joinUsage (s : Records) (usage : ListedUsage) : Option JoinedUsage := do
  let job ← Table.select JobRow.id s.inferenceJobs usage.jobID
  let project ← Table.select (fun row => row.id) s.projects usage.projectID
  let model ← Table.select ModelRow.id s.models usage.modelID
  some
    { usage, job, project, model
      provider := Table.select (fun row => row.id) s.providers usage.providerID
      instance? := Table.select InstanceRow.id s.instances usage.providerInstanceID }

/-- The `WHERE` clause of `Store.UsageByOwner`.  A time is stored in microseconds. -/
def UsageFilter.admits (filter : UsageFilter) (ownerUserID : UUID) (row : JoinedUsage) : Bool :=
  row.project.ownerUserID = ownerUserID &&
  (filter.projectPublicID = "" || row.project.publicID = filter.projectPublicID) &&
  filter.fromTime.all (fun time => time / 1000 ≤ (row.usage.createdAt : Int)) &&
  filter.toTime.all (fun time => (row.usage.createdAt : Int) ≤ time / 1000) &&
  (filter.modelSlug = "" || row.model.slug = filter.modelSlug)

/-- The columns that `Store.UsageByOwner` selects. -/
def JoinedUsage.record (row : JoinedUsage) : UsageRecord where
  publicID := row.usage.publicID
  jobID := row.job.publicID
  projectID := row.project.publicID
  modelID := row.model.publicID
  modelSlug := row.model.slug
  providerID := row.provider.map fun provider => provider.publicID
  providerInstanceID := row.instance?.map InstanceRow.publicID
  inputTokens := row.usage.inputTokens
  outputTokens := row.usage.outputTokens
  totalTokens := row.usage.totalTokens
  tokenSource := row.usage.tokenSource
  costCredits := row.usage.costCredits
  latencyMS := row.usage.latencyMS
  status := row.usage.status
  createdAt := row.usage.createdAt

/-- `Store.UsageByOwner`. -/
def usageByOwner (ownerUserID : UUID) (filter : UsageFilter) (s : Records) :
    Except Err (Set (List UsageRecord)) :=
  if storable filter.projectPublicID && storable filter.modelSlug then
    .ok (List.map JoinedUsage.record ''
      Query.answers (fun row => row.usage.createdAt) (some 100)
        ((s.usageRecords.filterMap (joinUsage s)).filter (filter.admits ownerUserID)))
  else .error .invalidText

/-- The rows of `Store.ProvidersByOwner` and of `Store.ProvidersWithInstance`, in their order. -/
def ownedProviders (ownerUserID : UUID) (s : Records) : Set (List ListedProvider) :=
  Query.answers ListedProvider.createdAt none
    (s.providers.filter fun row => row.ownerUserID = ownerUserID ∧ ¬ row.deleted)

/-- `Store.ProvidersByOwner`. -/
def providersByOwner (ownerUserID : UUID) (s : Records) : Set (List Provider) :=
  List.map providerColumns '' ownedProviders ownerUserID s

/-- The instance whose columns `Store.ProvidersWithInstance` shows: one with the latest
heartbeat, and none without a heartbeat while another has one. -/
def latestInstance (providerID : UUID) (s : Records) : Set (List InstanceRow) :=
  Query.answers (fun row => row.lastHeartbeatAt.elim 0 (· + 1)) (some 1)
    (s.instances.filter fun row => row.providerID = providerID)

section Providers

variable (collation : LinearOrder String)

/-- `array_agg(DISTINCT runtime_model_name ORDER BY runtime_model_name)` of the approved
advertisements. -/
def approvedModelNames (providerID : UUID) (s : Records) : List String :=
  let names := (s.advertisements.filter fun row =>
    row.providerID = providerID ∧ row.status = .approved).map AdvertisementRow.runtimeModelName
  names.dedup.insertionSort collation.le

/-- A provider as `Store.ProvidersWithInstance` may show it. -/
def showProvider (s : Records) (provider : ListedProvider) : Set ProviderWithInstance :=
  (fun latest : List InstanceRow =>
    { providerColumns provider with
      instanceStatus := latest.head?.map InstanceRow.status
      instanceHeartbeat := latest.head?.bind InstanceRow.lastHeartbeatAt
      modelNames := approvedModelNames collation provider.id s }) ''
    latestInstance provider.id s

/-- `Store.ProvidersWithInstance`. -/
def providersWithInstance (ownerUserID : UUID) (s : Records) : Set (List ProviderWithInstance) :=
  {shown | ∃ rows ∈ ownedProviders ownerUserID s,
    List.Forall₂ (fun provider item => item ∈ showProvider collation s provider) rows shown}

end Providers

/-! ## The services -/

/-- What an operation draws: the time, a primary key, a public id and a secret. -/
structure Drawn where
  now : Nat
  id : UUID
  publicID : String
  plaintext : String
  keyPrefix : String
  deriving DecidableEq

/-- The filter that `UsageService.List` makes its query with. -/
def UsageFilter.trim (filter : UsageFilter) : UsageFilter :=
  { filter with
    projectPublicID := trimSpace filter.projectPublicID
    modelSlug := trimSpace filter.modelSlug }

/-- `UsageService.List`. -/
def usageList (user : UserRow) (filter : UsageFilter) (s : Records) :
    Except Err (Set (List UsageRecord)) :=
  if filter.fromTime.any fun first => filter.toTime.any (· < first) then .error .invalidInput
  else usageByOwner user.id filter.trim s

/-- `ProjectService.Create`. -/
def createListedProject (drawn : Drawn) (user : UserRow) (name : String) (limit : Option Int64)
    (s : Records) : Except Err (ListedProject × Records) := do
  let (row, _) ← projectCreate drawn.now drawn.id drawn.publicID user name limit s.db
  let project : ListedProject := { row with createdAt := drawn.now }
  .ok (project, { s with projects := Table.insert s.projects project })

/-- `ProjectService.CreateAPIKey`. -/
def createListedKey (P : Platform) (cfg : Config) (drawn : Drawn) (user : UserRow)
    (projectPublicID name : String) (s : Records) : Except Err (ListedKey × Records) := do
  let (row, _) ← projectCreateAPIKey P cfg drawn.id drawn.publicID drawn.plaintext
    drawn.keyPrefix user projectPublicID name s.db
  let key : ListedKey := { row with createdAt := drawn.now }
  .ok (key, { s with apiKeys := Table.insert s.apiKeys key })

/-- What `Store.RevokeAPIKey` does to a row. -/
def ListedKey.revoke (now : Nat) (projectID : UUID) (keyPublicID : String) (key : ListedKey) :
    ListedKey :=
  { key with toAPIKeyRow := APIKeyRow.revoke now projectID keyPublicID key.toAPIKeyRow }

/-- `ProjectService.RevokeAPIKey`. -/
def revokeListedKey (drawn : Drawn) (user : UserRow) (projectPublicID keyPublicID : String)
    (s : Records) : Except Err Records := do
  let project ← projectByPublicIDForOwner user.id projectPublicID s.db
  let _ ← revokeAPIKey drawn.now project.id keyPublicID s.db
  .ok { s with apiKeys := s.apiKeys.map (ListedKey.revoke drawn.now project.id keyPublicID) }

/-! ## The operations -/

inductive DashboardOperation where
  | listProjects
  | createProject (name : String) (limit : Option Int64)
  | listAPIKeys (projectPublicID : String)
  | createAPIKey (projectPublicID name : String)
  | revokeAPIKey (projectPublicID keyPublicID : String)
  | wallet
  | ledger
  | usage (filter : UsageFilter)
  | listProviders
  | providers
  deriving DecidableEq

inductive DashboardResponse where
  | projects (rows : List Project)
  | project (row : Project)
  | apiKeys (rows : List APIKey)
  | apiKey (row : APIKey) (plaintext : String)
  | noContent
  | wallet (row : WalletRow)
  | ledger (rows : List LedgerEntry)
  | usage (rows : List UsageRecord)
  | listedProviders (rows : List Provider)
  | providers (rows : List ProviderWithInstance)
  deriving DecidableEq

/-- The responses that an operation may give, and the database after it. -/
def perform (P : Platform) (cfg : Config) (collation : LinearOrder String) (user : UserRow)
    (drawn : Drawn) (s : Records) :
    DashboardOperation → Except Err (Set DashboardResponse × Records)
  | .listProjects => .ok (DashboardResponse.projects '' projectsByOwner user.id s, s)
  | .createProject name limit => do
      let (project, s') ← createListedProject drawn user name limit s
      .ok ({.project (projectColumns project)}, s')
  | .listAPIKeys projectPublicID => do
      let project ← projectByPublicIDForOwner user.id projectPublicID s.db
      .ok (DashboardResponse.apiKeys '' apiKeysByProject project.id s, s)
  | .createAPIKey projectPublicID name => do
      let (key, s') ← createListedKey P cfg drawn user projectPublicID name s
      .ok ({.apiKey (apiKeyColumns key) drawn.plaintext}, s')
  | .revokeAPIKey projectPublicID keyPublicID => do
      let s' ← revokeListedKey drawn user projectPublicID keyPublicID s
      .ok ({.noContent}, s')
  | .wallet => do
      let wallet ← walletByOwner user.publicID s
      .ok ({.wallet wallet}, s)
  | .ledger => do
      let wallet ← walletByOwner user.publicID s
      .ok (DashboardResponse.ledger '' ledgerForWallet wallet.id s, s)
  | .usage filter => do
      let records ← usageList user filter s
      .ok (DashboardResponse.usage '' records, s)
  | .listProviders => .ok (DashboardResponse.listedProviders '' providersByOwner user.id s, s)
  | .providers => .ok (DashboardResponse.providers '' providersWithInstance collation user.id s, s)

/-! ## The operations without the columns of the listings -/

section Forgets

variable {P : Platform} {cfg : Config} {drawn : Drawn} {user : UserRow} {s : Records}

/-- Creating a project is `Service/Management`'s operation on the tables without the columns. -/
theorem createListedProject_db {name : String} {limit : Option Int64} {project : ListedProject}
    {s' : Records} (h : createListedProject drawn user name limit s = .ok (project, s')) :
    projectCreate drawn.now drawn.id drawn.publicID user name limit s.db =
      .ok (project.toProjectRow, s'.db) := by
  obtain ⟨⟨row, db⟩, hrow, hnext⟩ := eq_ok_of_bind h
  obtain ⟨rfl, rfl⟩ := Prod.mk.inj (Except.ok.inj hnext)
  rw [hrow]
  obtain ⟨-, -, rfl⟩ := createProject_eq_ok (projectCreate_eq_ok hrow)
  simp only [Records.db, Table.insert, List.map_append, List.map_cons, List.map_nil]

theorem createListedKey_db {projectPublicID name : String} {key : ListedKey} {s' : Records}
    (h : createListedKey P cfg drawn user projectPublicID name s = .ok (key, s')) :
    projectCreateAPIKey P cfg drawn.id drawn.publicID drawn.plaintext drawn.keyPrefix user
      projectPublicID name s.db = .ok (key.toAPIKeyRow, s'.db) := by
  obtain ⟨⟨row, db⟩, hrow, hnext⟩ := eq_ok_of_bind h
  obtain ⟨rfl, rfl⟩ := Prod.mk.inj (Except.ok.inj hnext)
  rw [hrow]
  obtain ⟨project, -, hkey⟩ := projectCreateAPIKey_eq_ok hrow
  obtain ⟨-, -, -, rfl⟩ := createAPIKey_eq_ok hkey
  simp only [Records.db, Table.insert, List.map_append, List.map_cons, List.map_nil]

theorem revokeListedKey_db {projectPublicID keyPublicID : String} {s' : Records}
    (h : revokeListedKey drawn user projectPublicID keyPublicID s = .ok s') :
    projectRevokeAPIKey drawn.now user projectPublicID keyPublicID s.db = .ok s'.db := by
  obtain ⟨project, hproject, hnext⟩ := eq_ok_of_bind h
  obtain ⟨db, hrevoke, hdb⟩ := eq_ok_of_bind hnext
  cases hdb
  unfold projectRevokeAPIKey
  rw [hproject]
  refine Eq.trans hrevoke (congrArg _ ?_)
  obtain rfl := revokeAPIKey_eq_ok hrevoke
  simp only [Records.db, List.map_map]
  rfl

end Forgets

end Nuvonode.Service
