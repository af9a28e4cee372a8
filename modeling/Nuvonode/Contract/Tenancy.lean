/-
  Contract/Tenancy.lean --- what belongs to a user, and the listings that read it.

  `view` is what belongs to a user in a database: the user's own rows, and the rows
  that the user's usage rows reference.  Each statement of the dashboard enforces
  ownership in its own way, with a filter on the owner, a lookup of the project, or
  a join; each of them answers the same in two databases with one view.
-/
import Nuvonode.Service.Dashboard

set_option autoImplicit false

namespace Nuvonode.Contract

open Nuvonode.Foundation Nuvonode.Database Nuvonode.Repository Nuvonode.Service

/-! ## What belongs to a user -/

section Owned

variable (user : UserRow) (s : Records)

def ownsProject (id : UUID) : Bool :=
  s.projects.any fun row => row.ownerUserID = user.id ∧ row.id = id

def ownsWallet (id : UUID) : Bool :=
  s.wallets.any fun row => DB.walletOwner row = (.user, user.id) ∧ row.id = id

def ownsProvider (id : UUID) : Bool :=
  s.providers.any fun row => row.ownerUserID = user.id ∧ row.id = id

/-- Whether a usage row of the user references an id. -/
def references (column : ListedUsage → UUID) (id : UUID) : Bool :=
  s.usageRecords.any fun row => ownsProject user s row.projectID ∧ column row = id

end Owned

/-- The rows of a user, and the rows that the user's usage rows reference. -/
@[ext] structure View where
  users : Set UserRow
  projects : Set ListedProject
  apiKeys : Set ListedKey
  wallets : Set WalletRow
  walletLedger : Set ListedEntry
  providers : Set ListedProvider
  instances : Set InstanceRow
  advertisements : Set AdvertisementRow
  usageRecords : Set ListedUsage
  usedJobs : Set JobRow
  usedModels : Set ModelRow
  usedProviders : Set ListedProvider
  usedInstances : Set InstanceRow

def view (user : UserRow) (s : Records) : View where
  users := {row | row ∈ s.users ∧ row.id = user.id}
  projects := {row | row ∈ s.projects ∧ row.ownerUserID = user.id}
  apiKeys := {row | row ∈ s.apiKeys ∧ ownsProject user s row.projectID}
  wallets := {row | row ∈ s.wallets ∧ DB.walletOwner row = (.user, user.id)}
  walletLedger := {row | row ∈ s.walletLedger ∧ ownsWallet user s row.walletID}
  providers := {row | row ∈ s.providers ∧ row.ownerUserID = user.id}
  instances := {row | row ∈ s.instances ∧ ownsProvider user s row.providerID}
  advertisements := {row | row ∈ s.advertisements ∧ ownsProvider user s row.providerID}
  usageRecords := {row | row ∈ s.usageRecords ∧ ownsProject user s row.projectID}
  usedJobs := {row | row ∈ s.inferenceJobs ∧ references user s (·.jobID) row.id}
  usedModels := {row | row ∈ s.models ∧ references user s (·.modelID) row.id}
  usedProviders := {row | row ∈ s.providers ∧ references user s (·.providerID) row.id}
  usedInstances := {row | row ∈ s.instances ∧ references user s (·.providerInstanceID) row.id}

/-- The database without the projects and keys of a user. -/
def others (user : UserRow) (s : Records) : Records :=
  { s with
    projects := s.projects.filter fun row => row.ownerUserID ≠ user.id
    apiKeys := s.apiKeys.filter fun row => !ownsProject user s row.projectID }

/-! ## Two databases with one view -/

/-- What one view for two databases says of their rows. -/
structure Agree (user : UserRow) (s t : Records) : Prop where
  users : ∀ row, row.id = user.id → (row ∈ s.users ↔ row ∈ t.users)
  projects : ∀ row, row.ownerUserID = user.id → (row ∈ s.projects ↔ row ∈ t.projects)
  apiKeys : ∀ row, ownsProject user s row.projectID → (row ∈ s.apiKeys ↔ row ∈ t.apiKeys)
  wallets : ∀ row, DB.walletOwner row = (.user, user.id) → (row ∈ s.wallets ↔ row ∈ t.wallets)
  walletLedger : ∀ row, ownsWallet user s row.walletID →
    (row ∈ s.walletLedger ↔ row ∈ t.walletLedger)
  providers : ∀ row, row.ownerUserID = user.id → (row ∈ s.providers ↔ row ∈ t.providers)
  instances : ∀ row, ownsProvider user s row.providerID → (row ∈ s.instances ↔ row ∈ t.instances)
  advertisements : ∀ row, ownsProvider user s row.providerID →
    (row ∈ s.advertisements ↔ row ∈ t.advertisements)
  ownsProject : ∀ id, ownsProject user s id = ownsProject user t id
  usageRecords : ∀ row, Contract.ownsProject user s row.projectID →
    (row ∈ s.usageRecords ↔ row ∈ t.usageRecords)
  usedJobs : ∀ row, references user s (·.jobID) row.id →
    (row ∈ s.inferenceJobs ↔ row ∈ t.inferenceJobs)
  usedModels : ∀ row, references user s (·.modelID) row.id → (row ∈ s.models ↔ row ∈ t.models)
  usedProviders : ∀ row, references user s (·.providerID) row.id →
    (row ∈ s.providers ↔ row ∈ t.providers)
  usedInstances : ∀ row, references user s (·.providerInstanceID) row.id →
    (row ∈ s.instances ↔ row ∈ t.instances)

/-- Rows that are the same part of two tables. -/
theorem same_rows {ρ : Type} {rows rows' : List ρ} {p p' : ρ → Prop}
    (h : {row | row ∈ rows ∧ p row} = {row | row ∈ rows' ∧ p' row})
    (hp : ∀ row, p row ↔ p' row) (row : ρ) (hrow : p row) : row ∈ rows ↔ row ∈ rows' := by
  have hiff : row ∈ rows ∧ p row ↔ row ∈ rows' ∧ p' row := Set.ext_iff.mp h row
  constructor
  · intro hmem
    exact (hiff.mp ⟨hmem, hrow⟩).1
  · intro hmem
    exact (hiff.mpr ⟨hmem, (hp row).mp hrow⟩).1

/-- Whether one of the same rows has a property. -/
theorem any_congr {ρ : Type} {rows rows' : List ρ} {p p' q : ρ → Prop} [DecidablePred p]
    [DecidablePred p'] [DecidablePred q]
    (h : {row | row ∈ rows ∧ p row} = {row | row ∈ rows' ∧ p' row}) :
    (rows.any fun row => p row ∧ q row) = rows'.any fun row => p' row ∧ q row := by
  rw [Bool.eq_iff_iff]
  simp only [List.any_eq_true, decide_eq_true_eq]
  constructor
  · rintro ⟨row, hmem, hp, hq⟩
    have hiff := (Set.ext_iff.mp h row).mp ⟨hmem, hp⟩
    exact ⟨row, hiff.1, hiff.2, hq⟩
  · rintro ⟨row, hmem, hp, hq⟩
    have hiff := (Set.ext_iff.mp h row).mpr ⟨hmem, hp⟩
    exact ⟨row, hiff.1, hiff.2, hq⟩

theorem agree_of_view {user : UserRow} {s t : Records} (h : view user s = view user t) :
    Agree user s t := by
  have hproject : ∀ id, ownsProject user s id = ownsProject user t id := fun id =>
    any_congr (congrArg View.projects h)
  have hwallet : ∀ id, ownsWallet user s id = ownsWallet user t id := fun id =>
    any_congr (congrArg View.wallets h)
  have hprovider : ∀ id, ownsProvider user s id = ownsProvider user t id := fun id =>
    any_congr (congrArg View.providers h)
  have hused : ∀ column id, references user s column id = references user t column id :=
    fun column id => any_congr (congrArg View.usageRecords h)
  exact
    { users := same_rows (congrArg View.users h) fun _ => .rfl
      projects := same_rows (congrArg View.projects h) fun _ => .rfl
      apiKeys := same_rows (congrArg View.apiKeys h) fun row => by rw [hproject]
      wallets := same_rows (congrArg View.wallets h) fun _ => .rfl
      walletLedger := same_rows (congrArg View.walletLedger h) fun row => by rw [hwallet]
      providers := same_rows (congrArg View.providers h) fun _ => .rfl
      instances := same_rows (congrArg View.instances h) fun row => by rw [hprovider]
      advertisements := same_rows (congrArg View.advertisements h) fun row => by rw [hprovider]
      ownsProject := hproject
      usageRecords := same_rows (congrArg View.usageRecords h) fun row => by rw [hproject]
      usedJobs := same_rows (congrArg View.usedJobs h) fun row => by rw [hused]
      usedModels := same_rows (congrArg View.usedModels h) fun row => by rw [hused]
      usedProviders := same_rows (congrArg View.usedProviders h) fun row => by rw [hused]
      usedInstances := same_rows (congrArg View.usedInstances h) fun row => by rw [hused] }

/-! ## What the statements answer -/

section Statements

variable {user : UserRow} {s t : Records}

theorem ownsProject_iff {id : UUID} : ownsProject user s id = true ↔
    ∃ row ∈ s.projects, row.ownerUserID = user.id ∧ row.id = id := by
  simp [ownsProject]

theorem ownsProvider_iff {id : UUID} : ownsProvider user s id = true ↔
    ∃ row ∈ s.providers, row.ownerUserID = user.id ∧ row.id = id := by
  simp [ownsProvider]

theorem ownsWallet_iff {id : UUID} : ownsWallet user s id = true ↔
    ∃ row ∈ s.wallets, DB.walletOwner row = (.user, user.id) ∧ row.id = id := by
  simp [ownsWallet]

theorem references_iff {column : ListedUsage → UUID} {id : UUID} :
    references user s column id = true ↔
      ∃ row ∈ s.usageRecords, ownsProject user s row.projectID = true ∧ column row = id := by
  simp [references]

/-- A project that is found is one that the dashboard lists to its owner. -/
theorem listed_of_eq_ok {publicID : String} {project : ProjectRow}
    (h : projectByPublicIDForOwner user.id publicID s.db = .ok project) :
    ∃ listed ∈ s.projects, listed.ownerUserID = user.id ∧ listed.toProjectRow = project := by
  obtain ⟨hmem, howner, -⟩ := projectByPublicIDForOwner_eq_ok h
  obtain ⟨listed, hlisted, hrow⟩ := List.mem_map.mp hmem
  exact ⟨listed, hlisted, (congrArg ProjectRow.ownerUserID hrow).trans howner, hrow⟩

theorem ownsProject_of_eq_ok {publicID : String} {project : ProjectRow}
    (h : projectByPublicIDForOwner user.id publicID s.db = .ok project) :
    ownsProject user s project.id = true := by
  obtain ⟨listed, hlisted, howner, rfl⟩ := listed_of_eq_ok h
  exact ownsProject_iff.mpr ⟨listed, hlisted, howner, rfl⟩

variable (hs : s.Constraints) (ht : t.Constraints) (h : Agree user s t)

include hs in
/-- A project with the id of a project of the user is that project. -/
theorem owner_of_ownsProject {row : ListedProject} (hmem : row ∈ s.projects)
    (hown : ownsProject user s row.id = true) : row.ownerUserID = user.id := by
  obtain ⟨other, hother, howner, hid⟩ := ownsProject_iff.mp hown
  have heq : other = row := List.inj_on_of_nodup_map hs.projects_id hother hmem hid
  rw [← heq]
  exact howner

include hs ht h

theorem projectsByOwner_congr : projectsByOwner user.id s = projectsByOwner user.id t := by
  refine congrArg (List.map _ '' ·) (Query.answers_congr (Query.filter_perm_filter
    (.of_map _ hs.projects_id) (.of_map _ ht.projects_id) fun row hrow => h.projects row ?_))
  exact (of_decide_eq_true hrow).1

theorem projectByPublicIDForOwner_congr (publicID : String) :
    projectByPublicIDForOwner user.id publicID s.db =
      projectByPublicIDForOwner user.id publicID t.db := by
  have hunique : ∀ r : Records, r.Constraints →
      Table.Unique ProjectRow.publicID (r.projects.map ListedProject.toProjectRow) := by
    intro r hr
    rw [Table.Unique, List.map_map]
    exact hr.projects_publicID
  have hfind := Query.find?_congr (k := publicID) (hunique s hs) (hunique t ht)
    (p := fun row => row.ownerUserID = user.id ∧ row.publicID = publicID ∧ ¬ row.deleted)
    (fun row hrow => (of_decide_eq_true hrow).2.1) fun row hrow => by
      have howner : row.ownerUserID = user.id := (of_decide_eq_true hrow).1
      simp only [List.mem_map]
      constructor
      · rintro ⟨listed, hlisted, rfl⟩
        exact ⟨listed, (h.projects listed howner).mp hlisted, rfl⟩
      · rintro ⟨listed, hlisted, rfl⟩
        exact ⟨listed, (h.projects listed howner).mpr hlisted, rfl⟩
  unfold projectByPublicIDForOwner Records.db
  rw [hfind]

theorem apiKeysByProject_congr {id : UUID} (hown : ownsProject user s id = true) :
    apiKeysByProject id s = apiKeysByProject id t := by
  refine congrArg (List.map _ '' ·) (Query.answers_congr (Query.filter_perm_filter
    (.of_map _ hs.apiKeys_id) (.of_map _ ht.apiKeys_id) fun row hrow => h.apiKeys row ?_))
  rw [of_decide_eq_true hrow]
  exact hown

omit hs ht in
theorem anyKey_congr {id : UUID} (hown : ownsProject user s id = true) {p : ListedKey → Prop}
    [DecidablePred p] : (s.apiKeys.any fun row => row.projectID = id ∧ p row) =
      t.apiKeys.any fun row => row.projectID = id ∧ p row := by
  refine any_congr (Set.ext fun row => and_congr_left fun hid => h.apiKeys row ?_)
  rw [hid]
  exact hown

theorem walletByOwner_congr (huser : user ∈ s.users) :
    walletByOwner user.publicID s = walletByOwner user.publicID t := by
  have huser' : user ∈ t.users := (h.users user rfl).mp huser
  have hwallet : Table.select DB.walletOwner s.wallets (.user, user.id) =
      Table.select DB.walletOwner t.wallets (.user, user.id) :=
    Query.select_congr hs.wallets_owner ht.wallets_owner h.wallets
  unfold walletByOwner
  rw [Table.select_of_mem hs.users_publicID huser, Table.select_of_mem ht.users_publicID huser']
  simp only [Option.bind_eq_bind, Option.bind_some, hwallet]

theorem ledgerForWallet_congr {id : UUID} (hown : ownsWallet user s id = true) :
    ledgerForWallet id s = ledgerForWallet id t := by
  refine congrArg (List.map _ '' ·) (Query.answers_congr (Query.filter_perm_filter
    (.of_map _ hs.walletLedger_publicID) (.of_map _ ht.walletLedger_publicID)
    fun row hrow => h.walletLedger row ?_))
  rw [of_decide_eq_true hrow]
  exact hown

theorem ownedProviders_congr : ownedProviders user.id s = ownedProviders user.id t := by
  refine Query.answers_congr (Query.filter_perm_filter
    (.of_map _ hs.providers_id) (.of_map _ ht.providers_id) fun row hrow => h.providers row ?_)
  exact (of_decide_eq_true hrow).1

theorem latestInstance_congr {id : UUID} (hown : ownsProvider user s id = true) :
    latestInstance id s = latestInstance id t := by
  refine Query.answers_congr (Query.filter_perm_filter
    (.of_map _ hs.instances_id) (.of_map _ ht.instances_id) fun row hrow => h.instances row ?_)
  rw [of_decide_eq_true hrow]
  exact hown

theorem showProvider_congr (collation : LinearOrder String) {provider : ListedProvider}
    (hown : ownsProvider user s provider.id = true) :
    showProvider collation s provider = showProvider collation t provider := by
  have hnames : approvedModelNames collation provider.id s =
      approvedModelNames collation provider.id t := by
    have hperm : (s.advertisements.filter fun row =>
        row.providerID = provider.id ∧ row.status = .approved).Perm
        (t.advertisements.filter fun row =>
          row.providerID = provider.id ∧ row.status = .approved) :=
      Query.filter_perm_filter (.of_map _ hs.advertisements_id) (.of_map _ ht.advertisements_id)
        fun row hrow => h.advertisements row (by rw [(of_decide_eq_true hrow).1]; exact hown)
    exact @Query.insertionSort_congr String collation _ _ (hperm.map _).dedup
  unfold showProvider
  rw [latestInstance_congr hs ht h hown, hnames]

theorem providersWithInstance_congr (collation : LinearOrder String) :
    providersWithInstance collation user.id s = providersWithInstance collation user.id t := by
  unfold providersWithInstance
  rw [← ownedProviders_congr hs ht h]
  ext shown
  have hshow : ∀ rows ∈ ownedProviders user.id s,
      (List.Forall₂ (fun provider item => item ∈ showProvider collation s provider) rows shown ↔
        List.Forall₂ (fun provider item => item ∈ showProvider collation t provider) rows
          shown) := by
    intro rows hrows
    have hown : ∀ provider ∈ rows, ownsProvider user s provider.id = true := by
      intro provider hprovider
      obtain ⟨hmem, howner⟩ := List.mem_filter.mp (Query.mem_of_mem_answers hrows hprovider)
      exact ownsProvider_iff.mpr ⟨provider, hmem, (of_decide_eq_true howner).1, rfl⟩
    constructor
    · intro hall
      refine ((List.forall₂_and_left rows shown).mpr ⟨hown, hall⟩).imp ?_
      rintro provider item ⟨hprovider, hitem⟩
      exact showProvider_congr hs ht h collation hprovider ▸ hitem
    · intro hall
      refine ((List.forall₂_and_left rows shown).mpr ⟨hown, hall⟩).imp ?_
      rintro provider item ⟨hprovider, hitem⟩
      exact showProvider_congr hs ht h collation hprovider ▸ hitem
  constructor
  · rintro ⟨rows, hrows, hitems⟩
    exact ⟨rows, hrows, (hshow rows hrows).mp hitems⟩
  · rintro ⟨rows, hrows, hitems⟩
    exact ⟨rows, hrows, (hshow rows hrows).mpr hitems⟩

/-- The rows joined to a usage row of the user are rows that it references. -/
theorem joinUsage_congr {usage : ListedUsage} (hmem : usage ∈ s.usageRecords)
    (hown : ownsProject user s usage.projectID = true) :
    joinUsage s usage = joinUsage t usage := by
  have hjob : Table.select JobRow.id s.inferenceJobs usage.jobID =
      Table.select JobRow.id t.inferenceJobs usage.jobID :=
    Query.select_congr hs.inferenceJobs_id ht.inferenceJobs_id fun row hid =>
      h.usedJobs row (references_iff.mpr ⟨usage, hmem, hown, hid.symm⟩)
  have hproject : Table.select (fun row => row.id) s.projects usage.projectID =
      Table.select (fun row => row.id) t.projects usage.projectID := by
    refine Query.select_congr hs.projects_id ht.projects_id fun row hid => ?_
    constructor
    · intro hrow
      exact (h.projects row (owner_of_ownsProject hs hrow (hid ▸ hown))).mp hrow
    · intro hrow
      have hown' : ownsProject user t row.id = true := by
        rw [← h.ownsProject, hid]
        exact hown
      exact (h.projects row (owner_of_ownsProject ht hrow hown')).mpr hrow
  have hmodel : Table.select ModelRow.id s.models usage.modelID =
      Table.select ModelRow.id t.models usage.modelID :=
    Query.select_congr hs.models_id ht.models_id fun row hid =>
      h.usedModels row (references_iff.mpr ⟨usage, hmem, hown, hid.symm⟩)
  have hprovider : Table.select (fun row => row.id) s.providers usage.providerID =
      Table.select (fun row => row.id) t.providers usage.providerID :=
    Query.select_congr hs.providers_id ht.providers_id fun row hid =>
      h.usedProviders row (references_iff.mpr ⟨usage, hmem, hown, hid.symm⟩)
  have hinstance : Table.select InstanceRow.id s.instances usage.providerInstanceID =
      Table.select InstanceRow.id t.instances usage.providerInstanceID :=
    Query.select_congr hs.instances_id ht.instances_id fun row hid =>
      h.usedInstances row (references_iff.mpr ⟨usage, hmem, hown, hid.symm⟩)
  unfold joinUsage
  rw [hjob, hproject, hmodel, hprovider, hinstance]

omit hs ht h in
/-- The rows that a usage row is joined to. -/
theorem joinUsage_eq_some {usage : ListedUsage} {row : JoinedUsage}
    (hjoin : joinUsage s usage = some row) :
    ∃ job, Table.select JobRow.id s.inferenceJobs usage.jobID = some job ∧
      ∃ project, Table.select (fun row => row.id) s.projects usage.projectID = some project ∧
      ∃ model, Table.select ModelRow.id s.models usage.modelID = some model ∧
      JoinedUsage.mk usage job project model
        (Table.select (fun row => row.id) s.providers usage.providerID)
        (Table.select InstanceRow.id s.instances usage.providerInstanceID) = row := by
  simpa [joinUsage, Option.bind_eq_some_iff] using hjoin

omit hs ht h in
/-- The `WHERE` clause leaves usage rows of the user's projects only. -/
theorem ownsProject_of_admits {filter : UsageFilter} {usage : ListedUsage} {row : JoinedUsage}
    (hjoin : joinUsage s usage = some row) (hadmits : filter.admits user.id row = true) :
    row.usage = usage ∧ ownsProject user s usage.projectID = true := by
  obtain ⟨job, hjob, project, hproject, model, hmodel, hrow⟩ := joinUsage_eq_some hjoin
  subst hrow
  have howner : project.ownerUserID = user.id := by
    simp only [UsageFilter.admits, Bool.and_eq_true, decide_eq_true_eq] at hadmits
    exact hadmits.1.1.1.1
  obtain ⟨hmem, hid⟩ := Table.mem_of_select hproject
  exact ⟨rfl, ownsProject_iff.mpr ⟨project, hmem, howner, hid⟩⟩

omit hs ht h in
/-- The usage rows that a listing matches are rows of the user's projects. -/
theorem matchedUsage_eq (s : Records) (filter : UsageFilter) :
    (s.usageRecords.filterMap (joinUsage s)).filter (filter.admits user.id) =
      ((s.usageRecords.filter fun usage => ownsProject user s usage.projectID).filterMap
        (joinUsage s)).filter (filter.admits user.id) := by
  rw [List.filter_filterMap, List.filter_filterMap, List.filterMap_filter]
  refine List.filterMap_congr fun usage _ => ?_
  cases hown : ownsProject user s usage.projectID with
  | true => rfl
  | false =>
      cases hjoin : joinUsage s usage with
      | none => rfl
      | some row =>
          cases hadmits : filter.admits user.id row with
          | true => exact absurd ((ownsProject_of_admits hjoin hadmits).2) (by simp [hown])
          | false => simp [hadmits]

theorem usageByOwner_congr (filter : UsageFilter) :
    usageByOwner user.id filter s = usageByOwner user.id filter t := by
  have hperm : (s.usageRecords.filter fun usage => ownsProject user s usage.projectID).Perm
      (t.usageRecords.filter fun usage => ownsProject user t usage.projectID) := by
    have hsame : (fun usage : ListedUsage => ownsProject user t usage.projectID) =
        fun usage => ownsProject user s usage.projectID :=
      funext fun usage => (h.ownsProject usage.projectID).symm
    rw [hsame]
    exact Query.filter_perm_filter (.of_map _ hs.usageRecords_publicID)
      (.of_map _ ht.usageRecords_publicID) h.usageRecords
  have hjoin : (s.usageRecords.filter fun usage => ownsProject user s usage.projectID).filterMap
        (joinUsage s) =
      (s.usageRecords.filter fun usage => ownsProject user s usage.projectID).filterMap
        (joinUsage t) := by
    refine List.filterMap_congr fun usage husage => ?_
    obtain ⟨hmem, hown⟩ := List.mem_filter.mp husage
    exact joinUsage_congr hs ht h hmem hown
  unfold usageByOwner
  rw [matchedUsage_eq s, matchedUsage_eq t, hjoin,
    Query.answers_congr ((hperm.filterMap (joinUsage t)).filter (filter.admits user.id))]

end Statements

end Nuvonode.Contract
