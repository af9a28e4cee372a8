/-
  Contract/Isolation.lean --- a tenant's operations see and change the tenant's rows only.

  Every operation of the dashboard is a function of the user's view and of what it
  draws: two databases with one view cannot be told apart, whatever they hold of
  other users.  What it shows is in the view, and what it writes leaves the rows of
  the others as they are.
-/
import Nuvonode.Contract.Ledger
import Nuvonode.Contract.Tenancy
import Mathlib.Data.String.Basic

set_option autoImplicit false

namespace Nuvonode.Contract

open Nuvonode.Foundation Nuvonode.Database Nuvonode.Repository Nuvonode.Service

/-! ## What the operations write -/

/-- Nothing in the database has an id, a public id or a key that is drawn. -/
structure Unused (P : Platform) (cfg : Config) (drawn : Drawn) (s : Records) : Prop where
  projects : ∀ row ∈ s.projects, row.id ≠ drawn.id ∧ row.publicID ≠ drawn.publicID
  apiKeys : ∀ row ∈ s.apiKeys, row.id ≠ drawn.id ∧ row.publicID ≠ drawn.publicID ∧
    row.keyHash ≠ P.hashToken cfg.apiKeyPepper drawn.plaintext

/-- The project that `ProjectService.Create` inserts. -/
def newProject (drawn : Drawn) (user : UserRow) (name : String) (limit : Option Int64) :
    ListedProject :=
  { id := drawn.id, publicID := drawn.publicID, ownerUserID := user.id, name := trimSpace name
    status := .active, monthlyCreditLimit := limit, currentMonthSpend := 0
    spendPeriod := spendPeriod drawn.now, deleted := false, createdAt := drawn.now }

/-- The key that `ProjectService.CreateAPIKey` inserts. -/
def newKey (P : Platform) (cfg : Config) (drawn : Drawn) (projectID : UUID) (name : String) :
    ListedKey :=
  { id := drawn.id, publicID := drawn.publicID, projectID, name := trimSpace name
    keyPrefix := drawn.keyPrefix, keyHash := P.hashToken cfg.apiKeyPepper drawn.plaintext
    status := .active, lastUsedAt := none, revokedAt := none, createdAt := drawn.now }

section Writes

variable {P : Platform} {cfg : Config} {user : UserRow} {drawn : Drawn} {s : Records}

/-- What a created project is, and that its id was free. -/
theorem createListedProject_eq_ok {name : String} {limit : Option Int64}
    {project : ListedProject} {s' : Records}
    (h : createListedProject drawn user name limit s = .ok (project, s')) :
    project = newProject drawn user name limit ∧
      s' = { s with projects := Table.insert s.projects project } ∧
      ∀ row ∈ s.projects, row.id ≠ drawn.id := by
  obtain ⟨⟨row, db⟩, hrow, hnext⟩ := eq_ok_of_bind h
  obtain ⟨rfl, rfl⟩ := Prod.mk.inj (Except.ok.inj hnext)
  obtain ⟨rfl, hfree, rfl⟩ := createProject_eq_ok (projectCreate_eq_ok hrow)
  exact ⟨rfl, rfl, fun row hmem => (hfree _ (List.mem_map_of_mem hmem)).1⟩

/-- Where what is drawn is free, only the texts decide whether a project is created. -/
theorem createListedProject_of_unused (huser : user ∈ s.users) (hunused : Unused P cfg drawn s)
    (name : String) (limit : Option Int64) :
    createListedProject drawn user name limit s =
      if trimSpace name = "" then .error .invalidInput
      else if !(storable drawn.publicID && storable (trimSpace name)) then .error .invalidText
      else .ok (newProject drawn user name limit,
        { s with projects := Table.insert s.projects (newProject drawn user name limit) }) := by
  have hfree : (s.db.catalog.projects.any fun row =>
      row.id = drawn.id ∨ row.publicID = drawn.publicID) = false := by
    refine List.any_eq_false.mpr fun row hmem => ?_
    obtain ⟨listed, hlisted, rfl⟩ := List.mem_map.mp hmem
    obtain ⟨hid, hpublic⟩ := hunused.projects listed hlisted
    simp [hid, hpublic]
  have howner : (s.db.user user.id).isNone = false := by
    rw [Option.isNone_eq_false_iff]
    exact Table.select_isSome_iff.mpr ⟨user, huser, rfl⟩
  unfold createListedProject projectCreate createProject
  split
  · rfl
  split
  · rfl
  · rw [hfree, howner]
    rfl

/-- What a created key is: one of a project of the user. -/
theorem createListedKey_eq_ok {projectPublicID name : String} {key : ListedKey} {s' : Records}
    (h : createListedKey P cfg drawn user projectPublicID name s = .ok (key, s')) :
    s' = { s with apiKeys := Table.insert s.apiKeys key } ∧
      ownsProject user s key.projectID = true := by
  obtain ⟨⟨row, db⟩, hrow, hnext⟩ := eq_ok_of_bind h
  obtain ⟨rfl, rfl⟩ := Prod.mk.inj (Except.ok.inj hnext)
  obtain ⟨project, hproject, hkey⟩ := projectCreateAPIKey_eq_ok hrow
  obtain ⟨rfl, -, -, rfl⟩ := createAPIKey_eq_ok hkey
  exact ⟨rfl, ownsProject_of_eq_ok hproject⟩

theorem createListedKey_of_unused (hunused : Unused P cfg drawn s) (projectPublicID name : String) :
    createListedKey P cfg drawn user projectPublicID name s =
      (projectByPublicIDForOwner user.id projectPublicID s.db).bind fun project =>
        if trimSpace name = "" then .error .invalidInput
        else if !(storable drawn.publicID && storable (trimSpace name)) then .error .invalidText
        else .ok (newKey P cfg drawn project.id name,
          { s with apiKeys := Table.insert s.apiKeys (newKey P cfg drawn project.id name) }) := by
  have hfree : (s.db.catalog.apiKeys.any fun row => row.id = drawn.id ∨
      row.publicID = drawn.publicID ∨
      row.keyHash = P.hashToken cfg.apiKeyPepper drawn.plaintext) = false := by
    refine List.any_eq_false.mpr fun row hmem => ?_
    obtain ⟨listed, hlisted, rfl⟩ := List.mem_map.mp hmem
    obtain ⟨hid, hpublic, hhash⟩ := hunused.apiKeys listed hlisted
    simp [hid, hpublic, hhash]
  cases hproject : projectByPublicIDForOwner user.id projectPublicID s.db with
  | error e =>
      unfold createListedKey projectCreateAPIKey
      rw [hproject]
      rfl
  | ok project =>
      obtain ⟨listed, hlisted, -, hrow⟩ := listed_of_eq_ok hproject
      have hthere : (s.db.catalog.projects.any fun row => row.id = project.id) = true :=
        List.any_eq_true.mpr ⟨project, List.mem_map.mpr ⟨listed, hlisted, hrow⟩, by simp⟩
      unfold createListedKey projectCreateAPIKey createAPIKey
      rw [hproject]
      by_cases hname : trimSpace name = ""
      · simp only [Except.bind, bind, if_pos hname]
      by_cases htexts : (!(storable drawn.publicID && storable (trimSpace name))) = true
      · simp only [Except.bind, bind, if_neg hname, if_pos htexts]
      · simp only [Except.bind, bind, if_neg hname, if_neg htexts, hfree, hthere]
        rfl

/-- A revocation is of keys of a project of the user. -/
theorem revokeListedKey_eq_ok {projectPublicID keyPublicID : String} {s' : Records}
    (h : revokeListedKey drawn user projectPublicID keyPublicID s = .ok s') :
    ∃ id, ownsProject user s id = true ∧
      s' = { s with apiKeys := s.apiKeys.map (ListedKey.revoke drawn.now id keyPublicID) } := by
  obtain ⟨project, hproject, hnext⟩ := eq_ok_of_bind h
  obtain ⟨db, -, hdb⟩ := eq_ok_of_bind hnext
  exact ⟨project.id, ownsProject_of_eq_ok hproject, (Except.ok.inj hdb).symm⟩

/-- Whether a key can be revoked is read from the keys of its project. -/
theorem revokeListedKey_eq (drawn : Drawn) (projectPublicID keyPublicID : String) :
    revokeListedKey drawn user projectPublicID keyPublicID s =
      (projectByPublicIDForOwner user.id projectPublicID s.db).bind fun project =>
        if !storable keyPublicID then .error .invalidText
        else if s.apiKeys.any fun row => row.projectID = project.id ∧
            row.publicID = keyPublicID ∧ row.status = .active then
          .ok { s with
            apiKeys := s.apiKeys.map (ListedKey.revoke drawn.now project.id keyPublicID) }
        else .error .notFound := by
  cases hproject : projectByPublicIDForOwner user.id projectPublicID s.db with
  | error e =>
      unfold revokeListedKey
      rw [hproject]
      rfl
  | ok project =>
      have hany : (s.db.catalog.apiKeys.any fun row => row.projectID = project.id ∧
          row.publicID = keyPublicID ∧ row.status = .active) =
          s.apiKeys.any fun row => row.projectID = project.id ∧
            row.publicID = keyPublicID ∧ row.status = .active := List.any_map
      unfold revokeListedKey revokeAPIKey
      rw [hproject]
      simp only [Except.bind, bind, hany]
      by_cases htext : (!storable keyPublicID) = true
      · simp only [if_pos htext]
      · simp only [if_neg htext]
        by_cases hactive : (s.apiKeys.any fun row => row.projectID = project.id ∧
            row.publicID = keyPublicID ∧ row.status = .active) = true
        · simp only [if_pos hactive]
        · simp only [if_neg hactive]

@[simp] theorem revoke_projectID (now : Nat) (id : UUID) (keyPublicID : String) (key : ListedKey) :
    (ListedKey.revoke now id keyPublicID key).projectID = key.projectID := by
  unfold ListedKey.revoke APIKeyRow.revoke
  split <;> rfl

/-- A key of another project is left as it is. -/
theorem revoke_of_ne {now : Nat} {id : UUID} {keyPublicID : String} {key : ListedKey}
    (h : key.projectID ≠ id) : ListedKey.revoke now id keyPublicID key = key := by
  unfold ListedKey.revoke APIKeyRow.revoke
  rw [if_neg fun hkey => h hkey.1]

/-! ## The view after a write -/

theorem ownsProject_insert {project : ListedProject} {id : UUID}
    (hid : project.id ≠ id) :
    ownsProject user { s with projects := Table.insert s.projects project } id =
      ownsProject user s id := by
  simp [ownsProject, Table.insert, hid]

/-- A new row of some kind is one more of the rows of that kind. -/
theorem setOf_insert {ρ : Type} {rows : List ρ} {new : ρ} {p : ρ → Prop} (hnew : p new) :
    {row | row ∈ Table.insert rows new ∧ p row} = insert new {row | row ∈ rows ∧ p row} := by
  ext row
  simp only [Table.insert, Set.mem_ofPred_eq, Set.mem_insert_iff, List.mem_append,
    List.mem_singleton]
  constructor
  · rintro ⟨hmem | rfl, hrow⟩
    · exact .inr ⟨hmem, hrow⟩
    · exact .inl rfl
  · rintro (rfl | ⟨hmem, hrow⟩)
    · exact ⟨.inr rfl, hnew⟩
    · exact ⟨.inl hmem, hrow⟩

/-- A new project of the user is all that changes in the view. -/
theorem view_insert_project (hs : s.Constraints) {project : ListedProject}
    (howner : project.ownerUserID = user.id) (hfree : ∀ row ∈ s.projects, row.id ≠ project.id) :
    view user { s with projects := Table.insert s.projects project } =
      { view user s with projects := insert project (view user s).projects } := by
  have hkeys : ∀ key ∈ s.apiKeys,
      ownsProject user { s with projects := Table.insert s.projects project } key.projectID =
        ownsProject user s key.projectID := by
    intro key hkey
    obtain ⟨row, hrow, hid⟩ := hs.apiKeys_project key hkey
    exact ownsProject_insert fun heq => hfree row hrow (hid.trans heq.symm)
  have husage : ∀ usage ∈ s.usageRecords,
      ownsProject user { s with projects := Table.insert s.projects project } usage.projectID =
        ownsProject user s usage.projectID := by
    intro usage husage
    obtain ⟨row, hrow, hid⟩ := hs.usageRecords_project usage husage
    exact ownsProject_insert fun heq => hfree row hrow (hid.trans heq.symm)
  have hreferences : ∀ column id,
      references user { s with projects := Table.insert s.projects project } column id =
        references user s column id := by
    intro column id
    rw [Bool.eq_iff_iff, references_iff, references_iff]
    constructor
    · rintro ⟨usage, hmem, hown, hid⟩
      exact ⟨usage, hmem, husage usage hmem ▸ hown, hid⟩
    · rintro ⟨usage, hmem, hown, hid⟩
      exact ⟨usage, hmem, (husage usage hmem).symm ▸ hown, hid⟩
  have hused : ∀ {ρ : Type} (rows : List ρ) (column : ListedUsage → UUID) (id : ρ → UUID),
      {row | row ∈ rows ∧ references user
        { s with projects := Table.insert s.projects project } column (id row) = true} =
      {row | row ∈ rows ∧ references user s column (id row) = true} := by
    intro ρ rows column id
    simp only [hreferences]
  refine View.ext rfl ?projects ?apiKeys rfl rfl rfl rfl rfl ?usageRecords (hused _ _ _)
    (hused _ _ _) (hused _ _ _) (hused _ _ _)
  case projects => exact setOf_insert howner
  case apiKeys =>
    exact Set.ext fun key => and_congr_right fun hkey => by rw [hkeys key hkey]
  case usageRecords =>
    exact Set.ext fun usage => and_congr_right fun hmem => by rw [husage usage hmem]

/-- A new key of one of the user's projects is all that changes in the view. -/
theorem view_insert_key {key : ListedKey} (hown : ownsProject user s key.projectID = true) :
    view user { s with apiKeys := Table.insert s.apiKeys key } =
      { view user s with apiKeys := insert key (view user s).apiKeys } :=
  View.ext rfl rfl (setOf_insert hown) rfl rfl rfl rfl rfl rfl rfl rfl rfl rfl

/-- A revocation changes keys of the view alone. -/
theorem view_revoke (now : Nat) (id : UUID) (keyPublicID : String) :
    view user { s with apiKeys := s.apiKeys.map (ListedKey.revoke now id keyPublicID) } =
      { view user s with
        apiKeys := ListedKey.revoke now id keyPublicID '' (view user s).apiKeys } := by
  refine View.ext rfl rfl ?apiKeys rfl rfl rfl rfl rfl rfl rfl rfl rfl rfl
  ext row
  simp only [view, Set.mem_ofPred_eq, Set.mem_image, List.mem_map]
  constructor
  · rintro ⟨⟨key, hkey, rfl⟩, hown⟩
    exact ⟨key, ⟨hkey, revoke_projectID now id keyPublicID key ▸ hown⟩, rfl⟩
  · rintro ⟨key, ⟨hkey, hown⟩, rfl⟩
    exact ⟨⟨key, hkey, rfl⟩, (revoke_projectID now id keyPublicID key).symm ▸ hown⟩

/-! ## The rows of the others after a write -/

theorem others_insert_project (hs : s.Constraints) {project : ListedProject}
    (howner : project.ownerUserID = user.id) (hfree : ∀ row ∈ s.projects, row.id ≠ project.id) :
    others user { s with projects := Table.insert s.projects project } = others user s := by
  have hprojects : (Table.insert s.projects project).filter (fun row => row.ownerUserID ≠ user.id)
      = s.projects.filter fun row => row.ownerUserID ≠ user.id :=
    Table.filter_insert_of_apart (decide_eq_false (not_not.mpr howner))
  have hkeys : s.apiKeys.filter (fun row =>
      !ownsProject user { s with projects := Table.insert s.projects project } row.projectID) =
      s.apiKeys.filter fun row => !ownsProject user s row.projectID := by
    refine List.filter_congr fun key hkey => ?_
    obtain ⟨row, hrow, hid⟩ := hs.apiKeys_project key hkey
    rw [ownsProject_insert fun heq => hfree row hrow (hid.trans heq.symm)]
  unfold others
  simp only [hprojects, hkeys]

theorem others_insert_key {key : ListedKey} (hown : ownsProject user s key.projectID = true) :
    others user { s with apiKeys := Table.insert s.apiKeys key } = others user s := by
  have hkeys : (Table.insert s.apiKeys key).filter (fun row => !ownsProject user s row.projectID) =
      s.apiKeys.filter fun row => !ownsProject user s row.projectID :=
    Table.filter_insert_of_apart (by rw [hown]; rfl)
  exact congrArg (fun apiKeys => { others user s with apiKeys }) hkeys

theorem others_revoke {now : Nat} {id : UUID} (hown : ownsProject user s id = true)
    (keyPublicID : String) :
    others user { s with apiKeys := s.apiKeys.map (ListedKey.revoke now id keyPublicID) } =
      others user s := by
  have hkeys : (s.apiKeys.map (ListedKey.revoke now id keyPublicID)).filter
      (fun row => !ownsProject user s row.projectID) =
      s.apiKeys.filter fun row => !ownsProject user s row.projectID := by
    refine Table.filter_map_of_apart fun key _ => ?_
    by_cases hkey : key.projectID = id
    · exact .inr (by simp [hkey, hown])
    · exact .inl (revoke_of_ne hkey)
  exact congrArg (fun apiKeys => { others user s with apiKeys }) hkeys

end Writes

/-! ## Whose rows a response shows -/

/-- Joined rows of a view: the usage row and its project are the user's, and the others are
those that the usage row references. -/
structure JoinedFrom (v : View) (row : JoinedUsage) : Prop where
  usage : row.usage ∈ v.usageRecords
  project : row.project ∈ v.projects ∧ row.project.id = row.usage.projectID
  job : row.job ∈ v.usedJobs ∧ row.job.id = row.usage.jobID
  model : row.model ∈ v.usedModels ∧ row.model.id = row.usage.modelID
  provider : ∀ provider ∈ row.provider,
    provider ∈ v.usedProviders ∧ provider.id = row.usage.providerID
  instance? : ∀ inst ∈ row.instance?,
    inst ∈ v.usedInstances ∧ inst.id = row.usage.providerInstanceID

/-- A provider of a view, with what its own instances and advertisements say. -/
structure ShownFrom (v : View) (item : ProviderWithInstance) (provider : ListedProvider) :
    Prop where
  mem : provider ∈ v.providers
  columns : item.toProvider = providerColumns provider
  status : ∀ status ∈ item.instanceStatus, ∃ inst ∈ v.instances, inst.providerID = provider.id ∧
    inst.status = status ∧ inst.lastHeartbeatAt = item.instanceHeartbeat
  heartbeat : item.instanceStatus = none → item.instanceHeartbeat = none
  modelNames : ∀ name ∈ item.modelNames, ∃ advertisement ∈ v.advertisements,
    advertisement.providerID = provider.id ∧ advertisement.runtimeModelName = name

/-- A response that shows rows of a view only. -/
def ShowsOnly (v : View) : DashboardResponse → Prop
  | .projects rows => ∀ item ∈ rows, item ∈ projectColumns '' v.projects
  | .project row => row ∈ projectColumns '' v.projects
  | .apiKeys rows => ∀ item ∈ rows, item ∈ apiKeyColumns '' v.apiKeys
  | .apiKey row _ => row ∈ apiKeyColumns '' v.apiKeys
  | .noContent => True
  | .wallet row => row ∈ v.wallets
  | .ledger rows => ∀ item ∈ rows, item ∈ ledgerColumns '' v.walletLedger
  | .usage rows => ∀ item ∈ rows, ∃ row, JoinedFrom v row ∧ row.record = item
  | .listedProviders rows => ∀ item ∈ rows, item ∈ providerColumns '' v.providers
  | .providers rows => ∀ item ∈ rows, ∃ provider, ShownFrom v item provider

/-- What a list of shown items is paired with. -/
theorem exists_of_forall₂ {α β : Type} {R : α → β → Prop} {rows : List α} {items : List β}
    (h : List.Forall₂ R rows items) {item : β} (hitem : item ∈ items) :
    ∃ row ∈ rows, R row item := by
  induction h with
  | nil => cases hitem
  | cons hhead _ ih =>
      rcases List.mem_cons.mp hitem with rfl | htail
      · exact ⟨_, List.mem_cons_self, hhead⟩
      · obtain ⟨row, hrow, hrel⟩ := ih htail
        exact ⟨row, List.mem_cons_of_mem _ hrow, hrel⟩

section Shown

variable {user : UserRow} {s : Records}

/-- The columns of an ordered listing come from rows that the listing matches. -/
theorem mem_of_listed {ρ α : Type} {columns : ρ → α} {key : ρ → Nat} {limit : Option Nat}
    {rows : List ρ} {p : ρ → Bool} {items : List α}
    (h : items ∈ List.map columns '' Query.answers key limit (rows.filter p)) {item : α}
    (hitem : item ∈ items) : ∃ row ∈ rows, p row = true ∧ columns row = item := by
  obtain ⟨answer, hanswer, rfl⟩ := h
  obtain ⟨row, hrow, rfl⟩ := List.mem_map.mp hitem
  obtain ⟨hmem, hp⟩ := List.mem_filter.mp (Query.mem_of_mem_answers hanswer hrow)
  exact ⟨row, hmem, hp, rfl⟩

theorem walletByOwner_eq_ok (hs : s.Constraints) (huser : user ∈ s.users) {wallet : WalletRow}
    (h : walletByOwner user.publicID s = .ok wallet) :
    wallet ∈ s.wallets ∧ DB.walletOwner wallet = (.user, user.id) := by
  unfold walletByOwner at h
  split at h
  · rw [Table.select_of_mem hs.users_publicID huser] at h
    simp only [Option.bind_eq_bind, Option.bind_some] at h
    cases hwallet : Table.select DB.walletOwner s.wallets (.user, user.id) with
    | none => rw [hwallet] at h; cases h
    | some row =>
        rw [hwallet] at h
        cases h
        exact Table.mem_of_select hwallet
  · cases h

/-- Every row that a usage listing joins is in the view. -/
theorem joinedFrom_of_admits {filter : UsageFilter} {usage : ListedUsage} {row : JoinedUsage}
    (hmem : usage ∈ s.usageRecords) (hjoin : joinUsage s usage = some row)
    (hadmits : filter.admits user.id row = true) : JoinedFrom (view user s) row := by
  obtain ⟨husage, hown⟩ := ownsProject_of_admits hjoin hadmits
  have howner : row.project.ownerUserID = user.id := by
    simp only [UsageFilter.admits, Bool.and_eq_true, decide_eq_true_eq] at hadmits
    exact hadmits.1.1.1.1
  obtain ⟨job, hjob, project, hproject, model, hmodel, hrow⟩ := joinUsage_eq_some hjoin
  subst hrow
  have huses : ∀ (column : ListedUsage → UUID) (id : UUID), id = column usage →
      references user s column id = true := fun column id hid =>
    references_iff.mpr ⟨usage, hmem, hown, hid.symm⟩
  obtain ⟨hjobMem, hjobID⟩ := Table.mem_of_select hjob
  obtain ⟨hprojectMem, hprojectID⟩ := Table.mem_of_select hproject
  obtain ⟨hmodelMem, hmodelID⟩ := Table.mem_of_select hmodel
  refine
    { usage := ⟨hmem, hown⟩
      project := ⟨⟨hprojectMem, howner⟩, hprojectID⟩
      job := ⟨⟨hjobMem, huses _ _ hjobID⟩, hjobID⟩
      model := ⟨⟨hmodelMem, huses _ _ hmodelID⟩, hmodelID⟩
      provider := fun provider hprovider => ?_
      instance? := fun inst hinst => ?_ }
  · obtain ⟨hproviderMem, hproviderID⟩ := Table.mem_of_select hprovider
    exact ⟨⟨hproviderMem, huses _ _ hproviderID⟩, hproviderID⟩
  · obtain ⟨hinstMem, hinstID⟩ := Table.mem_of_select hinst
    exact ⟨⟨hinstMem, huses _ _ hinstID⟩, hinstID⟩

theorem shownFrom_of_mem {collation : LinearOrder String} {provider : ListedProvider}
    {item : ProviderWithInstance} (hmem : provider ∈ s.providers)
    (howner : provider.ownerUserID = user.id) (h : item ∈ showProvider collation s provider) :
    ShownFrom (view user s) item provider := by
  obtain ⟨latest, hlatest, rfl⟩ := h
  have hown : ownsProvider user s provider.id = true :=
    ownsProvider_iff.mpr ⟨provider, hmem, howner, rfl⟩
  refine
    { mem := ⟨hmem, howner⟩
      columns := rfl
      status := fun status hstatus => ?_
      heartbeat := fun hnone => ?_
      modelNames := fun name hname => ?_ }
  · obtain ⟨inst, hhead, rfl⟩ := Option.map_eq_some_iff.mp hstatus
    obtain ⟨hinst, hp⟩ := List.mem_filter.mp
      (Query.mem_of_mem_answers hlatest (List.mem_of_mem_head? hhead))
    have hprovider : inst.providerID = provider.id := of_decide_eq_true hp
    refine ⟨inst, ⟨hinst, hprovider ▸ hown⟩, hprovider, rfl, ?_⟩
    simp only [hhead, Option.bind_some]
  · have hhead : latest.head? = none := Option.map_eq_none_iff.mp hnone
    simp only [hhead, Option.bind_none]
  · have hnames := (List.mem_insertionSort _).mp hname
    obtain ⟨advertisement, hadvertisement, rfl⟩ := List.mem_map.mp (List.mem_dedup.mp hnames)
    obtain ⟨hrow, hp⟩ := List.mem_filter.mp hadvertisement
    have hprovider : advertisement.providerID = provider.id := (of_decide_eq_true hp).1
    exact ⟨advertisement, ⟨hrow, hprovider ▸ hown⟩, hprovider, rfl⟩

end Shown

/-! ## One run -/

section Runs

variable {P : Platform} {cfg : Config} {collation : LinearOrder String} {user : UserRow}
  {drawn : Drawn} {s : Records}

/-- An operation shows rows of the user's view, and leaves the rows of the others alone. -/
theorem perform_owned (hs : s.Constraints) (huser : user ∈ s.users) {op : DashboardOperation}
    {responses : Set DashboardResponse} {s' : Records}
    (h : perform P cfg collation user drawn s op = .ok (responses, s')) :
    (∀ response ∈ responses, ShowsOnly (view user s') response) ∧
      others user s' = others user s := by
  cases op with
  | listProjects =>
      cases h
      refine ⟨?_, rfl⟩
      rintro _ ⟨items, hitems, rfl⟩ item hitem
      obtain ⟨row, hrow, hp, rfl⟩ := mem_of_listed hitems hitem
      exact ⟨row, ⟨hrow, (of_decide_eq_true hp).1⟩, rfl⟩
  | createProject name limit =>
      obtain ⟨⟨project, created⟩, hcreate, hnext⟩ := eq_ok_of_bind h
      cases hnext
      obtain ⟨hproject, hcreated, hfree⟩ := createListedProject_eq_ok hcreate
      have howner : project.ownerUserID = user.id := congrArg (·.ownerUserID) hproject
      have hid : project.id = drawn.id := congrArg (·.id) hproject
      rw [hcreated]
      refine ⟨?_, others_insert_project hs howner fun row hrow => hid ▸ hfree row hrow⟩
      rintro _ rfl
      exact ⟨project, ⟨List.mem_append_right _ List.mem_cons_self, howner⟩, rfl⟩
  | listAPIKeys projectPublicID =>
      obtain ⟨project, hproject, hnext⟩ := eq_ok_of_bind h
      cases hnext
      refine ⟨?_, rfl⟩
      rintro _ ⟨items, hitems, rfl⟩ item hitem
      obtain ⟨row, hrow, hp, rfl⟩ := mem_of_listed hitems hitem
      have hid : row.projectID = project.id := of_decide_eq_true hp
      exact ⟨row, ⟨hrow, hid ▸ ownsProject_of_eq_ok hproject⟩, rfl⟩
  | createAPIKey projectPublicID name =>
      obtain ⟨⟨key, created⟩, hcreate, hnext⟩ := eq_ok_of_bind h
      cases hnext
      obtain ⟨hcreated, hown⟩ := createListedKey_eq_ok hcreate
      rw [hcreated]
      refine ⟨?_, others_insert_key hown⟩
      rintro _ rfl
      exact ⟨key, ⟨List.mem_append_right _ List.mem_cons_self, hown⟩, rfl⟩
  | revokeAPIKey projectPublicID keyPublicID =>
      obtain ⟨revoked, hrevoke, hnext⟩ := eq_ok_of_bind h
      cases hnext
      obtain ⟨id, hown, hrevoked⟩ := revokeListedKey_eq_ok hrevoke
      rw [hrevoked]
      refine ⟨?_, others_revoke hown keyPublicID⟩
      rintro _ rfl
      trivial
  | wallet =>
      obtain ⟨wallet, hwallet, hnext⟩ := eq_ok_of_bind h
      cases hnext
      refine ⟨?_, rfl⟩
      rintro _ rfl
      exact walletByOwner_eq_ok hs huser hwallet
  | ledger =>
      obtain ⟨wallet, hwallet, hnext⟩ := eq_ok_of_bind h
      cases hnext
      obtain ⟨hmem, howner⟩ := walletByOwner_eq_ok hs huser hwallet
      refine ⟨?_, rfl⟩
      rintro _ ⟨items, hitems, rfl⟩ item hitem
      obtain ⟨row, hrow, hp, rfl⟩ := mem_of_listed hitems hitem
      have hid : wallet.id = row.walletID := (of_decide_eq_true hp).symm
      exact ⟨row, ⟨hrow, ownsWallet_iff.mpr ⟨wallet, hmem, howner, hid⟩⟩, rfl⟩
  | usage filter =>
      obtain ⟨records, hrecords, hnext⟩ := eq_ok_of_bind h
      cases hnext
      refine ⟨?_, rfl⟩
      rintro _ ⟨items, hitems, rfl⟩ item hitem
      unfold usageList usageByOwner at hrecords
      split at hrecords
      · cases hrecords
      split at hrecords
      · cases hrecords
        obtain ⟨row, hrow, hadmits, rfl⟩ := mem_of_listed hitems hitem
        obtain ⟨usage, husage, hjoin⟩ := List.mem_filterMap.mp hrow
        exact ⟨row, joinedFrom_of_admits husage hjoin hadmits, rfl⟩
      · cases hrecords
  | listProviders =>
      cases h
      refine ⟨?_, rfl⟩
      rintro _ ⟨items, hitems, rfl⟩ item hitem
      obtain ⟨row, hrow, hp, rfl⟩ := mem_of_listed hitems hitem
      exact ⟨row, ⟨hrow, (of_decide_eq_true hp).1⟩, rfl⟩
  | providers =>
      cases h
      refine ⟨?_, rfl⟩
      rintro _ ⟨items, ⟨rows, hrows, hall⟩, rfl⟩ item hitem
      obtain ⟨provider, hprovider, hshown⟩ := exists_of_forall₂ hall hitem
      obtain ⟨hmem, hp⟩ := List.mem_filter.mp (Query.mem_of_mem_answers hrows hprovider)
      exact ⟨provider, shownFrom_of_mem hmem (of_decide_eq_true hp).1 hshown⟩

/-! ## Two runs -/

/-- What an operation answers, and what it leaves of the user's rows. -/
def outcome (P : Platform) (cfg : Config) (collation : LinearOrder String) (user : UserRow)
    (drawn : Drawn) (s : Records) (op : DashboardOperation) :
    Except Err (Set DashboardResponse × View) :=
  (perform P cfg collation user drawn s op).map fun after => (after.1, view user after.2)

/-- Two databases with one view cannot be told apart. -/
theorem outcome_congr {t : Records} (hs : s.Constraints) (ht : t.Constraints)
    (hview : view user s = view user t) (huser : user ∈ s.users) (hunused : Unused P cfg drawn s)
    (hunused' : Unused P cfg drawn t) (op : DashboardOperation) :
    outcome P cfg collation user drawn s op = outcome P cfg collation user drawn t op := by
  have hagree : Agree user s t := agree_of_view hview
  have huser' : user ∈ t.users := (hagree.users user rfl).mp huser
  unfold outcome
  cases op with
  | listProjects =>
      simp only [perform, Except.map, projectsByOwner_congr hs ht hagree, hview]
  | createProject name limit =>
      have hafter : view user { s with
          projects := Table.insert s.projects (newProject drawn user name limit) } =
          view user { t with
            projects := Table.insert t.projects (newProject drawn user name limit) } := by
        rw [view_insert_project hs rfl fun row hrow => (hunused.projects row hrow).1,
          view_insert_project ht rfl fun row hrow => (hunused'.projects row hrow).1, hview]
      simp only [perform, createListedProject_of_unused huser hunused,
        createListedProject_of_unused huser' hunused']
      split
      · rfl
      split
      · rfl
      · simp only [Except.map, bind, Except.bind, hafter]
  | listAPIKeys projectPublicID =>
      simp only [perform, ← projectByPublicIDForOwner_congr hs ht hagree]
      cases hproject : projectByPublicIDForOwner user.id projectPublicID s.db with
      | error e => rfl
      | ok project =>
          simp only [Except.map, bind, Except.bind, hview,
            apiKeysByProject_congr hs ht hagree (ownsProject_of_eq_ok hproject)]
  | createAPIKey projectPublicID name =>
      simp only [perform, createListedKey_of_unused hunused, createListedKey_of_unused hunused',
        ← projectByPublicIDForOwner_congr hs ht hagree]
      cases hproject : projectByPublicIDForOwner user.id projectPublicID s.db with
      | error e => rfl
      | ok project =>
          have hown := ownsProject_of_eq_ok hproject
          have hafter : view user { s with
              apiKeys := Table.insert s.apiKeys (newKey P cfg drawn project.id name) } =
              view user { t with
                apiKeys := Table.insert t.apiKeys (newKey P cfg drawn project.id name) } := by
            rw [view_insert_key hown, view_insert_key (hagree.ownsProject _ ▸ hown), hview]
          simp only [Except.bind]
          split
          · rfl
          split
          · rfl
          · simp only [Except.map, bind, Except.bind, hafter]
  | revokeAPIKey projectPublicID keyPublicID =>
      simp only [perform, revokeListedKey_eq, ← projectByPublicIDForOwner_congr hs ht hagree]
      cases hproject : projectByPublicIDForOwner user.id projectPublicID s.db with
      | error e => rfl
      | ok project =>
          have hafter : view user { s with
              apiKeys := s.apiKeys.map (ListedKey.revoke drawn.now project.id keyPublicID) } =
              view user { t with
                apiKeys := t.apiKeys.map (ListedKey.revoke drawn.now project.id keyPublicID) } := by
            rw [view_revoke, view_revoke, hview]
          simp only [Except.bind, ← anyKey_congr hagree (ownsProject_of_eq_ok hproject)]
          split
          · rfl
          split
          · simp only [Except.map, bind, Except.bind, hafter]
          · rfl
  | wallet =>
      simp only [perform, ← walletByOwner_congr hs ht hagree huser]
      cases walletByOwner user.publicID s with
      | error e => rfl
      | ok wallet => simp only [Except.map, bind, Except.bind, hview]
  | ledger =>
      simp only [perform, ← walletByOwner_congr hs ht hagree huser]
      cases hwallet : walletByOwner user.publicID s with
      | error e => rfl
      | ok wallet =>
          obtain ⟨hmem, howner⟩ := walletByOwner_eq_ok hs huser hwallet
          have hown : ownsWallet user s wallet.id = true :=
            ownsWallet_iff.mpr ⟨wallet, hmem, howner, rfl⟩
          simp only [Except.map, bind, Except.bind, hview, ledgerForWallet_congr hs ht hagree hown]
  | usage filter =>
      simp only [perform, usageList, ← usageByOwner_congr hs ht hagree]
      split
      · rfl
      · cases usageByOwner user.id _ s with
        | error e => rfl
        | ok records => simp only [Except.map, bind, Except.bind, hview]
  | listProviders =>
      simp only [perform, Except.map, providersByOwner, ownedProviders_congr hs ht hagree, hview]
  | providers =>
      simp only [perform, Except.map, providersWithInstance_congr hs ht hagree, hview]

end Runs

/-! ## Isolation -/

/-- **Tenants are isolated.**  An operation of a user of the database shows rows of the user's
view and leaves the rows of all others as they are; and what it may answer and what it leaves of
the user's rows is a function of what it draws, the same one in every database in which the user
has that view. -/
theorem tenants_are_isolated (P : Platform) (cfg : Config) (collation : LinearOrder String)
    {user : UserRow} {s : Records} (hs : s.Constraints) (huser : user ∈ s.users)
    (op : DashboardOperation) :
    (∀ drawn responses s', perform P cfg collation user drawn s op = .ok (responses, s') →
      (∀ response ∈ responses, ShowsOnly (view user s') response) ∧
        others user s' = others user s) ∧
    ∃ result : Drawn → Except Err (Set DashboardResponse × View),
      ∀ t : Records, t.Constraints → view user t = view user s →
        ∀ drawn, Unused P cfg drawn t → outcome P cfg collation user drawn t op = result drawn := by
  refine ⟨fun drawn responses s' h => perform_owned hs huser h, ?_⟩
  classical
  -- What any one of the databases with this view does decides for all of them.
  let result : Drawn → Except Err (Set DashboardResponse × View) := fun drawn =>
    if h : ∃ t : Records, t.Constraints ∧ view user t = view user s ∧ Unused P cfg drawn t then
      outcome P cfg collation user drawn h.choose op
    else .error .notFound
  refine ⟨result, fun t ht hview drawn hunused => ?_⟩
  have hexists : ∃ t : Records, t.Constraints ∧ view user t = view user s ∧
      Unused P cfg drawn t := ⟨t, ht, hview, hunused⟩
  obtain ⟨hother, hotherView, hotherFresh⟩ := hexists.choose_spec
  have huser' : user ∈ t.users := ((agree_of_view hview).users user rfl).mpr huser
  rw [show result drawn = outcome P cfg collation user drawn hexists.choose op from dif_pos hexists]
  exact outcome_congr ht hother (hview.trans hotherView.symm) huser' hunused hotherFresh op

/-- Two users with a project and a key each. -/
def sampleTenants : Records :=
  let user (id : UUID) (publicID : String) : UserRow :=
    { id, publicID, email := publicID, passwordHash := "", displayName := "", role := .user
      status := .active, deleted := false }
  let project (id : UUID) (publicID : String) (ownerUserID : UUID) : ListedProject :=
    { id, publicID, ownerUserID, name := "lab", status := .active, monthlyCreditLimit := none
      currentMonthSpend := 0, spendPeriod := "2025-01", deleted := false, createdAt := id }
  let key (id : UUID) (publicID : String) (projectID : UUID) : ListedKey :=
    { id, publicID, projectID, name := "ci", keyPrefix := "pvn", keyHash := publicID
      status := .active, lastUsedAt := none, revokedAt := none, createdAt := id }
  { users := [user 1 "usr_1", user 2 "usr_2"], wallets := [], walletLedger := []
    projects := [project 3 "prj_1" 1, project 4 "prj_2" 2]
    apiKeys := [key 5 "key_1" 3, key 6 "key_2" 4], providers := [], instances := []
    advertisements := [], models := [], modelVersions := [], inferenceJobs := []
    usageRecords := [], providerStats := [], auditLog := [], hardwareReports := [] }

def sampleTenant : UserRow :=
  { id := 1, publicID := "usr_1", email := "usr_1", passwordHash := "", displayName := ""
    role := .user, status := .active, deleted := false }

theorem constraints_sampleTenants : sampleTenants.Constraints := by
  constructor <;> decide

/-- The list of projects of one of them, which shows one project only. -/
def sampleListing : List Project :=
  (Query.newestFirst ListedProject.createdAt none
    (sampleTenants.projects.filter fun project =>
      project.ownerUserID = sampleTenant.id ∧ ¬ project.deleted)).map projectColumns

/-- The projects that are listed for one of them are that user's. -/
theorem sample_tenant_lists_own_projects :
    sampleListing ∈ projectsByOwner sampleTenant.id sampleTenants ∧
      ShowsOnly (view sampleTenant sampleTenants) (.projects sampleListing) := by
  have hlisted : sampleListing ∈ projectsByOwner sampleTenant.id sampleTenants :=
    Set.mem_image_of_mem _ Query.newestFirst_mem_answers
  refine ⟨hlisted, ?_⟩
  have huser : sampleTenant ∈ sampleTenants.users := by decide
  have hisolated := (tenants_are_isolated samplePlatform sampleConfig inferInstance
    constraints_sampleTenants huser .listProjects).1 ⟨0, 7, "prj_3", "", ""⟩ _ _ rfl
  exact hisolated.1 _ (Set.mem_image_of_mem _ hlisted)

end Nuvonode.Contract
