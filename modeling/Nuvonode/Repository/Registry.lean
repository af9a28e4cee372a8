/-
  Repository/Registry.lean --- what can become of the providers and of the catalog.

  The registry is what routing reads, and what no transaction of a chat request writes.
  `Change` says once what a statement can do to it, and what it shows of itself: who was
  decided on, and what an instance reported or advertised.
-/
import Nuvonode.Repository.Catalog

set_option autoImplicit false

namespace Nuvonode.Repository

open Nuvonode.Foundation Nuvonode.Database Nuvonode.Service

/-- The providers and the catalog. -/
structure Registry where
  providers : List ProviderRow
  catalog : Catalog
  deriving DecidableEq

/-- The registry of a database. -/
def registry (db : DB) : Registry where
  providers := db.providers
  catalog := db.catalog

/-- What a statement shows. -/
inductive Fact where
  /-- A provider is created, with this approval. -/
  | created (providerID : UUID) (approval : ApprovalStatus)
  /-- An administrator decides on a provider. -/
  | decided (providerID : UUID) (approval : ApprovalStatus)
  | disabled (providerID : UUID)
  /-- A session reports the status of its instance. -/
  | reported (instanceID : UUID) (status : InstanceStatus)
  /-- A session advertises a model of its instance. -/
  | advertised (providerID instanceID : UUID) (runtime runtimeModelName : String)
  /-- An advertisement is new. -/
  | listed (publicID : String)
  /-- An administrator decides on an advertisement. -/
  | judged (publicID : String) (status : AdvertisementStatus)
  /-- A project is created, with this monthly limit. -/
  | opened (projectID : UUID) (limit : Option Int64)
  deriving DecidableEq

/-- Whether the session of a provider shows it. -/
def Fact.sent : Fact → Bool
  | .reported .. | .advertised .. | .listed _ => true
  | _ => false

/-- Whether a request of the dashboard shows it. -/
def Fact.asked : Fact → Bool
  | .opened .. | .decided .. | .disabled _ | .judged .. => true
  | _ => false

/-- What a fact says of the approval of a provider. -/
def decisionOn (providerID : UUID) : Fact → Option ApprovalStatus
  | .decided id approval => if id = providerID then some approval else none
  | _ => none

/-- What a fact says of the status of an instance. -/
def reportOf (instanceID : UUID) : Fact → Option InstanceStatus
  | .reported id status => if id = instanceID then some status else none
  | _ => none

/-- What a fact says of the status of an advertisement. -/
def verdictOn (publicID : String) : Fact → Option AdvertisementStatus
  | .judged id status => if id = publicID then some status else none
  | _ => none

/-- The provider that an administrator acted on. -/
def subjectOf : Fact → Option UUID
  | .decided id _ => some id
  | .disabled id => some id
  | _ => none

/-! ## What a statement can do -/

/-- `UPDATE providers SET approval_status=$3`. -/
def ProviderRow.decide (approval : ApprovalStatus) (row : ProviderRow) : ProviderRow :=
  { row with approvalStatus := approval }

/-- `UPDATE providers SET status='disabled'`. -/
def ProviderRow.disable (row : ProviderRow) : ProviderRow := { row with status := .disabled }

/-- `UPDATE provider_instances SET status='offline'`. -/
def InstanceRow.retire (row : InstanceRow) : InstanceRow := { row with status := .offline }

/-- `UPDATE provider_model_advertisements SET status=$3`. -/
def AdvertisementRow.judge (status : AdvertisementStatus) (row : AdvertisementRow) :
    AdvertisementRow := { row with status }

/-- The registry with other providers. -/
def Registry.withProviders (r : Registry) (providers : List ProviderRow) : Registry :=
  { r with providers }

/-- The registry with other instances. -/
def Registry.withInstances (r : Registry) (instances : List InstanceRow) : Registry :=
  { r with catalog := { r.catalog with instances } }

/-- The registry with other advertisements. -/
def Registry.withAdvertisements (r : Registry) (advertisements : List AdvertisementRow) :
    Registry := { r with catalog := { r.catalog with advertisements } }

/-- What a statement at the time `now` can do to the registry, and what it shows. -/
inductive Registry.Change (now : Nat) (r : Registry) : List Fact → Registry → Prop where
  | same : r.Change now [] r
  | create {row : ProviderRow} : Table.select ProviderRow.id r.providers row.id = none →
      Table.select ProviderRow.publicID r.providers row.publicID = none → row.status = .active →
      r.Change now [.created row.id row.approvalStatus]
        (r.withProviders (Table.insert r.providers row))
  | decide {row : ProviderRow} {approval : ApprovalStatus} : row ∈ r.providers →
      r.Change now [.decided row.id approval] (r.withProviders
        (Table.update ProviderRow.id r.providers row.id (ProviderRow.decide approval)))
  | disable {row : ProviderRow} : row ∈ r.providers →
      r.Change now [.disabled row.id] ((r.withProviders
        (Table.update ProviderRow.id r.providers row.id ProviderRow.disable)).withInstances
          (Table.update InstanceRow.providerID r.catalog.instances row.id InstanceRow.retire))
  | project {row : ProjectRow} : row.currentMonthSpend = 0 → row.spendPeriod = spendPeriod now →
      r.Change now [.opened row.id row.monthlyCreditLimit] { r with catalog := { r.catalog with
        projects := Table.insert r.catalog.projects row } }
  | keys {rows : List APIKeyRow} : keepsIDs APIKeyRow.id r.catalog.apiKeys rows = true →
      r.Change now [] { r with catalog := { r.catalog with apiKeys := rows } }
  | models {rows : List ModelRow} : keepsIDs ModelRow.id r.catalog.models rows = true →
      r.Change now [] { r with catalog := { r.catalog with models := rows } }
  | join {row : InstanceRow} : Table.select InstanceRow.id r.catalog.instances row.id = none →
      row.status = .online → row.lastHeartbeatAt = some now →
      r.Change now [.reported row.id .online]
        (r.withInstances (Table.insert r.catalog.instances row))
  | connect {row : InstanceRow} {hostname os arch appVersion : String} :
      row ∈ r.catalog.instances →
      r.Change now [.reported row.id .online] (r.withInstances
        (Table.update InstanceRow.id r.catalog.instances row.id
          (InstanceRow.connect now hostname os arch appVersion)))
  | beat {instanceID : UUID} {status : InstanceStatus} {currentJobID : Option UUID} :
      status ≠ .offline →
      r.Change now [.reported instanceID status] (r.withInstances
        (Table.update InstanceRow.id r.catalog.instances instanceID
          (InstanceRow.beat now status currentJobID)))
  | expire {cutoff : Int} :
      r.Change now [] (r.withInstances (r.catalog.instances.map (InstanceRow.expire cutoff)))
  | hardware {row : HardwareReportRow} :
      r.Change now [] { r with catalog := { r.catalog with
        hardwareReports := Table.insert r.catalog.hardwareReports row } }
  | readvertise {providerID instanceID : UUID} {runtime runtimeModelName digest : String}
      {found : AdvertisementRow → Bool} :
      (∀ row, found row = true →
        AdvertisementRow.names providerID instanceID runtime runtimeModelName row = true) →
      r.Change now [.advertised providerID instanceID runtime runtimeModelName]
        (r.withAdvertisements (r.catalog.advertisements.map fun row =>
          if found row then { row with localDigest := digest } else row))
  | advertise {id providerID instanceID : UUID} {publicID : String}
      {matched : Option ModelVersionRow} {runtime runtimeModelName digest : String} :
      (∀ version ∈ matched, version ∈ r.catalog.modelVersions ∧ version.runtime = runtime ∧
        version.runtimeModelName = runtimeModelName) →
      r.Change now [.advertised providerID instanceID runtime runtimeModelName, .listed publicID]
        (r.withAdvertisements (Table.insert r.catalog.advertisements
          (AdvertisementRow.pending id publicID matched providerID instanceID runtime
            runtimeModelName digest)))
  | judge {publicID : String} {status : AdvertisementStatus} :
      r.Change now [.judged publicID status] (r.withAdvertisements
        (Table.update AdvertisementRow.publicID r.catalog.advertisements publicID
          (AdvertisementRow.judge status)))

/-! ## Rows that stay -/

section Stay

variable {now : Nat} {r r' : Registry} {facts : List Fact}

theorem Registry.Change.of_eq (h : r' = r) : r.Change now [] r' := h ▸ .same

theorem keepsIDs_of_exists {ρ : Type} {id : ρ → UUID} {rows rows' : List ρ}
    (h : ∀ row ∈ rows, ∃ row' ∈ rows', id row' = id row) : keepsIDs id rows rows' = true := by
  refine List.all_eq_true.mpr fun row hrow => List.any_eq_true.mpr ?_
  obtain ⟨row', hrow', hid⟩ := h row hrow
  exact ⟨row', hrow', beq_iff_eq.mpr hid⟩

/-- A provider stays, under its ids, and a disabled one stays disabled. -/
theorem Registry.Change.provider_after (h : r.Change now facts r') {provider : ProviderRow}
    (hprovider : provider ∈ r.providers) : ∃ provider' ∈ r'.providers,
      provider'.id = provider.id ∧ provider'.publicID = provider.publicID ∧
        (provider.status = .disabled → provider'.status = .disabled) := by
  cases h with
  | create _ _ _ =>
      exact ⟨provider, List.mem_append_left _ hprovider, rfl, rfl, fun hstatus => hstatus⟩
  | @decide row approval _ =>
      refine ⟨_, Table.mem_update.mpr ⟨provider, hprovider, rfl⟩, ?_⟩
      split
      · exact ⟨rfl, rfl, fun hstatus => hstatus⟩
      · exact ⟨rfl, rfl, fun hstatus => hstatus⟩
  | disable _ =>
      refine ⟨_, Table.mem_update.mpr ⟨provider, hprovider, rfl⟩, ?_⟩
      split
      · exact ⟨rfl, rfl, fun _ => rfl⟩
      · exact ⟨rfl, rfl, fun hstatus => hstatus⟩
  | _ => exact ⟨provider, hprovider, rfl, rfl, fun hstatus => hstatus⟩

/-- An instance stays, of the same provider. -/
theorem Registry.Change.instance_after (h : r.Change now facts r') {inst : InstanceRow}
    (hinst : inst ∈ r.catalog.instances) : ∃ inst' ∈ r'.catalog.instances,
      inst'.id = inst.id ∧ inst'.providerID = inst.providerID := by
  -- An update of other columns.
  have hupdate : ∀ {κ : Type} [DecidableEq κ] {key : InstanceRow → κ} {k : κ}
      {change : InstanceRow → InstanceRow},
      (∀ row, (change row).id = row.id ∧ (change row).providerID = row.providerID) →
      ∃ inst' ∈ Table.update key r.catalog.instances k change,
        inst'.id = inst.id ∧ inst'.providerID = inst.providerID := by
    intro κ _ key k change hkeeps
    refine ⟨_, Table.mem_update.mpr ⟨inst, hinst, rfl⟩, ?_⟩
    split
    · exact hkeeps inst
    · exact ⟨rfl, rfl⟩
  cases h with
  | disable _ | connect _ | beat _ => exact hupdate fun _ => ⟨rfl, rfl⟩
  | join _ _ _ => exact ⟨inst, List.mem_append_left _ hinst, rfl, rfl⟩
  | @expire cutoff =>
      refine ⟨_, List.mem_map_of_mem hinst, ?_⟩
      unfold InstanceRow.expire
      split <;> exact ⟨rfl, rfl⟩
  | _ => exact ⟨inst, hinst, rfl, rfl⟩

/-- The ids of providers stay unique. -/
theorem Registry.Change.unique_providers (h : r.Change now facts r')
    (hids : Table.Unique ProviderRow.id r.providers)
    (hpublicIDs : Table.Unique ProviderRow.publicID r.providers) :
    Table.Unique ProviderRow.id r'.providers ∧
      Table.Unique ProviderRow.publicID r'.providers := by
  cases h with
  | create hid hpublicID _ =>
      exact ⟨Table.unique_insert hids hid, Table.unique_insert hpublicIDs hpublicID⟩
  | decide _ =>
      exact ⟨Table.unique_update (fun _ => rfl) hids, Table.unique_update (fun _ => rfl) hpublicIDs⟩
  | disable _ =>
      exact ⟨Table.unique_update (fun _ => rfl) hids, Table.unique_update (fun _ => rfl) hpublicIDs⟩
  | _ => exact ⟨hids, hpublicIDs⟩

/-- The ids of instances stay unique. -/
theorem Registry.Change.unique_instances (h : r.Change now facts r')
    (hids : Table.Unique InstanceRow.id r.catalog.instances) :
    Table.Unique InstanceRow.id r'.catalog.instances := by
  cases h with
  | join hid _ _ => exact Table.unique_insert hids hid
  | disable _ | connect _ | beat _ => exact Table.unique_update (fun _ => rfl) hids
  | @expire cutoff =>
      have hmap : (r.catalog.instances.map (InstanceRow.expire cutoff)).map InstanceRow.id =
          r.catalog.instances.map InstanceRow.id := by
        rw [List.map_map]
        exact List.map_congr_left fun row _ => InstanceRow.expire_id cutoff row
      unfold Table.Unique
      exact hmap.symm ▸ hids
  | _ => exact hids

/-- Nothing is deleted from the catalog. -/
theorem Registry.Change.follows (h : r.Change now facts r') :
    catalogFollows r.catalog r'.catalog = true := by
  have hinstances : keepsIDs InstanceRow.id r.catalog.instances r'.catalog.instances = true :=
    keepsIDs_of_exists fun inst hinst => by
      obtain ⟨inst', hinst', hid, -⟩ := h.instance_after hinst
      exact ⟨inst', hinst', hid⟩
  cases h with
  | project _ _ => simp only [catalogFollows, keepsIDs_refl, keepsIDs_insert, Bool.and_self]
  | keys hkeeps => simp only [catalogFollows, keepsIDs_refl, hkeeps, Bool.and_self]
  | models hkeeps => simp only [catalogFollows, keepsIDs_refl, hkeeps, Bool.and_self]
  | _ =>
      simp only [catalogFollows, Bool.and_eq_true]
      exact ⟨⟨⟨⟨keepsIDs_refl _ _, keepsIDs_refl _ _⟩, keepsIDs_refl _ _⟩, keepsIDs_refl _ _⟩,
        hinstances⟩

/-- A project stays as it is; a new one has spent nothing. -/
theorem Registry.Change.projects (h : r.Change now facts r') :
    r.catalog.projects <+: r'.catalog.projects ∧
      ∀ project ∈ r'.catalog.projects, project ∈ r.catalog.projects ∨
        project.currentMonthSpend = 0 ∧ project.spendPeriod = spendPeriod now ∧
          .opened project.id project.monthlyCreditLimit ∈ facts := by
  cases h with
  | @project row hspend hperiod =>
      refine ⟨List.prefix_append _ _, fun project hproject => ?_⟩
      rcases List.mem_append.mp hproject with hold | hnew
      · exact .inl hold
      · obtain rfl := List.mem_singleton.mp hnew
        exact .inr ⟨hspend, hperiod, List.mem_singleton_self _⟩
  | _ => exact ⟨List.prefix_refl _, fun _ hproject => .inl hproject⟩

/-- The model versions stay. -/
theorem Registry.Change.modelVersions (h : r.Change now facts r') :
    r'.catalog.modelVersions = r.catalog.modelVersions := by
  cases h <;> rfl

end Stay

/-! ## Where rows come from -/

/-- Where the row of a provider comes from. -/
inductive ProviderOrigin (r : Registry) (facts : List Fact) (row : ProviderRow) : Prop where
  | kept : row ∈ r.providers → (∀ fact ∈ facts, decisionOn row.id fact = none) →
      .disabled row.id ∉ facts → ProviderOrigin r facts row
  | decided {old : ProviderRow} {approval : ApprovalStatus} : old ∈ r.providers →
      row = ProviderRow.decide approval old → facts = [.decided old.id approval] →
      ProviderOrigin r facts row
  | disabled {old : ProviderRow} : old ∈ r.providers → row = ProviderRow.disable old →
      facts = [.disabled old.id] → ProviderOrigin r facts row
  | created : Table.select ProviderRow.id r.providers row.id = none → row.status = .active →
      facts = [.created row.id row.approvalStatus] → ProviderOrigin r facts row

/-- Where the row of an instance comes from. -/
inductive InstanceOrigin (r : Registry) (facts : List Fact) (row : InstanceRow) : Prop where
  | kept : row ∈ r.catalog.instances → (∀ fact ∈ facts, reportOf row.id fact = none) →
      InstanceOrigin r facts row
  | retired : row.status = .offline → InstanceOrigin r facts row
  | reported : facts = [.reported row.id row.status] → InstanceOrigin r facts row

/-- Where the row of an advertisement comes from. -/
inductive AdvertisementOrigin (r : Registry) (facts : List Fact) (row : AdvertisementRow) :
    Prop where
  | kept {old : AdvertisementRow} {digest : String} : old ∈ r.catalog.advertisements →
      row = { old with localDigest := digest } →
      (∀ fact ∈ facts, verdictOn row.publicID fact = none) → AdvertisementOrigin r facts row
  | judged {old : AdvertisementRow} {status : AdvertisementStatus} :
      old ∈ r.catalog.advertisements → row = AdvertisementRow.judge status old →
      facts = [.judged old.publicID status] → AdvertisementOrigin r facts row
  | listed : row.status = .pending →
      .advertised row.providerID row.providerInstanceID row.runtime row.runtimeModelName ∈ facts →
      (∀ versionID ∈ row.modelVersionID, ∃ version ∈ r.catalog.modelVersions,
        version.id = versionID ∧ row.modelID = some version.modelID ∧
          version.runtimeModelName = row.runtimeModelName) → AdvertisementOrigin r facts row

section Origin

variable {now : Nat} {r r' : Registry} {facts : List Fact}

theorem Registry.Change.provider_origin (h : r.Change now facts r') {row : ProviderRow}
    (hrow : row ∈ r'.providers) : ProviderOrigin r facts row := by
  cases h with
  | create hid _ hactive =>
      rcases List.mem_append.mp hrow with hold | hnew
      · exact .kept hold (by simp [decisionOn]) (by simp)
      · obtain rfl := List.mem_singleton.mp hnew
        exact .created hid hactive rfl
  | @decide subject approval _ =>
      obtain ⟨old, hold, rfl⟩ := Table.mem_update.mp hrow
      split
      · rename_i hid
        exact .decided hold rfl (by rw [hid])
      · rename_i hid
        exact .kept hold (by simp [decisionOn, Ne.symm hid]) (by simp)
  | @disable subject _ =>
      obtain ⟨old, hold, rfl⟩ := Table.mem_update.mp hrow
      split
      · rename_i hid
        exact .disabled hold rfl (by rw [hid])
      · rename_i hid
        exact .kept hold (by simp [decisionOn]) (by simp [hid])
  | _ => exact .kept hrow (by simp [decisionOn]) (by simp)

theorem Registry.Change.instance_origin (h : r.Change now facts r') {row : InstanceRow}
    (hrow : row ∈ r'.catalog.instances) : InstanceOrigin r facts row := by
  -- An update that reports the status of the rows with one id.
  have hreport : ∀ {id : UUID} {status : InstanceStatus} {change : InstanceRow → InstanceRow},
      row ∈ Table.update InstanceRow.id r.catalog.instances id change →
      (∀ old, (change old).id = old.id ∧ (change old).status = status) →
      InstanceOrigin r [.reported id status] row := by
    intro id status change hrow hchange
    obtain ⟨old, hold, rfl⟩ := Table.mem_update.mp hrow
    split
    · rename_i hid
      refine .reported ?_
      rw [(hchange old).1, (hchange old).2, hid]
    · rename_i hid
      exact .kept hold (by simp [reportOf, Ne.symm hid])
  cases h with
  | disable _ =>
      obtain ⟨old, hold, rfl⟩ := Table.mem_update.mp hrow
      split
      · exact .retired rfl
      · exact .kept hold (by simp [reportOf])
  | @join new hid hstatus _ =>
      rcases List.mem_append.mp hrow with hold | hnew
      · have hne := Table.select_eq_none_iff.mp hid row hold
        exact .kept hold (by simp [reportOf, Ne.symm hne])
      · obtain rfl := List.mem_singleton.mp hnew
        exact .reported (by rw [hstatus])
  | connect _ => exact hreport hrow fun _ => ⟨rfl, rfl⟩
  | beat _ => exact hreport hrow fun _ => ⟨rfl, rfl⟩
  | @expire cutoff =>
      obtain ⟨old, hold, rfl⟩ := List.mem_map.mp hrow
      unfold InstanceRow.expire
      split
      · exact .retired rfl
      · exact .kept hold (by simp)
  | _ => exact .kept hrow (by simp [reportOf])

theorem Registry.Change.advertisement_origin (h : r.Change now facts r') {row : AdvertisementRow}
    (hrow : row ∈ r'.catalog.advertisements) : AdvertisementOrigin r facts row := by
  cases h with
  | @readvertise providerID instanceID runtime runtimeModelName digest found _ =>
      obtain ⟨old, hold, rfl⟩ := List.mem_map.mp hrow
      split
      · exact .kept hold rfl (by simp [verdictOn])
      · exact .kept hold rfl (by simp [verdictOn])
  | @advertise id providerID instanceID publicID matched runtime runtimeModelName digest hmatched =>
      rcases List.mem_append.mp hrow with hold | hnew
      · exact .kept hold rfl (by simp [verdictOn])
      · obtain rfl := List.mem_singleton.mp hnew
        refine .listed rfl List.mem_cons_self fun versionID hversionID => ?_
        obtain ⟨version, hversion, rfl⟩ := Option.map_eq_some_iff.mp hversionID
        obtain ⟨hmem, -, hname⟩ := hmatched version hversion
        refine ⟨version, hmem, rfl, ?_, hname⟩
        exact congrArg (Option.map ModelVersionRow.modelID) hversion
  | @judge publicID status =>
      obtain ⟨old, hold, rfl⟩ := Table.mem_update.mp hrow
      split
      · rename_i hid
        exact .judged hold rfl (by rw [hid])
      · rename_i hid
        exact .kept hold rfl (by simp [verdictOn, Ne.symm hid])
  | _ => exact .kept hrow rfl (by simp [verdictOn])

/-- An administrator acts on a provider that there is. -/
theorem Registry.Change.subject (h : r.Change now facts r') {fact : Fact} (hfact : fact ∈ facts)
    {id : UUID} (hid : id ∈ subjectOf fact) : ∃ provider ∈ r.providers, provider.id = id := by
  cases h with
  | @decide row approval hrow =>
      obtain rfl := List.mem_singleton.mp hfact
      exact ⟨row, hrow, Option.some.inj hid⟩
  | @disable row hrow =>
      obtain rfl := List.mem_singleton.mp hfact
      exact ⟨row, hrow, Option.some.inj hid⟩
  | same | keys _ | models _ | expire | hardware => cases hfact
  | advertise _ =>
      rcases List.mem_pair.mp hfact with rfl | rfl
      · cases hid
      · cases hid
  | _ =>
      obtain rfl := List.mem_singleton.mp hfact
      cases hid

end Origin

/-! ## The statements -/

/-- A statement that changes the registry, and nothing else but the audit log. -/
structure Registers (now : Nat) (db : DB) (facts : List Fact) (db' : DB) : Prop where
  change : (registry db).Change now facts (registry db')
  others : db' = { db with
    providers := db'.providers, catalog := db'.catalog, auditLog := db'.auditLog }

theorem Registers.refl (now : Nat) (db : DB) : Registers now db [] db := ⟨.same, rfl⟩

section Statements

variable {now : Nat} {db db' : DB} {actorUserID : UUID}

theorem audit_others {action targetType : String} {targetID : UUID}
    (h : audit actorUserID action targetType targetID db = .ok db') :
    db' = { db with auditLog := db'.auditLog } := by
  unfold audit at h
  split at h
  · cases h
  · cases h
    rfl

theorem registers_createProject {id ownerUserID : UUID} {publicID name : String}
    {limit : Option Int64} {row : ProjectRow}
    (h : createProject now id publicID ownerUserID name limit db = .ok (row, db')) :
    Registers now db [.opened row.id row.monthlyCreditLimit] db' ∧ row.id = id ∧
      row.monthlyCreditLimit = limit := by
  obtain ⟨rfl, -, rfl⟩ := createProject_eq_ok h
  exact ⟨⟨.project rfl rfl, rfl⟩, rfl, rfl⟩

theorem registers_createAPIKey {id projectID : UUID} {publicID name keyPrefix keyHash : String}
    {row : APIKeyRow}
    (h : createAPIKey id publicID projectID name keyPrefix keyHash db = .ok (row, db')) :
    Registers now db [] db' := by
  obtain ⟨-, -, -, rfl⟩ := createAPIKey_eq_ok h
  exact ⟨.keys keepsIDs_insert, rfl⟩

theorem registers_revokeAPIKey {projectID : UUID} {keyPublicID : String}
    (h : revokeAPIKey now projectID keyPublicID db = .ok db') : Registers now db [] db' := by
  obtain rfl := revokeAPIKey_eq_ok h
  refine ⟨.keys (keepsIDs_of_exists fun row hrow => ⟨_, List.mem_map_of_mem hrow, ?_⟩), rfl⟩
  unfold APIKeyRow.revoke
  split <;> exact rfl

theorem registers_useAPIKey (apiKeyID : UUID) : Registers now db [] (useAPIKey now apiKeyID db) :=
  ⟨.keys (keepsIDs_update fun _ => rfl), rfl⟩

theorem registers_createModel {id : UUID} {publicID : String} {input : ModelInput} {row : ModelRow}
    (h : createModel id actorUserID publicID input db = .ok (row, db')) :
    Registers now db [] db' := by
  obtain ⟨row', -, h⟩ := eq_ok_of_bind h
  split at h
  · cases h
  · obtain ⟨audited, haudit, h⟩ := eq_ok_of_bind h
    cases h
    rw [audit_others haudit]
    exact ⟨.models keepsIDs_insert, rfl⟩

/-- A patch keeps the id of its row. -/
theorem ModelPatch.update_id {patch : ModelPatch} {old row : ModelRow}
    (h : ModelPatch.update patch old = .ok row) : row.id = old.id := by
  obtain ⟨modality, -, h⟩ := eq_ok_of_bind h
  obtain ⟨status, -, h⟩ := eq_ok_of_bind h
  obtain ⟨ratio, -, h⟩ := eq_ok_of_bind h
  split at h
  · cases h
  · split at h
    · cases h
    · cases h
      rfl

theorem registers_updateModel {modelPublicID : String} {patch : ModelPatch} {row : ModelRow}
    (h : updateModel actorUserID modelPublicID patch db = .ok (row, db')) :
    Registers now db [] db' := by
  obtain ⟨old, -, h⟩ := eq_ok_of_bind h
  obtain ⟨row', hrow, h⟩ := eq_ok_of_bind h
  split at h
  · cases h
  · obtain ⟨audited, haudit, h⟩ := eq_ok_of_bind h
    cases h
    rw [audit_others haudit]
    refine ⟨.models (keepsIDs_of_exists fun other hother =>
      ⟨_, Table.mem_update.mpr ⟨other, hother, rfl⟩, ?_⟩), rfl⟩
    split
    · rename_i hid
      rw [hid, ModelPatch.update_id hrow]
    · rfl

theorem registers_pauseModel {modelPublicID : String}
    (h : pauseModel actorUserID modelPublicID db = .ok db') : Registers now db [] db' := by
  obtain ⟨old, -, h⟩ := eq_ok_of_bind h
  obtain ⟨audited, haudit, h⟩ := eq_ok_of_bind h
  cases h
  rw [audit_others haudit]
  exact ⟨.models (keepsIDs_update fun _ => rfl), rfl⟩

/-- An administrator's statement on a provider finds it by its public id. -/
theorem updateProvider_eq_ok {providerPublicID action : String}
    {change : ProviderRow → ProviderRow} {r : UUID × DB}
    (h : updateProvider actorUserID providerPublicID action change db = .ok r) :
    ∃ row auditLog, Table.select ProviderRow.publicID db.providers providerPublicID = some row ∧
      r = (row.id, { db with
        providers := Table.update ProviderRow.id db.providers row.id change
        auditLog := auditLog }) := by
  unfold updateProvider at h
  split at h
  · split at h
    · cases h
    · rename_i row hselect
      split at h
      · cases h
      · split at h
        · cases h
        · cases h
          exact ⟨row, _, hselect, rfl⟩
  · cases h

theorem registers_updateProviderApproval {providerPublicID : String} {approval : ApprovalStatus}
    (h : updateProviderApproval actorUserID providerPublicID approval db = .ok db') :
    ∃ row, Table.select ProviderRow.publicID db.providers providerPublicID = some row ∧
      Registers now db [.decided row.id approval] db' := by
  obtain ⟨r, hr, rfl⟩ := eq_ok_of_map h
  obtain ⟨row, auditLog, hselect, rfl⟩ := updateProvider_eq_ok hr
  exact ⟨row, hselect, .decide (Table.mem_of_select hselect).1, rfl⟩

theorem registers_disableProvider {providerPublicID : String}
    (h : disableProvider actorUserID providerPublicID db = .ok db') :
    ∃ row, Table.select ProviderRow.publicID db.providers providerPublicID = some row ∧
      Registers now db [.disabled row.id] db' := by
  obtain ⟨r, hr, rfl⟩ := eq_ok_of_map h
  obtain ⟨row, auditLog, hselect, rfl⟩ := updateProvider_eq_ok hr
  exact ⟨row, hselect, .disable (Table.mem_of_select hselect).1, rfl⟩

/-- A hello reports its instance, which is one of the provider's. -/
theorem registers_upsertProviderInstance {id providerID : UUID}
    {publicID instanceKey hostname os arch appVersion : String} {row : InstanceRow}
    (h : upsertProviderInstance now id providerID publicID instanceKey hostname os arch appVersion
      db = .ok (row, db')) :
    Registers now db [.reported row.id .online] db' ∧ row.providerID = providerID ∧
      row ∈ db'.catalog.instances := by
  unfold upsertProviderInstance at h
  split at h
  · split at h
    · rename_i old hfound
      cases h
      have hmem : old ∈ db.catalog.instances := List.mem_of_find?_eq_some hfound
      have howner : old.providerID = providerID ∧ old.instanceKey = instanceKey := by
        simpa using List.find?_some hfound
      have hid : (InstanceRow.connect now hostname os arch appVersion old).id = old.id := rfl
      rw [hid]
      refine ⟨⟨.connect hmem, rfl⟩, howner.1, Table.mem_update.mpr ⟨old, hmem, ?_⟩⟩
      exact if_pos rfl
    · split at h
      · cases h
      · split at h
        · cases h
        · rename_i hfree
          cases h
          refine ⟨⟨.join ?_ rfl rfl, rfl⟩, rfl, List.mem_append_right _ List.mem_cons_self⟩
          refine Table.select_eq_none_iff.mpr fun other hother hid => hfree ?_
          exact List.any_eq_true.mpr ⟨other, hother, by simp [hid]⟩
  · cases h

/-- A heartbeat that succeeds beats the instance. -/
theorem updateProviderHeartbeat_eq_ok {instanceID : UUID} {text : String}
    {currentJobID : Option String}
    (h : updateProviderHeartbeat now instanceID text currentJobID db = .ok db') :
    ∃ status job, instanceStatusOf (if text = "" then "online" else text) = some status ∧
      db' = { db with catalog := { db.catalog with
        instances := Table.update InstanceRow.id db.catalog.instances instanceID
          (InstanceRow.beat now status job) } } := by
  obtain ⟨job, -, h⟩ := eq_ok_of_bind h
  obtain ⟨status, hstatus, h⟩ := eq_ok_of_bind h
  cases h
  exact ⟨status, job, eq_some_of_orError hstatus, rfl⟩

/-- A hardware report that succeeds is a row more. -/
theorem insertHardwareReport_eq_ok {instanceID : UUID} {cpuModel gpuName gpuDriver : String}
    {ramMB gpuVRAMMB : Int64}
    (h : insertHardwareReport instanceID cpuModel ramMB gpuName gpuVRAMMB gpuDriver db = .ok db') :
    ∃ row, row.providerInstanceID = instanceID ∧ db' = { db with catalog := { db.catalog with
      hardwareReports := Table.insert db.catalog.hardwareReports row } } := by
  unfold insertHardwareReport at h
  split at h
  · cases h
  · split at h
    · cases h
    · split at h
      · cases h
      · cases h
        exact ⟨_, rfl, rfl⟩

/-- An upsert writes the table of advertisements, and nothing else. -/
theorem upsertProviderModelAdvertisement_eq_ok {id providerID instanceID : UUID}
    {publicID runtime runtimeModelName digest : String} {unseen : List String}
    {matched : Option ModelVersionRow}
    (h : upsertProviderModelAdvertisement id publicID unseen matched providerID instanceID runtime
      runtimeModelName digest db = .ok db') :
    ∃ advertisements, db' = { db with catalog := { db.catalog with advertisements } } := by
  simp only [upsertProviderModelAdvertisement] at h
  split at h
  · cases h
  · split at h
    · exact ⟨_, (Except.ok.inj h).symm⟩
    · split at h
      · cases h
      · split at h
        · cases h
        · exact ⟨_, (Except.ok.inj h).symm⟩

/-- A heartbeat reports a status that is not offline. -/
theorem registers_updateProviderHeartbeat {instanceID : UUID} {status : InstanceStatus}
    {text : String} {currentJobID : Option String}
    (hstatus : instanceStatusOf (if text = "" then "online" else text) = some status)
    (hreports : status ≠ .offline)
    (h : updateProviderHeartbeat now instanceID text currentJobID db = .ok db') :
    Registers now db [.reported instanceID status] db' := by
  obtain ⟨status', job, hstatus', rfl⟩ := updateProviderHeartbeat_eq_ok h
  obtain rfl := Option.some.inj (hstatus.symm.trans hstatus')
  exact ⟨.beat hreports, rfl⟩

theorem registers_insertHardwareReport {instanceID : UUID} {cpuModel gpuName gpuDriver : String}
    {ramMB gpuVRAMMB : Int64}
    (h : insertHardwareReport instanceID cpuModel ramMB gpuName gpuVRAMMB gpuDriver db = .ok db') :
    Registers now db [] db' := by
  obtain ⟨row, -, rfl⟩ := insertHardwareReport_eq_ok h
  exact ⟨.hardware, rfl⟩

theorem registers_markStale (cutoff : Int) :
    Registers now db [] (markStaleProviderInstancesOffline cutoff db) := ⟨.expire, rfl⟩

/-- What an advertisement shows: that it was made, and whether it is new. -/
def advertisedFacts (publicID : String) (unseen : List String) (providerID instanceID : UUID)
    (runtime runtimeModelName : String) (db : DB) : List Fact :=
  .advertised providerID instanceID runtime runtimeModelName ::
    if db.catalog.advertisements.any fun row =>
        AdvertisementRow.names providerID instanceID runtime runtimeModelName row &&
          !unseen.contains row.publicID then []
    else [.listed publicID]

/-- An advertisement is seen again, or is new and pending, with the version that it matched. -/
theorem registers_upsertProviderModelAdvertisement {id providerID instanceID : UUID}
    {publicID runtime runtimeModelName digest : String} {unseen : List String}
    {matched : Option ModelVersionRow}
    (hmatched : isMatch runtime runtimeModelName db matched = true)
    (h : upsertProviderModelAdvertisement id publicID unseen matched providerID instanceID runtime
      runtimeModelName digest db = .ok db') :
    Registers now db
      (advertisedFacts publicID unseen providerID instanceID runtime runtimeModelName db) db' := by
  have hversion : ∀ version ∈ matched, version ∈ db.catalog.modelVersions ∧
      version.runtime = runtime ∧ version.runtimeModelName = runtimeModelName := by
    rintro version ⟨⟩
    obtain ⟨row, hrow, hfields⟩ := List.any_eq_true.mp hmatched
    obtain ⟨rfl, hruntime, hname, -⟩ := of_decide_eq_true hfields
    exact ⟨hrow, hruntime, hname⟩
  simp only [upsertProviderModelAdvertisement] at h
  unfold advertisedFacts
  split at h
  · cases h
  · split at h
    · rename_i hfound
      cases h
      rw [if_pos hfound]
      exact ⟨.readvertise fun row hrow => (Bool.and_eq_true_iff.mp hrow).1, rfl⟩
    · rename_i hfound
      rw [if_neg hfound]
      split at h
      · cases h
      · split at h
        · cases h
        · cases h
          exact ⟨.advertise hversion, rfl⟩

theorem registers_updateAdvertisementStatus {publicID text : String}
    (h : updateProviderModelAdvertisementStatus actorUserID publicID text db = .ok db') :
    ∃ status, advertisementStatusOf text = some status ∧
      Registers now db [.judged publicID status] db' := by
  unfold updateProviderModelAdvertisementStatus at h
  split at h
  · cases h
  · split at h
    · cases h
    · obtain ⟨status, hstatus, h⟩ := eq_ok_of_bind h
      obtain ⟨audited, haudit, h⟩ := eq_ok_of_bind h
      cases h
      refine ⟨status, ?_, ?_⟩
      · cases hparsed : advertisementStatusOf text with
        | none =>
            rw [hparsed] at hstatus
            cases hstatus
        | some parsed =>
            rw [hparsed] at hstatus
            cases hstatus
            rfl
      · rw [audit_others haudit]
        exact ⟨.judge, rfl⟩

end Statements

end Nuvonode.Repository
