/-
  Repository/Routing.lean --- the queries that lead a request to a provider.

  From `repository/store.go`: the lookups of an API key, a model and a route, and
  the statements that decide which providers and instances can be routed to.  Each
  is one statement outside any transaction, so a query is a function of the
  committed database and an update is a change of it.
-/
import Nuvonode.Repository.Statements

set_option autoImplicit false

namespace Nuvonode.Repository

open Nuvonode.Foundation Nuvonode.Database Nuvonode.Service

/-- A mapped result comes from a result. -/
theorem eq_ok_of_map {ε α β : Type} {f : α → β} {x : Except ε α} {b : β}
    (h : x.map f = .ok b) : ∃ a, x = .ok a ∧ f a = b := by
  cases x with
  | error e => cases h
  | ok a => exact ⟨a, rfl, Except.ok.inj h⟩

/-- A result that is bound comes from a result. -/
theorem eq_ok_of_bind {ε α β : Type} {f : α → Except ε β} {x : Except ε α} {b : β}
    (h : x.bind f = .ok b) : ∃ a, x = .ok a ∧ f a = .ok b := by
  cases x with
  | error e => cases h
  | ok a => exact ⟨a, rfl, h⟩

/-! ## API keys and models -/

/-- What an API key stands for. -/
structure APIKeyAuth where
  userID : UUID
  projectID : UUID
  apiKeyID : UUID
  deriving DecidableEq

/-- The query of `Store.ResolveAPIKey`: an active key of an active project of an active user.
Where it finds one, `useAPIKey` follows as a statement of its own, whose error is dropped. -/
def resolveKeyHash (keyHash : String) (db : DB) : Except Err APIKeyAuth :=
  let found : Option APIKeyAuth := do
    let key ← Table.select APIKeyRow.keyHash db.catalog.apiKeys keyHash
    let project ← Table.select ProjectRow.id db.catalog.projects key.projectID
    let user ← db.user project.ownerUserID
    if key.status = .active ∧ project.status = .active ∧ ¬ project.deleted ∧
        user.status = .active ∧ ¬ user.deleted then
      some { userID := user.id, projectID := project.id, apiKeyID := key.id }
    else none
  found.elim (.error .notFound) .ok

/-- `Store.ActiveModelBySlug`. -/
def activeModelBySlug (slug : String) (db : DB) : Except Err ModelRow :=
  if storable slug then
    match Table.select ModelRow.slug db.catalog.models slug with
    | some model => if model.status = .active ∧ ¬ model.deleted then .ok model else .error .notFound
    | none => .error .notFound
  else .error .invalidText

/-! ## Routes -/

structure RoutableProvider where
  providerID : UUID
  providerPublicID : String
  providerInstanceID : UUID
  modelVersionID : UUID
  runtimeModelName : String
  deriving DecidableEq

/-- The join of `Store.FindRoutableProvider` on four rows. -/
def joinRoute (modelID : UUID) (provider : ProviderRow) (inst : InstanceRow)
    (ad : AdvertisementRow) (version : ModelVersionRow) : Option (Option Nat × RoutableProvider) :=
  if inst.providerID = provider.id ∧ ad.providerID = provider.id ∧
      ad.providerInstanceID = inst.id ∧ ad.modelVersionID = some version.id ∧
      provider.approvalStatus = .approved ∧ provider.status = .active ∧
      inst.status = .online ∧ ad.status = .approved ∧ ad.modelID = some modelID ∧
      version.status = .active then
    some (inst.lastHeartbeatAt,
      { providerID := provider.id, providerPublicID := provider.publicID,
        providerInstanceID := inst.id, modelVersionID := version.id,
        runtimeModelName := version.runtimeModelName })
  else none

/-- The rows that `Store.FindRoutableProvider` orders, with their heartbeats. -/
def routeRows (modelID : UUID) (db : DB) : List (Option Nat × RoutableProvider) :=
  db.providers.flatMap fun provider =>
    db.catalog.instances.flatMap fun inst =>
      db.catalog.advertisements.flatMap fun ad =>
        db.catalog.modelVersions.filterMap (joinRoute modelID provider inst ad)

/-- `ORDER BY last_heartbeat_at DESC`, where `NULL` comes first: `a` may precede `b`. -/
def heartbeatPrecedes : Option Nat → Option Nat → Bool
  | none, _ => true
  | some _, none => false
  | some a, some b => b ≤ a

/-- What `LIMIT 1` may leave: rows with the same heartbeat come in any order. -/
def isRoute (modelID : UUID) (db : DB) (route : RoutableProvider) : Bool :=
  (routeRows modelID db).any fun row => row.2 == route &&
    (routeRows modelID db).all fun other => heartbeatPrecedes row.1 other.1

/-- The answers of `Store.FindRoutableProvider`; no row is `ErrNotFound`. -/
def findsRoute (modelID : UUID) (db : DB) : Option RoutableProvider → Bool
  | some route => isRoute modelID db route
  | none => (routeRows modelID db).isEmpty

/-- A route is an approved, active provider with an online instance of its own whose
advertisement of the model was approved. -/
theorem exists_rows_of_isRoute {modelID : UUID} {db : DB} {route : RoutableProvider}
    (h : isRoute modelID db route = true) :
    ∃ provider ∈ db.providers, ∃ inst ∈ db.catalog.instances,
      ∃ ad ∈ db.catalog.advertisements, ∃ version ∈ db.catalog.modelVersions,
        joinRoute modelID provider inst ad version = some (inst.lastHeartbeatAt, route) := by
  obtain ⟨row, hrow, hboth⟩ := List.any_eq_true.mp h
  obtain ⟨hroute, -⟩ := Bool.and_eq_true_iff.mp hboth
  obtain ⟨provider, hprovider, hrow⟩ := List.mem_flatMap.mp hrow
  obtain ⟨inst, hinst, hrow⟩ := List.mem_flatMap.mp hrow
  obtain ⟨ad, had, hrow⟩ := List.mem_flatMap.mp hrow
  obtain ⟨version, hversion, hjoin⟩ := List.mem_filterMap.mp hrow
  refine ⟨provider, hprovider, inst, hinst, ad, had, version, hversion, ?_⟩
  have hbeat : row.1 = inst.lastHeartbeatAt := by
    unfold joinRoute at hjoin
    split at hjoin
    · rw [← Option.some.inj hjoin]
    · cases hjoin
  rw [hjoin, ← hbeat, ← eq_of_beq hroute]

/-- The four rows that a route is made of. -/
structure RouteRows (modelID : UUID) (db : DB) (route : RoutableProvider) (provider : ProviderRow)
    (inst : InstanceRow) (ad : AdvertisementRow) (version : ModelVersionRow) : Prop where
  provider_mem : provider ∈ db.providers
  inst_mem : inst ∈ db.catalog.instances
  ad_mem : ad ∈ db.catalog.advertisements
  version_mem : version ∈ db.catalog.modelVersions
  conditions : inst.providerID = provider.id ∧ ad.providerID = provider.id ∧
    ad.providerInstanceID = inst.id ∧ ad.modelVersionID = some version.id ∧
    provider.approvalStatus = .approved ∧ provider.status = .active ∧ inst.status = .online ∧
    ad.status = .approved ∧ ad.modelID = some modelID ∧ version.status = .active
  route_eq : route = ⟨provider.id, provider.publicID, inst.id, version.id, version.runtimeModelName⟩

theorem rows_of_findsRoute {modelID : UUID} {db : DB} {route : RoutableProvider}
    (h : findsRoute modelID db (some route) = true) :
    ∃ provider inst ad version, RouteRows modelID db route provider inst ad version := by
  obtain ⟨provider, hprovider, inst, hinst, ad, had, version, hversion, hjoin⟩ :=
    exists_rows_of_isRoute h
  unfold joinRoute at hjoin
  split at hjoin
  · rename_i hconditions
    refine ⟨provider, inst, ad, version, hprovider, hinst, had, hversion, hconditions, ?_⟩
    exact (Prod.mk.inj (Option.some.inj hjoin)).2.symm
  · cases hjoin

/-! ## Approval and instances -/

/-- The text of an approval status. -/
def approvalText : ApprovalStatus → String
  | .pending => "pending"
  | .approved => "approved"
  | .rejected => "rejected"

/-- Change one provider, for an administrator. -/
def updateProvider (actorUserID : UUID) (providerPublicID action : String)
    (change : ProviderRow → ProviderRow) (db : DB) : Except Err (UUID × DB) :=
  if storable providerPublicID then
    match Table.select ProviderRow.publicID db.providers providerPublicID with
    | none => .error .notFound
    | some row =>
        if row.deleted then .error .notFound
        else if (db.user actorUserID).isNone then .error .foreignKey
        else .ok (row.id, { db with
          providers := Table.update ProviderRow.id db.providers row.id change
          auditLog := Table.insert db.auditLog
            { actorUserID, action, targetType := "provider", targetID := row.id } })
  else .error .invalidText

/-- `Store.UpdateProviderApproval`. -/
def updateProviderApproval (actorUserID : UUID) (providerPublicID : String)
    (approval : ApprovalStatus) (db : DB) : Except Err DB :=
  (updateProvider actorUserID providerPublicID ("provider_" ++ approvalText approval)
    (fun row => { row with approvalStatus := approval }) db).map Prod.snd

/-- `Store.DisableProvider`, which takes the provider's instances offline. -/
def disableProvider (actorUserID : UUID) (providerPublicID : String) (db : DB) :
    Except Err DB :=
  (updateProvider actorUserID providerPublicID "provider_disabled"
    (fun row => { row with status := .disabled }) db).map fun r =>
      { r.2 with catalog := { r.2.catalog with
          instances := Table.update InstanceRow.providerID r.2.catalog.instances r.1
            fun row => { row with status := .offline } } }

/-- `Store.ResolveProviderToken`. -/
def resolveProviderToken (tokenHash : String) (db : DB) : Except Err ProviderRow :=
  match db.providers.find? fun row =>
      row.tokenHash = tokenHash ∧ row.status = .active ∧ ¬ row.deleted with
  | some row => .ok row
  | none => .error .notFound

/-- What a hello changes of the instance it names. -/
def InstanceRow.connect (now : Nat) (hostname os arch appVersion : String) (row : InstanceRow) :
    InstanceRow :=
  { row with hostname, os, arch, appVersion, status := .online, lastHeartbeatAt := some now }

/-- `Store.UpsertProviderInstance`, at the time `now`; `id` is the id of a new row. -/
def upsertProviderInstance (now : Nat) (id providerID : UUID) (publicID instanceKey hostname os arch
    appVersion : String) (db : DB) : Except Err (InstanceRow × DB) :=
  if storable instanceKey && storable hostname && storable os && storable arch &&
      storable appVersion then
    match db.catalog.instances.find? fun row =>
        row.providerID = providerID ∧ row.instanceKey = instanceKey with
    | some old =>
        .ok (InstanceRow.connect now hostname os arch appVersion old,
          { db with catalog := { db.catalog with
            instances := Table.update InstanceRow.id db.catalog.instances old.id
              (InstanceRow.connect now hostname os arch appVersion) } })
    | none =>
        if (db.provider providerID).isNone then .error .foreignKey
        else if db.catalog.instances.any fun row => row.id = id ∨ row.publicID = publicID then
          .error .duplicateKey
        else
          let row : InstanceRow :=
            { id, publicID, providerID, instanceKey, hostname, os, arch, appVersion,
              status := .online, lastHeartbeatAt := some now, currentJobID := none }
          .ok (row, { db with catalog := { db.catalog with
            instances := Table.insert db.catalog.instances row } })
  else .error .invalidText

/-- A hello changes the catalog alone, and deletes nothing. -/
theorem follows_upsertProviderInstance {now : Nat} {id providerID : UUID}
    {publicID instanceKey hostname os arch appVersion : String} {db db' : DB} {row : InstanceRow}
    (h : upsertProviderInstance now id providerID publicID instanceKey hostname os arch appVersion
      db = .ok (row, db')) :
    db' = { db with catalog := db'.catalog } ∧
      catalogFollows db.catalog db'.catalog = true := by
  unfold upsertProviderInstance at h
  split at h
  · split at h
    · cases h
      refine ⟨rfl, ?_⟩
      simp only [catalogFollows, keepsIDs_refl, Bool.true_and]
      exact keepsIDs_update fun _ => rfl
    · split at h
      · cases h
      · split at h
        · cases h
        · cases h
          refine ⟨rfl, ?_⟩
          simp only [catalogFollows, keepsIDs_refl, Bool.true_and]
          exact keepsIDs_insert
  · cases h

end Nuvonode.Repository
