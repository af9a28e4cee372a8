/-
  Repository/Catalog.lean --- the statements on projects, keys, models and instances.

  From `repository/store.go`: what the dashboard, the administrators and the sessions of
  the providers write outside any transaction.  Each function is one statement, and what
  it does to the committed database.  A time is in microseconds, the resolution of
  `now()`; generated ids are arguments.
-/
import Nuvonode.Repository.Routing

set_option autoImplicit false

namespace Nuvonode.Repository

open Nuvonode.Foundation Nuvonode.Database Nuvonode.Service

/-- The audit row of an administrator's statement, which must be a user. -/
def audit (actorUserID : UUID) (action targetType : String) (targetID : UUID) (db : DB) :
    Except Err DB :=
  if (db.user actorUserID).isNone then .error .foreignKey
  else .ok { db with
    auditLog := Table.insert db.auditLog { actorUserID, action, targetType, targetID } }

/-! ## Projects and API keys -/

/-- The year and the month of a day, counted from 1970-01-01. -/
def civilMonth (day : Nat) : Nat × Nat :=
  -- Eras of 400 years, whose years begin in March.
  let era := (day + 719468) / 146097
  let dayOfEra := (day + 719468) % 146097
  let yearOfEra := (dayOfEra - dayOfEra / 1460 + dayOfEra / 36524 - dayOfEra / 146096) / 365
  let dayOfYear := dayOfEra - (365 * yearOfEra + yearOfEra / 4 - yearOfEra / 100)
  let month := (5 * dayOfYear + 2) / 153
  if month < 10 then (400 * era + yearOfEra, month + 3)
  else (400 * era + yearOfEra + 1, month - 9)

/-- `to_char(now(), 'YYYY-MM')`, in UTC. -/
def spendPeriod (now : Nat) : String :=
  let (year, month) := civilMonth (now / 86400000000)
  let pad (width n : Nat) : List Char :=
    List.replicate (width - (Nat.toDigits 10 n).length) '0' ++ Nat.toDigits 10 n
  String.ofList (pad 4 year ++ ['-'] ++ pad 2 month)

example : spendPeriod 1735689599999999 = "2024-12" ∧ spendPeriod 1735689600000000 = "2025-01" := by
  decide +kernel

/-- `Store.CreateProject`, with the defaults of the table. -/
def createProject (now : Nat) (id : UUID) (publicID : String) (ownerUserID : UUID) (name : String)
    (limit : Option Int64) (db : DB) : Except Err (ProjectRow × DB) :=
  if !(storable publicID && storable name) then .error .invalidText
  else if db.catalog.projects.any fun row => row.id = id ∨ row.publicID = publicID then
    .error .duplicateKey
  else if (db.user ownerUserID).isNone then .error .foreignKey
  else
    let row : ProjectRow :=
      { id, publicID, ownerUserID, name, status := .active, monthlyCreditLimit := limit,
        currentMonthSpend := 0, spendPeriod := spendPeriod now, deleted := false }
    .ok (row, { db with catalog := { db.catalog with
      projects := Table.insert db.catalog.projects row } })

/-- `Store.ProjectByPublicIDForOwner`. -/
def projectByPublicIDForOwner (ownerUserID : UUID) (projectPublicID : String) (db : DB) :
    Except Err ProjectRow :=
  if storable projectPublicID then
    (db.catalog.projects.find? fun row =>
      row.ownerUserID = ownerUserID ∧ row.publicID = projectPublicID ∧ ¬ row.deleted).elim
        (.error .notFound) .ok
  else .error .invalidText

/-- `Store.CreateAPIKey`. -/
def createAPIKey (id : UUID) (publicID : String) (projectID : UUID) (name keyPrefix : String)
    (keyHash : String) (db : DB) : Except Err (APIKeyRow × DB) :=
  if !(storable publicID && storable name) then .error .invalidText
  else if db.catalog.apiKeys.any fun row =>
      row.id = id ∨ row.publicID = publicID ∨ row.keyHash = keyHash then .error .duplicateKey
  else if !db.catalog.projects.any fun row => row.id = projectID then .error .foreignKey
  else
    let row : APIKeyRow :=
      { id, publicID, projectID, name, keyPrefix, keyHash, status := .active
        lastUsedAt := none, revokedAt := none }
    .ok (row, { db with catalog := { db.catalog with
      apiKeys := Table.insert db.catalog.apiKeys row } })

/-- What `Store.RevokeAPIKey` does to a row. -/
def APIKeyRow.revoke (now : Nat) (projectID : UUID) (keyPublicID : String) (row : APIKeyRow) :
    APIKeyRow :=
  if row.projectID = projectID ∧ row.publicID = keyPublicID ∧ row.status = .active then
    { row with status := .revoked, revokedAt := some now }
  else row

/-- `Store.RevokeAPIKey`. -/
def revokeAPIKey (now : Nat) (projectID : UUID) (keyPublicID : String) (db : DB) :
    Except Err DB :=
  if !storable keyPublicID then .error .invalidText
  else if db.catalog.apiKeys.any fun row =>
      row.projectID = projectID ∧ row.publicID = keyPublicID ∧ row.status = .active then
    .ok { db with catalog := { db.catalog with
      apiKeys := db.catalog.apiKeys.map (APIKeyRow.revoke now projectID keyPublicID) } }
  else .error .notFound

/-- What the second statement of `Store.ResolveAPIKey` does to a row. -/
def APIKeyRow.use (now : Nat) (row : APIKeyRow) : APIKeyRow :=
  { row with lastUsedAt := some now }

/-- The second statement of `Store.ResolveAPIKey`: the use of a key that was found. -/
def useAPIKey (now : Nat) (apiKeyID : UUID) (db : DB) : DB :=
  { db with catalog := { db.catalog with
    apiKeys := Table.update APIKeyRow.id db.catalog.apiKeys apiKeyID (APIKeyRow.use now) } }

section Keys

variable {id ownerUserID projectID : UUID} {publicID name : String} {db db' : DB}

/-- A project that is stored: its ids were free, and only the table of projects is written. -/
theorem createProject_eq_ok {now : Nat} {limit : Option Int64} {row : ProjectRow}
    (h : createProject now id publicID ownerUserID name limit db = .ok (row, db')) :
    row =
        { id, publicID, ownerUserID, name, status := .active, monthlyCreditLimit := limit,
          currentMonthSpend := 0, spendPeriod := spendPeriod now, deleted := false } ∧
      (∀ other ∈ db.catalog.projects, other.id ≠ id ∧ other.publicID ≠ publicID) ∧
      db' = { db with catalog := { db.catalog with
        projects := Table.insert db.catalog.projects row } } := by
  unfold createProject at h
  split at h
  · cases h
  · split at h
    · cases h
    · rename_i hfree
      split at h
      · cases h
      · cases h
        refine ⟨rfl, fun other hother => ⟨fun hid => ?_, fun hpublicID => ?_⟩, rfl⟩
        · exact hfree (List.any_eq_true.mpr ⟨other, hother, decide_eq_true (.inl hid)⟩)
        · exact hfree (List.any_eq_true.mpr ⟨other, hother, decide_eq_true (.inr hpublicID)⟩)

/-- A project that is found is one of its owner. -/
theorem projectByPublicIDForOwner_eq_ok {projectPublicID : String} {project : ProjectRow}
    (h : projectByPublicIDForOwner ownerUserID projectPublicID db = .ok project) :
    project ∈ db.catalog.projects ∧ project.ownerUserID = ownerUserID ∧
      project.publicID = projectPublicID := by
  unfold projectByPublicIDForOwner at h
  split at h
  · cases hfound : db.catalog.projects.find? fun row =>
        row.ownerUserID = ownerUserID ∧ row.publicID = projectPublicID ∧ ¬ row.deleted with
    | none =>
        rw [hfound] at h
        cases h
    | some row =>
        rw [hfound] at h
        obtain rfl := Except.ok.inj h
        have hfields := List.find?_some hfound
        simp only [decide_eq_true_eq] at hfields
        exact ⟨List.mem_of_find?_eq_some hfound, hfields.1, hfields.2.1⟩
  · cases h

/-- A key that is stored: its id and its hash were free, and only the table of keys is written. -/
theorem createAPIKey_eq_ok {keyPrefix keyHash : String} {row : APIKeyRow}
    (h : createAPIKey id publicID projectID name keyPrefix keyHash db = .ok (row, db')) :
    row =
        { id, publicID, projectID, name, keyPrefix, keyHash, status := .active
          lastUsedAt := none, revokedAt := none } ∧
      Table.select APIKeyRow.id db.catalog.apiKeys id = none ∧
      Table.select APIKeyRow.keyHash db.catalog.apiKeys keyHash = none ∧
      db' = { db with catalog := { db.catalog with
        apiKeys := Table.insert db.catalog.apiKeys row } } := by
  unfold createAPIKey at h
  split at h
  · cases h
  · split at h
    · cases h
    · rename_i hfree
      split at h
      · cases h
      · cases h
        refine ⟨rfl, Table.select_eq_none_iff.mpr fun row hrow hid => ?_,
          Table.select_eq_none_iff.mpr fun row hrow hhash => ?_, rfl⟩
        · exact hfree (List.any_eq_true.mpr ⟨row, hrow, decide_eq_true (.inl hid)⟩)
        · exact hfree (List.any_eq_true.mpr ⟨row, hrow, decide_eq_true (.inr (.inr hhash))⟩)

/-- A revocation writes the table of keys, and nothing else. -/
theorem revokeAPIKey_eq_ok {now : Nat} {keyPublicID : String}
    (h : revokeAPIKey now projectID keyPublicID db = .ok db') :
    db' = { db with catalog := { db.catalog with
      apiKeys := db.catalog.apiKeys.map (APIKeyRow.revoke now projectID keyPublicID) } } := by
  unfold revokeAPIKey at h
  split at h
  · cases h
  · split at h
    · cases h
      rfl
    · cases h

end Keys

/-! ## Models -/

/-- `domain.ModelInput`.  A `float64` is the shortest decimal that is decoded to it, so the text
`1e-400` is 0. -/
structure ModelInput where
  slug : String
  displayName : String
  description : String
  family : String
  modality : String
  status : String
  contextLength : Int64
  defaultMaxOutputTokens : Int64
  inputCreditPer1K : Int64
  outputCreditPer1K : Int64
  providerRewardRatio : ℚ
  minVRAMMB : Int64
  recommendedVRAMMB : Int64
  licenseName : String
  licenseURL : Option String
  licenseNotes : String
  communityAllowed : Bool
  externalOnly : Bool
  deriving DecidableEq

/-- `domain.ModelPatch`. -/
structure ModelPatch where
  slug : Option String
  displayName : Option String
  description : Option String
  family : Option String
  modality : Option String
  status : Option String
  contextLength : Option Int64
  defaultMaxOutputTokens : Option Int64
  inputCreditPer1K : Option Int64
  outputCreditPer1K : Option Int64
  providerRewardRatio : Option ℚ
  minVRAMMB : Option Int64
  recommendedVRAMMB : Option Int64
  licenseName : Option String
  licenseURL : Option String
  licenseNotes : Option String
  communityAllowed : Option Bool
  externalOnly : Option Bool
  deriving DecidableEq

/-- `CHECK (modality IN (...))`. -/
def modalityOf (text : String) : Option Modality :=
  if text = "text" then some .text
  else if text = "embedding" then some .embedding
  else if text = "image" then some .image
  else if text = "audio" then some .audio
  else none

/-- `CHECK (status IN ('active', 'paused', 'deprecated'))`. -/
def modelStatusOf (text : String) : Option ModelStatus :=
  if text = "active" then some .active
  else if text = "paused" then some .paused
  else if text = "deprecated" then some .deprecated
  else none

/-- Whether a number of a request fits an `INT` column. -/
def fitsColumn (n : Int64) : Bool := fitsInt4 n.toInt

/-- A value, or an error where there is none. -/
def orError {α : Type} (e : Err) (value : Option α) : Except Err α := value.elim (.error e) .ok

theorem eq_some_of_orError {α : Type} {e : Err} {value : Option α} {a : α}
    (h : orError e value = .ok a) : value = some a := by
  cases value with
  | none => cases h
  | some b =>
      cases h
      rfl

/-- The row that `Store.CreateModel` inserts, where every column takes its value. -/
def ModelInput.row (input : ModelInput) (id : UUID) (publicID : String) : Except Err ModelRow := do
  let modality ← orError .checkViolation (modalityOf input.modality)
  let status ← orError .checkViolation (modelStatusOf input.status)
  let ratio ← orError .outOfRange (numericStore 6 4 input.providerRewardRatio)
  if !(fitsColumn input.contextLength && fitsColumn input.defaultMaxOutputTokens &&
      fitsColumn input.minVRAMMB && fitsColumn input.recommendedVRAMMB) then .error .outOfRange
  else if !(storable publicID && storable input.slug && storable input.displayName &&
      storable input.description && storable input.family && storable input.licenseName &&
      input.licenseURL.all storable && storable input.licenseNotes) then .error .invalidText
  else
    .ok {
      id := id
      publicID := publicID
      slug := input.slug
      displayName := input.displayName
      description := input.description
      family := input.family
      modality := modality
      status := status
      contextLength := input.contextLength.toInt
      defaultMaxOutputTokens := input.defaultMaxOutputTokens.toInt
      inputCreditPer1K := input.inputCreditPer1K
      outputCreditPer1K := input.outputCreditPer1K
      providerRewardRatio := ratio
      minVRAMMB := input.minVRAMMB.toInt
      recommendedVRAMMB := input.recommendedVRAMMB.toInt
      licenseName := input.licenseName
      licenseURL := input.licenseURL
      licenseNotes := input.licenseNotes
      communityAllowed := input.communityAllowed
      externalOnly := input.externalOnly
      deleted := false }

/-- `Store.CreateModel`. -/
def createModel (id actorUserID : UUID) (publicID : String) (input : ModelInput) (db : DB) :
    Except Err (ModelRow × DB) := do
  let row ← input.row id publicID
  if db.catalog.models.any fun other =>
      other.id = id ∨ other.publicID = publicID ∨ other.slug = row.slug then .error .duplicateKey
  else do
    let audited ← audit actorUserID "model_created" "model" id db
    return (row, { audited with catalog := { db.catalog with
      models := Table.insert db.catalog.models row } })

/-- A stored value, unless the patch has one: `COALESCE($n, column)`. -/
def coalesce {α : Type} (patch : Option α) (column : α) : α := patch.getD column

/-- What `Store.UpdateModel` makes of a row, where every column takes its value. -/
def ModelPatch.update (patch : ModelPatch) (row : ModelRow) : Except Err ModelRow := do
  let modality ← patch.modality.elim (.ok row.modality) fun text =>
    orError .checkViolation (modalityOf text)
  let status ← patch.status.elim (.ok row.status) fun text =>
    orError .checkViolation (modelStatusOf text)
  let ratio ← patch.providerRewardRatio.elim (.ok row.providerRewardRatio) fun ratio =>
    orError .outOfRange (numericStore 6 4 ratio)
  if !(patch.contextLength.all fitsColumn && patch.defaultMaxOutputTokens.all fitsColumn &&
      patch.minVRAMMB.all fitsColumn && patch.recommendedVRAMMB.all fitsColumn) then
    .error .outOfRange
  else if !(patch.slug.all storable && patch.displayName.all storable &&
      patch.description.all storable && patch.family.all storable &&
      patch.licenseName.all storable && patch.licenseURL.all storable &&
      patch.licenseNotes.all storable) then .error .invalidText
  else
    .ok { row with
      slug := coalesce patch.slug row.slug
      displayName := coalesce patch.displayName row.displayName
      description := coalesce patch.description row.description
      family := coalesce patch.family row.family
      modality := modality
      status := status
      contextLength := coalesce (patch.contextLength.map Int64.toInt) row.contextLength
      defaultMaxOutputTokens :=
        coalesce (patch.defaultMaxOutputTokens.map Int64.toInt) row.defaultMaxOutputTokens
      inputCreditPer1K := coalesce patch.inputCreditPer1K row.inputCreditPer1K
      outputCreditPer1K := coalesce patch.outputCreditPer1K row.outputCreditPer1K
      providerRewardRatio := ratio
      minVRAMMB := coalesce (patch.minVRAMMB.map Int64.toInt) row.minVRAMMB
      recommendedVRAMMB := coalesce (patch.recommendedVRAMMB.map Int64.toInt) row.recommendedVRAMMB
      licenseName := coalesce patch.licenseName row.licenseName
      licenseURL := patch.licenseURL.or row.licenseURL
      licenseNotes := coalesce patch.licenseNotes row.licenseNotes
      communityAllowed := coalesce patch.communityAllowed row.communityAllowed
      externalOnly := coalesce patch.externalOnly row.externalOnly }

/-- A model that is not deleted, by its public id. -/
def modelByPublicID (modelPublicID : String) (db : DB) : Except Err ModelRow :=
  if storable modelPublicID then
    match Table.select ModelRow.publicID db.catalog.models modelPublicID with
    | some row => if row.deleted then .error .notFound else .ok row
    | none => .error .notFound
  else .error .invalidText

/-- A model that is found has its public id. -/
theorem select_of_modelByPublicID {modelPublicID : String} {db : DB} {old : ModelRow}
    (h : modelByPublicID modelPublicID db = .ok old) :
    Table.select ModelRow.publicID db.catalog.models modelPublicID = some old := by
  unfold modelByPublicID at h
  split at h
  · split at h
    · rename_i row hselect
      split at h
      · cases h
      · cases h
        exact hselect
    · cases h
  · cases h

/-- `Store.UpdateModel`. -/
def updateModel (actorUserID : UUID) (modelPublicID : String) (patch : ModelPatch) (db : DB) :
    Except Err (ModelRow × DB) := do
  let old ← modelByPublicID modelPublicID db
  let row ← patch.update old
  if db.catalog.models.any fun other => other.id ≠ old.id ∧ other.slug = row.slug then
    .error .duplicateKey
  else do
    let audited ← audit actorUserID "model_updated" "model" old.id db
    return (row, { audited with catalog := { db.catalog with
      models := Table.update ModelRow.id db.catalog.models old.id fun _ => row } })

/-- `Store.PauseModel`. -/
def pauseModel (actorUserID : UUID) (modelPublicID : String) (db : DB) : Except Err DB := do
  let old ← modelByPublicID modelPublicID db
  let audited ← audit actorUserID "model_paused" "model" old.id db
  return { audited with catalog := { db.catalog with
    models := Table.update ModelRow.id db.catalog.models old.id
      fun row => { row with status := .paused } } }

/-! ## Instances -/

/-- `CHECK (status IN ('online', 'offline', 'busy', 'draining'))`. -/
def instanceStatusOf (text : String) : Option InstanceStatus :=
  if text = "online" then some .online
  else if text = "offline" then some .offline
  else if text = "busy" then some .busy
  else if text = "draining" then some .draining
  else none

/-- The value of a hexadecimal digit. -/
def hexDigit (c : Char) : Option Nat :=
  if '0' ≤ c ∧ c ≤ '9' then some (c.toNat - '0'.toNat)
  else if 'a' ≤ c ∧ c ≤ 'f' then some (c.toNat - 'a'.toNat + 10)
  else if 'A' ≤ c ∧ c ≤ 'F' then some (c.toNat - 'A'.toNat + 10)
  else none

/-- The bytes of a UUID, with a hyphen allowed after every second one. -/
def uuidBytes : Nat → Nat → List Char → Option (Nat × List Char)
  | 0, value, rest => some (value, rest)
  | left + 1, value, high :: low :: rest => do
      let high ← hexDigit high
      let low ← hexDigit low
      let rest := if left % 2 = 0 ∧ 0 < left ∧ rest.head? = some '-' then rest.tail else rest
      uuidBytes left (256 * value + 16 * high + low) rest
  | _ + 1, _, _ => none

/-- `uuid_in`: what a text is as a UUID. -/
def uuidOf (text : String) : Option UUID := do
  let chars := text.toList
  let braces := chars.head? = some '{'
  let (value, rest) ← uuidBytes 16 0 (if braces then chars.tail else chars)
  if rest = (if braces then ['}'] else []) then some value else none

/-- What `Store.UpdateProviderHeartbeat` does to a row. -/
def InstanceRow.beat (now : Nat) (status : InstanceStatus) (currentJobID : Option UUID)
    (row : InstanceRow) : InstanceRow :=
  { row with status, currentJobID, lastHeartbeatAt := some now }

/-- `Store.UpdateProviderHeartbeat`, at the time `now`. -/
def updateProviderHeartbeat (now : Nat) (instanceID : UUID) (status : String)
    (currentJobID : Option String) (db : DB) : Except Err DB := do
  let job ← currentJobID.elim (.ok none) fun text => (orError .invalidText (uuidOf text)).map some
  let status ← orError .checkViolation (instanceStatusOf (if status = "" then "online" else status))
  return { db with catalog := { db.catalog with
    instances := Table.update InstanceRow.id db.catalog.instances instanceID
      (InstanceRow.beat now status job) } }

/-- `Store.InsertHardwareReport`, but for the raw report. -/
def insertHardwareReport (instanceID : UUID) (cpuModel : String) (ramMB : Int64) (gpuName : String)
    (gpuVRAMMB : Int64) (gpuDriver : String) (db : DB) : Except Err DB :=
  if !(fitsColumn ramMB && fitsColumn gpuVRAMMB) then .error .outOfRange
  else if !(storable cpuModel && storable gpuName && storable gpuDriver) then .error .invalidText
  else if !db.catalog.instances.any fun row => row.id = instanceID then .error .foreignKey
  else
    let row : HardwareReportRow :=
      { providerInstanceID := instanceID, cpuModel, ramMB := ramMB.toInt, gpuName,
        gpuVRAMMB := gpuVRAMMB.toInt, gpuDriver }
    .ok { db with catalog := { db.catalog with
      hardwareReports := Table.insert db.catalog.hardwareReports row } }

/-- What a sweep does to a row. -/
def InstanceRow.expire (cutoff : Int) (row : InstanceRow) : InstanceRow :=
  if (row.status = .online ∨ row.status = .busy ∨ row.status = .draining) ∧
      ∃ beat ∈ row.lastHeartbeatAt, (beat : Int) < cutoff then
    { row with status := .offline }
  else row

@[simp] theorem InstanceRow.expire_id (cutoff : Int) (row : InstanceRow) :
    (InstanceRow.expire cutoff row).id = row.id := by
  unfold InstanceRow.expire
  split <;> rfl

/-- `Store.MarkStaleProviderInstancesOffline`. -/
def markStaleProviderInstancesOffline (cutoff : Int) (db : DB) : DB :=
  { db with catalog := { db.catalog with
    instances := db.catalog.instances.map (InstanceRow.expire cutoff) } }

/-! ## Advertisements -/

/-- What the CTE `matched` may select: an active version of the runtime and the name, and
`none` only where there is no such version. -/
def isMatch (runtime runtimeModelName : String) (db : DB) : Option ModelVersionRow → Bool
  | some version => db.catalog.modelVersions.any fun row => row = version ∧
      row.runtime = runtime ∧ row.runtimeModelName = runtimeModelName ∧ row.status = .active
  | none => !db.catalog.modelVersions.any fun row =>
      row.runtime = runtime ∧ row.runtimeModelName = runtimeModelName ∧ row.status = .active

/-- Whether an advertisement is the one that a `provider.model_list` names. -/
def AdvertisementRow.names (providerID instanceID : UUID) (runtime runtimeModelName : String)
    (row : AdvertisementRow) : Bool :=
  row.providerID = providerID ∧ row.providerInstanceID = instanceID ∧ row.runtime = runtime ∧
    row.runtimeModelName = runtimeModelName

/-- The row of a new advertisement. -/
def AdvertisementRow.pending (id : UUID) (publicID : String) (matched : Option ModelVersionRow)
    (providerID instanceID : UUID) (runtime runtimeModelName digest : String) :
    AdvertisementRow where
  id := id
  publicID := publicID
  providerID := providerID
  providerInstanceID := instanceID
  modelID := matched.map ModelVersionRow.modelID
  modelVersionID := matched.map ModelVersionRow.id
  runtime := runtime
  runtimeModelName := runtimeModelName
  localDigest := digest
  status := .pending

/-- `Store.UpsertProviderModelAdvertisement`.  The advertisements `unseen` were committed
after the statement took its snapshot, so it does not find them. -/
def upsertProviderModelAdvertisement (id : UUID) (publicID : String) (unseen : List String)
    (matched : Option ModelVersionRow) (providerID instanceID : UUID)
    (runtime runtimeModelName digest : String) (db : DB) : Except Err DB :=
  let found (row : AdvertisementRow) : Bool :=
    AdvertisementRow.names providerID instanceID runtime runtimeModelName row &&
      !unseen.contains row.publicID
  if !(storable runtime && storable runtimeModelName && storable digest) then .error .invalidText
  else if db.catalog.advertisements.any found then
    .ok { db with catalog := { db.catalog with
      advertisements := db.catalog.advertisements.map fun row =>
        if found row then { row with localDigest := digest } else row } }
  else if db.catalog.advertisements.any fun row => row.id = id ∨ row.publicID = publicID then
    .error .duplicateKey
  else if (db.provider providerID).isNone ||
      !db.catalog.instances.any fun row => row.id = instanceID then .error .foreignKey
  else
    .ok { db with catalog := { db.catalog with
      advertisements := Table.insert db.catalog.advertisements
        (AdvertisementRow.pending id publicID matched providerID instanceID runtime
          runtimeModelName digest) } }

/-- `CHECK (status IN ('pending', 'approved', 'rejected', 'disabled'))`. -/
def advertisementStatusOf (text : String) : Option AdvertisementStatus :=
  if text = "pending" then some .pending
  else if text = "approved" then some .approved
  else if text = "rejected" then some .rejected
  else if text = "disabled" then some .disabled
  else none

/-- `Store.UpdateProviderModelAdvertisementStatus`. -/
def updateProviderModelAdvertisementStatus (actorUserID : UUID) (publicID status : String)
    (db : DB) : Except Err DB :=
  if !storable publicID then .error .invalidText
  else match Table.select AdvertisementRow.publicID db.catalog.advertisements publicID with
    | none => .error .notFound
    | some row => do
        let newStatus ← orError .checkViolation (advertisementStatusOf status)
        let audited ← audit actorUserID ("provider_model_advertisement_" ++ status)
          "provider_model_advertisement" row.id db
        return { audited with catalog := { db.catalog with
          advertisements := Table.update AdvertisementRow.publicID db.catalog.advertisements
            publicID fun row => { row with status := newStatus } } }

end Nuvonode.Repository
