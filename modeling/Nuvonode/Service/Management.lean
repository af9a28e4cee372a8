/-
  Service/Management.lean --- what users, administrators and providers may change.

  From `service/services.go`: the checks that `ProjectService`, `AdminService` and
  `ProviderService` make before their statements, and the lookup of the user that
  sends a request.
-/
import Nuvonode.Repository.Catalog

set_option autoImplicit false

namespace Nuvonode.Service

open Nuvonode.Foundation Nuvonode.Database Nuvonode.Repository

/-- `AuthService.UserFromJWT`, of the public id in a token that is valid. -/
def userFromJWT (userPublicID : String) (db : DB) : Except Err UserRow :=
  if storable userPublicID then
    match Table.select UserRow.publicID db.users userPublicID with
    | some user => if user.deleted then .error .notFound else .ok user
    | none => .error .notFound
  else .error .invalidText

/-! ## The `ProjectService` -/

/-- `ProjectService.Create`. -/
def projectCreate (now : Nat) (id : UUID) (publicID : String) (user : UserRow) (name : String)
    (limit : Option Int64) (db : DB) : Except Err (ProjectRow × DB) :=
  if trimSpace name = "" then .error .invalidInput
  else createProject now id publicID user.id (trimSpace name) limit db

/-- `ProjectService.CreateAPIKey`; the key and its prefix are random. -/
def projectCreateAPIKey (P : Platform) (cfg : Config) (id : UUID)
    (publicID plaintext keyPrefix : String) (user : UserRow) (projectPublicID name : String)
    (db : DB) : Except Err (APIKeyRow × DB) := do
  let project ← projectByPublicIDForOwner user.id projectPublicID db
  if trimSpace name = "" then Except.error Err.invalidInput else
    createAPIKey id publicID project.id (trimSpace name) keyPrefix
      (P.hashToken cfg.apiKeyPepper plaintext) db

/-- `ProjectService.RevokeAPIKey`. -/
def projectRevokeAPIKey (now : Nat) (user : UserRow) (projectPublicID keyPublicID : String)
    (db : DB) : Except Err DB := do
  let project ← projectByPublicIDForOwner user.id projectPublicID db
  revokeAPIKey now project.id keyPublicID db

section Projects

variable {id : UUID} {publicID name projectPublicID : String} {user : UserRow} {db db' : DB}

theorem projectCreate_eq_ok {now : Nat} {limit : Option Int64} {row : ProjectRow}
    (h : projectCreate now id publicID user name limit db = .ok (row, db')) :
    createProject now id publicID user.id (trimSpace name) limit db = .ok (row, db') := by
  unfold projectCreate at h
  split at h
  · cases h
  · exact h

/-- A key is created for a project of the user. -/
theorem projectCreateAPIKey_eq_ok {P : Platform} {cfg : Config} {plaintext keyPrefix : String}
    {row : APIKeyRow}
    (h : projectCreateAPIKey P cfg id publicID plaintext keyPrefix user projectPublicID name db =
      .ok (row, db')) :
    ∃ project, projectByPublicIDForOwner user.id projectPublicID db = .ok project ∧
      createAPIKey id publicID project.id (trimSpace name) keyPrefix
        (P.hashToken cfg.apiKeyPepper plaintext) db = .ok (row, db') := by
  obtain ⟨project, hproject, h⟩ := eq_ok_of_bind h
  refine ⟨project, hproject, ?_⟩
  split at h
  · cases h
  · exact h

/-- A key is revoked in a project of the user. -/
theorem projectRevokeAPIKey_eq_ok {now : Nat} {keyPublicID : String}
    (h : projectRevokeAPIKey now user projectPublicID keyPublicID db = .ok db') :
    ∃ project, projectByPublicIDForOwner user.id projectPublicID db = .ok project ∧
      revokeAPIKey now project.id keyPublicID db = .ok db' :=
  eq_ok_of_bind h

end Projects

/-! ## The `AdminService` -/

/-- What only an administrator may do. -/
def adminOnly {α : Type} (user : UserRow) (result : Except Err α) : Except Err α :=
  if user.role = .admin then result else .error .forbidden

/-- Only an administrator's request gets past the check. -/
theorem eq_ok_of_adminOnly {α : Type} {user : UserRow} {result : Except Err α} {a : α}
    (h : adminOnly user result = .ok a) : user.role = .admin ∧ result = .ok a := by
  unfold adminOnly at h
  split at h
  · exact ⟨‹_›, h⟩
  · cases h

/-- A default for a field that is left out of a request. -/
def defaultsTo {α : Type} [DecidableEq α] (missing default value : α) : α :=
  if value = missing then default else value

/-- `normalizeModelInput`. -/
def normalizeModelInput (input : ModelInput) : ModelInput :=
  { input with
    slug := trimSpace input.slug
    displayName := trimSpace input.displayName
    description := trimSpace input.description
    family := trimSpace input.family
    modality := defaultsTo "" "text" (trimSpace input.modality)
    status := defaultsTo "" "active" (trimSpace input.status)
    contextLength := defaultsTo 0 4096 input.contextLength
    defaultMaxOutputTokens := defaultsTo 0 1024 input.defaultMaxOutputTokens
    inputCreditPer1K := defaultsTo 0 10 input.inputCreditPer1K
    outputCreditPer1K := defaultsTo 0 20 input.outputCreditPer1K
    providerRewardRatio := defaultsTo 0 (7 / 10) input.providerRewardRatio
    minVRAMMB := defaultsTo 0 8192 input.minVRAMMB
    recommendedVRAMMB := defaultsTo 0 12288 input.recommendedVRAMMB
    licenseName := defaultsTo "" "unknown" (trimSpace input.licenseName)
    licenseNotes := trimSpace input.licenseNotes }

/-- `normalizeModelPatch`. -/
def normalizeModelPatch (patch : ModelPatch) : ModelPatch :=
  { patch with
    slug := patch.slug.map trimSpace
    displayName := patch.displayName.map trimSpace
    description := patch.description.map trimSpace
    family := patch.family.map trimSpace
    modality := patch.modality.map trimSpace
    status := patch.status.map trimSpace
    licenseName := patch.licenseName.map trimSpace
    licenseNotes := patch.licenseNotes.map trimSpace }

/-- `validModality`. -/
def validModality (text : String) : Bool :=
  text = "text" || text = "embedding" || text = "image" || text = "audio"

/-- `validModelStatus`. -/
def validModelStatus (text : String) : Bool :=
  text = "active" || text = "paused" || text = "deprecated"

/-- `validModelInput`. -/
def validModelInput (input : ModelInput) : Bool :=
  input.slug ≠ "" && input.displayName ≠ "" && input.family ≠ "" &&
  validModality input.modality && validModelStatus input.status &&
  0 < input.contextLength && 0 < input.defaultMaxOutputTokens &&
  0 ≤ input.inputCreditPer1K && 0 ≤ input.outputCreditPer1K &&
  0 ≤ input.providerRewardRatio && input.providerRewardRatio ≤ 1 &&
  0 ≤ input.minVRAMMB && 0 ≤ input.recommendedVRAMMB

/-- `validModelPatch`. -/
def validModelPatch (patch : ModelPatch) : Bool :=
  patch.slug ≠ some "" && patch.displayName ≠ some "" && patch.family ≠ some "" &&
  patch.modality.all validModality && patch.status.all validModelStatus &&
  patch.contextLength.all (0 < ·) && patch.defaultMaxOutputTokens.all (0 < ·) &&
  patch.inputCreditPer1K.all (0 ≤ ·) && patch.outputCreditPer1K.all (0 ≤ ·) &&
  patch.providerRewardRatio.all (fun ratio => 0 ≤ ratio && ratio ≤ 1) &&
  patch.minVRAMMB.all (0 ≤ ·) && patch.recommendedVRAMMB.all (0 ≤ ·)

/-- `AdminService.CreateModel`. -/
def adminCreateModel (id : UUID) (publicID : String) (user : UserRow) (input : ModelInput)
    (db : DB) : Except Err (ModelRow × DB) :=
  adminOnly user <|
    if validModelInput (normalizeModelInput input) then
      createModel id user.id publicID (normalizeModelInput input) db
    else .error .invalidInput

/-- `AdminService.UpdateModel`. -/
def adminUpdateModel (user : UserRow) (modelPublicID : String) (patch : ModelPatch) (db : DB) :
    Except Err (ModelRow × DB) :=
  adminOnly user <|
    if validModelPatch (normalizeModelPatch patch) then
      updateModel user.id modelPublicID (normalizeModelPatch patch) db
    else .error .invalidInput

/-- `AdminService.PauseModel`. -/
def adminPauseModel (user : UserRow) (modelPublicID : String) (db : DB) : Except Err DB :=
  adminOnly user (pauseModel user.id modelPublicID db)

/-- The approval statuses that an administrator may set. -/
def decisionOf (text : String) : Option ApprovalStatus :=
  if text = "approved" then some .approved
  else if text = "rejected" then some .rejected
  else none

/-- `AdminService.SetProviderApproval`. -/
def adminSetProviderApproval (user : UserRow) (providerPublicID status : String) (db : DB) :
    Except Err DB :=
  adminOnly user <|
    match decisionOf status with
    | some approval => updateProviderApproval user.id providerPublicID approval db
    | none => .error .invalidInput

/-- `AdminService.DisableProvider`. -/
def adminDisableProvider (user : UserRow) (providerPublicID : String) (db : DB) : Except Err DB :=
  adminOnly user (disableProvider user.id providerPublicID db)

/-- `AdminService.SetProviderModelAdvertisementStatus`. -/
def adminSetAdvertisementStatus (user : UserRow) (publicID status : String) (db : DB) :
    Except Err DB :=
  adminOnly user <|
    if (decisionOf status).isSome then
      updateProviderModelAdvertisementStatus user.id publicID status db
    else .error .invalidInput

/-! ## The `ProviderService` -/

/-- `ProviderService.Heartbeat`. -/
def providerHeartbeat (now : Nat) (instanceID : UUID) (status : String)
    (currentJobID : Option String) (db : DB) : Except Err DB :=
  if status ≠ "online" ∧ status ≠ "busy" ∧ status ≠ "draining" then .error .invalidInput
  else updateProviderHeartbeat now instanceID status currentJobID db

/-- The runtime of a model list. -/
def listRuntime (runtime : String) : String := if runtime = "" then "ollama" else runtime

/-- One model of `ProviderService.ModelList`, which makes a statement for each; a name of
spaces is skipped. -/
def providerModelListEntry (id : UUID) (publicID : String) (unseen : List String)
    (matched : Option ModelVersionRow) (providerID instanceID : UUID)
    (runtime runtimeModelName digest : String) (db : DB) : Except Err DB :=
  if trimSpace runtimeModelName = "" then .ok db
  else upsertProviderModelAdvertisement id publicID unseen matched providerID instanceID
    (listRuntime runtime) runtimeModelName digest db

/-- `ProviderService.OfflineCutoff`, of a time in microseconds. -/
def offlineCutoff (cfg : Config) (now : Nat) : Int :=
  now - cfg.providerHeartbeatTimeoutSeconds * 1000000

/-- `ProviderService.MarkOfflineTimedOut`. -/
def markOfflineTimedOut (cfg : Config) (now : Nat) (db : DB) : DB :=
  markStaleProviderInstancesOffline (offlineCutoff cfg now) db

end Nuvonode.Service
