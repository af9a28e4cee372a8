/-
  Repository/Statements.lean --- the SQL statements that run in transactions.

  From `repository/store.go` and the literal statements of `service/services.go`.
  A statement checks what PostgreSQL checks, in the constraints of the migration,
  and then writes; a failed check is the error the caller sees.  Generated ids are
  arguments, so that a primary key can be taken.  Rows are never deleted, so a
  foreign key is checked by an unlocked read.
-/
import Nuvonode.Database.Store
import Nuvonode.Foundation.Text
import Nuvonode.Service.Config

set_option autoImplicit false

namespace Nuvonode.Repository

open Nuvonode.Foundation Nuvonode.Database Nuvonode.Service

/-- A program of statements on the database. -/
abbrev Sql (α : Type) : Type := Tx store Err α

/-- Fail unless a check holds. -/
def require (check : Bool) (e : Err) : Sql Unit := if check then pure () else Tx.fail e

/-- Scan a row, failing when there is none. -/
def orFail {α : Type} (e : Err) : Option α → Sql α
  | some a => pure a
  | none => Tx.fail e

/-- Lock a row and read its latest version. -/
def lockWallet (id : UUID) : Sql (Option WalletRow) := Tx.lockRow (S := store) (.wallet id)

def lockJob (id : UUID) : Sql (Option JobRow) := Tx.lockRow (S := store) (.job id)

def lockStats (providerID : UUID) : Sql (Option StatsRow) :=
  Tx.lockRow (S := store) (.stats providerID)

def lockUsage (jobID : UUID) : Sql (Option UsageRow) := Tx.lockRow (S := store) (.usage jobID)

def lockWalletOwner (owner : OwnerType × UUID) : Sql (Option UUID) :=
  Tx.lockRow (S := store) (.walletOwner owner)

def lockUser (id : UUID) : Sql (Option UserRow) := Tx.lockRow (S := store) (.user id)

def lockUserPublicID (publicID : String) : Sql (Option UUID) :=
  Tx.lockRow (S := store) (.userPublicID publicID)

def lockUserEmail (email : String) : Sql (Option UUID) :=
  Tx.lockRow (S := store) (.userEmail email)

def lockProvider (id : UUID) : Sql (Option ProviderRow) := Tx.lockRow (S := store) (.provider id)

def lockProviderPublicID (publicID : String) : Sql (Option UUID) :=
  Tx.lockRow (S := store) (.providerPublicID publicID)

def lockProviderToken (tokenHash : String) : Sql (Option UUID) :=
  Tx.lockRow (S := store) (.providerToken tokenHash)

def lockJobPublicID (publicID : String) : Sql (Option UUID) :=
  Tx.lockRow (S := store) (.jobPublicID publicID)

/-- A unique key: lock its entry and fail when it is taken. -/
def unique {α : Type} (entry : Sql (Option α)) : Sql Unit := do
  let taken ← entry
  require taken.isNone .duplicateKey

/-- A foreign key: fail when nothing has it. -/
def references (holds : DB → Bool) : Sql Unit := do
  let found ← Tx.query (S := store) holds
  require found .foreignKey

/-! ## Users, wallets and providers -/

/-- `SELECT count(*) FROM users WHERE deleted_at IS NULL`. -/
def countUsers (db : DB) : Nat := (db.users.filter fun row => !row.deleted).length

/-- `INSERT INTO users`. -/
def createUser (id : UUID) (publicID email passwordHash displayName : String) (role : Role) :
    Sql UserRow := do
  require (storable publicID && storable email && storable displayName) .invalidText
  unique (lockUser id)
  unique (lockUserPublicID publicID)
  unique (lockUserEmail email)
  let row : UserRow :=
    { id, publicID, email, passwordHash, displayName, role, status := .active, deleted := false }
  Tx.perform (S := store) (.insertUser row)
  return row

/-- `INSERT INTO wallets`. -/
def createWallet (id : UUID) (ownerType : OwnerType) (ownerID : UUID) : Sql WalletRow := do
  unique (lockWallet id)
  unique (lockWalletOwner (ownerType, ownerID))
  let row : WalletRow := { id, ownerType, ownerID, balanceCredits := 0, reservedCredits := 0 }
  Tx.perform (S := store) (.insertWallet row)
  return row

/-- `INSERT INTO providers`. -/
def createProvider (id : UUID) (publicID : String) (ownerUserID : UUID) (name : String)
    (tokenHash : String) (approval : ApprovalStatus) : Sql ProviderRow := do
  require (storable publicID && storable name) .invalidText
  unique (lockProvider id)
  unique (lockProviderPublicID publicID)
  unique (lockProviderToken tokenHash)
  references fun db => (db.user ownerUserID).isSome
  let row : ProviderRow :=
    { id, publicID, ownerUserID, walletID := none, name, approvalStatus := approval,
      status := .active, tokenHash, deleted := false }
  Tx.perform (S := store) (.insertProvider row)
  return row

/-- `UPDATE providers SET wallet_id=$1 WHERE id=$2`. -/
def setProviderWallet (providerID walletID : UUID) : Sql Unit :=
  Tx.perform (S := store) (.setProviderWallet providerID walletID)

/-! ## Statistics of a provider -/

/-- The running mean of the latencies, `CASE WHEN avg_latency_ms IS NULL ...`. -/
def StatsRow.nextMean (latencyMS : ℤ) (old : StatsRow) : ℚ :=
  match old.avgLatencyMS with
  | none => latencyMS
  | some avg => numericDiv 2 (avg * old.succeededJobs + latencyMS) ((old.succeededJobs : ℚ) + 1)

/-- What a settled job makes of a provider's statistics, unless a column overflows.
The `UPDATE` around the upsert does not see the row the upsert wrote, so the derived
columns of an old row stay as they were. -/
def StatsRow.settled (latencyMS : ℤ) (providerID : UUID) : Option StatsRow → Option StatsRow
  | none => do
      let avg ← numericStore 12 2 latencyMS
      let trust ← numericStore 8 4 (min 100 (70 + max 0 (20 - numericDiv 0 latencyMS 500)))
      return { providerID, totalJobs := 1, succeededJobs := 1, failedJobs := 0, timeoutJobs := 0,
               avgLatencyMS := some avg, successRate := 1, trustScore := trust }
  | some old => do
      let avg ← numericStore 12 2 (StatsRow.nextMean latencyMS old)
      return { old with
        totalJobs := old.totalJobs + 1, succeededJobs := old.succeededJobs + 1,
        avgLatencyMS := some avg }

/-- What a failed job makes of a provider's statistics. -/
def StatsRow.failed (status : JobStatus) (providerID : UUID) : Option StatsRow → StatsRow
  | none =>
      { providerID, totalJobs := 1, succeededJobs := 0,
        failedJobs := if status = .timedOut then 0 else 1,
        timeoutJobs := if status = .timedOut then 1 else 0,
        avgLatencyMS := none, successRate := 0, trustScore := 0 }
  | some old =>
      { old with
        totalJobs := old.totalJobs + 1,
        failedJobs := old.failedJobs + if status = .timedOut then 0 else 1,
        timeoutJobs := old.timeoutJobs + if status = .timedOut then 1 else 0 }

/-- The statistics upsert of a settlement. -/
def upsertSettledStats (providerID : UUID) (latencyMS : ℤ) : Sql Unit := do
  let old ← lockStats providerID
  references fun db => old.isSome || (db.provider providerID).isSome
  let row ← orFail .outOfRange (StatsRow.settled latencyMS providerID old)
  Tx.perform (S := store) (.putStats row)

/-- The statistics upsert of a failure. -/
def upsertFailedStats (providerID : UUID) (status : JobStatus) : Sql Unit := do
  let old ← lockStats providerID
  references fun db => old.isSome || (db.provider providerID).isSome
  Tx.perform (S := store) (.putStats (StatsRow.failed status providerID old))

/-! ## Jobs -/

/-- What identifies a job when it is created. -/
structure JobSpec where
  publicID : String
  projectID : UUID
  userID : UUID
  apiKeyID : UUID
  modelID : UUID
  modelVersionID : UUID
  providerID : UUID
  providerInstanceID : UUID
  requestID : String
  inputTokens : ℤ
  outputTokens : ℤ
  reservedCredits : Int64
  deriving DecidableEq

/-- The row a job starts with. -/
def JobSpec.row (job : JobSpec) (id : UUID) : JobRow where
  id := id
  publicID := job.publicID
  projectID := job.projectID
  userID := job.userID
  apiKeyID := job.apiKeyID
  modelID := job.modelID
  modelVersionID := job.modelVersionID
  providerID := some job.providerID
  providerInstanceID := some job.providerInstanceID
  status := .queued
  requestID := job.requestID
  estimatedInputTokens := job.inputTokens
  estimatedOutputTokens := job.outputTokens
  reservedCredits := job.reservedCredits
  actualCostCredits := 0
  providerRewardCredits := 0
  errorCode := none
  errorMessage := none

/-- The rows a job and its usage record refer to, apart from the job itself. -/
def partiesExist (projectID userID modelID providerID providerInstanceID : UUID)
    (db : DB) : Bool :=
  db.catalog.projects.any (fun row => row.id == projectID) &&
  (db.user userID).isSome &&
  db.catalog.models.any (fun row => row.id == modelID) &&
  (db.provider providerID).isSome &&
  db.catalog.instances.any (fun row => row.id == providerInstanceID)

/-- `INSERT INTO inference_jobs`. -/
def createInferenceJob (id : UUID) (job : JobSpec) : Sql UUID := do
  require (storable job.publicID && storable job.requestID) .invalidText
  require (fitsInt4 job.inputTokens && fitsInt4 job.outputTokens) .outOfRange
  unique (lockJob id)
  unique (lockJobPublicID job.publicID)
  references (partiesExist job.projectID job.userID job.modelID job.providerID
    job.providerInstanceID)
  references fun db =>
    db.catalog.apiKeys.any (fun row => row.id == job.apiKeyID) &&
    db.catalog.modelVersions.any (fun row => row.id == job.modelVersionID)
  Tx.perform (S := store) (.insertJob (job.row id))
  return id

/-- `UPDATE inference_jobs SET status='dispatched'`. -/
def markJobDispatched (jobID : UUID) : Sql Unit := Tx.perform (S := store) (.dispatchJob jobID)

/-- `UPDATE inference_jobs SET status=$2, error_code=$3, error_message=$4`, and the
statistics of the job's provider when it has one. -/
def markJobFailed (jobID : UUID) (status : JobStatus) (code message : String) : Sql Unit := do
  require (storable code && storable message) .invalidText
  let job ← lockJob jobID
  match job.bind JobRow.providerID with
  | none => Tx.perform (S := store) (.failJob jobID status code message)
  | some providerID => do
      Tx.perform (S := store) (.failJob jobID status code message)
      upsertFailedStats providerID status

/-! ## Running the building blocks -/

/-- The database a transaction leaves, or the one it found when it fails. -/
def afterwards {α : Type} (p : Sql α) (db : DB) : DB :=
  match p.exec db with
  | .ok (_, db') => db'
  | .error _ => db

/-- What a program does when it runs alone. -/
theorem yields_of_exec {α : Type} {p : Sql α} {db db' : DB} {a : α}
    (h : p.exec db = .ok (a, db')) :
    ∃ ws, Tx.Yields (S := store) (fun old => old = db) db p [] a ws ∧
      db' = store.applyAll db ws :=
  Tx.yields_of_exec_nil h

section Blocks

variable {α : Type} {db : DB} {check : Bool} {e : Err} {id : UUID}

@[simp] theorem exec_require :
    (require check e).exec db = if check then .ok ((), db) else .error e := by
  cases check <;> rfl

@[simp] theorem exec_orFail {o : Option α} :
    (orFail e o).exec db = match o with
      | some a => .ok (a, db)
      | none => .error e := by
  cases o <;> rfl

@[simp] theorem exec_lockWallet : (lockWallet id).exec db = .ok (db.wallet id, db) := rfl

@[simp] theorem exec_lockJob : (lockJob id).exec db = .ok (db.job id, db) := rfl

@[simp] theorem exec_lockStats : (lockStats id).exec db = .ok (db.stats id, db) := rfl

@[simp] theorem exec_lockUsage : (lockUsage id).exec db = .ok (db.usage id, db) := rfl

@[simp] theorem exec_references {holds : DB → Bool} :
    (references holds).exec db = if holds db then .ok ((), db) else .error .foreignKey := by
  simp [references, Except.bind]

end Blocks

section Yields

variable {α : Type} {seen : DB → Prop} {db : DB} {ws ws' : List DbWrite} {check : Bool}
  {e : Err} {id : UUID}

@[simp] theorem yields_require {r : Unit} :
    Tx.Yields (S := store) seen db (require check e) ws r ws' ↔ check = true ∧ ws' = ws := by
  cases check <;> simp [require]

@[simp] theorem yields_orFail {o : Option α} {r : α} :
    Tx.Yields (S := store) seen db (orFail e o) ws r ws' ↔ o = some r ∧ ws' = ws := by
  cases o <;> simp [orFail, eq_comm]

@[simp] theorem yields_lockWallet {r : Option WalletRow} :
    Tx.Yields (S := store) seen db (lockWallet id) ws r ws' ↔
      r = (store.applyAll db ws).wallet id ∧ ws' = ws := Iff.rfl

@[simp] theorem yields_lockJob {r : Option JobRow} :
    Tx.Yields (S := store) seen db (lockJob id) ws r ws' ↔
      r = (store.applyAll db ws).job id ∧ ws' = ws := Iff.rfl

@[simp] theorem yields_lockStats {r : Option StatsRow} :
    Tx.Yields (S := store) seen db (lockStats id) ws r ws' ↔
      r = (store.applyAll db ws).stats id ∧ ws' = ws := Iff.rfl

@[simp] theorem yields_lockUser {r : Option UserRow} :
    Tx.Yields (S := store) seen db (lockUser id) ws r ws' ↔
      r = (store.applyAll db ws).user id ∧ ws' = ws := Iff.rfl

@[simp] theorem yields_lockUserPublicID {publicID : String} {r : Option UUID} :
    Tx.Yields (S := store) seen db (lockUserPublicID publicID) ws r ws' ↔
      r = (store.applyAll db ws).get (.userPublicID publicID) ∧ ws' = ws := Iff.rfl

@[simp] theorem yields_lockUserEmail {email : String} {r : Option UUID} :
    Tx.Yields (S := store) seen db (lockUserEmail email) ws r ws' ↔
      r = (store.applyAll db ws).get (.userEmail email) ∧ ws' = ws := Iff.rfl

@[simp] theorem yields_lockProvider {r : Option ProviderRow} :
    Tx.Yields (S := store) seen db (lockProvider id) ws r ws' ↔
      r = (store.applyAll db ws).provider id ∧ ws' = ws := Iff.rfl

@[simp] theorem yields_lockProviderPublicID {publicID : String} {r : Option UUID} :
    Tx.Yields (S := store) seen db (lockProviderPublicID publicID) ws r ws' ↔
      r = (store.applyAll db ws).get (.providerPublicID publicID) ∧ ws' = ws := Iff.rfl

@[simp] theorem yields_lockProviderToken {tokenHash : String} {r : Option UUID} :
    Tx.Yields (S := store) seen db (lockProviderToken tokenHash) ws r ws' ↔
      r = (store.applyAll db ws).get (.providerToken tokenHash) ∧ ws' = ws := Iff.rfl

@[simp] theorem yields_lockJobPublicID {publicID : String} {r : Option UUID} :
    Tx.Yields (S := store) seen db (lockJobPublicID publicID) ws r ws' ↔
      r = (store.applyAll db ws).get (.jobPublicID publicID) ∧ ws' = ws := Iff.rfl

@[simp] theorem yields_lockUsage {r : Option UsageRow} :
    Tx.Yields (S := store) seen db (lockUsage id) ws r ws' ↔
      r = (store.applyAll db ws).usage id ∧ ws' = ws := Iff.rfl

@[simp] theorem yields_lockWalletOwner {owner : OwnerType × UUID} {r : Option UUID} :
    Tx.Yields (S := store) seen db (lockWalletOwner owner) ws r ws' ↔
      r = (store.applyAll db ws).walletOf owner ∧ ws' = ws := Iff.rfl

@[simp] theorem yields_unique {entry : Sql (Option α)} {r : Unit} :
    Tx.Yields (S := store) seen db (unique entry) ws r ws' ↔
      Tx.Yields (S := store) seen db entry ws none ws' := by
  simp only [unique, Tx.yields_bind, yields_require, Option.isNone_iff_eq_none]
  constructor
  · rintro ⟨_, _, hentry, rfl, rfl⟩
    exact hentry
  · exact fun hentry => ⟨none, ws', hentry, rfl, rfl⟩

@[simp] theorem yields_references {holds : DB → Bool} {r : Unit} :
    Tx.Yields (S := store) seen db (references holds) ws r ws' ↔
      (∃ old, seen old ∧ holds (store.applyAll old ws) = true) ∧ ws' = ws := by
  simp [references]
  tauto

end Yields

section Ends

variable {α : Type} {ws : List DbWrite} {check : Bool} {e : Err}

@[simp] theorem ends_require {Q : Unit → List DbWrite → Prop} :
    Tx.Ends (S := store) Q (require check e) ws ↔ (check = true → Q () ws) := by
  cases check <;> simp [require]

@[simp] theorem ends_orFail {o : Option α} {Q : α → List DbWrite → Prop} :
    Tx.Ends (S := store) Q (orFail e o) ws ↔ ∀ a, o = some a → Q a ws := by
  cases o <;> simp [orFail]

@[simp] theorem ends_lockWallet {id : UUID} {Q : Option WalletRow → List DbWrite → Prop} :
    Tx.Ends (S := store) Q (lockWallet id) ws ↔ ∀ row, Q row ws := Iff.rfl

@[simp] theorem ends_lockUser {id : UUID} {Q : Option UserRow → List DbWrite → Prop} :
    Tx.Ends (S := store) Q (lockUser id) ws ↔ ∀ row, Q row ws := Iff.rfl

@[simp] theorem ends_lockWalletOwner {owner : OwnerType × UUID}
    {Q : Option UUID → List DbWrite → Prop} :
    Tx.Ends (S := store) Q (lockWalletOwner owner) ws ↔ ∀ row, Q row ws := Iff.rfl

@[simp] theorem ends_lockUserPublicID {key : String} {Q : Option UUID → List DbWrite → Prop} :
    Tx.Ends (S := store) Q (lockUserPublicID key) ws ↔ ∀ row, Q row ws := Iff.rfl

@[simp] theorem ends_lockUserEmail {key : String} {Q : Option UUID → List DbWrite → Prop} :
    Tx.Ends (S := store) Q (lockUserEmail key) ws ↔ ∀ row, Q row ws := Iff.rfl

@[simp] theorem ends_unique {entry : Sql (Option α)} {Q : Unit → List DbWrite → Prop} :
    Tx.Ends (S := store) Q (unique entry) ws ↔
      Tx.Ends (S := store) (fun taken ws' => taken = none → Q () ws') entry ws := by
  simp [unique]

@[simp] theorem ends_references {holds : DB → Bool} {Q : Unit → List DbWrite → Prop} :
    Tx.Ends (S := store) Q (references holds) ws ↔ ((∃ db, holds db = true) → Q () ws) := by
  simp [references]

end Ends

section Triples

variable {checked : RowKey → Prop} {I P : DB → Prop} {check : Bool} {e : Err} {α : Type}

theorem triple_require {Q : Unit → DB → Prop} (h : ∀ db, P db → Q () db) :
    Tx.Triple (S := store) checked I P (require check e) Q :=
  .ite (fun _ => .pure h) fun _ => .fail

theorem triple_orFail {o : Option α} {Q : α → DB → Prop}
    (h : ∀ a db, o = some a → P db → Q a db) :
    Tx.Triple (S := store) checked I P (orFail e o) Q := by
  cases o with
  | none => exact .fail
  | some a => exact .pure fun db => h a db rfl

theorem triple_references {holds : DB → Bool} {Q : Unit → DB → Prop}
    (h : ∀ db, P db → Q () db) :
    Tx.Triple (S := store) checked I P (references holds) Q :=
  .bind (.query (S := store) fun _ _ hP => hP) fun _ => triple_require h

/-- After a unique check the entry was free. -/
theorem triple_unique {entry : Sql (Option α)} {R : Option α → DB → Prop}
    (h : Tx.Triple (S := store) checked I P entry R) :
    Tx.Triple (S := store) checked I P (unique entry) fun _ => R none := by
  refine .bind h fun taken => ?_
  cases taken with
  | none => exact triple_require fun _ hR => hR
  | some a => exact .fail

end Triples

end Nuvonode.Repository
