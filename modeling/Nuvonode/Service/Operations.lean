/-
  Service/Operations.lean --- the operations on one database server.

  Every operation that runs in a transaction, as a program of a `Server`.  A fresh
  database holds no row that these operations write; its catalog is arbitrary.
-/
import Nuvonode.Foundation.Locking
import Nuvonode.Service.Ledger

set_option autoImplicit false

namespace Nuvonode.Service

open Nuvonode.Foundation Nuvonode.Database Nuvonode.Repository

/-- A call of an operation, with the ids it will generate. -/
inductive Operation where
  | register (userID walletID : UUID) (publicID : String) (input : RegisterInput)
  | createProvider (providerID walletID : UUID) (publicID token : String) (ownerUserID : UUID)
      (name : String)
  | reserve (userID : UUID) (amount : Int64) (reason : String)
  | release (walletID : UUID) (amount : Int64) (reason : String)
  | finalize (input : UsageSettlement)
  | adminAdjust (actorUserID : UUID) (target : String) (amount : Int64) (reason : String)
  | createJob (id : UUID) (job : JobSpec)
  | markDispatched (jobID : UUID)
  | markFailed (jobID : UUID) (status : JobStatus) (code message : String)
  deriving DecidableEq

/-- Run a program for what it does. -/
def ignore {α : Type} (p : Sql α) : Sql Unit := do
  let _ ← p
  return ()

/-- The transaction of an operation. -/
def program (P : Platform) (cfg : Config) : Operation → Sql Unit
  | .register userID walletID publicID input =>
      ignore (register P cfg userID walletID publicID input)
  | .createProvider providerID walletID publicID token ownerUserID name =>
      ignore (createProviderAccount P cfg providerID walletID publicID token ownerUserID name)
  | .reserve userID amount reason => ignore (reserveForUser userID amount reason)
  | .release walletID amount reason => release walletID amount reason
  | .finalize input => finalizeUsage input
  | .adminAdjust actorUserID target amount reason =>
      ignore (adminAdjust actorUserID target amount reason)
  | .createJob id job => ignore (createInferenceJob id job)
  | .markDispatched jobID => markJobDispatched jobID
  | .markFailed jobID status code message => markJobFailed jobID status code message

/-- A database that no operation has run on. -/
def Fresh (db : DB) : Prop := ∃ catalog, db = DB.seeded catalog

/-- The service's database server, from the databases `start`. -/
abbrev serverMachine (P : Platform) (cfg : Config) (start : DB → Prop) :
    Machine (Server store Err Operation Unit) (ServerEvent Operation) :=
  Server.machine (program P cfg) start

/-- A server with nothing in progress. -/
def idleServer (db : DB) : Server store Err Operation Unit where
  committed := db
  active := fun _ => none

/-- Nothing is locked where the only transaction has locked nothing. -/
theorem unlocked_of_alone {db : DB} {t t' : Nat} {a b : Active store Err Operation Unit}
    (ha : a.locks = []) (hb : ((idleServer db).set t (some a)).active t' = some b) :
    b.locks = [] := by
  rcases Server.active_set_cases hb with ⟨-, hsame⟩ | ⟨-, hidle⟩
  · cases hsame
    exact ha
  · cases hidle

/-- An operation that runs alone on an idle server. -/
theorem reaches_of_exec {P : Platform} {cfg : Config} {start : DB → Prop} {db db' : DB}
    (hstart : start db) (op : Operation) (h : (program P cfg op).exec db = .ok ((), db')) :
    ∃ es, (∃ n, es = .begin 0 op :: (List.replicate n (.statement 0) ++ [.commit 0 op])) ∧
      (serverMachine P cfg start).Reaches Machine.anyStep es (idleServer db') := by
  obtain ⟨n, hsteps⟩ := Server.steps_of_exec (m := idleServer db) (fun _ => rfl) 0 op h
  exact ⟨_, ⟨n, rfl⟩, idleServer db, ⟨hstart, fun _ => rfl⟩, hsteps⟩

section Ledger

variable {P : Platform} {cfg : Config}

theorem keepsLedger_ignore {α : Type} {p : Sql α} (h : KeepsLedger p) : KeepsLedger (ignore p) :=
  .bind h fun _ => keepsLedger_pure

/-- Every operation maintains the ledger. -/
theorem keepsLedger_program (op : Operation) : KeepsLedger (program P cfg op) := by
  cases op with
  | register => exact keepsLedger_ignore keepsLedger_register
  | createProvider => exact keepsLedger_ignore keepsLedger_createProviderAccount
  | reserve => exact keepsLedger_ignore keepsLedger_reserveForUser
  | release => exact keepsLedger_release
  | finalize => exact keepsLedger_finalizeUsage
  | adminAdjust => exact keepsLedger_ignore keepsLedger_adminAdjust
  | createJob => exact keepsLedger_ignore keepsLedger_createInferenceJob
  | markDispatched => exact keepsLedger_perform (fun _ => rfl) fun _ => rfl
  | markFailed => exact keepsLedger_markJobFailed

/-- Wallets are their ledger in every committed state. -/
theorem ledgerExact_committed {guard : Server store Err Operation Unit → ServerEvent Operation →
      Server store Err Operation Unit → Prop} {es : List (ServerEvent Operation)}
    {m : Server store Err Operation Unit}
    (h : (serverMachine P cfg Fresh).Reaches guard es m) : LedgerExact m.committed := by
  refine Server.committed_invariant h LedgerExact ?_ ?_
  · rintro _ ⟨catalog, rfl⟩
    exact LedgerExact.seeded catalog
  · intro op s r ws hexact hyields
    exact (keepsLedger_program op).result hexact hyields

/-- A transaction that is about to lock a wallet sees wallets that are their ledger. -/
theorem ledgerExact_view {guard : Server store Err Operation Unit → ServerEvent Operation →
      Server store Err Operation Unit → Prop} {es : List (ServerEvent Operation)}
    {m : Server store Err Operation Unit} {t : Nat} {a : Active store Err Operation Unit}
    {walletID : UUID} {next : Option WalletRow → Sql Unit}
    (h : (serverMachine P cfg Fresh).Reaches guard es m) (ha : m.active t = some a)
    (hbody : a.body = .lock (RowKey.wallet walletID) next) :
    LedgerExact (a.view m.committed) := by
  have hprogress := (Server.sound_of_reaches h).progress t a ha
  rw [hbody] at hprogress
  exact (keepsLedger_program a.op).lockView (ledgerExact_committed h) hprogress ⟨walletID, rfl⟩

end Ledger

end Nuvonode.Service
