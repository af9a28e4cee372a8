/-
  Contract/Ledger.lean --- wallets under any interleaving of transactions.

  The runs are those of a database server on which any number of operations are in
  progress, interleaved statement by statement under row locks.
-/
import Nuvonode.Service.Operations

set_option autoImplicit false

namespace Nuvonode.Contract

open Nuvonode.Foundation Nuvonode.Database Nuvonode.Repository Nuvonode.Service

section Refusal

variable {P : Platform} {cfg : Config} {es : List (ServerEvent Operation)}
  {m m' : Server store Err Operation Unit} {t : Nat} {a : Active store Err Operation Unit}
  {walletID : UUID} {entryType : EntryType} {amount reservedDelta : Int64} {reason : String}
  {createdBy : Option UUID} {k : Unit → Sql Unit} {wallet : WalletRow}

/-- What the statement that begins an entry leaves to run. -/
theorem addLedger_statement (ha : m.active t = some a)
    (hbody : a.body = addLedger walletID entryType amount reservedDelta reason createdBy >>= k)
    (hfound : (a.view m.committed).wallet walletID = some wallet)
    (hstep : Server.Step (program P cfg) m (.statement t) m') :
    ∃ a', m'.active t = some a' ∧ (a'.body = .fail .insufficientCredits ↔
      (wallet.balanceCredits + amount < 0 ∨ wallet.reservedCredits + reservedDelta < 0)) := by
  cases hstep with
  | read ha' hread =>
      rw [ha] at ha'
      cases ha'
      rw [hbody] at hread
      cases hread
  | write ha' hwrite _ =>
      rw [ha] at ha'
      cases ha'
      rw [hbody] at hwrite
      cases hwrite
  | lock ha' hlock _ =>
      rw [ha] at ha'
      cases ha'
      rw [hbody] at hlock
      cases hlock
      refine ⟨_, Function.update_self .., ?_⟩
      have hrow : store.get (a.view m.committed) (RowKey.wallet walletID) = some wallet := hfound
      rw [hrow]
      change (Tx.bind (ite (wallet.balanceCredits + amount < 0 ∨
        wallet.reservedCredits + reservedDelta < 0) _ _) k = Tx.fail _) ↔ _
      split
      · rename_i hrefused
        exact iff_of_true rfl hrefused
      · rename_i haccepted
        refine iff_of_false ?_ haccepted
        intro hfail
        cases hfail

end Refusal

/-- In every state of every interleaving of registrations, provider creations,
reservations, releases, settlements and adjustments, wallets are exactly their ledger;
and an entry is refused exactly when one of the exact sums would leave the range. -/
theorem wallets_are_their_ledger (P : Platform) (cfg : Config)
    {es : List (ServerEvent Operation)} {m : Server store Err Operation Unit}
    (hreach : (serverMachine P cfg Fresh).Reaches Machine.anyStep es m) :
    LedgerExact m.committed ∧
      ∀ (t : Nat) (a : Active store Err Operation Unit) (walletID : UUID)
        (entryType : EntryType) (amount reservedDelta : Int64) (reason : String)
        (createdBy : Option UUID) (k : Unit → Sql Unit) (wallet : WalletRow)
        (m' : Server store Err Operation Unit),
        m.active t = some a →
        a.body = addLedger walletID entryType amount reservedDelta reason createdBy >>= k →
        (a.view m.committed).wallet walletID = some wallet →
        Server.Step (program P cfg) m (.statement t) m' →
        ∃ a', m'.active t = some a' ∧
          (a'.body = .fail .insufficientCredits ↔
            ¬ (InCreditRange (ledgerSum LedgerRow.amountCredits
                  (a.view m.committed).walletLedger walletID + amount.toInt) ∧
              InCreditRange (ledgerSum LedgerRow.reservedDelta
                  (a.view m.committed).walletLedger walletID + reservedDelta.toInt))) := by
  refine ⟨ledgerExact_committed hreach, ?_⟩
  intro t a walletID entryType amount reservedDelta reason createdBy k wallet m' ha hbody
    hfound hstep
  have hexact : LedgerExact (a.view m.committed) := ledgerExact_view hreach ha hbody
  obtain ⟨a', ha', hiff⟩ := addLedger_statement ha hbody hfound hstep
  exact ⟨a', ha', hiff.trans (hexact.refused_iff hfound)⟩

/-! ## A sample run -/

/-- A platform that lower-cases ASCII. -/
def samplePlatform : Platform where
  toLower := String.map Char.toLower
  hashPassword password :=
    if password.utf8ByteSize ≤ 72 then some ("hash of " ++ password) else none
  hashToken pepper token := "hash of " ++ pepper ++ token
  outOfRangeInt64 _ := Int64.minValue

/-- The settings of a development deployment. -/
def sampleConfig : Config where
  appEnv := "development"
  apiKeyPepper := "change_me_dev_only"
  providerTokenPepper := "change_me_dev_only"
  startingFreeCredits := 10000
  providerHeartbeatTimeoutSeconds := 45
  jobTimeoutSeconds := 120
  externalConnectorsEnabled := false
  allowDevAutoApproveProvider := true
  bootstrapFirstUserAdmin := true

def sampleRegistration : Operation :=
  .register 1 2 "usr_a" ⟨"A@example.com", "password", "Ada"⟩

/-- The database after one registration. -/
def registeredDB : DB :=
  { DB.seeded ⟨[], [], [], [], [], [], []⟩ with
    users := [⟨1, "usr_a", "a@example.com", "hash of password", "Ada", .admin, .active, false⟩]
    wallets := [⟨2, .user, 1, 10000, 0⟩]
    walletLedger := [⟨2, .grant, 10000, 0, 10000, 0, "starting_free_credits", none⟩] }

theorem exec_sampleRegistration :
    (program samplePlatform sampleConfig sampleRegistration).exec
      (DB.seeded ⟨[], [], [], [], [], [], []⟩) = .ok ((), registeredDB) := by
  decide +kernel

/-- A user registers; then a release of more than is reserved is begun, and its only
entry is decided by the exact sums. -/
theorem wallets_are_their_ledger_after_registration :
    LedgerExact registeredDB ∧
      ∀ m', Server.Step (program samplePlatform sampleConfig)
          ((idleServer registeredDB).set 0 (some ⟨.release 2 5 "sample",
            program samplePlatform sampleConfig (.release 2 5 "sample"), [], []⟩))
          (.statement 0) m' →
        ∃ a', m'.active 0 = some a' ∧
          (a'.body = .fail .insufficientCredits ↔
            ¬ (InCreditRange (ledgerSum LedgerRow.amountCredits
                  registeredDB.walletLedger 2 + 5) ∧
              InCreditRange (ledgerSum LedgerRow.reservedDelta
                  registeredDB.walletLedger 2 + (-5 : Int64).toInt))) := by
  have hfresh : Fresh (DB.seeded ⟨[], [], [], [], [], [], []⟩) := ⟨_, rfl⟩
  obtain ⟨es, -, hreach⟩ := reaches_of_exec hfresh sampleRegistration exec_sampleRegistration
  have hbegin : Server.Step (program samplePlatform sampleConfig) (idleServer registeredDB)
      (.begin 0 (.release 2 5 "sample")) _ := .begin rfl
  have hbegun := hreach.snoc hbegin trivial
  obtain ⟨hexact, hrefusal⟩ :=
    wallets_are_their_ledger samplePlatform sampleConfig hbegun
  refine ⟨hexact, fun m' hstep => ?_⟩
  exact hrefusal 0 _ 2 .releaseReserve 5 (-5) "sample" none pure ⟨2, .user, 1, 10000, 0⟩ m'
    rfl (Tx.bind_pure _).symm rfl hstep

end Nuvonode.Contract
