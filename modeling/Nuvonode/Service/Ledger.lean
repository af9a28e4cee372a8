/-
  Service/Ledger.lean --- wallets are exactly their ledger.

  `LedgerExact` ties the two cached columns of a wallet to the sums of its ledger
  rows, as integers.  Every operation of the service maintains it, and has it
  whenever it is about to lock a wallet; so the sign test of `addLedger` can be
  read as a test of the exact sums.
-/
import Nuvonode.Service.Effects

set_option autoImplicit false

namespace Nuvonode.Service

open Nuvonode.Foundation Nuvonode.Database Nuvonode.Repository

/-- The sum of a column over the ledger rows of one wallet, in exact integers. -/
def ledgerSum (column : LedgerRow → Int64) (ledger : List LedgerRow) (walletID : UUID) : ℤ :=
  Table.total (fun row => if row.walletID = walletID then (column row).toInt else 0) ledger

@[simp] theorem ledgerSum_append (column : LedgerRow → Int64) (ledger ledger' : List LedgerRow)
    (walletID : UUID) : ledgerSum column (ledger ++ ledger') walletID =
      ledgerSum column ledger walletID + ledgerSum column ledger' walletID := by
  simp [ledgerSum]

@[simp] theorem ledgerSum_nil (column : LedgerRow → Int64) (walletID : UUID) :
    ledgerSum column [] walletID = 0 := rfl

@[simp] theorem ledgerSum_singleton (column : LedgerRow → Int64) (row : LedgerRow)
    (walletID : UUID) : ledgerSum column [row] walletID =
      if row.walletID = walletID then (column row).toInt else 0 := by
  simp [ledgerSum]

/-- A wallet nothing refers to has an empty ledger. -/
theorem ledgerSum_eq_zero {column : LedgerRow → Int64} {ledger : List LedgerRow}
    {walletID : UUID} (h : ∀ row ∈ ledger, row.walletID ≠ walletID) :
    ledgerSum column ledger walletID = 0 := by
  induction ledger with
  | nil => rfl
  | cons row rest ih =>
      have hrow := h row List.mem_cons_self
      have hrest := ih fun other hother => h other (List.mem_cons_of_mem row hother)
      rw [← List.singleton_append, ledgerSum_append, hrest, ledgerSum_singleton, if_neg hrow]
      rfl

/-- What a wallet row and the ledger have to do with each other. -/
structure WalletExact (ledger : List LedgerRow) (wallet : WalletRow) : Prop where
  balance : wallet.balanceCredits.toInt = ledgerSum LedgerRow.amountCredits ledger wallet.id
  reserved : wallet.reservedCredits.toInt = ledgerSum LedgerRow.reservedDelta ledger wallet.id
  balanceRange : InCreditRange wallet.balanceCredits.toInt
  reservedRange : InCreditRange wallet.reservedCredits.toInt

/-- What a ledger row says about the rows before it. -/
structure RunningSums (before : List LedgerRow) (row : LedgerRow) : Prop where
  balance : row.balanceAfter.toInt =
    ledgerSum LedgerRow.amountCredits (before ++ [row]) row.walletID
  reserved : row.reservedAfter.toInt =
    ledgerSum LedgerRow.reservedDelta (before ++ [row]) row.walletID
  balanceRange : InCreditRange row.balanceAfter.toInt
  reservedRange : InCreditRange row.reservedAfter.toInt

/-- Wallets are exactly their ledger. -/
structure LedgerExact (db : DB) : Prop where
  unique : Table.Unique WalletRow.id db.wallets
  owned : ∀ row ∈ db.walletLedger, (db.wallet row.walletID).isSome
  wallets : ∀ wallet ∈ db.wallets, WalletExact db.walletLedger wallet
  running : ∀ before row after, db.walletLedger = before ++ row :: after →
    RunningSums before row

/-- Only the two tables matter. -/
theorem LedgerExact.congr {db db' : DB} (h : LedgerExact db) (hwallets : db'.wallets = db.wallets)
    (hledger : db'.walletLedger = db.walletLedger) : LedgerExact db' where
  unique := by
    rw [hwallets]
    exact h.unique
  owned := by
    intro row hrow
    rw [hledger] at hrow
    simpa only [DB.wallet, hwallets] using h.owned row hrow
  wallets := by
    rw [hwallets, hledger]
    exact h.wallets
  running := by
    rw [hledger]
    exact h.running

theorem LedgerExact.seeded (catalog : Catalog) : LedgerExact (DB.seeded catalog) where
  unique := List.nodup_nil
  owned := by simp [DB.seeded]
  wallets := by simp [DB.seeded]
  running := by
    intro before row after h
    simp [DB.seeded] at h

/-! ## One entry -/

section Entry

variable {db db' : DB} {wallet : WalletRow} {walletID : UUID} {entryType : EntryType}
  {amount reservedDelta : Int64} {reason : String} {createdBy : Option UUID}

theorem LedgerExact.exact_of_wallet (h : LedgerExact db)
    (hfound : db.wallet walletID = some wallet) :
    wallet.id = walletID ∧ WalletExact db.walletLedger wallet := by
  obtain ⟨hmem, hid⟩ := Table.mem_of_select hfound
  exact ⟨hid, h.wallets wallet hmem⟩

/-- The sign test of `addLedger` is the range test of the exact sums. -/
theorem LedgerExact.refused_iff (h : LedgerExact db)
    (hfound : db.wallet walletID = some wallet) :
    (wallet.balanceCredits + amount < 0 ∨ wallet.reservedCredits + reservedDelta < 0) ↔
      ¬ (InCreditRange (ledgerSum LedgerRow.amountCredits db.walletLedger walletID +
            amount.toInt) ∧
          InCreditRange (ledgerSum LedgerRow.reservedDelta db.walletLedger walletID +
            reservedDelta.toInt)) := by
  obtain ⟨rfl, hexact⟩ := h.exact_of_wallet hfound
  rw [← hexact.balance, ← hexact.reserved, ← add_nonneg_iff hexact.balanceRange.1,
    ← add_nonneg_iff hexact.reservedRange.1]
  tauto

theorem LedgerExact.post (h : LedgerExact db) (hfound : db.wallet walletID = some wallet)
    (hbalance : ¬ wallet.balanceCredits + amount < 0)
    (hreserved : ¬ wallet.reservedCredits + reservedDelta < 0) :
    LedgerExact
      (Service.post db wallet walletID entryType amount reservedDelta reason createdBy) := by
  obtain ⟨rfl, hexact⟩ := h.exact_of_wallet hfound
  have hbal := toInt_add_of_nonneg hexact.balanceRange.1 hbalance
  have hres := toInt_add_of_nonneg hexact.reservedRange.1 hreserved
  have hbalRange := (add_nonneg_iff hexact.balanceRange.1).mp hbalance
  have hresRange := (add_nonneg_iff hexact.reservedRange.1).mp hreserved
  refine ⟨Table.unique_update (fun _ => rfl) h.unique, ?_, ?_, ?_⟩
  · intro row hrow
    rw [wallet_post, Option.isSome_map]
    rcases List.mem_append.mp hrow with hold | hnew
    · exact h.owned row hold
    · rw [List.mem_singleton.mp hnew]
      exact Option.isSome_of_eq_some hfound
  · intro new hnew
    obtain ⟨old, hold, rfl⟩ := Table.mem_update.mp hnew
    by_cases hid : old.id = wallet.id
    · rw [if_pos hid]
      refine ⟨?_, ?_, ?_, ?_⟩
      · simp [Service.post, Table.insert, ledgerRow, WalletRow.set, hid, hbal, hexact.balance]
      · simp [Service.post, Table.insert, ledgerRow, WalletRow.set, hid, hres, hexact.reserved]
      · simpa [WalletRow.set, hbal] using hbalRange
      · simpa [WalletRow.set, hres] using hresRange
    · rw [if_neg hid]
      have hkept := h.wallets old hold
      have hother : ∀ column, ledgerSum column [ledgerRow wallet wallet.id entryType amount
          reservedDelta reason createdBy] old.id = 0 := by
        intro column
        rw [ledgerSum_singleton]
        exact if_neg (Ne.symm hid)
      refine ⟨?_, ?_, hkept.balanceRange, hkept.reservedRange⟩
      · simpa [Service.post, Table.insert, hother] using hkept.balance
      · simpa [Service.post, Table.insert, hother] using hkept.reserved
  · intro before row after hsplit
    rcases List.eq_nil_or_concat after with rfl | ⟨after, last, rfl⟩
    · -- The new row is the last one; its sums are the wallet's old sums and its own amounts.
      obtain ⟨rfl, hrow⟩ : db.walletLedger = before ∧ ledgerRow wallet wallet.id entryType amount
          reservedDelta reason createdBy = row := by
        simpa [Service.post, Table.insert] using hsplit
      subst hrow
      refine ⟨?_, ?_, ?_, ?_⟩
      · simp [ledgerRow, hbal, hexact.balance]
      · simp [ledgerRow, hres, hexact.reserved]
      · simpa [ledgerRow, hbal] using hbalRange
      · simpa [ledgerRow, hres] using hresRange
    · refine h.running before row after ?_
      have hsplit' : db.walletLedger ++ [ledgerRow wallet wallet.id entryType amount
          reservedDelta reason createdBy] = (before ++ row :: after) ++ [last] := by
        simpa [Service.post, Table.insert] using hsplit
      exact (List.append_inj' hsplit' rfl).1

theorem LedgerExact.posted (h : LedgerExact db)
    (hposted : Posted walletID entryType amount reservedDelta reason createdBy db db') :
    LedgerExact db' := by
  obtain ⟨wallet, hfound, hbalance, hreserved, rfl⟩ := hposted
  exact h.post hfound hbalance hreserved

/-- A new wallet starts at zero with no ledger row. -/
theorem LedgerExact.insertWallet (h : LedgerExact db) (hfree : db.wallet wallet.id = none)
    (hbalance : wallet.balanceCredits = 0) (hreserved : wallet.reservedCredits = 0) :
    LedgerExact (db.apply (.insertWallet wallet)) := by
  have hnone : ∀ row ∈ db.walletLedger, row.walletID ≠ wallet.id := by
    intro row hrow heq
    have hsome := h.owned row hrow
    rw [heq, hfree] at hsome
    simp at hsome
  refine ⟨Table.unique_insert h.unique hfree, ?_, ?_, h.running⟩
  · intro row hrow
    obtain ⟨old, hold⟩ := Option.isSome_iff_exists.mp (h.owned row hrow)
    exact Option.isSome_of_eq_some (Table.select_insert_of_some hold)
  · intro new hnew
    rcases List.mem_append.mp hnew with hold | hlast
    · exact h.wallets new hold
    · rw [List.mem_singleton.mp hlast]
      refine ⟨?_, ?_, ?_, ?_⟩
      · simp [DB.apply, hbalance, ledgerSum_eq_zero hnone]
      · simp [DB.apply, hreserved, ledgerSum_eq_zero hnone]
      · simp [hbalance, InCreditRange, maxInt64]
      · simp [hreserved, InCreditRange, maxInt64]

end Entry

/-! ## Every operation -/

/-- The locks at which the invariant is checked. -/
def IsWallet (k : RowKey) : Prop := ∃ id, k = .wallet id

/-- An operation maintains the ledger. -/
abbrev KeepsLedger {α : Type} (p : Sql α) : Prop :=
  Tx.Maintains (S := store) IsWallet LedgerExact p

section Operations

variable {walletID : UUID} {entryType : EntryType} {amount reservedDelta : Int64}
  {reason : String} {createdBy : Option UUID}

theorem keepsLedger_lockRow {k : RowKey} :
    KeepsLedger (Tx.lockRow (S := store) k : Sql k.Row) :=
  .lockRow (S := store) (fun _ h _ => h) fun _ h => h

theorem keepsLedger_pure {α : Type} {a : α} : KeepsLedger (pure a) :=
  .pure (S := store) fun _ h => h

theorem keepsLedger_require {check : Bool} {e : Err} : KeepsLedger (require check e) :=
  triple_require fun _ h => h

theorem keepsLedger_orFail {α : Type} {e : Err} {o : Option α} : KeepsLedger (orFail e o) :=
  triple_orFail fun _ _ _ h => h

theorem keepsLedger_references {holds : DB → Bool} : KeepsLedger (references holds) :=
  triple_references fun _ h => h

theorem keepsLedger_unique {α : Type} {entry : Sql (Option α)}
    (h : KeepsLedger entry) : KeepsLedger (unique entry) :=
  triple_unique h

theorem keepsLedger_query {α : Type} {q : DB → α} : KeepsLedger (Tx.query (S := store) q) :=
  .query (S := store) fun _ _ h => h

/-- A write to any other table. -/
theorem keepsLedger_perform {w : DbWrite} (hwallets : ∀ db : DB, (db.apply w).wallets = db.wallets)
    (hledger : ∀ db : DB, (db.apply w).walletLedger = db.walletLedger) :
    KeepsLedger (Tx.perform (S := store) w) :=
  .perform (S := store) fun db h => LedgerExact.congr h (hwallets db) (hledger db)

/-- Between the two writes of an entry: the wallet row is ahead of its ledger by the
row to come. -/
def HalfPosted (wallet : WalletRow) (walletID : UUID) (balance reserved : Int64) (db' : DB) :
    Prop :=
  ∃ db : DB, db.wallet walletID = some wallet ∧ LedgerExact db ∧
    db' = db.apply (.setWallet walletID balance reserved)

theorem keepsLedger_addLedger :
    KeepsLedger (addLedger walletID entryType amount reservedDelta reason createdBy) := by
  refine .bind (Q := fun row (db : DB) => row = db.wallet walletID ∧ LedgerExact db)
    (.lockRow (S := store) (fun _ h _ => h) fun _ h => ⟨rfl, h⟩) fun row => ?_
  refine .bind (Q := fun wallet (db : DB) => db.wallet walletID = some wallet ∧ LedgerExact db)
    (triple_orFail fun wallet db hrow h => ⟨h.1 ▸ hrow, h.2⟩) fun wallet => ?_
  refine .ite (fun _ => .fail) fun haccepted => ?_
  obtain ⟨hbalance, hreserved⟩ := not_or.mp haccepted
  let half (_ : Unit) := HalfPosted wallet walletID (wallet.balanceCredits + amount)
    (wallet.reservedCredits + reservedDelta)
  refine .bind (Q := half) (.perform (S := store) fun db h => ⟨db, h.1, h.2, rfl⟩) fun _ => ?_
  refine .bind (Q := half) (triple_require fun _ h => h) fun _ => ?_
  refine .bind (Q := half) (triple_references fun _ h => h) fun _ => ?_
  refine .perform (S := store) ?_
  rintro _ ⟨db, hfound, hexact, rfl⟩
  exact hexact.post hfound hbalance hreserved

theorem keepsLedger_onlyIf {c : Prop} [Decidable c] {body : Sql Unit} (h : KeepsLedger body) :
    KeepsLedger (onlyIf c body) :=
  .ite (fun _ => h) fun _ => keepsLedger_pure

theorem keepsLedger_createWallet {id ownerID : UUID} {ownerType : OwnerType} :
    KeepsLedger (createWallet id ownerType ownerID) := by
  refine .bind (Q := fun _ (db : DB) => none = db.wallet id ∧ LedgerExact db)
    (triple_unique (R := fun row (db : DB) => row = db.wallet id ∧ LedgerExact db)
      (.lockRow (S := store) (fun _ h _ => h) fun _ h => ⟨rfl, h⟩)) fun _ => ?_
  refine .bind (Q := fun _ (db : DB) => none = db.wallet id ∧ LedgerExact db)
    (triple_unique (R := fun _ (db : DB) => none = db.wallet id ∧ LedgerExact db)
      (.lockRow (S := store) (k := .walletOwner (ownerType, ownerID))
        (fun _ h _ => h.2) fun _ h => h)) fun _ => ?_
  refine .bind (Q := fun _ => LedgerExact)
    (.perform (S := store) fun db h => h.2.insertWallet h.1.symm rfl rfl) fun _ => ?_
  exact keepsLedger_pure

theorem keepsLedger_adminAdjust {actorUserID : UUID} {target : String} :
    KeepsLedger (adminAdjust actorUserID target amount reason) := by
  refine .ite (fun _ => .fail) fun _ => ?_
  refine .bind keepsLedger_require fun _ => ?_
  refine .bind keepsLedger_query fun _ => ?_
  refine .bind keepsLedger_orFail fun _ => ?_
  refine .bind keepsLedger_lockRow fun _ => ?_
  refine .bind keepsLedger_addLedger fun _ => ?_
  refine .bind keepsLedger_references fun _ => ?_
  refine .bind (keepsLedger_perform (fun _ => rfl) fun _ => rfl) fun _ => ?_
  refine .bind keepsLedger_query fun _ => ?_
  exact keepsLedger_orFail

theorem keepsLedger_reserveForUser {userID : UUID} :
    KeepsLedger (reserveForUser userID amount reason) := by
  refine .ite (fun _ => .fail) fun _ => ?_
  refine .bind keepsLedger_query fun _ => ?_
  refine .bind keepsLedger_orFail fun _ => ?_
  refine .bind keepsLedger_addLedger fun _ => ?_
  exact keepsLedger_pure

theorem keepsLedger_release : KeepsLedger (release walletID amount reason) :=
  .ite (fun _ => .fail) fun _ => keepsLedger_addLedger

theorem keepsLedger_insertUsage {input : UsageSettlement} : KeepsLedger (insertUsage input) := by
  refine .bind keepsLedger_require fun _ => ?_
  refine .bind keepsLedger_orFail fun _ => ?_
  refine .bind (keepsLedger_unique keepsLedger_lockRow) fun _ => ?_
  refine .bind keepsLedger_references fun _ => ?_
  exact keepsLedger_perform (fun _ => rfl) fun _ => rfl

theorem keepsLedger_upsertSettledStats {providerID : UUID} {latencyMS : ℤ} :
    KeepsLedger (upsertSettledStats providerID latencyMS) := by
  refine .bind keepsLedger_lockRow fun _ => ?_
  refine .bind keepsLedger_references fun _ => ?_
  refine .bind keepsLedger_orFail fun _ => ?_
  exact keepsLedger_perform (fun _ => rfl) fun _ => rfl

theorem keepsLedger_finalizeUsage {input : UsageSettlement} :
    KeepsLedger (finalizeUsage input) := by
  refine .ite (fun _ => .fail) fun _ => ?_
  refine .bind (keepsLedger_onlyIf keepsLedger_addLedger) fun _ => ?_
  refine .bind (keepsLedger_onlyIf keepsLedger_addLedger) fun _ => ?_
  refine .bind (keepsLedger_onlyIf keepsLedger_addLedger) fun _ => ?_
  refine .bind keepsLedger_insertUsage fun _ => ?_
  refine .bind (keepsLedger_perform (fun _ => rfl) fun _ => rfl) fun _ => ?_
  exact keepsLedger_upsertSettledStats

theorem keepsLedger_createUser {id : UUID} {publicID email passwordHash displayName : String}
    {role : Role} :
    KeepsLedger (createUser id publicID email passwordHash displayName role) := by
  refine .bind keepsLedger_require fun _ => ?_
  refine .bind (keepsLedger_unique keepsLedger_lockRow) fun _ => ?_
  refine .bind (keepsLedger_unique keepsLedger_lockRow) fun _ => ?_
  refine .bind (keepsLedger_unique keepsLedger_lockRow) fun _ => ?_
  refine .bind (keepsLedger_perform (fun _ => rfl) fun _ => rfl) fun _ => ?_
  exact keepsLedger_pure

theorem keepsLedger_register {P : Platform} {cfg : Config} {userID : UUID} {publicID : String}
    {input : RegisterInput} :
    KeepsLedger (register P cfg userID walletID publicID input) := by
  refine .ite (fun _ => .fail) fun _ => ?_
  refine .bind keepsLedger_orFail fun _ => ?_
  refine .bind keepsLedger_query fun _ => ?_
  refine .bind keepsLedger_createUser fun _ => ?_
  refine .bind keepsLedger_createWallet fun _ => ?_
  refine .bind keepsLedger_addLedger fun _ => ?_
  exact keepsLedger_pure

theorem keepsLedger_createProvider {id ownerUserID : UUID} {publicID name tokenHash : String}
    {approval : ApprovalStatus} :
    KeepsLedger (createProvider id publicID ownerUserID name tokenHash approval) := by
  refine .bind keepsLedger_require fun _ => ?_
  refine .bind (keepsLedger_unique keepsLedger_lockRow) fun _ => ?_
  refine .bind (keepsLedger_unique keepsLedger_lockRow) fun _ => ?_
  refine .bind (keepsLedger_unique keepsLedger_lockRow) fun _ => ?_
  refine .bind keepsLedger_references fun _ => ?_
  refine .bind (keepsLedger_perform (fun _ => rfl) fun _ => rfl) fun _ => ?_
  exact keepsLedger_pure

theorem keepsLedger_createProviderAccount {P : Platform} {cfg : Config}
    {providerID ownerUserID : UUID} {publicID token name : String} :
    KeepsLedger
      (createProviderAccount P cfg providerID walletID publicID token ownerUserID name) := by
  refine .ite (fun _ => .fail) fun _ => ?_
  refine .bind keepsLedger_createProvider fun _ => ?_
  refine .bind keepsLedger_createWallet fun _ => ?_
  refine .bind (keepsLedger_perform (fun _ => rfl) fun _ => rfl) fun _ => ?_
  exact keepsLedger_pure

theorem keepsLedger_createInferenceJob {id : UUID} {job : JobSpec} :
    KeepsLedger (createInferenceJob id job) := by
  refine .bind keepsLedger_require fun _ => ?_
  refine .bind keepsLedger_require fun _ => ?_
  refine .bind (keepsLedger_unique keepsLedger_lockRow) fun _ => ?_
  refine .bind (keepsLedger_unique keepsLedger_lockRow) fun _ => ?_
  refine .bind keepsLedger_references fun _ => ?_
  refine .bind keepsLedger_references fun _ => ?_
  refine .bind (keepsLedger_perform (fun _ => rfl) fun _ => rfl) fun _ => ?_
  exact keepsLedger_pure

theorem keepsLedger_markJobFailed {jobID : UUID} {status : JobStatus} {code message : String} :
    KeepsLedger (markJobFailed jobID status code message) := by
  refine .bind keepsLedger_require fun _ => ?_
  refine .bind keepsLedger_lockRow fun job => ?_
  split
  · exact keepsLedger_perform (fun _ => rfl) fun _ => rfl
  · refine .bind (keepsLedger_perform (fun _ => rfl) fun _ => rfl) fun _ => ?_
    refine .bind keepsLedger_lockRow fun _ => ?_
    refine .bind keepsLedger_references fun _ => ?_
    exact keepsLedger_perform (fun _ => rfl) fun _ => rfl

end Operations

end Nuvonode.Service
