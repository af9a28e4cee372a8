/-
  Service/Background.lean --- what everything but a chat request does to the money.

  Registrations, provider creations, adjustments and the statements on other tables
  are `Background`: they leave jobs, usage records, statistics, reservations and
  debits alone, and change the credits in circulation only by the grants and
  adjustments they write down.
-/
import Nuvonode.Service.Ledger

set_option autoImplicit false

namespace Nuvonode.Service

open Nuvonode.Foundation Nuvonode.Database Nuvonode.Repository

/-! ## What is measured -/

/-- The reserved column of a wallet, zero where there is no such wallet. -/
def reservedOf (db : DB) (walletID : UUID) : ℤ :=
  ((db.wallet walletID).map fun row => row.reservedCredits.toInt).getD 0

/-- All credits there are, free and reserved. -/
def totalCredits (db : DB) : ℤ :=
  Table.total (fun row => row.balanceCredits.toInt + row.reservedCredits.toInt) db.wallets

/-- The sum of the entries of one type. -/
def entriesOf (entryType : EntryType) (db : DB) : ℤ :=
  Table.total (fun row => if row.entryType = entryType then row.amountCredits.toInt else 0)
    db.walletLedger

/-- The credits put into circulation. -/
def funds (db : DB) : ℤ := entriesOf .grant db + entriesOf .adminAdjustment db

/-- The entries that pay for usage. -/
def debits (db : DB) : List LedgerRow :=
  db.walletLedger.filter fun row => row.entryType = .debitUsage

/-! ## What lasts -/

/-- What refers to rows of `db` still does in `db'`. -/
structure Persists (db db' : DB) : Prop where
  parties : ∀ projectID userID modelID providerID providerInstanceID,
    partiesExist projectID userID modelID providerID providerInstanceID db = true →
      partiesExist projectID userID modelID providerID providerInstanceID db' = true
  walletOf : ∀ owner walletID, db.walletOf owner = some walletID →
    db'.walletOf owner = some walletID

theorem Persists.refl (db : DB) : Persists db db := ⟨fun _ _ _ _ _ h => h, fun _ _ h => h⟩

theorem Persists.trans {db db' db'' : DB} (h : Persists db db') (h' : Persists db' db'') :
    Persists db db'' where
  parties := fun p u m pr i hp => h'.parties p u m pr i (h.parties p u m pr i hp)
  walletOf := fun owner id hw => h'.walletOf owner id (h.walletOf owner id hw)

/-- The tables that are referred to are enough. -/
theorem Persists.of_follows {db db' : DB} (hcatalog : catalogFollows db.catalog db'.catalog = true)
    (husers : ∀ id, (db.user id).isSome → (db'.user id).isSome)
    (hproviders : ∀ id, (db.provider id).isSome → (db'.provider id).isSome)
    (hwallets : ∀ owner id, db.walletOf owner = some id → db'.walletOf owner = some id) :
    Persists db db' where
  parties := by
    intro p u m pr i h
    simp only [catalogFollows, Bool.and_eq_true] at hcatalog
    obtain ⟨⟨⟨⟨hprojects, -⟩, hmodels⟩, -⟩, hinstances⟩ := hcatalog
    simp only [partiesExist, Bool.and_eq_true] at h ⊢
    obtain ⟨⟨⟨⟨hp, hu⟩, hm⟩, hpr⟩, hi⟩ := h
    exact ⟨⟨⟨⟨any_of_keepsIDs hprojects hp, husers u hu⟩, any_of_keepsIDs hmodels hm⟩,
      hproviders pr hpr⟩, any_of_keepsIDs hinstances hi⟩
  walletOf := hwallets

theorem Persists.of_tables {db db' : DB} (hcatalog : db'.catalog = db.catalog)
    (husers : ∀ id, (db.user id).isSome → (db'.user id).isSome)
    (hproviders : ∀ id, (db.provider id).isSome → (db'.provider id).isSome)
    (hwallets : ∀ owner id, db.walletOf owner = some id → db'.walletOf owner = some id) :
    Persists db db' :=
  .of_follows (hcatalog ▸ catalogFollows_refl db.catalog) husers hproviders hwallets

/-- No statement removes what is referred to. -/
theorem persists_apply (db : DB) (w : DbWrite) : Persists db (db.apply w) := by
  cases w with
  | insertUser row =>
      refine .of_tables rfl (fun id h => ?_) (fun _ h => h) fun _ _ h => h
      obtain ⟨old, hold⟩ := Option.isSome_iff_exists.mp h
      exact Option.isSome_of_eq_some (Table.select_insert_of_some hold)
  | insertWallet row =>
      refine .of_tables rfl (fun _ h => h) (fun _ h => h) fun owner id h => ?_
      obtain ⟨old, hold, rfl⟩ := Option.map_eq_some_iff.mp h
      exact Option.map_eq_some_iff.mpr ⟨old, Table.select_insert_of_some hold, rfl⟩
  | setWallet walletID balance reserved =>
      refine .of_tables rfl (fun _ h => h) (fun _ h => h) fun owner id h => ?_
      have howner : ∀ row : WalletRow, DB.walletOwner (row.set balance reserved) =
          DB.walletOwner row := fun _ => rfl
      have hid : ∀ row : WalletRow, (row.set balance reserved).id = row.id := fun _ => rfl
      exact (map_select_update howner hid).trans h
  | insertProvider row =>
      refine .of_tables rfl (fun _ h => h) (fun id h => ?_) fun _ _ h => h
      obtain ⟨old, hold⟩ := Option.isSome_iff_exists.mp h
      exact Option.isSome_of_eq_some (Table.select_insert_of_some hold)
  | setProviderWallet providerID walletID =>
      refine .of_tables rfl (fun _ h => h) (fun id h => ?_) fun _ _ h => h
      have hkeeps : ∀ row : ProviderRow, (row.setWallet walletID).id = row.id := fun _ => rfl
      have hsel : (db.apply (.setProviderWallet providerID walletID)).provider id =
          (db.provider id).map _ := Table.select_update hkeeps id
      rw [hsel, Option.isSome_map]
      exact h
  | _ => exact .of_tables rfl (fun _ h => h) (fun _ h => h) fun _ _ h => h

/-! ## What an entry does to the measures -/

section Entry

variable {db db' : DB} {walletID : UUID} {entryType : EntryType} {amount reservedDelta : Int64}
  {reason : String} {createdBy : Option UUID}

/-- The columns an entry leaves, as exact integers. -/
theorem Posted.columns (hexact : LedgerExact db)
    (h : Posted walletID entryType amount reservedDelta reason createdBy db db') :
    ∃ wallet, db.wallet walletID = some wallet ∧
      (wallet.balanceCredits + amount).toInt = wallet.balanceCredits.toInt + amount.toInt ∧
      (wallet.reservedCredits + reservedDelta).toInt =
        wallet.reservedCredits.toInt + reservedDelta.toInt ∧
      db' = post db wallet walletID entryType amount reservedDelta reason createdBy := by
  obtain ⟨wallet, hfound, hbalance, hreserved, rfl⟩ := h
  have hwallet := (hexact.exact_of_wallet hfound).2
  exact ⟨wallet, hfound, toInt_add_of_nonneg hwallet.balanceRange.1 hbalance,
    toInt_add_of_nonneg hwallet.reservedRange.1 hreserved, rfl⟩

theorem Posted.totalCredits (hexact : LedgerExact db)
    (h : Posted walletID entryType amount reservedDelta reason createdBy db db') :
    totalCredits db' = totalCredits db + amount.toInt + reservedDelta.toInt := by
  obtain ⟨wallet, hfound, hbalance, hreserved, rfl⟩ := h.columns hexact
  have hmoved : ∀ change : WalletRow → WalletRow,
      Table.total (fun row => row.balanceCredits.toInt + row.reservedCredits.toInt)
        (Table.update WalletRow.id db.wallets walletID change) = _ :=
    fun _ => Table.total_update _ hexact.unique hfound
  simp only [Service.totalCredits, post, hmoved, WalletRow.set, hbalance, hreserved]
  omega

theorem Posted.reservedOf (hexact : LedgerExact db)
    (h : Posted walletID entryType amount reservedDelta reason createdBy db db') (id : UUID) :
    reservedOf db' id =
      reservedOf db id + if id = walletID then reservedDelta.toInt else 0 := by
  have hselect := h.select id
  obtain ⟨wallet, hfound, -, hreserved, -⟩ := h.columns hexact
  unfold Service.reservedOf
  rw [hselect]
  by_cases hid : id = walletID
  · subst hid
    have hwallet : wallet.id = id := (Table.mem_of_select hfound).2
    simp [hfound, adjust, hwallet, WalletRow.set, hreserved]
  · rw [if_neg hid]
    cases hrow : db.wallet id with
    | none => rfl
    | some row =>
        have hne : row.id ≠ walletID := (Table.mem_of_select hrow).2 ▸ hid
        simp [adjust, hne]

theorem Posted.entriesOf (h : Posted walletID entryType amount reservedDelta reason createdBy
    db db') (other : EntryType) : entriesOf other db' =
      entriesOf other db + if entryType = other then amount.toInt else 0 := by
  obtain ⟨wallet, -, -, -, rfl⟩ := h
  simp [Service.entriesOf, post, ledgerRow]

theorem Posted.debits (h : Posted walletID entryType amount reservedDelta reason createdBy db db')
    (hentry : entryType ≠ .debitUsage) : debits db' = debits db := by
  obtain ⟨wallet, -, -, -, rfl⟩ := h
  simp [Service.debits, post, Table.insert, ledgerRow, hentry]

theorem Posted.persists (h : Posted walletID entryType amount reservedDelta reason createdBy
    db db') : Persists db db' := by
  obtain ⟨wallet, -, -, -, rfl⟩ := h
  exact (persists_apply db (.setWallet walletID (wallet.balanceCredits + amount)
    (wallet.reservedCredits + reservedDelta))).trans (persists_apply _ (.insertLedger _))

end Entry

/-! ## Background changes -/

/-- A change that no chat request makes. -/
structure Background (db db' : DB) : Prop where
  persists : Persists db db'
  jobs : db'.inferenceJobs = db.inferenceJobs
  usage : db'.usageRecords = db.usageRecords
  stats : db'.providerStats = db.providerStats
  ledger : LedgerExact db → LedgerExact db'
  reserved : LedgerExact db → ∀ id, reservedOf db' id = reservedOf db id
  credits : LedgerExact db → totalCredits db' - funds db' = totalCredits db - funds db
  debits : debits db' = debits db

theorem Background.trans {db db' db'' : DB} (h : Background db db') (h' : Background db' db'') :
    Background db db'' where
  persists := h.persists.trans h'.persists
  jobs := h'.jobs.trans h.jobs
  usage := h'.usage.trans h.usage
  stats := h'.stats.trans h.stats
  ledger := fun hexact => h'.ledger (h.ledger hexact)
  reserved := fun hexact id => (h'.reserved (h.ledger hexact) id).trans (h.reserved hexact id)
  credits := fun hexact => (h'.credits (h.ledger hexact)).trans (h.credits hexact)
  debits := h'.debits.trans h.debits

/-- A change of other tables only. -/
theorem Background.of_tables {db db' : DB} (hpersists : Persists db db')
    (hjobs : db'.inferenceJobs = db.inferenceJobs) (husage : db'.usageRecords = db.usageRecords)
    (hstats : db'.providerStats = db.providerStats) (hwallets : db'.wallets = db.wallets)
    (hledger : db'.walletLedger = db.walletLedger) : Background db db' where
  persists := hpersists
  jobs := hjobs
  usage := husage
  stats := hstats
  ledger := fun hexact => hexact.congr hwallets hledger
  reserved := fun _ id => by simp [reservedOf, DB.wallet, hwallets]
  credits := fun _ => by simp [totalCredits, funds, entriesOf, hwallets, hledger]
  debits := by simp [Service.debits, hledger]

theorem Background.refl (db : DB) : Background db db :=
  .of_tables (.refl db) rfl rfl rfl rfl rfl

section Steps

variable {db db' : DB} {walletID : UUID} {entryType : EntryType} {amount : Int64}
  {reason : String} {createdBy : Option UUID}

/-- An entry that puts credits into circulation. -/
theorem Posted.background
    (hentry : entryType = .grant ∨ entryType = .adminAdjustment)
    (h : Posted walletID entryType amount 0 reason createdBy db db') : Background db db' where
  persists := h.persists
  jobs := by rw [h.frame]
  usage := by rw [h.frame]
  stats := by rw [h.frame]
  ledger := fun hexact => hexact.posted h
  reserved := fun hexact id => by simp [h.reservedOf hexact]
  credits := fun hexact => by
    have htotal := h.totalCredits hexact
    have hgrant := h.entriesOf .grant
    have hadjust := h.entriesOf .adminAdjustment
    have hzero : (0 : Int64).toInt = 0 := rfl
    simp only [funds] at *
    rcases hentry with rfl | rfl <;> simp at hgrant hadjust <;> omega
  debits := h.debits (by rcases hentry with rfl | rfl <;> decide)

/-- A new, empty wallet. -/
theorem background_insertWallet {wallet : WalletRow} (hfree : db.wallet wallet.id = none)
    (hbalance : wallet.balanceCredits = 0) (hreserved : wallet.reservedCredits = 0) :
    Background db (db.apply (.insertWallet wallet)) where
  persists := persists_apply db _
  jobs := rfl
  usage := rfl
  stats := rfl
  ledger := fun hexact => hexact.insertWallet hfree hbalance hreserved
  reserved := fun _ id => by
    have hselect : (db.apply (.insertWallet wallet)).wallet id = _ := Table.select_insert
    unfold reservedOf
    rw [hselect]
    by_cases hid : wallet.id = id
    · subst hid
      rw [DB.wallet] at hfree
      simp [DB.wallet, hfree, hreserved]
    · simp [DB.wallet, hid]
  credits := fun _ => by
    simp [totalCredits, funds, entriesOf, DB.apply, hbalance, hreserved]
  debits := rfl

end Steps

section Operations

variable {P : Platform} {cfg : Config} {db db' : DB}

theorem background_register {userID walletID : UUID} {publicID : String} {input : RegisterInput}
    {r : UserRow}
    (h : (register P cfg userID walletID publicID input).exec db = .ok (r, db')) :
    Background db db' := by
  obtain ⟨ws, hyields, rfl⟩ := yields_of_exec h
  obtain ⟨-, hfree, hposted⟩ := yields_register hyields
  have huser : Background db (db.apply (.insertUser r)) :=
    .of_tables (persists_apply db _) rfl rfl rfl rfl rfl
  have hwallet : Background (db.apply (.insertUser r))
      ((db.apply (.insertUser r)).apply (.insertWallet ⟨walletID, .user, userID, 0, 0⟩)) :=
    background_insertWallet hfree rfl rfl
  exact (huser.trans hwallet).trans (hposted.background (.inl rfl))

theorem background_createProviderAccount {providerID walletID ownerUserID : UUID}
    {publicID token name : String} {r : ProviderRow}
    (h : (createProviderAccount P cfg providerID walletID publicID token ownerUserID name).exec db
      = .ok (r, db')) : Background db db' := by
  obtain ⟨ws, hyields, rfl⟩ := yields_of_exec h
  obtain ⟨-, hfree, hresult⟩ := yields_createProviderAccount hyields
  rw [hresult]
  have hprovider : Background db (db.apply (.insertProvider r)) :=
    .of_tables (persists_apply db _) rfl rfl rfl rfl rfl
  have hwallet : Background (db.apply (.insertProvider r)) ((db.apply (.insertProvider r)).apply
      (.insertWallet ⟨walletID, .provider, providerID, 0, 0⟩)) :=
    background_insertWallet hfree rfl rfl
  have hlink : ∀ db₁ : DB, Background db₁ (db₁.apply (.setProviderWallet providerID walletID)) :=
    fun db₁ => .of_tables (persists_apply db₁ _) rfl rfl rfl rfl rfl
  exact (hprovider.trans hwallet).trans (hlink _)

theorem background_adminAdjust {actorUserID : UUID} {target reason : String} {amount : Int64}
    {r : WalletRow} (h : (adminAdjust actorUserID target amount reason).exec db = .ok (r, db')) :
    Background db db' := by
  obtain ⟨ws, hyields, rfl⟩ := yields_of_exec h
  obtain ⟨walletID, db₁, row, hposted, hresult⟩ := yields_adminAdjust hyields
  rw [hresult]
  have haudit : Background db₁ (db₁.apply (.insertAudit row)) :=
    .of_tables (persists_apply db₁ _) rfl rfl rfl rfl rfl
  exact (hposted.background (.inr rfl)).trans haudit

end Operations

end Nuvonode.Service
