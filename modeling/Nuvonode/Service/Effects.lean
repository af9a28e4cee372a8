/-
  Service/Effects.lean --- what each operation does when it returns.

  One specification lemma for each operation: what its view of the database was
  and what it is afterwards.  The lemmas are about transactions running among
  others (`Tx.Yields`); for a transaction running alone they apply with itself as
  the only state its unlocked reads see (`Tx.yields_of_exec`).
-/
import Nuvonode.Service.Wallet

set_option autoImplicit false

namespace Nuvonode.Service

open Nuvonode.Foundation Nuvonode.Database Nuvonode.Repository

/-- The database after an entry on a wallet that was found as `wallet`. -/
def post (db : DB) (wallet : WalletRow) (walletID : UUID) (entryType : EntryType)
    (amount reservedDelta : Int64) (reason : String) (createdBy : Option UUID) : DB :=
  { db with
    wallets := Table.update WalletRow.id db.wallets walletID
      (WalletRow.set (wallet.balanceCredits + amount) (wallet.reservedCredits + reservedDelta))
    walletLedger := Table.insert db.walletLedger
      (ledgerRow wallet walletID entryType amount reservedDelta reason createdBy) }

/-- An entry was accepted and leads from `db` to `db'`. -/
def Posted (walletID : UUID) (entryType : EntryType) (amount reservedDelta : Int64)
    (reason : String) (createdBy : Option UUID) (db db' : DB) : Prop :=
  ∃ wallet, db.wallet walletID = some wallet ∧
    ¬ wallet.balanceCredits + amount < 0 ∧ ¬ wallet.reservedCredits + reservedDelta < 0 ∧
    db' = post db wallet walletID entryType amount reservedDelta reason createdBy

/-- An entry that is only made for a positive amount. -/
def PostedIf (c : Prop) (walletID : UUID) (entryType : EntryType)
    (amount reservedDelta : Int64) (reason : String) (db db' : DB) : Prop :=
  c ∧ Posted walletID entryType amount reservedDelta reason none db db' ∨ ¬ c ∧ db' = db

section Ledger

variable {seen : DB → Prop} {s : DB} {ws ws' : List DbWrite} {walletID : UUID}
  {entryType : EntryType} {amount reservedDelta : Int64} {reason : String}
  {createdBy : Option UUID} {r : Unit}

theorem yields_addLedger
    (h : Tx.Yields (S := store) seen s
      (addLedger walletID entryType amount reservedDelta reason createdBy) ws r ws') :
    Posted walletID entryType amount reservedDelta reason createdBy
      (store.applyAll s ws) (store.applyAll s ws') := by
  simp only [addLedger, Tx.yields_bind, yields_lockWallet, yields_orFail] at h
  obtain ⟨_, _, ⟨rfl, rfl⟩, wallet, _, ⟨hfound, rfl⟩, h⟩ := h
  split at h
  · simp at h
  · rename_i haccepted
    obtain ⟨hbalance, hreserved⟩ := not_or.mp haccepted
    simp only [Tx.yields_bind, Tx.yields_perform, yields_require, yields_references] at h
    obtain ⟨_, _, rfl, _, _, ⟨_, rfl⟩, _, _, ⟨_, rfl⟩, rfl⟩ := h
    refine ⟨wallet, hfound, hbalance, hreserved, ?_⟩
    rw [applyAll_snoc, applyAll_snoc]
    rfl

theorem yields_onlyIf {c : Prop} [Decidable c]
    (h : Tx.Yields (S := store) seen s
      (onlyIf c (addLedger walletID entryType amount reservedDelta reason none)) ws r ws') :
    PostedIf c walletID entryType amount reservedDelta reason
      (store.applyAll s ws) (store.applyAll s ws') := by
  unfold onlyIf at h
  split at h
  · rename_i hc
    exact .inl ⟨hc, yields_addLedger h⟩
  · rename_i hc
    obtain ⟨-, rfl⟩ := Tx.yields_pure.mp h
    exact .inr ⟨hc, rfl⟩

end Ledger

/-! ## Looking a wallet up afterwards -/

/-- Move the cached columns of one wallet. -/
def adjust (walletID : UUID) (amount reservedDelta : Int64) (row : WalletRow) :
    WalletRow :=
  if row.id = walletID then
    row.set (row.balanceCredits + amount) (row.reservedCredits + reservedDelta)
  else row

@[simp] theorem adjust_id (walletID : UUID) (amount reservedDelta : Int64)
    (row : WalletRow) : (adjust walletID amount reservedDelta row).id = row.id := by
  unfold adjust
  split <;> rfl

theorem adjust_zero (walletID : UUID) (row : WalletRow) :
    adjust walletID 0 0 row = row := by
  simp [adjust, WalletRow.set]

/-- Movements of one wallet add up. -/
theorem adjust_adjust (walletID : UUID) (a b c d : Int64) (row : WalletRow) :
    adjust walletID c d (adjust walletID a b row) =
      adjust walletID (a + c) (b + d) row := by
  by_cases hrow : row.id = walletID <;>
    simp [adjust, WalletRow.set, hrow, Int64.add_assoc]

section Lookup

variable {db db' : DB} {wallet : WalletRow} {walletID : UUID} {entryType : EntryType}
  {amount reservedDelta : Int64} {reason : String} {createdBy : Option UUID}

theorem wallet_post (id : UUID) :
    (post db wallet walletID entryType amount reservedDelta reason createdBy).wallet id =
      (db.wallet id).map fun row => if row.id = walletID then
        row.set (wallet.balanceCredits + amount) (wallet.reservedCredits + reservedDelta)
      else row := by
  have hkeeps : ∀ row : WalletRow, (row.set (wallet.balanceCredits + amount)
      (wallet.reservedCredits + reservedDelta)).id = row.id := fun _ => rfl
  exact Table.select_update hkeeps id

/-- An entry moves its own wallet and no other. -/
theorem Posted.select
    (h : Posted walletID entryType amount reservedDelta reason createdBy db db') (id : UUID) :
    db'.wallet id = (db.wallet id).map (adjust walletID amount reservedDelta) := by
  obtain ⟨wallet, hfound, -, -, rfl⟩ := h
  rw [wallet_post]
  cases hrow : db.wallet id with
  | none => rfl
  | some row =>
      have hid : row.id = id := (Table.mem_of_select hrow).2
      by_cases hsame : row.id = walletID
      · have hwallet : row = wallet := by
          rw [← hid, hsame, hfound] at hrow
          exact (Option.some.inj hrow).symm
        simp [adjust, hwallet]
      · simp [adjust, hsame]

/-- What an entry leaves in its wallet. -/
theorem Posted.own
    (h : Posted walletID entryType amount reservedDelta reason createdBy db db')
    (hfound : db.wallet walletID = some wallet) :
    db'.wallet walletID = some (wallet.set (wallet.balanceCredits + amount)
      (wallet.reservedCredits + reservedDelta)) := by
  have hid : wallet.id = walletID := (Table.mem_of_select hfound).2
  rw [h.select, hfound, Option.map_some, adjust, if_pos hid]

theorem PostedIf.select {c : Prop}
    (h : PostedIf c walletID entryType amount reservedDelta reason db db')
    (hzero : ¬ c → amount = 0 ∧ reservedDelta = 0) (id : UUID) :
    db'.wallet id = (db.wallet id).map (adjust walletID amount reservedDelta) := by
  rcases h with ⟨-, h⟩ | ⟨hc, rfl⟩
  · exact h.select id
  · obtain ⟨rfl, rfl⟩ := hzero hc
    cases db'.wallet id with
    | none => rfl
    | some row => rw [Option.map_some, adjust_zero]

end Lookup

/-! ## Settlement -/

/-- The database after a settlement, given the one after its ledger entries. -/
def settle (input : UsageSettlement) (source : TokenSource) (stats : StatsRow) (db : DB) : DB :=
  { db with
    usageRecords := Table.insert db.usageRecords (input.record source)
    inferenceJobs := Table.update JobRow.id db.inferenceJobs input.jobID
      (JobRow.settle input.actualCostCredits input.providerRewardCredits)
    providerStats := Table.upsert StatsRow.providerID db.providerStats stats }

/-- A settlement leads from `db` to `db'`: its ledger entries, its usage record, the
status of its job and the statistics of its provider, all together. -/
structure Settled (input : UsageSettlement) (db db' : DB) : Prop where
  nonneg : ¬ (input.reservedCredits < 0 ∨ input.actualCostCredits < 0 ∨
    input.providerRewardCredits < 0)
  fits : input.fitsColumns = true
  unused : db.usage input.jobID = none
  effect : ∃ db₁ db₂ db₃ source stats,
    PostedIf (0 < input.reservedCredits) input.userWalletID .releaseReserve
      input.reservedCredits (-input.reservedCredits) "release_usage_reservation" db db₁ ∧
    PostedIf (0 < input.actualCostCredits) input.userWalletID .debitUsage
      (-input.actualCostCredits) 0 "chat_completion_usage" db₁ db₂ ∧
    PostedIf (0 < input.providerRewardCredits) input.userWalletID .creditProviderReward
      input.providerRewardCredits 0 "chat_completion_provider_reward" db₂ db₃ ∧
    tokenSourceOf input.sourceText = some source ∧
    StatsRow.settled input.latencyMS input.providerID (db₃.stats input.providerID) = some stats ∧
    db' = settle input source stats db₃

section Frames

variable {walletID : UUID} {entryType : EntryType} {amount reservedDelta : Int64}
  {reason : String} {createdBy : Option UUID} {db db' : DB} {c : Prop}

/-- An entry changes wallets and their ledger and nothing else. -/
theorem Posted.frame (h : Posted walletID entryType amount reservedDelta reason createdBy db db') :
    db' = { db with wallets := db'.wallets, walletLedger := db'.walletLedger } := by
  obtain ⟨wallet, -, -, -, rfl⟩ := h
  rfl

theorem PostedIf.frame (h : PostedIf c walletID entryType amount reservedDelta reason db db') :
    db' = { db with wallets := db'.wallets, walletLedger := db'.walletLedger } := by
  rcases h with ⟨-, h⟩ | ⟨-, rfl⟩
  · exact h.frame
  · rfl

end Frames

section Settlement

variable {seen : DB → Prop} {s : DB} {ws ws' : List DbWrite} {input : UsageSettlement}
  {r : Unit}

theorem yields_insertUsage (h : Tx.Yields (S := store) seen s (insertUsage input) ws r ws') :
    input.fitsColumns = true ∧ (store.applyAll s ws).usage input.jobID = none ∧
      ∃ source, tokenSourceOf input.sourceText = some source ∧
        ws' = ws ++ [.insertUsage (input.record source)] := by
  simp only [insertUsage, Tx.yields_bind, Tx.yields_perform, yields_require, yields_unique,
    yields_orFail, yields_references, yields_lockUsage] at h
  obtain ⟨_, _, ⟨hfits, rfl⟩, source, _, ⟨hsource, rfl⟩, _, _, ⟨hfree, rfl⟩, _, _, ⟨_, rfl⟩,
    rfl⟩ := h
  exact ⟨hfits, hfree.symm, source, hsource, rfl⟩

theorem yields_upsertSettledStats {providerID : UUID} {latencyMS : ℤ}
    (h : Tx.Yields (S := store) seen s (upsertSettledStats providerID latencyMS) ws r ws') :
    ∃ stats, StatsRow.settled latencyMS providerID
        ((store.applyAll s ws).stats providerID) = some stats ∧
      ws' = ws ++ [.putStats stats] := by
  simp only [upsertSettledStats, Tx.yields_bind, Tx.yields_perform, yields_lockStats,
    yields_references, yields_orFail] at h
  obtain ⟨_, _, ⟨rfl, rfl⟩, _, _, ⟨_, rfl⟩, stats, _, ⟨hstats, rfl⟩, rfl⟩ := h
  exact ⟨stats, hstats, rfl⟩

/-- What `FinalizeUsage` does when it returns. -/
theorem yields_finalizeUsage
    (h : Tx.Yields (S := store) seen s (finalizeUsage input) ws r ws') :
    Settled input (store.applyAll s ws) (store.applyAll s ws') := by
  unfold finalizeUsage at h
  split at h
  · simp at h
  · rename_i hnonneg
    simp only [Tx.yields_bind, Tx.yields_perform] at h
    obtain ⟨_, ws₁, hrelease, _, ws₂, hdebit, _, ws₃, hreward, _, ws₄, husage, _, _, rfl,
      hstats⟩ := h
    have h₁ := yields_onlyIf hrelease
    have h₂ := yields_onlyIf hdebit
    have h₃ := yields_onlyIf hreward
    obtain ⟨hfits, hfree, source, hsource, rfl⟩ := yields_insertUsage husage
    obtain ⟨stats, hrow, rfl⟩ := yields_upsertSettledStats hstats
    refine ⟨hnonneg, hfits, ?_, _, _, _, source, stats, h₁, h₂, h₃, hsource, ?_, ?_⟩
    · rw [h₃.frame, h₂.frame, h₁.frame] at hfree
      exact hfree
    · rw [applyAll_snoc, applyAll_snoc] at hrow
      exact hrow
    · rw [applyAll_snoc, applyAll_snoc, applyAll_snoc]
      rfl

end Settlement

/-- A word that is neither negative nor positive. -/
theorem eq_zero_of_not_lt {x : Int64} (hneg : ¬ x < 0) (hpos : ¬ 0 < x) : x = 0 := by
  rw [Int64.lt_iff_toInt_lt] at hneg hpos
  exact Int64.toInt_inj.mp (by omega)

/-- A settlement moves the wallet it names, by all three amounts, and no other. -/
theorem Settled.select {input : UsageSettlement} {db db' : DB} (h : Settled input db db')
    (id : UUID) : db'.wallet id = (db.wallet id).map
      (adjust input.userWalletID
        (input.reservedCredits + -input.actualCostCredits + input.providerRewardCredits)
        (-input.reservedCredits)) := by
  obtain ⟨db₁, db₂, db₃, source, stats, h₁, h₂, h₃, -, -, rfl⟩ := h.effect
  obtain ⟨hreserved, hrest⟩ := not_or.mp h.nonneg
  obtain ⟨hcost, hreward⟩ := not_or.mp hrest
  have hw₁ := h₁.select (fun hc => by simp [eq_zero_of_not_lt hreserved hc]) id
  have hw₂ := h₂.select (fun hc => by simp [eq_zero_of_not_lt hcost hc]) id
  have hw₃ := h₃.select (fun hc => by simp [eq_zero_of_not_lt hreward hc]) id
  have hsame : (settle input source stats db₃).wallet id = db₃.wallet id := rfl
  rw [hsame, hw₃, hw₂, hw₁, Option.map_map, Option.map_map]
  congr 1
  funext row
  simp [adjust_adjust]

section SettledWallets

variable {db db' : DB} {input : UsageSettlement} {wallet : WalletRow}

/-- A settlement touches no wallet but the one it names. -/
theorem Settled.select_other (h : Settled input db db') {other : UUID}
    (hother : other ≠ input.userWalletID) : db'.wallet other = db.wallet other := by
  rw [h.select]
  cases hrow : db.wallet other with
  | none => rfl
  | some row =>
      have hid : row.id ≠ input.userWalletID := (Table.mem_of_select hrow).2 ▸ hother
      simp [adjust, hid]

/-- What a settlement leaves in the wallet it names. -/
theorem Settled.select_own (h : Settled input db db')
    (hwallet : db.wallet input.userWalletID = some wallet) :
    db'.wallet input.userWalletID = some (wallet.set
      (wallet.balanceCredits +
        (input.reservedCredits + -input.actualCostCredits + input.providerRewardCredits))
      (wallet.reservedCredits + -input.reservedCredits)) := by
  have hid : wallet.id = input.userWalletID := (Table.mem_of_select hwallet).2
  rw [h.select, hwallet, Option.map_some, adjust, if_pos hid]

/-- The release step accepts no sum above the range. -/
theorem Settled.balance_le (h : Settled input db db')
    (hwallet : db.wallet input.userWalletID = some wallet) :
    wallet.balanceCredits.toInt + input.reservedCredits.toInt ≤ maxInt64 := by
  have hmax := toInt_le_max wallet.balanceCredits
  obtain ⟨db₁, _, _, _, _, hrelease, -⟩ := h.effect
  rcases hrelease with ⟨hpos, found, hfound, hbalance, -⟩ | ⟨hpos, -⟩
  · rw [hwallet, Option.some.injEq] at hfound
    subst hfound
    by_cases hneg : 0 ≤ wallet.balanceCredits.toInt
    · exact ((add_nonneg_iff hneg).mp hbalance).2
    · have hres := toInt_le_max input.reservedCredits
      omega
  · rw [pos_iff] at hpos
    omega

/-- The three amounts of a settlement are not negative. -/
theorem Settled.amounts (h : Settled input db db') : 0 ≤ input.reservedCredits.toInt ∧
    0 ≤ input.actualCostCredits.toInt ∧ 0 ≤ input.providerRewardCredits.toInt := by
  obtain ⟨hreserved, hrest⟩ := not_or.mp h.nonneg
  obtain ⟨hcost, hreward⟩ := not_or.mp hrest
  exact ⟨not_lt_zero_iff.mp hreserved, not_lt_zero_iff.mp hcost, not_lt_zero_iff.mp hreward⟩

end SettledWallets

/-! ## The other operations -/

section Operations

variable {seen : DB → Prop} {s : DB} {ws ws' : List DbWrite}

/-- What `ReserveForUser` does when it returns a wallet. -/
theorem yields_reserveForUser {userID walletID : UUID} {amount : Int64} {reason : String}
    (h : Tx.Yields (S := store) seen s (reserveForUser userID amount reason) ws walletID ws') :
    0 < amount ∧ (∃ old, seen old ∧
        (store.applyAll old ws).walletOf (.user, userID) = some walletID) ∧
      Posted walletID .reserve (-amount) amount reason none
        (store.applyAll s ws) (store.applyAll s ws') := by
  unfold reserveForUser at h
  split at h
  · simp at h
  · rename_i hpos
    simp only [Tx.yields_bind, Tx.yields_query, yields_orFail, Tx.yields_pure] at h
    obtain ⟨found, _, ⟨old, hseen, rfl, rfl⟩, id, _, ⟨hfound, rfl⟩, _, _, hentry, rfl, rfl⟩ := h
    refine ⟨?_, ⟨old, hseen, hfound⟩, yields_addLedger hentry⟩
    exact pos_iff.mpr (not_le_zero_iff.mp hpos)

/-- What `Release` does when it returns. -/
theorem yields_release {walletID : UUID} {amount : Int64} {reason : String} {r : Unit}
    (h : Tx.Yields (S := store) seen s (release walletID amount reason) ws r ws') :
    Posted walletID .releaseReserve amount (-amount) reason none
      (store.applyAll s ws) (store.applyAll s ws') := by
  unfold release at h
  split at h
  · simp at h
  · exact yields_addLedger h

/-- What `AdminAdjust` does when it returns. -/
theorem yields_adminAdjust {actorUserID : UUID} {target reason : String} {amount : Int64}
    {r : WalletRow}
    (h : Tx.Yields (S := store) seen s (adminAdjust actorUserID target amount reason) ws r ws') :
    ∃ walletID db row, Posted walletID .adminAdjustment amount 0
        ("admin_adjustment: " ++ trimSpace reason) (some actorUserID) (store.applyAll s ws) db ∧
      store.applyAll s ws' = db.apply (.insertAudit row) := by
  unfold adminAdjust at h
  split at h
  · simp at h
  · simp only [Tx.yields_bind, yields_require, Tx.yields_query, yields_orFail, yields_lockWallet,
      yields_references, Tx.yields_perform] at h
    obtain ⟨_, _, ⟨-, rfl⟩, _, _, ⟨_, _, -, rfl⟩, walletID, _, ⟨-, rfl⟩, _, _, ⟨-, rfl⟩, _, _,
      hentry, _, _, ⟨-, rfl⟩, _, _, rfl, _, _, ⟨_, _, -, rfl⟩, -, rfl⟩ := h
    exact ⟨walletID, _, _, yields_addLedger hentry, applyAll_snoc s _ _⟩

/-- An adjustment writes the wallets, the ledger and the audit log. -/
theorem afterwards_adminAdjust (db : DB) (actorUserID : UUID) (target reason : String)
    (amount : Int64) :
    ∃ wallets walletLedger auditLog,
      afterwards (adminAdjust actorUserID target amount reason) db =
        { db with wallets, walletLedger, auditLog } := by
  unfold afterwards
  split
  · rename_i hexec
    obtain ⟨ws, hyields, rfl⟩ := yields_of_exec hexec
    obtain ⟨walletID, db₁, row, hposted, hresult⟩ := yields_adminAdjust hyields
    rw [hresult, hposted.frame]
    exact ⟨_, _, _, rfl⟩
  · exact ⟨_, _, _, rfl⟩

/-- What `INSERT INTO wallets` does. -/
theorem yields_createWallet {id ownerID : UUID} {ownerType : OwnerType} {r : WalletRow}
    (h : Tx.Yields (S := store) seen s (createWallet id ownerType ownerID) ws r ws') :
    r = ⟨id, ownerType, ownerID, 0, 0⟩ ∧ (store.applyAll s ws).wallet id = none ∧
      ws' = ws ++ [.insertWallet ⟨id, ownerType, ownerID, 0, 0⟩] := by
  simp only [createWallet, Tx.yields_bind, yields_unique, yields_lockWallet,
    yields_lockWalletOwner, Tx.yields_perform, Tx.yields_pure] at h
  obtain ⟨_, _, ⟨hfree, rfl⟩, _, _, ⟨-, rfl⟩, _, _, rfl, rfl, rfl⟩ := h
  exact ⟨rfl, hfree.symm, rfl⟩

/-- What `INSERT INTO users` does. -/
theorem yields_createUser {id : UUID} {publicID email passwordHash displayName : String}
    {role : Role} {r : UserRow}
    (h : Tx.Yields (S := store) seen s
      (createUser id publicID email passwordHash displayName role) ws r ws') :
    r.id = id ∧ r.role = role ∧ ws' = ws ++ [.insertUser r] := by
  simp only [createUser, Tx.yields_bind, yields_require, yields_unique, yields_lockUser,
    yields_lockUserPublicID, yields_lockUserEmail, Tx.yields_perform, Tx.yields_pure] at h
  obtain ⟨_, _, ⟨-, rfl⟩, _, _, ⟨-, rfl⟩, _, _, ⟨-, rfl⟩, _, _, ⟨-, rfl⟩, _, _, rfl, rfl, rfl⟩ := h
  exact ⟨rfl, rfl, rfl⟩

/-- What `Register` does when it returns. -/
theorem yields_register {P : Platform} {cfg : Config} {userID walletID : UUID}
    {publicID : String} {input : RegisterInput} {r : UserRow}
    (h : Tx.Yields (S := store) seen s (register P cfg userID walletID publicID input)
      ws r ws') :
    r.id = userID ∧ (store.applyAll s ws).wallet walletID = none ∧
      Posted walletID .grant cfg.startingFreeCredits 0 "starting_free_credits" none
        (((store.applyAll s ws).apply (.insertUser r)).apply
          (.insertWallet ⟨walletID, .user, userID, 0, 0⟩))
        (store.applyAll s ws') := by
  unfold register at h
  simp only at h
  split at h
  · simp at h
  · simp only [Tx.yields_bind, yields_orFail, Tx.yields_query, Tx.yields_pure] at h
    obtain ⟨_, _, ⟨-, rfl⟩, _, _, ⟨_, -, -, rfl⟩, user, _, huser, wallet, _, hwallet, _, _, hentry,
      rfl, rfl⟩ := h
    obtain ⟨hid, -, rfl⟩ := yields_createUser huser
    obtain ⟨rfl, hfree, rfl⟩ := yields_createWallet hwallet
    have hposted := yields_addLedger hentry
    rw [applyAll_snoc] at hfree
    rw [applyAll_snoc, applyAll_snoc, hid] at hposted
    exact ⟨hid, hfree, hposted⟩

/-- The row of a provider that has no wallet yet, and what it may not collide with. -/
structure NewProvider (db : DB) (id ownerUserID : UUID) (publicID : String)
    (approval : ApprovalStatus) (row : ProviderRow) : Prop where
  id_eq : row.id = id
  publicID_eq : row.publicID = publicID
  owner_eq : row.ownerUserID = ownerUserID
  approval_eq : row.approvalStatus = approval
  active : row.status = .active
  kept : row.deleted = false
  freshID : db.provider id = none
  freshPublicID : Table.select ProviderRow.publicID db.providers publicID = none

/-- What `INSERT INTO providers` does. -/
theorem yields_createProvider {id ownerUserID : UUID} {publicID name tokenHash : String}
    {approval : ApprovalStatus} {r : ProviderRow}
    (h : Tx.Yields (S := store) seen s
      (createProvider id publicID ownerUserID name tokenHash approval) ws r ws') :
    NewProvider (store.applyAll s ws) id ownerUserID publicID approval r ∧
      ws' = ws ++ [.insertProvider r] := by
  simp only [createProvider, Tx.yields_bind, yields_require, yields_unique, yields_lockProvider,
    yields_lockProviderPublicID, yields_lockProviderToken, yields_references,
    Tx.yields_perform, Tx.yields_pure] at h
  obtain ⟨_, _, ⟨-, rfl⟩, _, _, ⟨hid, rfl⟩, _, _, ⟨hpublicID, rfl⟩, _, _, ⟨-, rfl⟩, _, _, ⟨-, rfl⟩,
    _, _, rfl, rfl, rfl⟩ := h
  exact ⟨⟨rfl, rfl, rfl, rfl, rfl, rfl, hid.symm, Option.map_eq_none_iff.mp hpublicID.symm⟩, rfl⟩

/-- The approval of a new provider. -/
def initialApproval (cfg : Config) : ApprovalStatus :=
  if cfg.allowDevAutoApproveProvider ∧ cfg.appEnv = "development" then .approved else .pending

/-- What `ProviderService.Create` does when it returns. -/
theorem yields_createProviderAccount {P : Platform} {cfg : Config}
    {providerID walletID ownerUserID : UUID} {publicID token name : String} {r : ProviderRow}
    (h : Tx.Yields (S := store) seen s
      (createProviderAccount P cfg providerID walletID publicID token ownerUserID name) ws r ws') :
    NewProvider (store.applyAll s ws) providerID ownerUserID publicID (initialApproval cfg) r ∧
      (store.applyAll s ws).wallet walletID = none ∧
      store.applyAll s ws' = (((store.applyAll s ws).apply (.insertProvider r)).apply
        (.insertWallet ⟨walletID, .provider, providerID, 0, 0⟩)).apply
          (.setProviderWallet providerID walletID) := by
  unfold createProviderAccount at h
  split at h
  · simp at h
  · simp only [Tx.yields_bind, Tx.yields_pure] at h
    obtain ⟨provider, _, hprovider, wallet, _, hwallet, _, _, hset, rfl, rfl⟩ := h
    obtain ⟨hnew, rfl⟩ := yields_createProvider hprovider
    obtain ⟨rfl, hfree, rfl⟩ := yields_createWallet hwallet
    rw [setProviderWallet, Tx.yields_perform] at hset
    subst hset
    rw [applyAll_snoc] at hfree
    refine ⟨hnew, hfree, ?_⟩
    rw [applyAll_snoc, applyAll_snoc, applyAll_snoc, hnew.id_eq]

/-- Creating a provider writes the tables of providers and of wallets. -/
theorem afterwards_createProviderAccount (P : Platform) (cfg : Config) (db : DB)
    (providerID walletID ownerUserID : UUID) (publicID token name : String) :
    ∃ providers wallets,
      afterwards (createProviderAccount P cfg providerID walletID publicID token ownerUserID name)
        db = { db with providers, wallets } := by
  unfold afterwards
  split
  · rename_i hexec
    obtain ⟨ws, hyields, rfl⟩ := yields_of_exec hexec
    obtain ⟨-, -, hresult⟩ := yields_createProviderAccount hyields
    exact ⟨_, _, hresult⟩
  · exact ⟨_, _, rfl⟩

/-- What `INSERT INTO inference_jobs` does. -/
theorem yields_createInferenceJob {id r : UUID} {job : JobSpec}
    (h : Tx.Yields (S := store) seen s (createInferenceJob id job) ws r ws') :
    r = id ∧ (store.applyAll s ws).job id = none ∧
      (∃ old, seen old ∧ Repository.partiesExist job.projectID job.userID job.modelID
        job.providerID job.providerInstanceID (store.applyAll old ws) = true) ∧
      store.applyAll s ws' = (store.applyAll s ws).apply (.insertJob (job.row id)) := by
  simp only [createInferenceJob, Tx.yields_bind, yields_require, yields_unique, yields_lockJob,
    yields_lockJobPublicID, yields_references, Tx.yields_perform, Tx.yields_pure] at h
  obtain ⟨_, _, ⟨-, rfl⟩, _, _, ⟨-, rfl⟩, _, _, ⟨hfree, rfl⟩, _, _, ⟨-, rfl⟩, _, _, ⟨hparties, rfl⟩,
    _, _, ⟨-, rfl⟩, _, _, rfl, rfl, rfl⟩ := h
  exact ⟨rfl, hfree.symm, hparties, applyAll_snoc s _ _⟩

/-- What the failure of a job does when it is recorded. -/
theorem yields_markJobFailed {jobID : UUID} {status : JobStatus} {code message : String} {r : Unit}
    (h : Tx.Yields (S := store) seen s (markJobFailed jobID status code message) ws r ws') :
    (storable code && storable message) = true ∧ ∃ db,
      db = (store.applyAll s ws).apply (.failJob jobID status code message) ∧
      (store.applyAll s ws' = db ∨ ∃ providerID, store.applyAll s ws' =
        db.apply (.putStats (StatsRow.failed status providerID (db.stats providerID)))) := by
  simp only [markJobFailed, Tx.yields_bind, yields_require, yields_lockJob] at h
  obtain ⟨_, _, ⟨htexts, rfl⟩, _, _, ⟨rfl, rfl⟩, h⟩ := h
  refine ⟨htexts, _, rfl, ?_⟩
  split at h
  · rw [Tx.yields_perform] at h
    subst h
    exact .inl (applyAll_snoc s _ _)
  · rename_i providerID _
    simp only [upsertFailedStats, Tx.yields_bind, Tx.yields_perform, yields_lockStats,
      yields_references] at h
    obtain ⟨_, _, rfl, _, _, ⟨rfl, rfl⟩, _, _, ⟨_, rfl⟩, rfl⟩ := h
    refine .inr ⟨providerID, ?_⟩
    rw [applyAll_snoc, applyAll_snoc]

end Operations

end Nuvonode.Service
