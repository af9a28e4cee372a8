/-
  Service/Books.lean --- credits, jobs and usage records agree.

  `Books` ties four tables together: the credits in circulation are what was put in
  less the margin on every usage record; succeeded jobs are the jobs with a usage
  record; and the debits are the records that cost something.  The lemmas say that
  every kind of write keeps the books, for the jobs it is about.
-/
import Nuvonode.Service.Background

set_option autoImplicit false

namespace Nuvonode.Service

open Nuvonode.Foundation Nuvonode.Database Nuvonode.Repository

/-! ## What a settlement does to the measures -/

section Measures

variable {db db' : DB} {c : Prop} {walletID : UUID} {entryType : EntryType}
  {amount reservedDelta : Int64} {reason : String}

theorem PostedIf.ledger (h : PostedIf c walletID entryType amount reservedDelta reason db db')
    (hexact : LedgerExact db) : LedgerExact db' := by
  rcases h with ⟨-, h⟩ | ⟨-, rfl⟩
  · exact hexact.posted h
  · exact hexact

theorem PostedIf.totalCredits
    (h : PostedIf c walletID entryType amount reservedDelta reason db db')
    (hexact : LedgerExact db) (hskip : ¬ c → amount = 0 ∧ reservedDelta = 0) :
    totalCredits db' = totalCredits db + amount.toInt + reservedDelta.toInt := by
  rcases h with ⟨-, h⟩ | ⟨hc, rfl⟩
  · exact h.totalCredits hexact
  · obtain ⟨rfl, rfl⟩ := hskip hc
    simp

theorem PostedIf.reservedOf
    (h : PostedIf c walletID entryType amount reservedDelta reason db db')
    (hexact : LedgerExact db) (hskip : ¬ c → reservedDelta = 0) (id : UUID) :
    reservedOf db' id = reservedOf db id + if id = walletID then reservedDelta.toInt else 0 := by
  rcases h with ⟨-, h⟩ | ⟨hc, rfl⟩
  · exact h.reservedOf hexact id
  · rw [hskip hc]
    simp

theorem PostedIf.funds (h : PostedIf c walletID entryType amount reservedDelta reason db db')
    (hgrant : entryType ≠ .grant) (hadjustment : entryType ≠ .adminAdjustment) :
    funds db' = funds db := by
  rcases h with ⟨-, h⟩ | ⟨-, rfl⟩
  · rw [Service.funds, h.entriesOf, h.entriesOf, if_neg hgrant, if_neg hadjustment]
    simp [Service.funds]
  · rfl

theorem PostedIf.debits (h : PostedIf c walletID entryType amount reservedDelta reason db db')
    (hentry : entryType ≠ .debitUsage) : debits db' = debits db := by
  rcases h with ⟨-, h⟩ | ⟨-, rfl⟩
  · exact h.debits hentry
  · rfl

theorem PostedIf.persists (h : PostedIf c walletID entryType amount reservedDelta reason db db') :
    Persists db db' := by
  rcases h with ⟨-, h⟩ | ⟨-, rfl⟩
  · exact h.persists
  · exact .refl _

end Measures

/-- The wallet and the amount of a debit. -/
def debitOf (row : LedgerRow) : Option UUID × Int64 := (some row.walletID, row.amountCredits)

/-- The credits the platform keeps of the usage records. -/
def margin (db : DB) : ℤ :=
  Table.total (fun row => row.costCredits.toInt - row.providerRewardCredits.toInt) db.usageRecords

section Settlement

variable {db db' : DB} {input : UsageSettlement}

theorem Settled.persists (h : Settled input db db') : Persists db db' := by
  obtain ⟨db₁, db₂, db₃, source, stats, h₁, h₂, h₃, -, -, rfl⟩ := h.effect
  have htables : Persists db₃ (settle input source stats db₃) :=
    .of_tables rfl (fun _ h => h) (fun _ h => h) fun _ _ h => h
  exact ((h₁.persists.trans h₂.persists).trans h₃.persists).trans htables

/-- A settlement takes its reservation, and puts cost and reward in and out of
circulation. -/
theorem Settled.measures (h : Settled input db db') (hexact : LedgerExact db) :
    LedgerExact db' ∧
      (∀ id, reservedOf db' id = reservedOf db id +
        if id = input.userWalletID then -input.reservedCredits.toInt else 0) ∧
      totalCredits db' = totalCredits db - input.actualCostCredits.toInt +
        input.providerRewardCredits.toInt ∧
      funds db' = funds db := by
  obtain ⟨hreserved, hcost, hreward⟩ := h.amounts
  obtain ⟨db₁, db₂, db₃, source, stats, h₁, h₂, h₃, -, -, rfl⟩ := h.effect
  have hskip : ∀ {x : Int64}, 0 ≤ x.toInt → ¬ 0 < x → x = 0 := fun hx hpos =>
    eq_zero_of_not_lt (not_lt_zero_iff.mpr hx) hpos
  have hnegR := toInt_neg_of_nonneg hreserved
  have hnegC := toInt_neg_of_nonneg hcost
  have hexact₁ := h₁.ledger hexact
  have hexact₂ := h₂.ledger hexact₁
  refine ⟨(h₃.ledger hexact₂).congr rfl rfl, fun id => ?_, ?_, ?_⟩
  · have hr₁ := h₁.reservedOf hexact (fun hc => by simp [hskip hreserved hc]) id
    have hr₂ := h₂.reservedOf hexact₁ (fun _ => rfl) id
    have hr₃ := h₃.reservedOf hexact₂ (fun _ => rfl) id
    have hsame : reservedOf (settle input source stats db₃) id = reservedOf db₃ id := rfl
    rw [hsame, hr₃, hr₂, hr₁, hnegR]
    simp
  · have ht₁ := h₁.totalCredits hexact fun hc => by simp [hskip hreserved hc]
    have ht₂ := h₂.totalCredits hexact₁ fun hc => by simp [hskip hcost hc]
    have ht₃ := h₃.totalCredits hexact₂ fun hc => by simp [hskip hreward hc]
    have hsame : totalCredits (settle input source stats db₃) = totalCredits db₃ := rfl
    have hzero : (0 : Int64).toInt = 0 := rfl
    omega
  · have hsame : funds (settle input source stats db₃) = funds db₃ := rfl
    rw [hsame, h₃.funds (by decide) (by decide), h₂.funds (by decide) (by decide),
      h₁.funds (by decide) (by decide)]

/-- A settlement debits its wallet exactly when it costs something. -/
theorem Settled.debits (h : Settled input db db') :
    (debits db').map debitOf = (debits db).map debitOf ++
      if 0 < input.actualCostCredits then [(some input.userWalletID, -input.actualCostCredits)]
      else [] := by
  obtain ⟨db₁, db₂, db₃, source, stats, h₁, h₂, h₃, -, -, rfl⟩ := h.effect
  have hsame : Service.debits (settle input source stats db₃) = Service.debits db₃ := rfl
  rw [hsame, h₃.debits (by decide), ← h₁.debits (by decide)]
  rcases h₂ with ⟨hc, wallet, -, -, -, rfl⟩ | ⟨hc, rfl⟩
  · simp [Service.debits, post, Table.insert, ledgerRow, debitOf, hc]
  · simp [hc]

/-- The tables of the records after a settlement. -/
theorem Settled.tables (h : Settled input db db') :
    ∃ source, db'.usageRecords = Table.insert db.usageRecords (input.record source) ∧
      db'.inferenceJobs = Table.update JobRow.id db.inferenceJobs input.jobID
        (JobRow.settle input.actualCostCredits input.providerRewardCredits) := by
  obtain ⟨db₁, db₂, db₃, source, stats, h₁, h₂, h₃, -, -, rfl⟩ := h.effect
  refine ⟨source, ?_, ?_⟩
  · rw [settle, h₃.frame, h₂.frame, h₁.frame]
  · rw [settle, h₃.frame, h₂.frame, h₁.frame]

/-- What a settlement makes of its job. -/
theorem Settled.job (h : Settled input db db') : db'.job input.jobID =
    (db.job input.jobID).map
      (JobRow.settle input.actualCostCredits input.providerRewardCredits) := by
  obtain ⟨source, -, hjobs⟩ := h.tables
  rw [DB.job, hjobs]
  exact Table.select_update_self fun _ => rfl

/-- A settled job has its usage record. -/
theorem Settled.recorded (h : Settled input db db') : (db'.usage input.jobID).isSome := by
  obtain ⟨source, hrecords, -⟩ := h.tables
  rw [DB.usage, hrecords]
  exact Table.select_isSome_iff.mpr
    ⟨input.record source, List.mem_append_right _ (List.mem_singleton_self _), rfl⟩

end Settlement

/-! ## The books -/

/-- What the usage records say the debits are. -/
def charges (db : DB) : List (Option UUID × Int64) :=
  (db.usageRecords.filter fun row => 0 < row.costCredits).map fun row =>
    (db.walletOf (.user, row.userID), -row.costCredits)

/-- The tables agree with each other. -/
structure Books (db : DB) : Prop where
  jobs : Table.Unique JobRow.id db.inferenceJobs
  records : Table.Unique UsageRow.jobID db.usageRecords
  credits : totalCredits db = funds db - margin db
  succeeded : ∀ row ∈ db.inferenceJobs, row.status = .succeeded ↔ (db.usage row.id).isSome
  amounts : ∀ usage ∈ db.usageRecords, ∃ row, db.job usage.jobID = some row ∧
    row.actualCostCredits = usage.costCredits ∧
    row.providerRewardCredits = usage.providerRewardCredits ∧
    usage.costCredits.toInt ≤ row.reservedCredits.toInt
  payers : ∀ usage ∈ db.usageRecords, (db.walletOf (.user, usage.userID)).isSome
  debits : (debits db).map debitOf = charges db

namespace Books

variable {db db' : DB}

theorem seeded (catalog : Catalog) : Books (DB.seeded catalog) where
  jobs := List.nodup_nil
  records := List.nodup_nil
  credits := rfl
  succeeded := by simp [DB.seeded]
  amounts := by simp [DB.seeded]
  payers := by simp [DB.seeded]
  debits := rfl

/-- The charges stay what they are while the payers keep their wallets. -/
theorem charges_congr (h : Books db) (hpersists : Persists db db')
    (husage : db'.usageRecords = db.usageRecords) : charges db' = charges db := by
  unfold charges
  rw [husage]
  refine List.map_congr_left fun row hrow => ?_
  obtain ⟨walletID, hwallet⟩ :=
    Option.isSome_iff_exists.mp (h.payers row (List.mem_of_mem_filter hrow))
  rw [hwallet, hpersists.walletOf _ _ hwallet]

/-- A job that has no row has no usage record. -/
theorem usage_none (h : Books db) {jobID : UUID} (hfree : db.job jobID = none) :
    db.usage jobID = none := by
  cases husage : db.usage jobID with
  | none => rfl
  | some usage =>
      obtain ⟨hmem, hid⟩ := Table.mem_of_select husage
      obtain ⟨row, hrow, -⟩ := h.amounts usage hmem
      rw [hid, hfree] at hrow
      cases hrow

/-- A change of wallets and other tables keeps the books when it keeps the credits and
the debits. -/
theorem of_wallets (h : Books db) (hpersists : Persists db db')
    (hjobs : db'.inferenceJobs = db.inferenceJobs) (husage : db'.usageRecords = db.usageRecords)
    (hcredits : totalCredits db' - funds db' = totalCredits db - funds db)
    (hdebits : Service.debits db' = Service.debits db) : Books db' where
  jobs := hjobs ▸ h.jobs
  records := husage ▸ h.records
  credits := by
    have hmargin : margin db' = margin db := by rw [margin, husage, margin]
    have hbefore := h.credits
    omega
  succeeded := by
    rw [hjobs]
    intro row hrow
    rw [DB.usage, husage]
    exact h.succeeded row hrow
  amounts := by
    rw [husage]
    intro usage husage'
    rw [DB.job, hjobs]
    exact h.amounts usage husage'
  payers := by
    rw [husage]
    intro usage husage'
    obtain ⟨walletID, hwallet⟩ := Option.isSome_iff_exists.mp (h.payers usage husage')
    exact Option.isSome_of_eq_some (hpersists.walletOf _ _ hwallet)
  debits := by rw [hdebits, h.debits, h.charges_congr hpersists husage]

theorem background (h : Books db) (hexact : LedgerExact db) (hstep : Background db db') :
    Books db' :=
  h.of_wallets hstep.persists hstep.jobs hstep.usage (hstep.credits hexact) hstep.debits

/-- An entry that moves credits between the two columns of a wallet. -/
theorem moved (h : Books db) (hexact : LedgerExact db) {walletID : UUID} {entryType : EntryType}
    {amount reservedDelta : Int64} {reason : String} {createdBy : Option UUID}
    (hposted : Posted walletID entryType amount reservedDelta reason createdBy db db')
    (hentry : entryType = .reserve ∨ entryType = .releaseReserve)
    (hzero : amount.toInt + reservedDelta.toInt = 0) : Books db' := by
  have htotal := hposted.totalCredits hexact
  have hgrant := hposted.entriesOf .grant
  have hadjust := hposted.entriesOf .adminAdjustment
  have hfunds : funds db' = funds db := by
    rcases hentry with rfl | rfl <;> simp_all [funds]
  refine h.of_wallets hposted.persists (by rw [hposted.frame]) (by rw [hposted.frame]) (by omega) ?_
  exact hposted.debits (by rcases hentry with rfl | rfl <;> decide)

/-- A new job. -/
theorem insertJob (h : Books db) {row : JobRow} (hfree : db.job row.id = none)
    (hstatus : row.status ≠ .succeeded) : Books (db.apply (.insertJob row)) where
  jobs := Table.unique_insert h.jobs hfree
  records := h.records
  credits := h.credits
  succeeded := by
    intro other hother
    rcases List.mem_append.mp hother with hold | hnew
    · exact h.succeeded other hold
    · rw [List.mem_singleton.mp hnew]
      have hunused : (db.apply (.insertJob row)).usage row.id = none := h.usage_none hfree
      simp [hunused, hstatus]
  amounts := by
    intro usage husage
    obtain ⟨old, hold, hrest⟩ := h.amounts usage husage
    exact ⟨old, Table.select_insert_of_some hold, hrest⟩
  payers := h.payers
  debits := h.debits

/-- A job without a usage record changes, but does not succeed. -/
theorem updateJob (h : Books db) {jobID : UUID} {change : JobRow → JobRow}
    {stats : List StatsRow} (hunused : db.usage jobID = none)
    (hkeeps : ∀ row, (change row).id = row.id)
    (hstatus : ∀ row, (change row).status ≠ .succeeded) :
    Books { db with inferenceJobs := Table.update JobRow.id db.inferenceJobs jobID change,
                    providerStats := stats } where
  jobs := Table.unique_update hkeeps h.jobs
  records := h.records
  credits := h.credits
  succeeded := by
    intro row hrow
    obtain ⟨old, hold, rfl⟩ := Table.mem_update.mp hrow
    split
    · rename_i hid
      have hnone : db.usage (change old).id = none := by rw [hkeeps, hid, hunused]
      exact iff_of_false (hstatus old) (by simp [DB.usage] at hnone ⊢; simpa using hnone)
    · exact h.succeeded old hold
  amounts := by
    intro usage husage
    obtain ⟨row, hrow, hrest⟩ := h.amounts usage husage
    have hne : usage.jobID ≠ jobID := by
      intro heq
      have hnone := Table.select_eq_none_iff.mp hunused usage husage
      exact hnone heq
    exact ⟨row, (Table.select_update_of_ne hkeeps hne).trans hrow, hrest⟩
  payers := h.payers
  debits := h.debits

/-- A settlement of a job by the wallet of its user, for no more than is reserved. -/
theorem settled (h : Books db) (hexact : LedgerExact db) {input : UsageSettlement} {row : JobRow}
    (hsettled : Settled input db db') (hjob : db.job input.jobID = some row)
    (hwallet : db.walletOf (.user, input.userID) = some input.userWalletID)
    (hcost : input.actualCostCredits.toInt ≤ row.reservedCredits.toInt) : Books db' := by
  obtain ⟨-, -, htotal, hfunds⟩ := hsettled.measures hexact
  have hpersists := hsettled.persists
  obtain ⟨source, hrecords, hjobs⟩ := hsettled.tables
  have hkeeps : ∀ row : JobRow, (row.settle input.actualCostCredits
      input.providerRewardCredits).id = row.id := fun _ => rfl
  have husageOf : ∀ id, db'.usage id =
      (db.usage id).or (if input.jobID = id then some (input.record source) else none) := by
    intro id
    rw [DB.usage, hrecords, Table.select_insert]
    rfl
  refine ⟨?_, ?_, ?_, ?_, ?_, ?_, ?_⟩
  · rw [hjobs]
    exact Table.unique_update hkeeps h.jobs
  · rw [hrecords]
    exact Table.unique_insert h.records hsettled.unused
  · have hmargin : margin db' = margin db + (input.actualCostCredits.toInt -
        input.providerRewardCredits.toInt) := by
      rw [margin, hrecords, Table.total_insert]
      rfl
    have hbefore := h.credits
    omega
  · rw [hjobs]
    intro new hnew
    obtain ⟨old, hold, rfl⟩ := Table.mem_update.mp hnew
    rw [husageOf]
    split
    · rename_i hid
      rw [hkeeps, hid, hsettled.unused]
      simp [JobRow.settle]
    · rename_i hid
      rw [if_neg (Ne.symm hid), Option.or_none]
      exact h.succeeded old hold
  · rw [hrecords]
    intro usage husage
    rw [DB.job, hjobs]
    rcases List.mem_append.mp husage with hold | hnew
    · obtain ⟨old, hold', hrest⟩ := h.amounts usage hold
      have hne : usage.jobID ≠ input.jobID := Table.select_eq_none_iff.mp hsettled.unused usage hold
      exact ⟨old, (Table.select_update_of_ne hkeeps hne).trans hold', hrest⟩
    · rw [List.mem_singleton.mp hnew]
      have hselect := hsettled.job
      rw [hjob, DB.job, hjobs] at hselect
      exact ⟨_, hselect, rfl, rfl, hcost⟩
  · rw [hrecords]
    intro usage husage
    rcases List.mem_append.mp husage with hold | hnew
    · obtain ⟨walletID, hold'⟩ := Option.isSome_iff_exists.mp (h.payers usage hold)
      exact Option.isSome_of_eq_some (hpersists.walletOf _ _ hold')
    · rw [List.mem_singleton.mp hnew]
      exact Option.isSome_of_eq_some (hpersists.walletOf _ _ hwallet)
  · rw [hsettled.debits, h.debits]
    have hwallet' := hpersists.walletOf _ _ hwallet
    have hold : (db.usageRecords.filter fun row => 0 < row.costCredits).map (fun row =>
        (db'.walletOf (.user, row.userID), -row.costCredits)) = charges db := by
      refine List.map_congr_left fun row hrow => ?_
      obtain ⟨walletID, hpayer⟩ :=
        Option.isSome_iff_exists.mp (h.payers row (List.mem_of_mem_filter hrow))
      rw [hpayer, hpersists.walletOf _ _ hpayer]
    have hnew : charges db' = charges db ++
        ([input.record source].filter fun row => 0 < row.costCredits).map fun row =>
          (db'.walletOf (.user, row.userID), -row.costCredits) := by
      rw [← hold, charges, hrecords, Table.insert, List.filter_append, List.map_append]
    rw [hnew]
    congr 1
    by_cases hpos : 0 < input.actualCostCredits <;>
      simp [UsageSettlement.record, hpos, hwallet']

end Books

end Nuvonode.Service
