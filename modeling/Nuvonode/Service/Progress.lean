/-
  Service/Progress.lean --- when an operation goes through.

  The lemmas say which states of a wallet, a job and a provider's statistics are
  enough for a transaction that runs alone to commit.
-/
import Nuvonode.Service.Background

set_option autoImplicit false

namespace Nuvonode.Service

open Nuvonode.Foundation Nuvonode.Database Nuvonode.Repository

/-! ## Entries -/

section Entries

variable {db : DB} {wallet : WalletRow} {walletID : UUID} {entryType : EntryType}
  {amount reservedDelta : Int64} {reason : String}

theorem exec_addLedger (hfound : db.wallet walletID = some wallet) :
    (addLedger walletID entryType amount reservedDelta reason none).exec db =
      if wallet.balanceCredits + amount < 0 ∨ wallet.reservedCredits + reservedDelta < 0 then
        .error .insufficientCredits
      else if storable reason then
        .ok ((), post db wallet walletID entryType amount reservedDelta reason none)
      else .error .invalidText := by
  simp only [addLedger, Tx.exec_bind, exec_lockWallet, Except.bind, hfound, exec_orFail]
  split
  · rfl
  · simp only [Tx.exec_bind, Tx.exec_perform, Except.bind, exec_require]
    cases hreason : storable reason with
    | false => rfl
    | true =>
        simp only [if_true, exec_references]
        rfl

/-- An entry whose exact sums stay in range passes the sign test. -/
theorem not_refused_of_range (hexact : LedgerExact db) (hfound : db.wallet walletID = some wallet)
    (hbalance : InCreditRange (wallet.balanceCredits.toInt + amount.toInt))
    (hreserved : InCreditRange (wallet.reservedCredits.toInt + reservedDelta.toInt)) :
    ¬ (wallet.balanceCredits + amount < 0 ∨ wallet.reservedCredits + reservedDelta < 0) := by
  have hwallet := (hexact.exact_of_wallet hfound).2
  exact not_or.mpr ⟨(add_nonneg_iff hwallet.balanceRange.1).mpr hbalance,
    (add_nonneg_iff hwallet.reservedRange.1).mpr hreserved⟩

/-- A release of what is reserved is not refused, when the balance it leaves fits a word. -/
theorem exec_release (hexact : LedgerExact db) (hfound : db.wallet walletID = some wallet)
    (hpos : 0 < amount.toInt) (hreserved : amount.toInt ≤ wallet.reservedCredits.toInt)
    (hfits : wallet.balanceCredits.toInt + amount.toInt ≤ maxInt64) :
    (release walletID amount reason).exec db = if storable reason then
      .ok ((), post db wallet walletID .releaseReserve amount (-amount) reason none)
      else .error .invalidText := by
  have hwallet := (hexact.exact_of_wallet hfound).2
  have hbal := hwallet.balanceRange
  have hres := hwallet.reservedRange
  have hneg := toInt_neg_of_nonneg hpos.le
  have hpos' : ¬ amount ≤ 0 := not_le_zero_iff.mpr hpos
  rw [release, if_neg hpos', exec_addLedger hfound, if_neg]
  refine not_refused_of_range hexact hfound ?_ ?_ <;> simp only [InCreditRange] at * <;> omega

/-- A user's wallet that can reserve an amount. -/
structure Reservable (db : DB) (userID : UUID) (amount : Int64) : Prop where
  positive : 0 < amount.toInt
  wallet : ∃ walletID ∈ db.walletOf (.user, userID), ∃ wallet ∈ db.wallet walletID,
    amount.toInt ≤ wallet.balanceCredits.toInt ∧
      wallet.reservedCredits.toInt + amount.toInt ≤ maxInt64

/-- A reservation that the wallet covers goes through. -/
theorem exec_reserveForUser {userID : UUID} (hexact : LedgerExact db)
    (h : Reservable db userID amount) (hreason : storable reason = true) :
    ∃ r, (reserveForUser userID amount reason).exec db = .ok r := by
  obtain ⟨hpos, walletID, howner, wallet, hfound, hcovered, hfits⟩ := h
  have hwallet := (hexact.exact_of_wallet hfound).2
  have hbal := hwallet.balanceRange
  have hres := hwallet.reservedRange
  have hneg := toInt_neg_of_nonneg hpos.le
  have hpos' : ¬ amount ≤ 0 := not_le_zero_iff.mpr hpos
  have hexec : (addLedger walletID .reserve (-amount) amount reason none).exec db = _ :=
    exec_addLedger hfound
  rw [if_neg (not_refused_of_range hexact hfound
    (by simp only [InCreditRange] at *; omega) (by simp only [InCreditRange] at *; omega)),
    if_pos hreason] at hexec
  rw [Option.mem_def] at howner
  refine ⟨(walletID, post db wallet walletID .reserve (-amount) amount reason none), ?_⟩
  rw [reserveForUser, if_neg hpos']
  simp only [Tx.exec_bind, Tx.exec_query, howner, exec_orFail, hexec, Except.bind, Tx.exec_pure]

end Entries

section Optional

variable {db : DB} {wallet : WalletRow} {walletID : UUID}

/-- An entry whose exact sums stay in range goes through, whether it is made or not. -/
theorem exec_onlyIf_addLedger (c : Prop) [Decidable c] (entryType : EntryType)
    (amount reservedDelta : Int64) (reason : String) (hexact : LedgerExact db)
    (hfound : db.wallet walletID = some wallet) (hreason : storable reason = true)
    (hskip : ¬ c → amount = 0 ∧ reservedDelta = 0)
    (hbalance : InCreditRange (wallet.balanceCredits.toInt + amount.toInt))
    (hreserved : InCreditRange (wallet.reservedCredits.toInt + reservedDelta.toInt)) :
    ∃ db' wallet', (onlyIf c (addLedger walletID entryType amount reservedDelta reason none)).exec
        db = .ok ((), db') ∧ LedgerExact db' ∧ db'.wallet walletID = some wallet' ∧
      wallet'.balanceCredits.toInt = wallet.balanceCredits.toInt + amount.toInt ∧
      wallet'.reservedCredits.toInt = wallet.reservedCredits.toInt + reservedDelta.toInt := by
  by_cases hc : c
  · have haccepted := not_refused_of_range hexact hfound hbalance hreserved
    have hexec : (addLedger walletID entryType amount reservedDelta reason none).exec db =
        .ok ((), post db wallet walletID entryType amount reservedDelta reason none) := by
      rw [exec_addLedger hfound, if_neg haccepted, if_pos hreason]
    obtain ⟨hbal, hres⟩ := not_or.mp haccepted
    have hposted : Posted walletID entryType amount reservedDelta reason none db _ :=
      ⟨wallet, hfound, hbal, hres, rfl⟩
    obtain ⟨found, hfound', hbal, hres, -⟩ := hposted.columns hexact
    obtain rfl : wallet = found := Option.some.inj (hfound.symm.trans hfound')
    refine ⟨_, _, by rw [onlyIf, if_pos hc, hexec], hexact.posted hposted, hposted.own hfound,
      hbal, hres⟩
  · obtain ⟨rfl, rfl⟩ := hskip hc
    exact ⟨db, wallet, by rw [onlyIf, if_neg hc]; rfl, hexact, hfound, by simp, by simp⟩

end Optional

/-! ## Statistics -/

/-- A mean latency that a settlement can have left. -/
def LatencyBounded (avg : ℚ) : Prop := (-(2 ^ 31) : ℤ) ≤ avg ∧ avg ≤ (2 ^ 31 - 1 : ℤ)

/-- Every mean latency comes from latencies that fit `INT`. -/
def StatsBounded (db : DB) : Prop :=
  ∀ row ∈ db.providerStats, ∀ avg, row.avgLatencyMS = some avg → LatencyBounded avg

theorem numericStore_latency {q : ℚ} (h : LatencyBounded q) :
    ∃ r, numericStore 12 2 q = some r ∧ LatencyBounded r :=
  numericStore_between h.1 h.2 (by norm_num)

/-- The trust score of a first job is between 70 and 100, so it fits its column. -/
theorem numericStore_trust (penalty : ℚ) :
    ∃ r, numericStore 8 4 (min 100 (70 + max 0 (20 - penalty))) = some r := by
  have hlow : ((70 : ℤ) : ℚ) ≤ min 100 (70 + max 0 (20 - penalty)) := by
    refine le_min (by norm_num) ?_
    have hmax := le_max_left 0 (20 - penalty)
    push_cast
    linarith
  have hhigh : min 100 (70 + max 0 (20 - penalty)) ≤ ((100 : ℤ) : ℚ) := by
    exact_mod_cast min_le_left _ _
  obtain ⟨r, hr, -⟩ : ∃ r, numericStore 8 4 (min 100 (70 + max 0 (20 - penalty))) = some r ∧
      ((70 : ℤ) : ℚ) ≤ r ∧ r ≤ ((100 : ℤ) : ℚ) :=
    numericStore_between hlow hhigh (by norm_num)
  exact ⟨r, hr⟩

/-- The running mean of bounded values is bounded, before and after its rounding. -/
theorem nextMean_bounded {latencyMS : ℤ} {row : StatsRow} (hlatency : LatencyBounded latencyMS)
    (hold : ∀ avg, row.avgLatencyMS = some avg → LatencyBounded avg) :
    LatencyBounded (StatsRow.nextMean latencyMS row) := by
  unfold StatsRow.nextMean
  cases havg : row.avgLatencyMS with
  | none => exact hlatency
  | some avg =>
      obtain ⟨hlow, hhigh⟩ := hold avg havg
      obtain ⟨hlow', hhigh'⟩ := hlatency
      have hjobs : (0 : ℚ) ≤ row.succeededJobs := by positivity
      have hpos : (0 : ℚ) < (row.succeededJobs : ℚ) + 1 := by positivity
      constructor
      · refine le_numericRound ?_
        rw [le_div_iff₀ hpos]
        nlinarith only [mul_le_mul_of_nonneg_right hlow hjobs, hlow']
      · refine numericRound_le ?_
        rw [div_le_iff₀ hpos]
        nlinarith only [mul_le_mul_of_nonneg_right hhigh hjobs, hhigh']

/-- A settlement with a latency that fits `INT` keeps the statistics in range. -/
theorem settledStats_of_bounded {latencyMS : ℤ} {providerID : UUID} {old : Option StatsRow}
    (hlatency : fitsInt4 latencyMS = true)
    (hold : ∀ row avg, old = some row → row.avgLatencyMS = some avg → LatencyBounded avg) :
    ∃ row, StatsRow.settled latencyMS providerID old = some row ∧
      ∀ avg, row.avgLatencyMS = some avg → LatencyBounded avg := by
  have hbounded : LatencyBounded (latencyMS : ℚ) := by
    obtain ⟨hlow, hhigh⟩ := fitsInt4_iff.mp hlatency
    exact ⟨by exact_mod_cast hlow, by exact_mod_cast (by omega : latencyMS ≤ 2 ^ 31 - 1)⟩
  cases old with
  | none =>
      obtain ⟨avg, havg, havg'⟩ := numericStore_latency hbounded
      obtain ⟨trust, htrust⟩ := numericStore_trust (numericDiv 0 latencyMS 500)
      refine ⟨_, by simp only [StatsRow.settled, havg, htrust]; rfl, ?_⟩
      rintro _ ⟨⟩
      exact havg'
  | some row =>
      have hmean := nextMean_bounded hbounded (hold row · rfl)
      obtain ⟨avg, havg, havg'⟩ := numericStore_latency hmean
      refine ⟨_, by simp only [StatsRow.settled, havg]; rfl, ?_⟩
      rintro _ ⟨⟩
      exact havg'

theorem statsBounded_put {db : DB} {row : StatsRow} (h : StatsBounded db)
    (hrow : ∀ avg, row.avgLatencyMS = some avg → LatencyBounded avg) :
    StatsBounded (db.apply (.putStats row)) := by
  intro new hnew
  simp only [DB.apply, Table.upsert] at hnew
  split at hnew
  · rcases List.mem_append.mp hnew with hold | hlast
    · exact h new hold
    · rw [List.mem_singleton.mp hlast]
      exact hrow
  · obtain ⟨old, hold, rfl⟩ := Table.mem_update.mp hnew
    split
    · exact hrow
    · exact h old hold

/-- A settlement keeps the statistics in range: its latency fits `INT`. -/
theorem Settled.statsBounded {input : UsageSettlement} {db db' : DB} (h : Settled input db db')
    (hstats : StatsBounded db) : StatsBounded db' := by
  have hlatency : fitsInt4 input.latencyMS = true := by
    have hfits := h.fits
    simp only [UsageSettlement.fitsColumns, Bool.and_eq_true] at hfits
    exact hfits.2
  obtain ⟨db₁, db₂, db₃, source, stats, h₁, h₂, h₃, -, hrow, rfl⟩ := h.effect
  have hstats₃ : StatsBounded db₃ := by
    rw [h₃.frame, h₂.frame, h₁.frame]
    exact hstats
  obtain ⟨row, hrow', hbounded⟩ : ∃ row, StatsRow.settled input.latencyMS input.providerID
      (db₃.stats input.providerID) = some row ∧
        ∀ avg, row.avgLatencyMS = some avg → LatencyBounded avg :=
    settledStats_of_bounded hlatency
      fun row avg hold havg => hstats₃ row (Table.mem_of_select hold).1 avg havg
  obtain rfl : row = stats := Option.some.inj (hrow'.symm.trans hrow)
  have hput : StatsBounded (db₃.apply (.putStats row)) := statsBounded_put hstats₃ hbounded
  exact hput

/-- So does the failure of a job, which leaves the mean latency alone. -/
theorem statsBounded_markJobFailed {db : DB} {jobID : UUID} {status : JobStatus}
    {code message : String} (hstats : StatsBounded db) :
    StatsBounded (afterwards (markJobFailed jobID status code message) db) := by
  unfold afterwards
  split
  · rename_i r db' hexec
    obtain ⟨ws, hyields, rfl⟩ := yields_of_exec hexec
    obtain ⟨-, db₁, rfl, hresult | ⟨providerID, hresult⟩⟩ := yields_markJobFailed hyields
    · rw [hresult]
      exact hstats
    · rw [hresult]
      refine statsBounded_put hstats fun avg havg => ?_
      cases hold : db.stats providerID with
      | none =>
          have hnone : (StatsRow.failed status providerID none).avgLatencyMS = some avg := by
            rw [← hold]
            exact havg
          cases hnone
      | some old =>
          refine hstats old (Table.mem_of_select hold).1 avg ?_
          have hsame : (StatsRow.failed status providerID (some old)).avgLatencyMS = some avg := by
            rw [← hold]
            exact havg
          exact hsame
  · exact hstats

/-! ## Settlement -/

/-- The balances that a settlement leaves in its wallet fit a word. -/
def UsageSettlement.FitsBalance (input : UsageSettlement) (wallet : WalletRow) : Prop :=
  wallet.balanceCredits.toInt + input.reservedCredits.toInt ≤ maxInt64 ∧
    wallet.balanceCredits.toInt + input.reservedCredits.toInt - input.actualCostCredits.toInt +
      input.providerRewardCredits.toInt ≤ maxInt64

section Settlement

variable {db : DB} {wallet : WalletRow} {input : UsageSettlement} {source : TokenSource}

/-- The entries of a settlement that costs no more than is reserved are all accepted,
when the balances they leave fit a word. -/
theorem exec_settlementEntries (hexact : LedgerExact db)
    (hfound : db.wallet input.userWalletID = some wallet)
    (hreward : 0 ≤ input.providerRewardCredits.toInt)
    (hcost : 0 ≤ input.actualCostCredits.toInt)
    (hreserved : input.actualCostCredits.toInt ≤ input.reservedCredits.toInt)
    (hheld : input.reservedCredits.toInt ≤ wallet.reservedCredits.toInt)
    (hfits : input.FitsBalance wallet) :
    ∃ db₁ db₂ db₃,
      (onlyIf (0 < input.reservedCredits) (addLedger input.userWalletID .releaseReserve
        input.reservedCredits (-input.reservedCredits) "release_usage_reservation" none)).exec db =
          .ok ((), db₁) ∧
      (onlyIf (0 < input.actualCostCredits) (addLedger input.userWalletID .debitUsage
        (-input.actualCostCredits) 0 "chat_completion_usage" none)).exec db₁ = .ok ((), db₂) ∧
      (onlyIf (0 < input.providerRewardCredits) (addLedger input.userWalletID
        .creditProviderReward input.providerRewardCredits 0
        "chat_completion_provider_reward" none)).exec db₂ = .ok ((), db₃) := by
  have hnegR := toInt_neg_of_nonneg (hcost.trans hreserved)
  have hnegC := toInt_neg_of_nonneg hcost
  obtain ⟨hfitsRelease, hfitsReward⟩ := hfits
  have hzero : (0 : Int64).toInt = 0 := rfl
  have hskip : ∀ x : Int64, 0 ≤ x.toInt → ¬ 0 < x → x = 0 := by
    intro x hx hpos
    exact eq_zero_of_not_lt (not_lt_zero_iff.mpr hx) hpos
  have hrange := (hexact.exact_of_wallet hfound).2
  have hbal := hrange.balanceRange
  have hres := hrange.reservedRange
  simp only [InCreditRange] at hbal hres
  obtain ⟨db₁, wallet₁, hexec₁, hexact₁, hfound₁, hbal₁, hres₁⟩ :=
    exec_onlyIf_addLedger (0 < input.reservedCredits) .releaseReserve input.reservedCredits
    (-input.reservedCredits) "release_usage_reservation" hexact hfound (by decide)
    (fun hc => by simp [hskip _ (by omega) hc]) ⟨by omega, by omega⟩ ⟨by omega, by omega⟩
  obtain ⟨db₂, wallet₂, hexec₂, hexact₂, hfound₂, hbal₂, hres₂⟩ :=
    exec_onlyIf_addLedger (0 < input.actualCostCredits) .debitUsage (-input.actualCostCredits) 0
    "chat_completion_usage" hexact₁ hfound₁ (by decide)
    (fun hc => by simp [hskip _ (by omega) hc]) ⟨by omega, by omega⟩ ⟨by omega, by omega⟩
  obtain ⟨db₃, wallet₃, hexec₃, -⟩ :=
    exec_onlyIf_addLedger (0 < input.providerRewardCredits) .creditProviderReward
    input.providerRewardCredits 0
    "chat_completion_provider_reward" hexact₂ hfound₂ (by decide)
    (fun hc => by simp [hskip _ (by omega) hc]) ⟨by omega, by omega⟩ ⟨by omega, by omega⟩
  exact ⟨db₁, db₂, db₃, hexec₁, hexec₂, hexec₃⟩

theorem exec_insertUsage (hfits : input.fitsColumns = true)
    (hsource : tokenSourceOf input.sourceText = some source)
    (hunused : db.usage input.jobID = none) (hparties : input.partiesExist db = true) :
    (insertUsage input).exec db = .ok ((), db.apply (.insertUsage (input.record source))) := by
  simp [insertUsage, unique, Except.bind, hfits, hsource, hunused, hparties]

theorem exec_upsertSettledStats {providerID : UUID} {latencyMS : ℤ} {stats : StatsRow}
    (hprovider : (db.provider providerID).isSome)
    (hstats : StatsRow.settled latencyMS providerID (db.stats providerID) = some stats) :
    (upsertSettledStats providerID latencyMS).exec db = .ok ((), db.apply (.putStats stats)) := by
  simp [upsertSettledStats, Except.bind, hprovider, hstats]

/-- Once its entries are accepted, a settlement is its records. -/
theorem exec_finalizeUsage {db₁ db₂ db₃ : DB}
    (hnonneg : ¬ (input.reservedCredits < 0 ∨ input.actualCostCredits < 0 ∨
      input.providerRewardCredits < 0))
    (h₁ : (onlyIf (0 < input.reservedCredits) (addLedger input.userWalletID .releaseReserve
        input.reservedCredits (-input.reservedCredits) "release_usage_reservation" none)).exec db =
          .ok ((), db₁))
    (h₂ : (onlyIf (0 < input.actualCostCredits) (addLedger input.userWalletID .debitUsage
        (-input.actualCostCredits) 0 "chat_completion_usage" none)).exec db₁ = .ok ((), db₂))
    (h₃ : (onlyIf (0 < input.providerRewardCredits) (addLedger input.userWalletID
        .creditProviderReward input.providerRewardCredits 0
        "chat_completion_provider_reward" none)).exec db₂ = .ok ((), db₃)) :
    (finalizeUsage input).exec db =
      (do insertUsage input
          Tx.perform (S := store)
            (.settleJob input.jobID input.actualCostCredits input.providerRewardCredits)
          upsertSettledStats input.providerID input.latencyMS : Sql Unit).exec db₃ := by
  rw [finalizeUsage, if_neg hnonneg]
  simp only [Tx.exec_bind, h₁, h₂, h₃, Except.bind]

/-- The records of a settlement are never refused for want of credits. -/
theorem avoids_settlementRecords :
    Tx.Avoids Err.insufficientCredits (do
      insertUsage input
      Tx.perform (S := store)
        (.settleJob input.jobID input.actualCostCredits input.providerRewardCredits)
      upsertSettledStats input.providerID input.latencyMS : Sql Unit) := by
  have hrequire : ∀ (check : Bool) (e : Err), e ≠ .insufficientCredits →
      Tx.Avoids Err.insufficientCredits (require check e) := by
    intro check e hne
    cases check with
    | true => exact Tx.avoids_pure
    | false => exact Tx.avoids_fail hne
  have horFail : ∀ (α : Type) (e : Err) (o : Option α), e ≠ .insufficientCredits →
      Tx.Avoids Err.insufficientCredits (orFail e o) := by
    intro α e o hne
    cases o with
    | none => exact Tx.avoids_fail hne
    | some a => exact Tx.avoids_pure
  have hreferences : ∀ holds : DB → Bool,
      Tx.Avoids Err.insufficientCredits (references holds) := fun holds =>
    Tx.avoids_bind Tx.avoids_query fun found => hrequire found _ (by decide)
  have husage : Tx.Avoids Err.insufficientCredits (insertUsage input) := by
    refine Tx.avoids_bind (hrequire _ _ (by decide)) fun _ => ?_
    refine Tx.avoids_bind (horFail _ _ _ (by decide)) fun _ => ?_
    refine Tx.avoids_bind (Tx.avoids_bind Tx.avoids_lockRow
      fun _ => hrequire _ _ (by decide)) fun _ => ?_
    exact Tx.avoids_bind (hreferences _) fun _ => Tx.avoids_perform
  refine Tx.avoids_bind husage fun _ => Tx.avoids_bind Tx.avoids_perform fun _ => ?_
  refine Tx.avoids_bind Tx.avoids_lockRow fun _ => Tx.avoids_bind (hreferences _) fun _ => ?_
  exact Tx.avoids_bind (horFail _ _ _ (by decide)) fun _ => Tx.avoids_perform

end Settlement

/-- The amounts of a settlement and the reservation it is for are in order. -/
structure Covered (db : DB) (input : UsageSettlement) : Prop where
  reward : 0 ≤ input.providerRewardCredits.toInt
  cost : 0 ≤ input.actualCostCredits.toInt
  reserved : input.actualCostCredits.toInt ≤ input.reservedCredits.toInt
  held : ∃ wallet, db.wallet input.userWalletID = some wallet ∧
    input.reservedCredits.toInt ≤ wallet.reservedCredits.toInt ∧ input.FitsBalance wallet

section Covered

variable {db : DB} {input : UsageSettlement}

theorem Covered.exec (h : Covered db input) (hexact : LedgerExact db) :
    ∃ db₁ db₂ db₃,
      PostedIf (0 < input.reservedCredits) input.userWalletID .releaseReserve
        input.reservedCredits (-input.reservedCredits) "release_usage_reservation" db db₁ ∧
      PostedIf (0 < input.actualCostCredits) input.userWalletID .debitUsage
        (-input.actualCostCredits) 0 "chat_completion_usage" db₁ db₂ ∧
      PostedIf (0 < input.providerRewardCredits) input.userWalletID .creditProviderReward
        input.providerRewardCredits 0 "chat_completion_provider_reward" db₂ db₃ ∧
      (finalizeUsage input).exec db =
        (do insertUsage input
            Tx.perform (S := store)
              (.settleJob input.jobID input.actualCostCredits input.providerRewardCredits)
            upsertSettledStats input.providerID input.latencyMS : Sql Unit).exec db₃ := by
  obtain ⟨wallet, hfound, hheld, hfits⟩ := h.held
  have hnonneg : ¬ (input.reservedCredits < 0 ∨ input.actualCostCredits < 0 ∨
      input.providerRewardCredits < 0) := by
    have hreward := h.reward
    have hcost := h.cost
    have hreserved := h.reserved
    exact not_or.mpr ⟨not_lt_zero_iff.mpr (hcost.trans hreserved),
      not_or.mpr ⟨not_lt_zero_iff.mpr hcost, not_lt_zero_iff.mpr hreward⟩⟩
  obtain ⟨db₁, db₂, db₃, h₁, h₂, h₃⟩ := exec_settlementEntries hexact hfound h.reward h.cost
    h.reserved hheld hfits
  have hposted : ∀ {c : Prop} [Decidable c] {entryType : EntryType}
      {amount reservedDelta : Int64} {reason : String} {db db' : DB},
      (onlyIf c (addLedger input.userWalletID entryType amount reservedDelta reason none)).exec db
        = .ok ((), db') →
      PostedIf c input.userWalletID entryType amount reservedDelta reason db db' := by
    intro c _ entryType amount reservedDelta reason db db' hexec
    obtain ⟨ws, hyields, rfl⟩ := yields_of_exec hexec
    exact yields_onlyIf hyields
  exact ⟨db₁, db₂, db₃, hposted h₁, hposted h₂, hposted h₃, exec_finalizeUsage hnonneg h₁ h₂ h₃⟩

/-- A covered settlement is never refused for want of credits. -/
theorem Covered.not_refused (h : Covered db input) (hexact : LedgerExact db) :
    (finalizeUsage input).exec db ≠ .error .insufficientCredits := by
  obtain ⟨db₁, db₂, db₃, -, -, -, hexec⟩ := h.exec hexact
  rw [hexec]
  exact avoids_settlementRecords db₃

/-- A covered settlement of an unsettled job, with numbers that fit their columns and
parties that exist, commits. -/
theorem Covered.commits (h : Covered db input) (hexact : LedgerExact db)
    (hstats : StatsBounded db) {source : TokenSource} (hfits : input.fitsColumns = true)
    (hsource : tokenSourceOf input.sourceText = some source)
    (hunused : db.usage input.jobID = none) (hparties : input.partiesExist db = true) :
    ∃ db', (finalizeUsage input).exec db = .ok ((), db') := by
  obtain ⟨db₁, db₂, db₃, h₁, h₂, h₃, hexec⟩ := h.exec hexact
  have hframe : db₃ = { db with wallets := db₃.wallets, walletLedger := db₃.walletLedger } := by
    rw [h₃.frame, h₂.frame, h₁.frame]
  have hunused₃ : db₃.usage input.jobID = none := by
    rw [hframe]
    exact hunused
  have hparties₃ : input.partiesExist db₃ = true := by
    rw [hframe]
    exact hparties
  have hlatency : fitsInt4 input.latencyMS = true := by
    simp only [UsageSettlement.fitsColumns, Bool.and_eq_true] at hfits
    exact hfits.2
  obtain ⟨stats, hrow, -⟩ : ∃ row, StatsRow.settled input.latencyMS input.providerID
      (db.stats input.providerID) = some row ∧
        ∀ avg, row.avgLatencyMS = some avg → LatencyBounded avg :=
    settledStats_of_bounded hlatency
      fun row avg hold havg => hstats row (Table.mem_of_select hold).1 avg havg
  have hrow₃ : StatsRow.settled input.latencyMS input.providerID
      (db₃.stats input.providerID) = some stats := by
    rw [hframe]
    exact hrow
  have hprovider : (db₃.provider input.providerID).isSome := by
    simp only [UsageSettlement.partiesExist, partiesExist, Bool.and_eq_true] at hparties₃
    exact hparties₃.2.1.2
  refine ⟨((db₃.apply (.insertUsage (input.record source))).apply (.settleJob input.jobID
    input.actualCostCredits input.providerRewardCredits)).apply (.putStats stats), ?_⟩
  rw [hexec, Tx.exec_bind, exec_insertUsage hfits hsource hunused₃ hparties₃]
  exact exec_upsertSettledStats hprovider hrow₃

end Covered

/-! ## Failing a job -/

section Failing

variable {db : DB} {jobID : UUID} {job : JobRow} {status : JobStatus} {code message : String}

/-- A failure with texts that PostgreSQL can store is recorded. -/
theorem exec_markJobFailed {providerID : UUID} (htexts : storable code && storable message)
    (hjob : db.job jobID = some job) (hprovider : job.providerID = some providerID)
    (hexists : (db.provider providerID).isSome) :
    (markJobFailed jobID status code message).exec db =
      .ok ((), (db.apply (.failJob jobID status code message)).apply
        (.putStats (StatsRow.failed status providerID (db.stats providerID)))) := by
  simp only [markJobFailed, Tx.exec_bind, exec_require, htexts, if_true, Except.bind, exec_lockJob,
    hjob, Option.bind_some, hprovider, Tx.exec_perform, upsertFailedStats]
  have hexists' : ((db.apply (.failJob jobID status code message)).provider providerID).isSome :=
    hexists
  simp only [store, exec_lockStats, exec_references, hexists', Bool.or_true, if_true]
  rfl

/-- A failure with a text that PostgreSQL cannot store is not. -/
theorem exec_markJobFailed_of_nul (htexts : (storable code && storable message) = false) :
    (markJobFailed jobID status code message).exec db = .error .invalidText := by
  simp only [markJobFailed, Tx.exec_bind, exec_require, htexts]
  rfl

end Failing

end Nuvonode.Service
