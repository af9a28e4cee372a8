/-
  Contract/Settlement.lean --- who a settlement pays, and how often a job settles.

  The first part is about one settlement, on any database.  The second is about a
  server on which any number of settlements and other operations are in progress.
-/
import Nuvonode.Contract.Ledger
import Nuvonode.Service.Books

set_option autoImplicit false

namespace Nuvonode.Contract

open Nuvonode.Foundation Nuvonode.Database Nuvonode.Repository Nuvonode.Service

/-! ## Whom a settlement pays -/

/-- A wallet of the provider's side: its own, or the user wallet of its owner. -/
def ProviderSide (db : DB) (provider : ProviderRow) (walletID : UUID) : Prop :=
  provider.walletID = some walletID ∨
    db.walletOf (.user, provider.ownerUserID) = some walletID

/-- The settlement is by the requesting user's wallet, for a provider someone else owns. -/
structure ForeignSettlement (db : DB) (input : UsageSettlement) (wallet : WalletRow)
    (provider : ProviderRow) : Prop where
  paidFrom : db.wallet input.userWalletID = some wallet
  userWallet : wallet.ownerType = .user
  ofUser : wallet.ownerID = input.userID
  servedBy : db.provider input.providerID = some provider
  foreign : provider.ownerUserID ≠ input.userID

/-- The right parties are paid: the consumer's wallet pays the cost out of its
reservation and nothing else happens to it, a positive reward goes to one wallet of the
provider's side, and every other wallet is as it was. -/
structure PaysRightParties (db : DB) (input : UsageSettlement) (provider : ProviderRow)
    (db' : DB) : Prop where
  consumer : ∃ old new, db.wallet input.userWalletID = some old ∧
    db'.wallet input.userWalletID = some new ∧
    new.balanceCredits.toInt = old.balanceCredits.toInt + input.reservedCredits.toInt -
      input.actualCostCredits.toInt ∧
    new.reservedCredits.toInt = old.reservedCredits.toInt - input.reservedCredits.toInt
  reward : 0 < input.providerRewardCredits → ∃ paid old new, ProviderSide db provider paid ∧
    db.wallet paid = some old ∧ db'.wallet paid = some new ∧
    new.balanceCredits.toInt = old.balanceCredits.toInt + input.providerRewardCredits.toInt ∧
    new.reservedCredits = old.reservedCredits ∧
    ∀ other, other ≠ input.userWalletID → other ≠ paid → db'.wallet other = db.wallet other
  others : ¬ 0 < input.providerRewardCredits →
    ∀ other, other ≠ input.userWalletID → db'.wallet other = db.wallet other

/-- The consumer's columns do not run out of `int64` downwards, which no wallet that is
its ledger does. -/
def NoUnderflow (wallet : WalletRow) (input : UsageSettlement) : Prop :=
  -(2 ^ 63) ≤ wallet.balanceCredits.toInt + input.reservedCredits.toInt -
      input.actualCostCredits.toInt ∧
    -(2 ^ 63) ≤ wallet.reservedCredits.toInt - input.reservedCredits.toInt

instance (wallet : WalletRow) (input : UsageSettlement) : Decidable (NoUnderflow wallet input) :=
  inferInstanceAs (Decidable (_ ∧ _))

section Payment

variable {db db' : DB} {input : UsageSettlement} {wallet : WalletRow} {provider : ProviderRow}

/-- The consumer's columns end at the reservation given back less the cost exactly when there is
no reward and nothing wraps. -/
theorem consumer_exact_iff (h : Settled input db db')
    (hwallet : db.wallet input.userWalletID = some wallet) :
    ((wallet.balanceCredits + (input.reservedCredits + -input.actualCostCredits +
          input.providerRewardCredits)).toInt =
        wallet.balanceCredits.toInt + input.reservedCredits.toInt -
          input.actualCostCredits.toInt ∧
      (wallet.reservedCredits + -input.reservedCredits).toInt =
        wallet.reservedCredits.toInt - input.reservedCredits.toInt) ↔
      input.providerRewardCredits = 0 ∧ NoUnderflow wallet input := by
  obtain ⟨hreserved, hcost, hreward⟩ := h.amounts
  have hle := h.balance_le hwallet
  have hnegR := toInt_neg_of_nonneg hreserved
  have hnegC := toInt_neg_of_nonneg hcost
  have hresmax := toInt_le_max wallet.reservedCredits
  have hbalmin := min_le_toInt wallet.balanceCredits
  have hzero : input.providerRewardCredits = 0 ↔ input.providerRewardCredits.toInt = 0 := by
    rw [← Int64.toInt_inj]
    rfl
  have h₁ := toInt_add_cases input.reservedCredits (-input.actualCostCredits)
  have h₂ := toInt_add_cases (input.reservedCredits + -input.actualCostCredits)
    input.providerRewardCredits
  have h₃ := toInt_add_cases wallet.balanceCredits
    (input.reservedCredits + -input.actualCostCredits + input.providerRewardCredits)
  have h₄ := toInt_add_cases wallet.reservedCredits (-input.reservedCredits)
  have hmaxR := toInt_le_max input.reservedCredits
  have hmaxC := toInt_le_max input.actualCostCredits
  have hmaxW := toInt_le_max input.providerRewardCredits
  simp only [NoUnderflow, hzero, maxInt64] at *
  omega

/-- A settlement of a foreign provider's work pays the right parties exactly when there
is no reward to pay: the reward entry is on the consumer's own wallet. -/
theorem settlement_pays_right_parties_iff (hscope : ForeignSettlement db input wallet provider)
    (hcommit : (finalizeUsage input).exec db = .ok ((), db')) :
    PaysRightParties db input provider db' ↔
      input.providerRewardCredits = 0 ∧ NoUnderflow wallet input := by
  obtain ⟨ws, hyields, rfl⟩ := yields_of_exec hcommit
  have hsettled : Settled input db (store.applyAll db ws) := yields_finalizeUsage hyields
  have hown := hsettled.select_own hscope.paidFrom
  rw [← consumer_exact_iff hsettled hscope.paidFrom]
  constructor
  · intro hpays
    obtain ⟨old, new, hold, hnew, hbalance, hreserved⟩ := hpays.consumer
    rw [hscope.paidFrom, Option.some.injEq] at hold
    rw [hown, Option.some.injEq] at hnew
    subst hold hnew
    exact ⟨hbalance, hreserved⟩
  · intro hexact
    have hnone := ((consumer_exact_iff hsettled hscope.paidFrom).mp hexact).1
    refine ⟨⟨wallet, _, hscope.paidFrom, hown, hexact.1, hexact.2⟩, fun hpos => ?_,
      fun _ other hother => hsettled.select_other hother⟩
    rw [hnone] at hpos
    exact absurd hpos (by decide)

end Payment

/-! ## A sample settlement -/

/-- A project without a limit. -/
def sampleProject : ProjectRow where
  id := 20
  publicID := "prj_a"
  ownerUserID := 1
  name := "demo"
  status := .active
  monthlyCreditLimit := none
  currentMonthSpend := 0
  spendPeriod := "2025-01"
  deleted := false

/-- A model at one credit a token. -/
def sampleModel : ModelRow where
  id := 22
  publicID := "mdl_a"
  slug := "llama"
  displayName := "Llama"
  description := ""
  family := "llama"
  modality := .text
  status := .active
  contextLength := 4096
  defaultMaxOutputTokens := 1024
  inputCreditPer1K := 1000
  outputCreditPer1K := 1000
  providerRewardRatio := 7 / 10
  minVRAMMB := 8192
  recommendedVRAMMB := 12288
  licenseName := "unknown"
  licenseURL := none
  licenseNotes := ""
  communityAllowed := true
  externalOnly := false
  deleted := false

/-- One project, key, model, model version and provider instance. -/
def sampleCatalog : Catalog where
  projects := [sampleProject]
  apiKeys := [⟨21, "key_a", 20, "laptop", "pvn_live_a", "hash of key", .active, none, none⟩]
  models := [sampleModel]
  modelVersions := [⟨23, 22, "ollama", "llama3:8b", .active⟩]
  instances := [⟨24, "pin_a", 5, "key-a", "host", "linux", "amd64", "1", .online, some 0, none⟩]
  advertisements := []
  hardwareReports := []

/-- A user with a reservation for a job, and a provider that another user owns. -/
def marketDB : DB :=
  { DB.seeded sampleCatalog with
    users := [⟨1, "usr_a", "a@example.com", "hash", "Ada", .user, .active, false⟩,
      ⟨3, "usr_b", "b@example.com", "hash", "Bob", .user, .active, false⟩]
    wallets := [⟨2, .user, 1, 9900, 100⟩, ⟨4, .user, 3, 10000, 0⟩, ⟨6, .provider, 5, 0, 0⟩]
    walletLedger := [⟨2, .grant, 10000, 0, 10000, 0, "starting_free_credits", none⟩,
      ⟨4, .grant, 10000, 0, 10000, 0, "starting_free_credits", none⟩,
      ⟨2, .reserve, -100, 100, 9900, 100, "chat_completion_reservation", none⟩]
    providers := [⟨5, "prv_b", 3, some 6, "box", .approved, .active, "hash of token", false⟩]
    inferenceJobs := [⟨7, "job_a", 20, 1, 21, 22, 23, some 5, some 24, .dispatched, "req_a",
      50, 50, 100, 0, 0, none, none⟩] }

/-- The settlement of that job at a cost of 80, of which 56 are the provider's. -/
def sampleSettlement : UsageSettlement where
  userWalletID := 2
  providerPublicID := "prv_b"
  reservedCredits := 100
  actualCostCredits := 80
  providerRewardCredits := 56
  jobID := 7
  projectID := 20
  userID := 1
  modelID := 22
  providerID := 5
  providerInstanceID := 24
  inputTokens := 40
  outputTokens := 40
  tokenSource := "runtime_reported"
  latencyMS := 900

/-- A job that waits for its result. -/
def openJobRow (id : UUID) (publicID requestID : String) : JobRow :=
  ⟨id, publicID, 20, 1, 21, 22, 23, some 5, some 24, .dispatched, requestID, 50, 50, 100, 0, 0,
    none, none⟩

/-- The market with four such jobs, each with its reservation. -/
def fourJobsDB : DB :=
  { marketDB with
    wallets := [⟨2, .user, 1, 9600, 400⟩, ⟨4, .user, 3, 10000, 0⟩, ⟨6, .provider, 5, 0, 0⟩]
    inferenceJobs := [openJobRow 7 "job_a" "req_a", openJobRow 8 "job_b" "req_b",
      openJobRow 9 "job_c" "req_c", openJobRow 10 "job_d" "req_d"] }

/-- The settlement of one of them. -/
def settlementOf (jobID : UUID) (latencyMS : ℤ) : Operation :=
  .finalize { sampleSettlement with jobID := jobID, latencyMS := latencyMS }

/-- What the first and the second of these settlements leave. -/
def afterFirstDB : DB :=
  afterwards (program samplePlatform sampleConfig (settlementOf 7 900)) fourJobsDB

def afterSecondDB : DB :=
  afterwards (program samplePlatform sampleConfig (settlementOf 8 900)) afterFirstDB

theorem sampleSettlement_commits : (finalizeUsage sampleSettlement).exec marketDB =
    .ok ((), afterwards (finalizeUsage sampleSettlement) marketDB) := by
  decide +kernel

/-- The reward of the sample settlement ends on the consumer's wallet. -/
theorem settlement_pays_consumer_the_reward :
    ForeignSettlement marketDB sampleSettlement ⟨2, .user, 1, 9900, 100⟩
        ⟨5, "prv_b", 3, some 6, "box", .approved, .active, "hash of token", false⟩ ∧
      (finalizeUsage sampleSettlement).exec marketDB =
        .ok ((), afterwards (finalizeUsage sampleSettlement) marketDB) ∧
      (afterwards (finalizeUsage sampleSettlement) marketDB).wallet 2 =
        some ⟨2, .user, 1, 9976, 0⟩ ∧
      ¬ PaysRightParties marketDB sampleSettlement
        ⟨5, "prv_b", 3, some 6, "box", .approved, .active, "hash of token", false⟩
        (afterwards (finalizeUsage sampleSettlement) marketDB) := by
  have hafter : (afterwards (finalizeUsage sampleSettlement) marketDB).wallet 2 =
      some ⟨2, .user, 1, 9976, 0⟩ := by decide +kernel
  refine ⟨⟨rfl, rfl, rfl, rfl, by decide⟩, sampleSettlement_commits, hafter, fun hpays => ?_⟩
  obtain ⟨old, new, hold, hnew, hbalance, -⟩ := hpays.consumer
  have hold' : old = ⟨2, .user, 1, 9900, 100⟩ := (Option.some.inj hold).symm
  have hnew' : new = ⟨2, .user, 1, 9976, 0⟩ := Option.some.inj (hnew.symm.trans hafter)
  subst hold' hnew'
  exact absurd hbalance (by decide)

/-- The same settlement without a reward pays the right parties. -/
theorem settlement_without_reward_pays_right_parties :
    PaysRightParties marketDB { sampleSettlement with providerRewardCredits := 0 }
      ⟨5, "prv_b", 3, some 6, "box", .approved, .active, "hash of token", false⟩
      (afterwards (finalizeUsage { sampleSettlement with providerRewardCredits := 0 })
        marketDB) := by
  have hscope : ForeignSettlement marketDB { sampleSettlement with providerRewardCredits := 0 }
      ⟨2, .user, 1, 9900, 100⟩
      ⟨5, "prv_b", 3, some 6, "box", .approved, .active, "hash of token", false⟩ :=
    ⟨rfl, rfl, rfl, rfl, by decide⟩
  exact (settlement_pays_right_parties_iff hscope (by decide +kernel)).mpr
    ⟨rfl, by decide +kernel⟩

/-! ## How often a job settles -/

/-- A commit of a settlement of the job. -/
def isSettlementOf (jobID : UUID) : ServerEvent Operation → Bool
  | .commit _ (.finalize input) => input.jobID = jobID
  | _ => false

/-- No statement removes a usage record. -/
theorem usage_apply {db : DB} {jobID : UUID} (w : DbWrite) (h : (db.usage jobID).isSome) :
    ((db.apply w).usage jobID).isSome := by
  cases w with
  | insertUsage row =>
      obtain ⟨old, hold⟩ := Option.isSome_iff_exists.mp h
      exact Option.isSome_of_eq_some (Table.select_insert_of_some hold)
  | _ => exact h

theorem usage_applyAll {jobID : UUID} (ws : List DbWrite) {db : DB}
    (h : (db.usage jobID).isSome) : ((store.applyAll db ws).usage jobID).isSome := by
  induction ws generalizing db with
  | nil => exact h
  | cons w ws ih => exact ih (usage_apply w h)

section Server

variable {P : Platform} {cfg : Config} {start : DB → Prop} {es : List (ServerEvent Operation)}
  {m m' : Server store Err Operation Unit} {t : Nat} {input : UsageSettlement} {jobID : UUID}

/-- A commit of a settlement performs all of it. -/
theorem settled_of_commit (hreach : (serverMachine P cfg start).Reaches Machine.anyStep es m)
    (hstep : Server.Step (program P cfg) m (.commit t (.finalize input)) m') :
    Settled input m.committed m'.committed := by
  obtain ⟨r, ws, hyields, hcommitted⟩ := Server.commit_atomic hreach hstep
  rw [hcommitted]
  have hsettled := yields_finalizeUsage hyields
  exact hsettled

/-- At most one settlement of the job has committed, and then its record is there. -/
theorem settlements_of_reaches (hreach : (serverMachine P cfg start).Reaches Machine.anyStep es m) :
    es.countP (isSettlementOf jobID) = 0 ∨
      es.countP (isSettlementOf jobID) = 1 ∧ (m.committed.usage jobID).isSome := by
  have hboth : (serverMachine P cfg start).Reaches Machine.anyStep es m ∧
      (es.countP (isSettlementOf jobID) = 0 ∨
        es.countP (isSettlementOf jobID) = 1 ∧ (m.committed.usage jobID).isSome) := by
    refine hreach.invariant_trace (fun es m =>
      (serverMachine P cfg start).Reaches Machine.anyStep es m ∧
        (es.countP (isSettlementOf jobID) = 0 ∨
          es.countP (isSettlementOf jobID) = 1 ∧ (m.committed.usage jobID).isSome)) ?_ ?_
    · exact fun a ha => ⟨.start ha, .inl rfl⟩
    · rintro es a e b ⟨hreach, hcount⟩ hstep hguard
      refine ⟨hreach.snoc hstep hguard, ?_⟩
      rw [List.countP_append, List.countP_singleton]
      cases e with
      | commit t op =>
          obtain ⟨r, ws, -, hcommitted⟩ := Server.commit_atomic hreach hstep
          have hkept : (a.committed.usage jobID).isSome → (b.committed.usage jobID).isSome := by
            rw [hcommitted]
            exact usage_applyAll ws
          by_cases hsettles : isSettlementOf jobID (.commit t op) = true
          · -- The unique key of the usage record was free, so none had committed before.
            obtain ⟨input, rfl, hjob⟩ : ∃ input, op = .finalize input ∧ input.jobID = jobID := by
              cases op with
              | finalize input => exact ⟨input, rfl, by simpa [isSettlementOf] using hsettles⟩
              | _ => simp [isSettlementOf] at hsettles
            have hsettled := settled_of_commit hreach hstep
            have hfree := hsettled.unused
            rw [hjob] at hfree
            have hnew := hsettled.recorded
            rw [hjob] at hnew
            rcases hcount with hzero | ⟨-, hsome⟩
            · exact .inr ⟨by rw [hzero, if_pos hsettles], hnew⟩
            · rw [hfree] at hsome
              simp at hsome
          · rw [if_neg hsettles]
            exact hcount.imp_right fun h => ⟨h.1, hkept h.2⟩
      | _ =>
          rw [Server.committed_of_step hstep (by simp)]
          simpa [isSettlementOf] using hcount
  exact hboth.2

end Server

/-- On any database and in any interleaving, at most one settlement of a job commits; no
event but a commit changes a table, and a call that failed never commits; and the
settlement that commits performs its ledger entries, usage record, job status and
statistics together. -/
theorem job_settles_at_most_once (P : Platform) (cfg : Config) (jobID : UUID)
    {es : List (ServerEvent Operation)} {m : Server store Err Operation Unit}
    (hreach : (serverMachine P cfg fun _ => True).Reaches Machine.anyStep es m) :
    es.countP (isSettlementOf jobID) ≤ 1 ∧
      (∀ e m', Server.Step (program P cfg) m e m' → (∀ t op, e ≠ .commit t op) →
        m'.committed = m.committed) ∧
      (∀ t a e op m', m.active t = some a → a.body = .fail e →
        ¬ Server.Step (program P cfg) m (.commit t op) m') ∧
      (∀ t input m', Server.Step (program P cfg) m (.commit t (.finalize input)) m' →
        Settled input m.committed m'.committed) := by
  refine ⟨?_, fun e m' hstep hcommit => Server.committed_of_step hstep hcommit,
    fun t a e op m' ha hfail => Server.no_commit_of_fail ha hfail,
    fun t input m' hstep => settled_of_commit hreach hstep⟩
  have hcount : es.countP (isSettlementOf jobID) = 0 ∨
      es.countP (isSettlementOf jobID) = 1 ∧ (m.committed.usage jobID).isSome :=
    settlements_of_reaches hreach
  omega

/-- The server on which a second settlement of the job is begun. -/
def attemptedServer (db : DB) : Server store Err Operation Unit :=
  (idleServer db).set 1
    (some ⟨settlementOf 7 900, program samplePlatform sampleConfig (settlementOf 7 900), [], []⟩)

/-- Two settlements of one job are begun.  One commits and the other is rolled back; then another
job settles. -/
theorem sample_job_settles_once :
    ∃ es m, (serverMachine samplePlatform sampleConfig fun _ => True).Reaches Machine.anyStep es m ∧
      [.begin 1 (settlementOf 7 900), .begin 0 (settlementOf 7 900)] <+: es ∧
      (m.committed.usage 7).isSome ∧ (m.committed.usage 8).isSome ∧
      es.countP (isSettlementOf 7) ≤ 1 ∧ es.countP (isSettlementOf 8) ≤ 1 := by
  have hfirst : (program samplePlatform sampleConfig (settlementOf 7 900)).exec fourJobsDB =
      .ok ((), afterFirstDB) := by decide +kernel
  have hsecond : (program samplePlatform sampleConfig (settlementOf 8 900)).exec afterFirstDB =
      .ok ((), afterSecondDB) := by decide +kernel
  have hstart : (serverMachine samplePlatform sampleConfig fun _ => True).Reaches
      Machine.anyStep [] (idleServer fourJobsDB) := .start ⟨trivial, fun _ => rfl⟩
  have hboth : (serverMachine samplePlatform sampleConfig fun _ => True).Reaches Machine.anyStep
      ([] ++ [.begin 1 (settlementOf 7 900)] ++ [.begin 0 (settlementOf 7 900)]) _ :=
    (hstart.snoc (.begin rfl) trivial).snoc (.begin rfl) trivial
  -- The first settlement runs to its commit while the other has locked nothing.
  have hunlocked : ∀ t' a, t' ≠ 0 → (attemptedServer fourJobsDB).active t' = some a →
      a.locks = [] := fun _ _ _ ha => unlocked_of_alone rfl ha
  obtain ⟨n, hn⟩ := Server.steps_of_body 0 hunlocked (settlementOf 7 900)
    (program samplePlatform sampleConfig (settlementOf 7 900)) [] [] hfirst
  have hcommitted := hboth.steps hn
  rw [Server.set_none_of_idle _ rfl] at hcommitted
  -- The other is rolled back, and the second job settles alone.
  have hserver : (attemptedServer afterFirstDB).set 1 none = idleServer afterFirstDB := by
    simp [attemptedServer, Server.set, idleServer]
  have hrollback : Server.Step (program samplePlatform sampleConfig)
      (attemptedServer afterFirstDB) (.rollback 1) (idleServer afterFirstDB) :=
    hserver ▸ .rollback rfl
  obtain ⟨k, hk⟩ := Server.steps_of_exec (m := idleServer afterFirstDB) (fun _ => rfl) 0 _ hsecond
  have hreach := (hcommitted.snoc hrollback trivial).steps hk
  refine ⟨_, _, hreach, ?_, ?_, ?_,
    (job_settles_at_most_once samplePlatform sampleConfig 7 hreach).1,
    (job_settles_at_most_once samplePlatform sampleConfig 8 hreach).1⟩
  · simp only [List.append_assoc, List.nil_append]
    exact List.prefix_append _ _
  · decide +kernel
  · decide +kernel

end Nuvonode.Contract
