/-
  Contract/Spending.lean --- what bounds what a project spends.

  A project keeps the monthly limit it was created with, and no statement of a chat
  request reads or writes that limit or the spend of the month: `hideSpend` makes all
  projects alike in these columns, and a request runs on the result as it does before.
  What bounds the cost of a request is what its job has reserved.
-/
import Nuvonode.Contract.Instances
import Nuvonode.Handler.Registration

set_option autoImplicit false

namespace Nuvonode.Contract

open Nuvonode.Foundation Nuvonode.Database Nuvonode.Repository Nuvonode.Service Nuvonode.Handler
  Nuvonode.Ws

/-! ## The spend columns are not looked at -/

/-- A project without its limit, its spend and its month. -/
def ProjectRow.hideSpend (row : ProjectRow) : ProjectRow :=
  { row with monthlyCreditLimit := none, currentMonthSpend := 0, spendPeriod := "" }

/-- The database without the limits, the spends and the months of its projects. -/
def hideSpend (db : DB) : DB :=
  { db with catalog := { db.catalog with
    projects := db.catalog.projects.map ProjectRow.hideSpend } }

section Blind

/-- A program that does not look at the spend columns. -/
abbrev SpendBlind {α : Type} (p : Sql α) : Prop := Tx.Blind (S := store) hideSpend p

theorem get_hideSpend (k : RowKey) (db : DB) : (hideSpend db).get k = db.get k := by
  cases k <;> rfl

theorem apply_hideSpend (w : DbWrite) (db : DB) :
    (hideSpend db).apply w = hideSpend (db.apply w) := by
  cases w <;> rfl

theorem partiesExist_hideSpend (projectID userID modelID providerID providerInstanceID : UUID)
    (db : DB) : partiesExist projectID userID modelID providerID providerInstanceID (hideSpend db) =
      partiesExist projectID userID modelID providerID providerInstanceID db := by
  have hprojects : ((hideSpend db).catalog.projects.any fun row => row.id == projectID) =
      db.catalog.projects.any fun row => row.id == projectID := List.any_map
  unfold partiesExist
  rw [hprojects]
  rfl

theorem blind_require {check : Bool} {e : Err} : SpendBlind (require check e) :=
  Tx.blind_ite Tx.blind_pure Tx.blind_fail

theorem blind_orFail {α : Type} {e : Err} {o : Option α} : SpendBlind (orFail e o) := by
  cases o with
  | none => exact Tx.blind_fail
  | some a => exact Tx.blind_pure

theorem blind_lock {k : RowKey} : SpendBlind (Tx.lockRow (S := store) k : Sql k.Row) :=
  Tx.blind_lockRow (get_hideSpend k)

theorem blind_write {w : DbWrite} : SpendBlind (Tx.perform (S := store) w) :=
  Tx.blind_perform (apply_hideSpend w)

theorem blind_references {holds : DB → Bool} (h : ∀ db, holds (hideSpend db) = holds db) :
    SpendBlind (Repository.references holds) :=
  Tx.blind_bind (Tx.blind_query h) fun _ => blind_require

theorem blind_unique {α : Type} {entry : Sql (Option α)} (h : SpendBlind entry) :
    SpendBlind (unique entry) :=
  Tx.blind_bind h fun _ => blind_require

variable {walletID jobID : UUID} {entryType : EntryType} {amount reservedDelta : Int64}
  {reason code message : String} {createdBy : Option UUID} {status : JobStatus}
  {input : UsageSettlement}

theorem blind_addLedger :
    SpendBlind (addLedger walletID entryType amount reservedDelta reason createdBy) := by
  refine Tx.blind_bind blind_lock fun _ => Tx.blind_bind blind_orFail fun _ => ?_
  refine Tx.blind_ite Tx.blind_fail (Tx.blind_bind blind_write fun _ => ?_)
  refine Tx.blind_bind blind_require fun _ =>
    Tx.blind_bind (blind_references fun _ => rfl) fun _ => ?_
  exact blind_write

theorem blind_onlyIf {c : Prop} [Decidable c] {body : Sql Unit} (h : SpendBlind body) :
    SpendBlind (onlyIf c body) :=
  Tx.blind_ite h Tx.blind_pure

theorem blind_reserveForUser {userID : UUID} :
    SpendBlind (reserveForUser userID amount reason) := by
  refine Tx.blind_ite Tx.blind_fail (Tx.blind_bind (Tx.blind_query fun _ => rfl) fun _ => ?_)
  refine Tx.blind_bind blind_orFail fun _ => Tx.blind_bind blind_addLedger fun _ => ?_
  exact Tx.blind_pure

theorem blind_release : SpendBlind (release walletID amount reason) :=
  Tx.blind_ite Tx.blind_fail blind_addLedger

theorem blind_createInferenceJob {job : JobSpec} : SpendBlind (createInferenceJob jobID job) := by
  refine Tx.blind_bind blind_require fun _ => Tx.blind_bind blind_require fun _ => ?_
  refine Tx.blind_bind (blind_unique blind_lock) fun _ => ?_
  refine Tx.blind_bind (blind_unique blind_lock) fun _ => ?_
  refine Tx.blind_bind (blind_references (partiesExist_hideSpend _ _ _ _ _)) fun _ => ?_
  refine Tx.blind_bind (blind_references fun _ => rfl) fun _ => ?_
  exact Tx.blind_bind blind_write fun _ => Tx.blind_pure

theorem blind_markJobFailed : SpendBlind (markJobFailed jobID status code message) := by
  refine Tx.blind_bind blind_require fun _ => Tx.blind_bind blind_lock fun job => ?_
  split
  · exact blind_write
  · refine Tx.blind_bind blind_write fun _ => Tx.blind_bind blind_lock fun _ => ?_
    exact Tx.blind_bind (blind_references fun _ => rfl) fun _ => blind_write

theorem blind_insertUsage : SpendBlind (insertUsage input) := by
  have hparties : ∀ db, input.partiesExist (hideSpend db) = input.partiesExist db := by
    intro db
    unfold UsageSettlement.partiesExist
    rw [partiesExist_hideSpend]
    rfl
  refine Tx.blind_bind blind_require fun _ => Tx.blind_bind blind_orFail fun _ => ?_
  refine Tx.blind_bind (blind_unique blind_lock) fun _ => ?_
  exact Tx.blind_bind (blind_references hparties) fun _ => blind_write

theorem blind_finalizeUsage : SpendBlind (finalizeUsage input) := by
  refine Tx.blind_ite Tx.blind_fail ?_
  refine Tx.blind_bind (blind_onlyIf blind_addLedger) fun _ => ?_
  refine Tx.blind_bind (blind_onlyIf blind_addLedger) fun _ => ?_
  refine Tx.blind_bind (blind_onlyIf blind_addLedger) fun _ => ?_
  refine Tx.blind_bind blind_insertUsage fun _ => Tx.blind_bind blind_write fun _ => ?_
  refine Tx.blind_bind blind_lock fun _ => Tx.blind_bind (blind_references fun _ => rfl) fun _ => ?_
  exact Tx.blind_bind blind_orFail fun _ => blind_write

end Blind

/-! ## A request runs alike -/

section Alike

variable {P : Platform} {cfg : Config} {env : Env} {db : DB} {call : Call}

theorem resolveKeyHash_hideSpend (keyHash : String) :
    resolveKeyHash keyHash (hideSpend db) = resolveKeyHash keyHash db := by
  have hselect : ∀ id, Table.select ProjectRow.id (hideSpend db).catalog.projects id =
      (Table.select ProjectRow.id db.catalog.projects id).map ProjectRow.hideSpend :=
    fun _ => List.find?_map
  have hkeys : (hideSpend db).catalog.apiKeys = db.catalog.apiKeys := rfl
  unfold resolveKeyHash
  simp only [hselect, hkeys]
  cases Table.select APIKeyRow.keyHash db.catalog.apiKeys keyHash with
  | none => rfl
  | some key =>
      simp only [Option.bind_eq_bind, Option.bind_some]
      cases Table.select ProjectRow.id db.catalog.projects key.projectID with
      | none => rfl
      | some project => rfl

/-- A statement of a request does the same whatever the projects have spent and may spend. -/
theorem advance_hideSpend : call.advance P cfg env (hideSpend db) =
    (call.advance P cfg env db).map fun r => (hideSpend r.1, r.2) := by
  have hkey : ∀ token, resolveAPIKey P cfg token (hideSpend db) = resolveAPIKey P cfg token db := by
    intro token
    unfold resolveAPIKey
    rw [resolveKeyHash_hideSpend]
  unfold Call.advance
  cases call.phase with
  | received =>
      simp only [hkey]
      cases resolveAPIKey P cfg call.bearer db with
      | error e => rfl
      | ok auth => cases validate call.body <;> rfl
  | authenticated auth request =>
      have hmodel : activeModelBySlug request.model (hideSpend db) =
        activeModelBySlug request.model db := rfl
      simp only [hmodel]
      cases activeModelBySlug request.model db with
      | error e => rfl
      | ok model =>
          simp only
          split <;> rfl
  | modelFound auth request model =>
      have hroute : findsRoute model.id (hideSpend db) env.route =
        findsRoute model.id db env.route := rfl
      simp only [hroute]
      split
      · cases env.route <;> rfl
      · rfl
  | routed job =>
      simp only [blind_createInferenceJob db]
      cases (createInferenceJob env.newID (job.spec P)).exec db <;> rfl
  | created job jobID =>
      simp only [blind_reserveForUser db]
      cases (reserveForUser job.auth.userID (job.reservedCredits P)
        "chat_completion_reservation").exec db <;> rfl
  | refused job jobID e =>
      simp only [blind_markJobFailed db]
      cases (markJobFailed jobID .failed "insufficient_credits" e.text).exec db <;> rfl
  | reserved job jobID walletID =>
      have hdispatch : SpendBlind (markJobDispatched jobID) := blind_write
      simp only [hdispatch db]
      cases (markJobDispatched jobID).exec db <;> rfl
  | dispatched job jobID walletID => rfl
  | failing job jobID walletID failure =>
      simp only [blind_release db]
      cases (release walletID (job.reservedCredits P) failure.releaseReason).exec db <;> rfl
  | released job jobID walletID failure =>
      simp only [blind_markJobFailed db]
      cases (markJobFailed jobID .failed failure.code failure.message).exec db <;> rfl
  | answered job jobID walletID result =>
      simp only [blind_finalizeUsage db]
      cases (finalizeUsage (job.settlement P walletID jobID result)).exec db <;> rfl
  | unsettled job jobID walletID e =>
      simp only [blind_release db]
      cases (release walletID (job.reservedCredits P) "settlement_failed_release").exec db <;> rfl
  | done response => rfl

end Alike

/-! ## The contract -/

/-- The cost of the usage records of a project. -/
def spent (db : DB) (projectID : UUID) : ℤ :=
  Table.total (fun row => if row.projectID = projectID then row.costCredits.toInt else 0)
    db.usageRecords

/-- Every project with a limit has spent no more, and its row says how much. -/
def WithinLimits (db : DB) : Prop :=
  ∀ project ∈ db.catalog.projects, ∀ limit ∈ project.monthlyCreditLimit,
    spent db project.id ≤ limit.toInt ∧
      project.currentMonthSpend.toInt = spent db project.id

/-- A project was opened in a run: a request of the run brought its row into the table, with
the limit of that request and the month of the clock at that event. -/
def Opened (P : Platform) (cfg : Config) (es : List MarketEvent) (m : Market)
    (project : ProjectRow) : Prop :=
  ∃ (earlier later : List MarketEvent) (userPublicID publicID name : String)
      (before after : Market),
    es = earlier ++ .request userPublicID
      (.createProject project.id publicID name project.monthlyCreditLimit) :: later ∧
    (marketMachine P cfg).Reaches Machine.anyStep earlier before ∧
    before.next P cfg (.request userPublicID
      (.createProject project.id publicID name project.monthlyCreditLimit)) = some after ∧
    (marketMachine P cfg).Steps Machine.anyStep after later m ∧
    project ∉ before.db.catalog.projects ∧ project ∈ after.db.catalog.projects ∧
    project.spendPeriod = spendPeriod before.clock

/-- What a run says of the project rows: each was opened in it, and nothing was added to its
spend. -/
def Recorded (P : Platform) (cfg : Config) (es : List MarketEvent) (m : Market) : Prop :=
  ∀ project ∈ m.db.catalog.projects, project.currentMonthSpend = 0 ∧ Opened P cfg es m project

section Recorded

variable {P : Platform} {cfg : Config} {m m' : Market} {e : MarketEvent} {es : List MarketEvent}

/-- A project stays opened. -/
theorem Opened.step {project : ProjectRow} (h : Opened P cfg es m project)
    (hnext : m.next P cfg e = some m') : Opened P cfg (es ++ [e]) m' project := by
  obtain ⟨earlier, later, userPublicID, publicID, name, before, after, rfl, hbefore, hcreates,
    hafter, hnew, hstored, hperiod⟩ := h
  exact ⟨earlier, later ++ [e], userPublicID, publicID, name, before, after,
    by rw [List.append_assoc, List.cons_append], hbefore, hcreates, hafter.snoc hnext trivial,
    hnew, hstored, hperiod⟩

/-- A row that a step brings is opened by it. -/
theorem Recorded.step (h : Recorded P cfg es m)
    (hreach : (marketMachine P cfg).Reaches Machine.anyStep es m)
    (hnext : m.next P cfg e = some m') : Recorded P cfg (es ++ [e]) m' := by
  intro project hproject
  by_cases hold : project ∈ m.db.catalog.projects
  · obtain ⟨hspend, hopened⟩ := h project hold
    exact ⟨hspend, hopened.step hnext⟩
  · obtain ⟨hspend, hperiod, hopens⟩ :=
      ((Market.step_of_next hnext).change.projects.2 project hproject).resolve_left hold
    obtain ⟨userPublicID, publicID, name, rfl⟩ := opened_of_shows hopens
    exact ⟨hspend, es, [], userPublicID, publicID, name, m, m', rfl, hreach, hnext, .refl, hold,
      hproject, hperiod⟩

/-- In every run of the market a project row has the limit that it was created with, the
month of its creation and no spend, and no step changes it; a statement of a chat request
does the same whatever these columns are; and every usage record costs at most what its
job has reserved. -/
theorem spend_limits_are_recorded (P : Platform) (cfg : Config)
    (hreach : (marketMachine P cfg).Reaches Machine.anyStep es m) :
    Recorded P cfg es m ∧
      (∀ e m', m.next P cfg e = some m' → m.db.catalog.projects <+: m'.db.catalog.projects) ∧
      (∀ (call : Call) (env : Env), call.advance P cfg env (hideSpend m.db) =
        (call.advance P cfg env m.db).map fun r => (hideSpend r.1, r.2)) ∧
      ∀ usage ∈ m.db.usageRecords, ∃ job, m.db.job usage.jobID = some job ∧
        usage.costCredits.toInt ≤ job.reservedCredits.toInt := by
  have hrecorded : Recorded P cfg es m := by
    refine (hreach.invariant_trace (fun es m =>
      (marketMachine P cfg).Reaches Machine.anyStep es m ∧ Recorded P cfg es m) ?_ ?_).2
    · intro m hstart
      refine ⟨.start hstart, fun project hproject => ?_⟩
      obtain ⟨⟨⟨models, modelVersions, -, hdb⟩, -⟩, -⟩ := hstart
      rw [hdb] at hproject
      cases hproject
    · intro es m e m' ⟨hbefore, hrecorded⟩ hnext _
      exact ⟨hbefore.snoc hnext trivial, hrecorded.step hbefore hnext⟩
  refine ⟨hrecorded, fun e m' hnext => (Market.step_of_next hnext).change.projects.1,
    fun call env => advance_hideSpend, fun usage husage => ?_⟩
  obtain ⟨job, hjob, -, -, hcost⟩ := (linked_of_reaches hreach).1.books.amounts usage husage
  exact ⟨job, hjob, hcost⟩

end Recorded

/-! ## Sample runs -/

/-- A market with one model and one version of it. -/
def freshMarket : Market where
  api := { service := { db := DB.seeded ⟨[], [], sampleCatalog.models,
                          sampleCatalog.modelVersions, [], [], []⟩, calls := [] },
           network := .start }
  clock := 0
  disabling := []
  disabled := []

theorem start_freshMarket :
    (marketMachine samplePlatform sampleConfig).start freshMarket := by
  have hunique : Table.Unique ModelVersionRow.id sampleCatalog.modelVersions := by
    unfold Table.Unique
    decide
  exact ⟨⟨⟨_, _, hunique, rfl⟩, rfl⟩, rfl, rfl, rfl⟩

/-- Run the sample market, with a check of every step. -/
def runMarket (check : Market → MarketEvent → Market → Bool) (es : List MarketEvent) :
    Option Market :=
  Machine.exec (Market.next samplePlatform sampleConfig) check freshMarket es

/-- The sample market after some events. -/
def marketAfter (es : List MarketEvent) : Market :=
  (runMarket (fun _ _ _ => true) es).getD freshMarket

theorem reaches_marketAfter {es : List MarketEvent}
    (h : (runMarket (fun _ _ _ => true) es).isSome) :
    (marketMachine samplePlatform sampleConfig).Reaches Machine.anyStep es (marketAfter es) :=
  Machine.reaches_of_exec (fun _ _ _ _ => trivial) start_freshMarket h

/-- An administrator and a user register; the user brings a provider, whose machine says
hello and advertises the model, and the administrator approves the advertisement. -/
def openingEvents : List MarketEvent :=
  [.api (.service (.register 1 2 "usr_a" ⟨"a@example.com", "password", "Ada"⟩)),
    .api (.service (.register 3 4 "usr_b" ⟨"b@example.com", "password", "Bob"⟩)),
    .api (.service (.createProvider 5 6 "prv_b" "pvn_provider_b" 3 "box")),
    .api (.connect 0 "pvn_provider_b"), .api (.network (.register 0)),
    .hello 0 24 "pin_b" (sampleHello "key-a"),
    .frame 0 (.modelList 25 "pma_a" [] (some ⟨23, 22, "ollama", "llama3:8b", .active⟩) ""
      "llama3:8b" "sha256:a"),
    .request "usr_a" (.setAdvertisementStatus "pma_a" "approved")]

/-- The route to that machine. -/
def sampleRoute : RoutableProvider := ⟨5, "prv_b", 24, 23, "llama3:8b"⟩

/-- A project with a limit, and a request with its key up to the channel of its dispatch. -/
def requestEvents (limit : Option Int64) : List MarketEvent :=
  [.request "usr_a" (.createProject 20 "prj_a" "chat" limit),
    .request "usr_a" (.createAPIKey 21 "key_a" "pvn_live_a_b" "pvn_live_a" "prj_a" "laptop"),
    .api (.service (.arrive 0 "pvn_live_a_b" "req_a"
      (some ⟨"llama", [⟨"user", "hello"⟩], 50, none, false⟩)))] ++
  List.replicate 6 (.api (.service (.advance 0 sampleEnv))) ++
  [.api (.dispatch 0), .api (.network (.lookup 0)), .api (.network (.openJob 0))]

/-- The job of that request is written and answered, and the request settles. -/
def completionEvents : List MarketEvent :=
  [.api (.network (.write 0 none)), .api (.network (.complete 0 answerFrame)),
    .api (.network (.send 0)), .api (.network (.receive 0)), .api (.network (.closeJob 0)),
    .api (.deliver 0), .api (.service (.advance 0 sampleEnv))]

/-- In January 2025, a request of a project with a limit of one credit, which is answered. -/
def limitedEvents : List MarketEvent :=
  .tick 1735689600000000 :: requestEvents (some 1) ++ completionEvents

/-- The row of that project. -/
def limitedProject : ProjectRow :=
  ⟨20, "prj_a", 1, "chat", .active, some 1, 0, "2025-01", false⟩

/-- What the sample market holds after that request. -/
theorem limited_run :
    (runMarket (fun _ _ _ => true) (openingEvents ++ limitedEvents)).isSome ∧
      (marketAfter (openingEvents ++ limitedEvents)).clock = 1735689600000000 ∧
      (marketAfter (openingEvents ++ limitedEvents)).db.catalog.projects = [limitedProject] ∧
      (marketAfter (openingEvents ++ limitedEvents)).db.usageRecords.map UsageRow.costCredits =
        [4] ∧
      spent (marketAfter (openingEvents ++ limitedEvents)).db 20 = 4 := by
  decide +kernel

/-- Time passes in any run. -/
theorem reaches_tick {P : Platform} {cfg : Config} {es : List MarketEvent} {m : Market}
    (hreach : (marketMachine P cfg).Reaches Machine.anyStep es m) (elapsed : Nat) :
    (marketMachine P cfg).Reaches Machine.anyStep (es ++ [.tick elapsed])
      { m with clock := m.clock + elapsed } := hreach.snoc rfl trivial

/-- A month later the limited project's row is the same, beside the record of its request. -/
theorem sample_limit_is_recorded :
    ∃ es m, es = openingEvents ++ limitedEvents ++ [.tick 2678400000000] ∧
      (marketMachine samplePlatform sampleConfig).Reaches Machine.anyStep es m ∧
      Recorded samplePlatform sampleConfig es m ∧ spendPeriod m.clock = "2025-02" ∧
      m.db.catalog.projects = [⟨20, "prj_a", 1, "chat", .active, some 1, 0, "2025-01", false⟩] ∧
      m.db.usageRecords.map UsageRow.costCredits = [4] := by
  obtain ⟨hrun, hclock, hprojects, husage, -⟩ := limited_run
  have hbefore := reaches_marketAfter hrun
  generalize marketAfter (openingEvents ++ limitedEvents) = before
    at hbefore hclock hprojects husage
  have hreach := reaches_tick hbefore 2678400000000
  have hperiod : spendPeriod (before.clock + 2678400000000) = "2025-02" := by
    rw [hclock]
    decide +kernel
  exact ⟨_, _, rfl, hreach,
    (spend_limits_are_recorded samplePlatform sampleConfig hreach).1, hperiod, hprojects, husage⟩

/-- A project with a limit of one credit spends four in one request of the month it was
created in, and its row says nothing. -/
theorem request_spends_over_limit :
    ∃ m, (marketMachine samplePlatform sampleConfig).Reaches Machine.anyStep
        (openingEvents ++ limitedEvents) m ∧ (∀ project ∈ m.db.catalog.projects,
          project.spendPeriod = spendPeriod m.clock) ∧ ¬ WithinLimits m.db := by
  obtain ⟨hrun, hclock, hprojects, -, hspent⟩ := limited_run
  refine ⟨_, reaches_marketAfter hrun, ?_, fun hwithin => ?_⟩
  · rw [hprojects, hclock]
    decide +kernel
  have hproject : limitedProject ∈
      (marketAfter (openingEvents ++ limitedEvents)).db.catalog.projects := by
    rw [hprojects]
    exact List.mem_singleton_self _
  obtain ⟨hle, -⟩ := hwithin limitedProject hproject 1 rfl
  have hid : limitedProject.id = 20 := rfl
  rw [hid, hspent] at hle
  exact absurd hle (by decide)

end Nuvonode.Contract
