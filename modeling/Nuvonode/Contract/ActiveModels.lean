/-
  Contract/ActiveModels.lean --- whether every active model is a valid one.

  A create checks the whole record, an edit what its patch holds, and the seeds were
  checked by neither: one of them is paused and has no output tokens.  So an edit that
  sets nothing but the status may activate a model that no create would have taken.
-/
import Nuvonode.Contract.Callable

set_option autoImplicit false

namespace Nuvonode.Contract

open Nuvonode.Foundation Nuvonode.Database Nuvonode.Repository Nuvonode.Service Nuvonode.Handler
  Nuvonode.Ws

/-! ## Valid rows -/

/-- The conditions of `validModelInput` on a row, but for the output tokens; its modality and
its status are known ones by their types. -/
structure Described (row : ModelRow) : Prop where
  slug : row.slug ≠ ""
  displayName : row.displayName ≠ ""
  family : row.family ≠ ""
  contextLength : 0 < row.contextLength
  inputCreditPer1K : 0 ≤ row.inputCreditPer1K
  outputCreditPer1K : 0 ≤ row.outputCreditPer1K
  providerRewardRatio : 0 ≤ row.providerRewardRatio ∧ row.providerRewardRatio ≤ 1
  minVRAMMB : 0 ≤ row.minVRAMMB
  recommendedVRAMMB : 0 ≤ row.recommendedVRAMMB

/-- The conditions of `validModelInput` on a row. -/
structure ValidModel (row : ModelRow) : Prop extends Described row where
  defaultMaxOutputTokens : 0 < row.defaultMaxOutputTokens

section Rows

variable {patch : ModelPatch} {input : ModelInput} {old row : ModelRow}

theorem described_seedModels {qwen code embed external : UUID} :
    ∀ row ∈ seedModels qwen code embed external, Described row := by
  intro row hrow
  simp only [seedModels, List.mem_cons, List.not_mem_nil, or_false] at hrow
  rcases hrow with rfl | rfl | rfl | rfl
  all_goals
    constructor
    all_goals
      simp only
      decide +kernel

/-- The seeds that are active are valid. -/
theorem tokens_of_seedModels {qwen code embed external : UUID} :
    ∀ row ∈ seedModels qwen code embed external, row.status = .active →
      0 < row.defaultMaxOutputTokens := by
  intro row hrow
  simp only [seedModels, List.mem_cons, List.not_mem_nil, or_false] at hrow
  rcases hrow with rfl | rfl | rfl | rfl
  all_goals
    simp only
    decide

theorem ratio_of_store {q r : ℚ} (hlow : 0 ≤ q) (hhigh : q ≤ 1)
    (h : numericStore 6 4 q = some r) : 0 ≤ r ∧ r ≤ 1 := by
  have hbetween : ∃ stored, numericStore 6 4 q = some stored ∧ ((0 : ℤ) : ℚ) ≤ stored ∧
      stored ≤ ((1 : ℤ) : ℚ) :=
    numericStore_between (by exact_mod_cast hlow) (by exact_mod_cast hhigh) (by decide)
  obtain ⟨stored, hstored, hge, hle⟩ := hbetween
  rw [h] at hstored
  obtain rfl := Option.some.inj hstored
  exact ⟨by exact_mod_cast hge, by exact_mod_cast hle⟩

/-- A model that has been created passes every condition. -/
theorem valid_of_create (hvalid : validModelInput input = true) (h : StoresInput input row) :
    ValidModel row := by
  simp only [validModelInput, Bool.and_eq_true, decide_eq_true_eq] at hvalid
  obtain ⟨⟨⟨⟨⟨⟨⟨⟨⟨⟨⟨⟨hslug, hname⟩, hfamily⟩, -⟩, -⟩, hcontext⟩, htokens⟩, hinput⟩, houtput⟩, hlow⟩,
    hhigh⟩, hvram⟩, hrecommended⟩ := hvalid
  exact
    { slug := h.slug ▸ hslug
      displayName := h.displayName ▸ hname
      family := h.family ▸ hfamily
      contextLength := h.contextLength ▸ pos_iff.mp hcontext
      inputCreditPer1K := h.inputCreditPer1K ▸ hinput
      outputCreditPer1K := h.outputCreditPer1K ▸ houtput
      providerRewardRatio := ratio_of_store hlow hhigh h.providerRewardRatio
      minVRAMMB := h.minVRAMMB ▸ toInt_nonneg hvram
      recommendedVRAMMB := h.recommendedVRAMMB ▸ toInt_nonneg hrecommended
      defaultMaxOutputTokens := h.defaultMaxOutputTokens ▸ pos_iff.mp htokens }

/-- An edit keeps every condition but that on the output tokens. -/
theorem described_of_update (hvalid : validModelPatch patch = true) (h : StoresPatch patch old row)
    (hold : Described old) : Described row := by
  simp only [validModelPatch, Bool.and_eq_true, Option.all_eq_true, decide_eq_true_eq] at hvalid
  obtain ⟨⟨⟨⟨⟨⟨⟨⟨⟨⟨⟨hslug, hname⟩, hfamily⟩, -⟩, -⟩, hcontext⟩, -⟩, hinput⟩, houtput⟩, hratio⟩,
    hvram⟩, hrecommended⟩ := hvalid
  have htext : ∀ {value : Option String} {column : String}, value ≠ some "" → column ≠ "" →
      coalesce value column ≠ "" := by
    intro value column hvalue hcolumn
    exact coalesce_cases (p := fun text => text ≠ "") hcolumn fun text htext hempty =>
      hvalue (hempty ▸ htext)
  have hnumber : ∀ {value : Option Int64} {column : ℤ}, (∀ n ∈ value, 0 ≤ n) → 0 ≤ column →
      0 ≤ coalesce (value.map Int64.toInt) column := by
    intro value column hvalue hcolumn
    refine coalesce_cases hcolumn fun n hn => ?_
    obtain ⟨word, hword, rfl⟩ := Option.map_eq_some_iff.mp hn
    exact toInt_nonneg (hvalue word hword)
  refine
    { slug := h.slug ▸ htext hslug hold.slug
      displayName := h.displayName ▸ htext hname hold.displayName
      family := h.family ▸ htext hfamily hold.family
      contextLength := ?_
      inputCreditPer1K := h.inputCreditPer1K ▸ coalesce_cases hold.inputCreditPer1K hinput
      outputCreditPer1K := h.outputCreditPer1K ▸ coalesce_cases hold.outputCreditPer1K houtput
      providerRewardRatio := ?_
      minVRAMMB := h.minVRAMMB ▸ hnumber hvram hold.minVRAMMB
      recommendedVRAMMB := h.recommendedVRAMMB ▸ hnumber hrecommended hold.recommendedVRAMMB }
  · rw [h.contextLength]
    refine coalesce_cases hold.contextLength fun n hn => ?_
    obtain ⟨word, hword, rfl⟩ := Option.map_eq_some_iff.mp hn
    exact pos_iff.mp (hcontext word hword)
  · have hstored := h.providerRewardRatio
    cases hpatch : patch.providerRewardRatio with
    | none =>
        rw [hpatch] at hstored
        exact Option.some.inj hstored ▸ hold.providerRewardRatio
    | some ratio =>
        rw [hpatch] at hstored
        obtain ⟨hlow, hhigh⟩ := hratio ratio hpatch
        exact ratio_of_store hlow hhigh hstored

theorem Described.paused (h : Described row) : Described { row with status := .paused } where
  slug := h.slug
  displayName := h.displayName
  family := h.family
  contextLength := h.contextLength
  inputCreditPer1K := h.inputCreditPer1K
  outputCreditPer1K := h.outputCreditPer1K
  providerRewardRatio := h.providerRewardRatio
  minVRAMMB := h.minVRAMMB
  recommendedVRAMMB := h.recommendedVRAMMB

end Rows

/-! ## Runs -/

/-- Every active model satisfies every condition of `validModelInput`. -/
def ActiveModelsValid (db : DB) : Prop :=
  ∀ row ∈ db.catalog.models, row.status = .active → ValidModel row

/-- An accepted edit that activates a model whose output tokens are not positive, and leaves
them as they are. -/
def Activates (db : DB) (user : UserRow) (modelPublicID : String) (patch : ModelPatch) : Prop :=
  (∃ row db', adminUpdateModel user modelPublicID patch db = .ok (row, db')) ∧
    ∃ old, modelByPublicID modelPublicID db = .ok old ∧ old.defaultMaxOutputTokens ≤ 0 ∧
      patch.status.map trimSpace = some "active" ∧ patch.defaultMaxOutputTokens = none

/-- The guard: no edit activates a model without output tokens. -/
def GivesTokens (m : Market) (e : MarketEvent) (_ : Market) : Prop :=
  match e with
  | .request userPublicID (.updateModel modelPublicID patch) =>
      ∀ user, userFromJWT userPublicID m.db = .ok user →
        ¬ Activates m.db user modelPublicID patch
  | _ => True

/-- What a run keeps of the table of models where no edit activates a model without output
tokens. -/
structure Vetted (models : List ModelRow) : Prop where
  described : ∀ row ∈ models, Described row
  tokens : ∀ row ∈ models, row.status = .active → 0 < row.defaultMaxOutputTokens

section Runs

variable {P : Platform} {cfg : Config} {m m' : Market} {e : MarketEvent} {es : List MarketEvent}

theorem Vetted.valid {db : DB} (h : Vetted db.catalog.models) : ActiveModelsValid db :=
  fun row hrow hactive =>
    { toDescribed := h.described row hrow, defaultMaxOutputTokens := h.tokens row hrow hactive }

/-- The status that a patch sets. -/
theorem status_active_iff {patch : ModelPatch} {old row : ModelRow}
    (h : StoresPatch (normalizeModelPatch patch) old row) (hset : patch.status ≠ none) :
    row.status = .active ↔ patch.status.map trimSpace = some "active" := by
  obtain ⟨text, htext⟩ := Option.ne_none_iff_exists'.mp hset
  have hstatus : modelStatusOf (trimSpace text) = some row.status := by
    have hstored := h.status
    simp only [normalizeModelPatch, htext, Option.map_some, Option.elim_some] at hstored
    exact hstored
  rw [htext, Option.map_some, Option.some.injEq]
  unfold modelStatusOf at hstatus
  split at hstatus
  · exact iff_of_true (Option.some.inj hstatus).symm ‹_›
  · rename_i hne
    refine iff_of_false (fun hactive => ?_) hne
    rw [hactive] at hstatus
    split at hstatus
    · cases hstatus
    · split at hstatus
      · cases hstatus
      · cases hstatus

/-- An accepted edit that is not excluded leaves an active model with output tokens. -/
theorem tokens_of_update {db db' : DB} {user : UserRow} {modelPublicID : String}
    {patch : ModelPatch} {row : ModelRow} (hmodels : Vetted db.catalog.models)
    (hupdate : adminUpdateModel user modelPublicID patch db = .ok (row, db'))
    (hguard : ¬ Activates db user modelPublicID patch) (hactive : row.status = .active) :
    0 < row.defaultMaxOutputTokens := by
  obtain ⟨-, hvalid, old, hold, hrow, -⟩ := adminUpdateModel_eq_ok_iff.mp hupdate
  have hstores := storesPatch_of_update hrow
  rw [hstores.defaultMaxOutputTokens]
  cases htokens : patch.defaultMaxOutputTokens with
  | some tokens =>
      have hpos := (checksPatch_of_valid hvalid).defaultMaxOutputTokens tokens htokens
      simp only [normalizeModelPatch, htokens]
      exact pos_iff.mp hpos
  | none =>
      simp only [normalizeModelPatch, htokens]
      change 0 < old.defaultMaxOutputTokens
      by_cases hset : patch.status = none
      · have hstatus := hstores.status
        simp only [normalizeModelPatch, hset] at hstatus
        exact hmodels.tokens old
          (Table.mem_of_select (select_of_modelByPublicID hold)).1
          ((Option.some.inj hstatus).trans hactive)
      · by_contra hnone
        exact hguard ⟨⟨row, db', hupdate⟩, old, hold, not_lt.mp hnone,
          (status_active_iff hstores hset).mp hactive, htokens⟩

/-- What is created, paused or left alone stays vetted. -/
theorem Vetted.unedited {models models' : List ModelRow} (h : Vetted models)
    (hunedited : Unedited models models') : Vetted models' := by
  cases hunedited with
  | same => exact h
  | create hvalid hstores =>
      have hcreated := valid_of_create hvalid hstores
      refine { described := fun row hrow => ?_, tokens := fun row hrow hactive => ?_ }
      · rcases List.mem_append.mp hrow with hold | hnew
        · exact h.described row hold
        · rw [List.mem_singleton.mp hnew]
          exact hcreated.toDescribed
      · rcases List.mem_append.mp hrow with hold | hnew
        · exact h.tokens row hold hactive
        · rw [List.mem_singleton.mp hnew]
          exact hcreated.defaultMaxOutputTokens
  | pause =>
      refine { described := fun row hrow => ?_, tokens := fun row hrow hactive => ?_ }
      · obtain ⟨kept, hkept, rfl⟩ := Table.mem_update.mp hrow
        split
        · exact (h.described kept hkept).paused
        · exact h.described kept hkept
      · obtain ⟨kept, hkept, rfl⟩ := Table.mem_update.mp hrow
        split at hactive
        · cases hactive
        · rename_i hother
          rw [if_neg hother]
          exact h.tokens kept hkept hactive

theorem Vetted.step (h : Vetted m.db.catalog.models) (hstep : m.Step P cfg e m')
    (hguard : GivesTokens m e m') : Vetted m'.db.catalog.models := by
  rcases hstep.edit with ⟨_, user, modelPublicID, patch, row, rfl, huser, hupdate⟩ | hunedited
  · obtain ⟨hvalid, old, hold, hstores, -, hmodels⟩ := accepted_update hupdate
    have hdescribed := described_of_update hvalid hstores (h.described old hold)
    have htokens := tokens_of_update h hupdate (hguard user huser)
    rw [hmodels]
    refine { described := fun other hother => ?_, tokens := fun other hother => ?_ }
    · obtain ⟨kept, hkept, rfl⟩ := Table.mem_update.mp hother
      split
      · exact hdescribed
      · exact h.described kept hkept
    · obtain ⟨kept, hkept, rfl⟩ := Table.mem_update.mp hother
      split
      · exact htokens
      · exact h.tokens kept hkept
  · exact h.unedited hunedited

/-- A model with output tokens, as a request has found it. -/
abbrev HasTokens (call : Call) : Prop :=
  Finds (fun _ model => 0 < model.defaultMaxOutputTokens) call

/-- A request that finds a vetted model finds one with output tokens. -/
theorem hasTokens_of_step {call : Call} (h : Vetted m.db.catalog.models)
    (hcalls : ∀ call ∈ m.api.service.calls, HasTokens call) (hstep : m.Step P cfg e m')
    (hcall : call ∈ m'.api.service.calls) : HasTokens call := by
  rcases calls_of_step hstep with hsame | ⟨e', hnext, -⟩
  · rw [hsame] at hcall
    exact hcalls call hcall
  · rcases calls_before hnext hcall with hkept | hreceived | ⟨old, hold, db, hstepped⟩
    · exact hcalls call hkept
    · exact .of_received hreceived
    · exact (hcalls old hold).step (fun _ _ model _ hmodel =>
        h.tokens model (mem_of_activeModel hmodel) (active_of_activeModel hmodel)) hstepped

/-- What holds of a request's model holds of its output tokens. -/
theorem maxTokens_pos {call : Call} {job : ChatJob} (h : HasTokens call)
    (hcurrent : Call.current call = some job) : 0 < job.maxTokens := by
  have htokens := h.current job hcurrent
  unfold ChatJob.maxTokens
  split
  · exact htokens
  · rename_i hpos
    exact not_le_zero_iff.mp hpos

/-- An edit that activates a model without output tokens leaves it so. -/
theorem not_valid_of_activates {userPublicID modelPublicID : String} {user : UserRow}
    {patch : ModelPatch} (huser : userFromJWT userPublicID m.db = .ok user)
    (hactivates : Activates m.db user modelPublicID patch)
    (hnext : m.next P cfg (.request userPublicID (.updateModel modelPublicID patch)) = some m') :
    ¬ ActiveModelsValid m'.db := by
  obtain ⟨⟨row, db', hupdate⟩, old, hold, hnone, hstatus, htokens⟩ := hactivates
  have hdb : m'.db = db' := by
    have hrun : (DashboardRequest.updateModel modelPublicID patch).run P cfg m.clock user m.db =
        .ok db' := by
      simp only [DashboardRequest.run, hupdate, Except.map]
    simp only [Market.next, huser, hrun] at hnext
    obtain rfl := Option.some.inj hnext
    rfl
  obtain ⟨-, -, old', hold', hrow, -, -, rfl⟩ := adminUpdateModel_eq_ok_iff.mp hupdate
  obtain rfl := Except.ok.inj (hold.symm.trans hold')
  have hstores := storesPatch_of_update hrow
  have hset : patch.status ≠ none := fun hnone => by
    rw [hnone] at hstatus
    cases hstatus
  have hactive := (status_active_iff hstores hset).mpr hstatus
  intro hvalid
  rw [hdb] at hvalid
  have hmem : row ∈ (editedModel user m.db old row).catalog.models :=
    Table.mem_update.mpr ⟨old, (Table.mem_of_select (select_of_modelByPublicID hold)).1,
      if_pos rfl⟩
  have hpos := (hvalid row hmem hactive).defaultMaxOutputTokens
  rw [hstores.defaultMaxOutputTokens, normalizeModelPatch, htokens] at hpos
  exact absurd hpos (not_lt.mpr hnone)

end Runs

/-- **When every active model is a valid one.** -/
theorem active_models_are_valid {P : Platform} {cfg : Config} {s₀ : Market}
    {qwen code embed external : UUID} (hstart : (marketMachine P cfg).start s₀)
    (hseeds : s₀.db.catalog.models = seedModels qwen code embed external) :
    (∀ es m, (marketMachine P cfg).Steps GivesTokens s₀ es m →
      ActiveModelsValid m.db ∧ ∀ call ∈ m.api.service.calls, ∀ job, Call.current call = some job →
        0 < job.model.defaultMaxOutputTokens ∧ 0 < job.maxTokens) ∧
    ∀ es m e m', (marketMachine P cfg).Steps Machine.anyStep s₀ es m →
      (marketMachine P cfg).step m e m' → ¬ GivesTokens m e m' → ¬ ActiveModelsValid m'.db := by
  refine ⟨fun es m hsteps => ?_, fun es m e m' _ hnext hguard => ?_⟩
  · have hkept : Vetted m.db.catalog.models ∧ ∀ call ∈ m.api.service.calls, HasTokens call := by
      refine hsteps.preserves (fun _ m => Vetted m.db.catalog.models ∧
        ∀ call ∈ m.api.service.calls, HasTokens call) ⟨?_, fun call hcall => ?_⟩ ?_
      · rw [hseeds]
        exact ⟨described_seedModels, tokens_of_seedModels⟩
      · obtain ⟨⟨-, hcalls⟩, -⟩ := hstart
        rw [hcalls] at hcall
        exact absurd hcall List.not_mem_nil
      · rintro _ m e m' ⟨hvetted, hcalls⟩ hnext hguard
        have hstep := Market.step_of_next hnext
        exact ⟨hvetted.step hstep hguard,
          fun call hcall => hasTokens_of_step hvetted hcalls hstep hcall⟩
    obtain ⟨hvetted, hcalls⟩ := hkept
    exact ⟨hvetted.valid, fun call hcall job hcurrent =>
      ⟨(hcalls call hcall).current job hcurrent, maxTokens_pos (hcalls call hcall) hcurrent⟩⟩
  · cases e with
    | request userPublicID r =>
        cases r with
        | updateModel modelPublicID patch =>
            simp only [GivesTokens, not_forall, not_not] at hguard
            obtain ⟨user, huser, hactivates⟩ := hguard
            exact not_valid_of_activates huser hactivates hnext
        | _ => exact absurd trivial hguard
    | _ => exact absurd trivial hguard

/-- The seeded embedding model is edited by the first user, who is an administrator. -/
def embedEvents (r : AdminModelRequest) : List MarketEvent :=
  [.api (.service (.register 1 2 "usr_a" ⟨"a@example.com", "password", "Ada"⟩)),
    .request "usr_a" (.updateModel "mdl_embed_small" r.modelPatch)]

/-- Whether an event is no edit, or one that sets the output tokens. -/
def setsTokens : MarketEvent → Bool
  | .request _ (.updateModel _ patch) => patch.defaultMaxOutputTokens.isSome
  | _ => true

theorem givesTokens_of_sets {m m' : Market} {e : MarketEvent} (h : setsTokens e = true) :
    GivesTokens m e m' := by
  cases e with
  | request userPublicID r =>
      cases r with
      | updateModel modelPublicID patch =>
          rintro user - ⟨-, old, -, -, -, hnone⟩
          rw [setsTokens, hnone] at h
          cases h
      | _ => exact trivial
  | _ => exact trivial

/-- The embedding model is activated with output tokens of its own. -/
theorem embed_is_activated :
    ∃ m, (marketMachine samplePlatform sampleConfig).Steps GivesTokens seededMarket
        (embedEvents { AdminModelRequest.empty with
          status := some "active", defaultMaxOutputTokens := some 512 }) m ∧
      (∃ row ∈ m.db.catalog.models, row.slug = "embed-small" ∧ row.status = .active) ∧
      ActiveModelsValid m.db := by
  have hrun : ∃ m ∈ Machine.exec (Market.next samplePlatform sampleConfig)
      (fun _ e _ => setsTokens e) seededMarket
      (embedEvents { AdminModelRequest.empty with
        status := some "active", defaultMaxOutputTokens := some 512 }),
      ∃ row ∈ m.db.catalog.models, row.slug = "embed-small" ∧ row.status = .active := by
    decide +kernel
  obtain ⟨m, hm, hactive⟩ := hrun
  have hsteps : (marketMachine samplePlatform sampleConfig).Steps GivesTokens seededMarket _ m :=
    Machine.steps_of_exec (fun _ _ _ hcheck => givesTokens_of_sets hcheck) hm
  exact ⟨m, hsteps, hactive, ((active_models_are_valid start_seededMarket rfl).1 _ m hsteps).1⟩

/-- An edit that sets its status only activates the embedding model without output tokens. -/
theorem embed_is_activated_without_tokens :
    ∃ m ∈ seededAfter (embedEvents { AdminModelRequest.empty with status := some "active" }),
      (marketMachine samplePlatform sampleConfig).Steps Machine.anyStep seededMarket
        (embedEvents { AdminModelRequest.empty with status := some "active" }) m ∧
      ¬ ActiveModelsValid m.db := by
  have hrun : ∃ m ∈ seededAfter (embedEvents { AdminModelRequest.empty with
        status := some "active" }),
      ∃ row ∈ m.db.catalog.models, row.status = .active ∧ row.defaultMaxOutputTokens = 0 := by
    decide +kernel
  obtain ⟨m, hm, row, hrow, hactive, hnone⟩ := hrun
  refine ⟨m, hm, steps_of_seededAfter hm, fun hvalid => ?_⟩
  have hpos := (hvalid row hrow hactive).defaultMaxOutputTokens
  rw [hnone] at hpos
  exact absurd hpos (lt_irrefl 0)

end Nuvonode.Contract
