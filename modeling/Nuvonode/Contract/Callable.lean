/-
  Contract/Callable.lean --- whether every model that is offered can be called.

  An administrator may set any price that is not negative, and a request reserves what
  its largest answer would cost.  A reservation must be positive: so a model without a
  price is offered, routed and written down as a job, and then refused, and so is one
  whose price exceeds a word.
-/
import Nuvonode.Contract.Metering
import Nuvonode.Contract.Occupancy
import Nuvonode.Contract.Spending
import Nuvonode.Database.Seeds
import Nuvonode.Handler.AdminModels
import Nuvonode.Handler.Offers

set_option autoImplicit false

namespace Nuvonode.Contract

open Nuvonode.Foundation Nuvonode.Database Nuvonode.Repository Nuvonode.Service Nuvonode.Handler
  Nuvonode.Ws

/-! ## Price terms -/

/-- A price term before it is converted to a word: the float product, a thousandth of it,
and the whole number above. -/
def wholeTerm (tokens : ℤ) (per1K : Int64) : ℤ :=
  ⌈binary64 (binary64 (binary64 tokens * binary64 per1K.toInt) / 1000)⌉

/-- Both terms fit a word, or the platform converts what does not fit to the smallest one. -/
def Converts (P : Platform) (inputTokens outputTokens : ℤ) (inputPer1K outputPer1K : Int64) :
    Prop :=
  (wholeTerm inputTokens inputPer1K < 2 ^ 63 ∧ wholeTerm outputTokens outputPer1K < 2 ^ 63) ∨
    ∀ q, P.outOfRangeInt64 q = Int64.minValue

section Terms

variable {P : Platform} {tokens inputTokens outputTokens : ℤ}
  {per1K inputPer1K outputPer1K : Int64}

theorem wholeTerm_nonneg (htokens : 0 ≤ tokens) (hprice : 0 ≤ per1K.toInt) :
    0 ≤ wholeTerm tokens per1K := by
  have htok : 0 ≤ binary64 tokens := binary64_nonneg (by exact_mod_cast htokens)
  have hpr : 0 ≤ binary64 per1K.toInt := binary64_nonneg (by exact_mod_cast hprice)
  have hproduct := binary64_nonneg (mul_nonneg htok hpr)
  exact Int.ceil_nonneg (binary64_nonneg (by positivity))

/-- No rounding takes a positive product to zero. -/
theorem wholeTerm_pos_iff (htokens : 0 ≤ tokens) (hprice : 0 ≤ per1K.toInt) :
    0 < wholeTerm tokens per1K ↔ 0 < tokens ∧ 0 < per1K.toInt := by
  constructor
  · intro hpos
    refine ⟨htokens.lt_of_ne fun hzero => ?_, hprice.lt_of_ne fun hzero => ?_⟩
    · rw [wholeTerm, ← hzero] at hpos
      simp at hpos
    · rw [wholeTerm, ← hzero] at hpos
      simp at hpos
  · rintro ⟨htok, hpr⟩
    have htok' : 0 < binary64 tokens := binary64_pos (by exact_mod_cast htok)
    have hpr' : 0 < binary64 per1K.toInt := binary64_pos (by exact_mod_cast hpr)
    have hproduct := binary64_pos (mul_pos htok' hpr')
    exact Int.ceil_pos.mpr (binary64_pos (by positivity))

/-- A term that fits is what is computed. -/
theorem priceTerm_of_fits (htokens : 0 ≤ tokens) (hprice : 0 ≤ per1K.toInt)
    (hfits : wholeTerm tokens per1K < 2 ^ 63) :
    (priceTerm P tokens per1K).toInt = wholeTerm tokens per1K := by
  have hnonneg := wholeTerm_nonneg htokens hprice
  have hlow : -(2 ^ 63) ≤ wholeTerm tokens per1K := by omega
  exact toInt_int64OfFloat hlow hfits

/-- A term that does not fit is what the platform makes of it. -/
theorem priceTerm_of_exceeds (hexceeds : 2 ^ 63 ≤ wholeTerm tokens per1K)
    (hlow : ∀ q, P.outOfRangeInt64 q = Int64.minValue) :
    (priceTerm P tokens per1K).toInt = -(2 ^ 63) := by
  have hterm : priceTerm P tokens per1K = int64OfFloat P (wholeTerm tokens per1K) := rfl
  have hwhole : (if (0 : ℚ) ≤ wholeTerm tokens per1K then ⌊(wholeTerm tokens per1K : ℚ)⌋
      else ⌈(wholeTerm tokens per1K : ℚ)⌉) = wholeTerm tokens per1K := by simp
  have hout : ¬ (-(2 ^ 63) ≤ wholeTerm tokens per1K ∧ wholeTerm tokens per1K < 2 ^ 63) := by omega
  rw [hterm, int64OfFloat, hwhole, if_neg hout, hlow]
  rfl

/-- A price is positive where its terms sum to a positive word. -/
theorem priceCredits_pos (hinput : 0 ≤ inputTokens) (houtput : 0 ≤ outputTokens)
    (hinputPrice : 0 ≤ inputPer1K.toInt) (houtputPrice : 0 ≤ outputPer1K.toInt)
    (hpos : 0 < wholeTerm inputTokens inputPer1K + wholeTerm outputTokens outputPer1K)
    (hfits : wholeTerm inputTokens inputPer1K + wholeTerm outputTokens outputPer1K < 2 ^ 63) :
    0 < (priceCredits P inputTokens outputTokens inputPer1K outputPer1K).toInt := by
  have hin := wholeTerm_nonneg hinput hinputPrice
  have hout := wholeTerm_nonneg houtput houtputPrice
  have hterm : (priceTerm P inputTokens inputPer1K).toInt = _ :=
    priceTerm_of_fits hinput hinputPrice (by omega)
  have hterm' : (priceTerm P outputTokens outputPer1K).toInt = _ :=
    priceTerm_of_fits houtput houtputPrice (by omega)
  rw [priceCredits, toInt_add_of_fits (by omega) (by simp only [maxInt64]; omega), hterm, hterm']
  exact hpos

/-- Where they do not, the price is not positive. -/
theorem terms_of_priceCredits_pos
    (hconverts : Converts P inputTokens outputTokens inputPer1K outputPer1K)
    (hinput : 0 ≤ inputTokens) (houtput : 0 ≤ outputTokens)
    (hinputPrice : 0 ≤ inputPer1K.toInt) (houtputPrice : 0 ≤ outputPer1K.toInt)
    (hprice : 0 < (priceCredits P inputTokens outputTokens inputPer1K outputPer1K).toInt) :
    0 < wholeTerm inputTokens inputPer1K + wholeTerm outputTokens outputPer1K ∧
      wholeTerm inputTokens inputPer1K + wholeTerm outputTokens outputPer1K < 2 ^ 63 := by
  have hin := wholeTerm_nonneg hinput hinputPrice
  have hout := wholeTerm_nonneg houtput houtputPrice
  -- Each term is exact, or the smallest word.
  have hterm : ∀ {tokens : ℤ} {per1K : Int64}, 0 ≤ tokens → 0 ≤ per1K.toInt →
      (wholeTerm tokens per1K < 2 ^ 63 ∨ ∀ q, P.outOfRangeInt64 q = Int64.minValue) →
      (priceTerm P tokens per1K).toInt = wholeTerm tokens per1K ∨
        2 ^ 63 ≤ wholeTerm tokens per1K ∧ (priceTerm P tokens per1K).toInt = -(2 ^ 63) := by
    intro tokens per1K htokens hprice hcases
    by_cases hfits : wholeTerm tokens per1K < 2 ^ 63
    · exact .inl (priceTerm_of_fits htokens hprice hfits)
    · have hlow := hcases.resolve_left hfits
      exact .inr ⟨not_lt.mp hfits, priceTerm_of_exceeds (not_lt.mp hfits) hlow⟩
  have hcases := hterm hinput hinputPrice (hconverts.imp_left And.left)
  have hcases' := hterm houtput houtputPrice (hconverts.imp_left And.right)
  have hsum := toInt_add_cases (priceTerm P inputTokens inputPer1K)
    (priceTerm P outputTokens outputPer1K)
  have hmax := toInt_le_max (priceTerm P inputTokens inputPer1K)
  have hmax' := toInt_le_max (priceTerm P outputTokens outputPer1K)
  rw [← priceCredits] at hsum
  simp only [maxInt64] at hsum hmax hmax'
  rcases hcases with heq | ⟨hexceeds, heq⟩
  · rcases hcases' with heq' | ⟨hexceeds', heq'⟩ <;> omega
  · -- The smallest word and a term that fits is negative; two of them are zero.
    rcases hcases' with heq' | ⟨hexceeds', heq'⟩ <;> omega

end Terms

/-! ## The models and the requests of a run -/

/-- The prices and the output tokens of a model are not negative. -/
structure Priced (row : ModelRow) : Prop where
  inputPrice : 0 ≤ row.inputCreditPer1K.toInt
  outputPrice : 0 ≤ row.outputCreditPer1K.toInt
  outputTokens : 0 ≤ row.defaultMaxOutputTokens

theorem priced_seedModels {qwen code embed external : UUID} :
    ∀ row ∈ seedModels qwen code embed external, Priced row := by
  intro row hrow
  simp only [seedModels, List.mem_cons, List.not_mem_nil, or_false] at hrow
  rcases hrow with rfl | rfl | rfl | rfl
  all_goals
    constructor
    all_goals
      simp only
      decide

theorem toInt_nonneg {n : Int64} (h : 0 ≤ n) : 0 ≤ n.toInt := Int64.le_iff_toInt_le.mp h

theorem priced_of_create {input : ModelInput} {row : ModelRow}
    (hvalid : validModelInput input = true) (h : StoresInput input row) : Priced row := by
  simp only [validModelInput, Bool.and_eq_true, decide_eq_true_eq] at hvalid
  obtain ⟨⟨⟨⟨⟨⟨⟨-, htokens⟩, hinput⟩, houtput⟩, -⟩, -⟩, -⟩, -⟩ := hvalid
  refine ⟨?_, ?_, ?_⟩
  · rw [h.inputCreditPer1K]
    exact toInt_nonneg hinput
  · rw [h.outputCreditPer1K]
    exact toInt_nonneg houtput
  · rw [h.defaultMaxOutputTokens]
    exact (pos_iff.mp htokens).le

/-- A column that an edit leaves alone, or sets to a value that is checked. -/
theorem coalesce_cases {α : Type} {p : α → Prop} {value : Option α} {old : α} (hold : p old)
    (hvalue : ∀ a ∈ value, p a) : p (coalesce value old) := by
  cases value with
  | none => exact hold
  | some a => exact hvalue a rfl

theorem priced_of_update {patch : ModelPatch} {old row : ModelRow}
    (hvalid : validModelPatch patch = true) (h : StoresPatch patch old row) (hold : Priced old) :
    Priced row := by
  have hchecks := checksPatch_of_valid hvalid
  have hprice : ∀ {value : Option Int64} {column : Int64}, (∀ n ∈ value, 0 ≤ n) →
      0 ≤ column.toInt → 0 ≤ (coalesce value column).toInt := by
    intro value column hvalue hcolumn
    exact coalesce_cases (p := fun n => 0 ≤ n.toInt) hcolumn fun n hn => toInt_nonneg (hvalue n hn)
  refine ⟨?_, ?_, ?_⟩
  · rw [h.inputCreditPer1K]
    exact hprice hchecks.inputCreditPer1K hold.inputPrice
  · rw [h.outputCreditPer1K]
    exact hprice hchecks.outputCreditPer1K hold.outputPrice
  · rw [h.defaultMaxOutputTokens]
    refine coalesce_cases hold.outputTokens fun n hn => ?_
    obtain ⟨tokens, htokens, rfl⟩ := Option.map_eq_some_iff.mp hn
    exact (pos_iff.mp (hchecks.defaultMaxOutputTokens tokens htokens)).le

/-- Every change of the table of models keeps prices from being negative. -/
theorem priced_of_change {models models' : List ModelRow} (h : ModelsChange models models')
    (hpriced : ∀ row ∈ models, Priced row) : ∀ row ∈ models', Priced row := by
  cases h with
  | same => exact hpriced
  | create hvalid hstores =>
      intro row hrow
      rcases List.mem_append.mp hrow with hold | hnew
      · exact hpriced row hold
      · rw [List.mem_singleton.mp hnew]
        exact priced_of_create hvalid hstores
  | update hvalid hold hstores =>
      intro row hrow
      obtain ⟨kept, hkept, rfl⟩ := Table.mem_update.mp hrow
      split
      · exact priced_of_update hvalid hstores (hpriced _ hold)
      · exact hpriced kept hkept
  | pause =>
      intro row hrow
      obtain ⟨kept, hkept, rfl⟩ := Table.mem_update.mp hrow
      split
      · exact ⟨(hpriced kept hkept).inputPrice, (hpriced kept hkept).outputPrice,
          (hpriced kept hkept).outputTokens⟩
      · exact hpriced kept hkept

/-- A request that has passed the checks of its body. -/
def Validated (request : ChatRequest) : Prop := ∃ body, validate body = .ok request

/-- What holds of a request and of the model that it has found, from then on. -/
structure Finds (good : ChatRequest → ModelRow → Prop) (call : Call) : Prop where
  found : ∀ auth request model, call.phase = .modelFound auth request model → good request model
  current : ∀ job, Call.current call = some job → good job.request job.model

/-- What holds of a request that has been read, and of the model that it has found. -/
structure Offered (call : Call) : Prop where
  authenticated : ∀ auth request, call.phase = .authenticated auth request → Validated request
  found : ∀ auth request model, call.phase = .modelFound auth request model →
    Validated request ∧ Priced model
  current : ∀ job, Call.current call = some job → Validated job.request ∧ Priced job.model

section Calls

variable {P : Platform} {cfg : Config} {s : ChatService} {e : ServiceEvent} {db db' : DB}
  {call call' : Call} {env : Env}

/-- A model that is found is in the table. -/
theorem mem_of_activeModel {slug : String} {model : ModelRow}
    (h : activeModelBySlug slug db = .ok model) : model ∈ db.catalog.models := by
  unfold activeModelBySlug at h
  split at h
  · split at h
    · rename_i found hfound
      split at h
      · cases h
        exact (Table.mem_of_select hfound).1
      · cases h
    · cases h
  · cases h

theorem active_of_activeModel {slug : String} {model : ModelRow}
    (h : activeModelBySlug slug db = .ok model) : model.status = .active := by
  unfold activeModelBySlug at h
  split at h
  · split at h
    · split at h
      · rename_i hactive
        cases h
        exact hactive.1
      · cases h
    · cases h
  · cases h

/-- A request whose `Dispatch` has returned has a job. -/
theorem not_searching_of_deliver {outcome : Except DispatchError CompletionFrame}
    (h : call.deliver outcome = some call') : ¬ call'.phase.Searching := by
  unfold Call.deliver at h
  split at h
  · cases h
    simp only [Call.goto]
    split
    · exact id
    · split <;> exact id
  · cases h

/-- A request is read from a body that passes the checks. -/
theorem validated_of_advance (h : call.advance P cfg env db = some (db', call'))
    {auth : APIKeyAuth} {request : ChatRequest}
    (hphase : call'.phase = .authenticated auth request) :
    Validated request := by
  rcases search_of_advance h (by rw [hphase]; trivial) with
    ⟨_, _, -, hnext, hvalid⟩ | ⟨_, _, _, -, hnext, -⟩ | ⟨_, -, hnext, -⟩
  · cases hphase.symm.trans hnext
    exact ⟨_, hvalid⟩
  · cases hphase.symm.trans hnext
  · cases hphase.symm.trans hnext

/-- A model is found in the table, for a request that has been read. -/
theorem found_of_advance (h : call.advance P cfg env db = some (db', call'))
    {auth : APIKeyAuth} {request : ChatRequest} {model : ModelRow}
    (hphase : call'.phase = .modelFound auth request model) :
    call.phase = .authenticated auth request ∧ activeModelBySlug request.model db = .ok model := by
  rcases search_of_advance h (by rw [hphase]; trivial) with
    ⟨_, _, -, hnext, -⟩ | ⟨_, _, _, hread, hnext, hmodel⟩ | ⟨_, -, hnext, -⟩
  · cases hphase.symm.trans hnext
  · cases hphase.symm.trans hnext
    exact ⟨hread, hmodel⟩
  · cases hphase.symm.trans hnext

/-- A step of a request keeps what holds of its model, where that holds of every model that
is found. -/
theorem Finds.step {good : ChatRequest → ModelRow → Prop} (h : Finds good call)
    (hgood : ∀ auth request model, call.phase = .authenticated auth request →
      activeModelBySlug request.model s.db = .ok model → good request model)
    (hstep : Stepped P cfg s call e db call') : Finds good call' := by
  cases hstep with
  | @advance env _ _ hadvance =>
      refine ⟨fun auth request model hphase => ?_, fun job hcurrent => ?_⟩
      · obtain ⟨hread, hmodel⟩ := found_of_advance hadvance hphase
        exact hgood auth request model hread hmodel
      · rcases current_of_transition (transition_of_advance hadvance) hcurrent with hold | hphase
        · exact h.current job hold
        · exact h.found job.auth job.request job.model (routed_of_advance hadvance hphase).1
  | deliver hdeliver =>
      have hanswered := not_searching_of_deliver hdeliver
      have htransition : Transition P s.db call s.db call' := transition_of_deliver hdeliver
      refine ⟨fun auth request model hphase => ?_, fun job hcurrent => ?_⟩
      · rw [hphase] at hanswered
        exact absurd trivial hanswered
      · rcases current_of_transition htransition hcurrent with hold | hphase
        · exact h.current job hold
        · rw [hphase] at hanswered
          exact absurd trivial hanswered

/-- A request that has just arrived has found nothing. -/
theorem Finds.of_received {good : ChatRequest → ModelRow → Prop} (h : call.phase = .received) :
    Finds good call := by
  refine ⟨fun auth request model hphase => ?_, fun job hcurrent => ?_⟩
  · rw [h] at hphase
    cases hphase
  · rw [Call.current, h] at hcurrent
    cases hcurrent

theorem Offered.finds (h : Offered call) :
    Finds (fun request model => Validated request ∧ Priced model) call := ⟨h.found, h.current⟩

/-- A step of a request keeps what holds of it, where every model is priced. -/
theorem Offered.step (h : Offered call) (hpriced : ∀ row ∈ s.db.catalog.models, Priced row)
    (hstep : Stepped P cfg s call e db call') : Offered call' := by
  have hfinds := h.finds.step (fun auth request model hread hmodel =>
    ⟨h.authenticated auth request hread, hpriced model (mem_of_activeModel hmodel)⟩) hstep
  refine ⟨fun auth request hphase => ?_, hfinds.found, hfinds.current⟩
  cases hstep with
  | advance hadvance => exact validated_of_advance hadvance hphase
  | deliver hdeliver =>
      have hanswered := not_searching_of_deliver hdeliver
      rw [hphase] at hanswered
      exact absurd trivial hanswered

end Calls

section Runs

variable {P : Platform} {cfg : Config} {m m' : Market} {e : MarketEvent} {es : List MarketEvent}

/-- Every model of a market is priced, and every request is for one that was. -/
structure Sane (m : Market) : Prop where
  models : ∀ row ∈ m.db.catalog.models, Priced row
  calls : ∀ call ∈ m.api.service.calls, Offered call

theorem Sane.step (h : Sane m) (hstep : m.Step P cfg e m') : Sane m' := by
  refine ⟨priced_of_change hstep.models h.models, fun call hcall => ?_⟩
  rcases calls_of_step hstep with hsame | ⟨e', hnext, -⟩
  · rw [hsame] at hcall
    exact h.calls call hcall
  · rcases calls_before hnext hcall with hkept | hreceived | ⟨old, hold, db, hstepped⟩
    · exact h.calls call hkept
    · have hfinds : Finds (fun request model => Validated request ∧ Priced model) call :=
        .of_received hreceived
      refine ⟨fun auth request hphase => ?_, hfinds.found, hfinds.current⟩
      rw [hreceived] at hphase
      cases hphase
    · exact (h.calls old hold).step h.models hstepped

theorem sane_of_steps {s₀ : Market} (hstart : (marketMachine P cfg).start s₀)
    (hmodels : ∀ row ∈ s₀.db.catalog.models, Priced row)
    (hsteps : (marketMachine P cfg).Steps Machine.anyStep s₀ es m) : Sane m := by
  refine hsteps.preserves (fun _ => Sane) ⟨hmodels, fun call hcall => ?_⟩ ?_
  · obtain ⟨⟨-, hcalls⟩, -⟩ := hstart
    rw [hcalls] at hcall
    exact absurd hcall List.not_mem_nil
  · intro _ m e m' hsane hnext _
    exact hsane.step (Market.step_of_next hnext)

end Runs

/-! ## The reservation -/

/-- The reservation of a request is refused as invalid input. -/
def RefusedAsInvalid (P : Platform) (db : DB) (job : ChatJob) : Prop :=
  (reserveForUser job.auth.userID (job.reservedCredits P) "chat_completion_reservation").exec db =
    .error .invalidInput

/-- The balance of a user's wallet covers an amount, which its reserved credits have room for. -/
def Affords (db : DB) (userID : UUID) (amount : Int64) : Prop :=
  ∃ walletID ∈ db.walletOf (.user, userID), ∃ wallet ∈ db.wallet walletID,
    amount.toInt ≤ wallet.balanceCredits.toInt ∧
      wallet.reservedCredits.toInt + amount.toInt ≤ maxInt64

/-- A request whose job has been created is dispatched by its next two statements, whatever
happens between them. -/
def IsDispatched (P : Platform) (cfg : Config) (db : DB) (call : Call) (job : ChatJob)
    (jobID : UUID) : Prop :=
  ∀ env, ∃ db' call' walletID, call.advance P cfg env db = some (db', call') ∧
    call'.phase = .reserved job jobID walletID ∧
    ∀ env' db₁, ∃ db₂ call₂, call'.advance P cfg env' db₁ = some (db₂, call₂) ∧
      call₂.phase = .dispatched job jobID walletID

/-- A request that can be reserved for: it costs something, and not more than a word holds. -/
structure Chargeable (job : ChatJob) : Prop where
  positive : 0 < job.model.inputCreditPer1K.toInt ∨
    0 < job.maxTokens ∧ 0 < job.model.outputCreditPer1K.toInt
  fits : wholeTerm job.inputTokens job.model.inputCreditPer1K +
    wholeTerm job.maxTokens job.model.outputCreditPer1K < 2 ^ 63

section Reservation

variable {P : Platform} {cfg : Config} {db : DB} {call : Call} {job : ChatJob} {jobID : UUID}

/-- A request has a token at least. -/
theorem inputTokens_pos (h : Validated job.request) : 0 < job.inputTokens := by
  obtain ⟨body, hbody⟩ := h
  have hchars := inputChars_pos hbody
  unfold ChatJob.inputTokens estimateTokensFromChars
  split <;> omega

theorem maxTokens_nonneg (h : Priced job.model) : 0 ≤ job.maxTokens := by
  unfold ChatJob.maxTokens
  split
  · exact h.outputTokens
  · rename_i hpos
    exact (not_le_zero_iff.mp hpos).le

/-- What is reserved is positive exactly if the request is chargeable. -/
theorem reservedCredits_pos (hvalid : Validated job.request) (hpriced : Priced job.model)
    (h : Chargeable job) : 0 < (job.reservedCredits P).toInt := by
  have hinput := inputTokens_pos hvalid
  have houtput := maxTokens_nonneg hpriced
  have hin := wholeTerm_nonneg hinput.le hpriced.inputPrice
  have hout := wholeTerm_nonneg houtput hpriced.outputPrice
  refine priceCredits_pos hinput.le houtput hpriced.inputPrice hpriced.outputPrice ?_ h.fits
  rcases h.positive with hprice | ⟨htokens, hprice⟩
  · have hterm := (wholeTerm_pos_iff hinput.le hpriced.inputPrice).mpr ⟨hinput, hprice⟩
    omega
  · have hterm := (wholeTerm_pos_iff houtput hpriced.outputPrice).mpr ⟨htokens, hprice⟩
    omega

theorem chargeable_of_pos (hvalid : Validated job.request) (hpriced : Priced job.model)
    (hconverts : Converts P job.inputTokens job.maxTokens job.model.inputCreditPer1K
      job.model.outputCreditPer1K) (h : 0 < (job.reservedCredits P).toInt) : Chargeable job := by
  have hinput := inputTokens_pos hvalid
  have houtput := maxTokens_nonneg hpriced
  obtain ⟨hpos, hfits⟩ := terms_of_priceCredits_pos hconverts hinput.le houtput
    hpriced.inputPrice hpriced.outputPrice h
  refine ⟨?_, hfits⟩
  by_cases hterm : 0 < wholeTerm job.inputTokens job.model.inputCreditPer1K
  · exact .inl ((wholeTerm_pos_iff hinput.le hpriced.inputPrice).mp hterm).2
  · exact .inr ((wholeTerm_pos_iff houtput hpriced.outputPrice).mp (by omega))

/-- No entry of the ledger is refused as invalid input. -/
theorem exec_addLedger_ne {walletID : UUID} {amount reservedDelta : Int64} {reason : String} :
    (addLedger walletID .reserve amount reservedDelta reason none).exec db ≠
      .error .invalidInput := by
  cases hfound : db.wallet walletID with
  | none =>
      have hexec : (addLedger walletID .reserve amount reservedDelta reason none).exec db =
          .error .noRows := by
        simp only [addLedger, Tx.exec_bind, exec_lockWallet, Except.bind, hfound, exec_orFail]
      rw [hexec]
      intro h
      cases h
  | some wallet =>
      rw [exec_addLedger hfound]
      intro h
      split at h
      · cases h
      · split at h <;> cases h

/-- A reservation is refused as invalid input exactly if it is not positive. -/
theorem refusedAsInvalid_iff : RefusedAsInvalid P db job ↔ ¬ 0 < (job.reservedCredits P).toInt := by
  have hnonpos : job.reservedCredits P ≤ 0 ↔ ¬ 0 < (job.reservedCredits P).toInt :=
    Int64.le_iff_toInt_le.trans not_lt.symm
  unfold RefusedAsInvalid reserveForUser
  split
  · rename_i hle
    exact iff_of_true rfl (hnonpos.mp hle)
  · rename_i hpos
    refine iff_of_false ?_ fun hle => hpos (hnonpos.mpr hle)
    simp only [Tx.exec_bind, Tx.exec_query, exec_orFail, Except.bind]
    intro hexec
    split at hexec
    · rename_i hnone
      split at hnone
      · cases hnone
      · cases hnone
        cases hexec
    · split at hexec
      · rename_i hentry
        cases hexec
        exact exec_addLedger_ne hentry
      · cases hexec

/-- A positive reservation that the wallet affords is made, and its request dispatched. -/
theorem isDispatched_of_pos (hexact : LedgerExact db) (hphase : call.phase = .created job jobID)
    (hpos : 0 < (job.reservedCredits P).toInt)
    (haffords : Affords db job.auth.userID (job.reservedCredits P)) :
    IsDispatched P cfg db call job jobID := by
  obtain ⟨⟨walletID, db'⟩, hexec⟩ := exec_reserveForUser hexact ⟨hpos, haffords⟩
    (show storable "chat_completion_reservation" = true by decide)
  intro env
  refine ⟨db', (call.goto (.reserved job jobID walletID)).committed
    (.reserve walletID (job.reservedCredits P)), walletID, ?_, rfl, fun env' db₁ => ?_⟩
  · simp only [Call.advance, hphase, hexec]
  · simp only [Call.advance, Call.committed, Call.goto]
    split
    · exact ⟨_, _, rfl, rfl⟩
    · exact ⟨_, _, rfl, rfl⟩

end Reservation

/-! ## The contract -/

/-- A request whose job has been created can be served: its reservation is not refused as
invalid input, and where the caller affords it the request is dispatched. -/
def Callable (P : Platform) (cfg : Config) (db : DB) (call : Call) (job : ChatJob) (jobID : UUID) :
    Prop :=
  ¬ RefusedAsInvalid P db job ∧
    (Affords db job.auth.userID (job.reservedCredits P) → IsDispatched P cfg db call job jobID)

section Contract

variable {P : Platform} {cfg : Config} {s₀ m : Market} {es : List MarketEvent} {call : Call}
  {job : ChatJob} {jobID : UUID}

/-- In every run from the seeded models, with any accepted creates and edits, a request
whose job has been created can be served where it is chargeable; and where its price terms
fit a word, or the platform converts what does not fit to the smallest word, it can be
served only then. -/
theorem chargeable_requests_are_callable {qwen code embed external : UUID}
    (hstart : (marketMachine P cfg).start s₀)
    (hseeds : s₀.db.catalog.models = seedModels qwen code embed external)
    (hsteps : (marketMachine P cfg).Steps Machine.anyStep s₀ es m)
    (hcall : call ∈ m.api.service.calls) (hphase : call.phase = .created job jobID) :
    (Chargeable job → Callable P cfg m.db call job jobID) ∧
      (Converts P job.inputTokens job.maxTokens job.model.inputCreditPer1K
          job.model.outputCreditPer1K →
        (Callable P cfg m.db call job jobID ↔ Chargeable job)) := by
  have hmodels : ∀ row ∈ s₀.db.catalog.models, Priced row := by
    rw [hseeds]
    exact priced_seedModels
  have hcurrent : Call.current call = some job := by rw [Call.current, hphase]
  obtain ⟨hvalid, hpriced⟩ :=
    ((sane_of_steps hstart hmodels hsteps).calls call hcall).current job hcurrent
  have hexact := (linked_of_reaches ⟨s₀, hstart, hsteps⟩).1.ledger
  have hcallable : Chargeable job → Callable P cfg m.db call job jobID := by
    intro hchargeable
    have hpos := reservedCredits_pos (P := P) hvalid hpriced hchargeable
    exact ⟨fun hrefused => refusedAsInvalid_iff.mp hrefused hpos,
      isDispatched_of_pos hexact hphase hpos⟩
  refine ⟨hcallable, fun hconverts => ⟨fun hserved => ?_, hcallable⟩⟩
  refine chargeable_of_pos hvalid hpriced hconverts ?_
  by_contra hnonpos
  exact hserved.1 (refusedAsInvalid_iff.mpr hnonpos)

end Contract

/-! ## Sample runs -/

/-- A market with the seeded models. -/
def seededMarket : Market where
  api := { service := { db := DB.seeded ⟨[], [], seedModels 31 32 33 34,
                          seedModelVersions 35 36 31 32, [], [], []⟩, calls := [] },
           network := .start }
  clock := 0
  disabling := []
  disabled := []

theorem start_seededMarket : (marketMachine samplePlatform sampleConfig).start seededMarket := by
  have hunique : Table.Unique ModelVersionRow.id (seedModelVersions 35 36 31 32) := by
    unfold Table.Unique
    decide
  exact ⟨⟨⟨_, _, hunique, rfl⟩, rfl⟩, rfl, rfl, rfl⟩

/-- The seeded market after some events. -/
def seededAfter (es : List MarketEvent) : Option Market :=
  Machine.exec (Market.next samplePlatform sampleConfig) (fun _ _ _ => true) seededMarket es

/-- What the statements of the sample request take from outside. -/
def qwenEnv : Env where
  newID := 7
  now := "20250101000000.000000000"
  route := some ⟨5, "prv_b", 24, 35, "qwen-7b-instruct"⟩

/-- The prices of a seeded model are edited; then a machine offers it, and a request for it
goes on until its job has been created. -/
def offerEvents (price : Int64) : List MarketEvent :=
  [.api (.service (.register 1 2 "usr_a" ⟨"a@example.com", "password", "Ada"⟩)),
    .request "usr_a" (.updateModel "mdl_qwen_7b"
      (AdminModelRequest.modelPatch { AdminModelRequest.empty with
        inputCreditPer1K := some price, outputCreditPer1K := some price })),
    .api (.service (.register 3 4 "usr_b" ⟨"b@example.com", "password", "Bob"⟩)),
    .api (.service (.createProvider 5 6 "prv_b" "pvn_provider_b" 3 "box")),
    .api (.connect 0 "pvn_provider_b"), .api (.network (.register 0)),
    .hello 0 24 "pin_b" (sampleHello "key-a"),
    .frame 0 (.modelList 25 "pma_a" [] (some ⟨35, 31, "ollama", "qwen-7b-instruct", .active⟩) ""
      "qwen-7b-instruct" "sha256:a"),
    .request "usr_a" (.setAdvertisementStatus "pma_a" "approved"),
    .request "usr_a" (.createProject 20 "prj_a" "chat" none),
    .request "usr_a" (.createAPIKey 21 "key_a" "pvn_live_a_b" "pvn_live_a" "prj_a" "laptop"),
    .api (.service (.arrive 0 "pvn_live_a_b" "req_a"
      (some ⟨"qwen-7b-instruct", [⟨"user", "hello"⟩], 50, none, false⟩)))] ++
  List.replicate 4 (.api (.service (.advance 0 qwenEnv)))

/-- The job of that request. -/
def qwenJob (price : Int64) : ChatJob where
  auth := ⟨1, 20, 21⟩
  request := ⟨"qwen-7b-instruct", [⟨"user", "hello"⟩], 50, none, false⟩
  model := { (seedModels 31 32 33 34).headD sampleModel with
    inputCreditPer1K := price, outputCreditPer1K := price }
  route := ⟨5, "prv_b", 24, 35, "qwen-7b-instruct"⟩
  publicID := "job_20250101000000.000000000"
  requestID := "req_a"

/-- A run of the seeded market. -/
theorem steps_of_seededAfter {es : List MarketEvent} {m : Market} (h : m ∈ seededAfter es) :
    (marketMachine samplePlatform sampleConfig).Steps Machine.anyStep seededMarket es m :=
  Machine.steps_of_exec (fun _ _ _ _ => trivial) h

/-- A request for a model with a price can be served. -/
theorem priced_request_is_callable :
    ∃ m ∈ seededAfter (offerEvents 5), ∃ call ∈ m.api.service.calls,
      call.phase = .created (qwenJob 5) 7 ∧ Chargeable (qwenJob 5) ∧
        Callable samplePlatform sampleConfig m.db call (qwenJob 5) 7 := by
  have hrun : ∃ m ∈ seededAfter (offerEvents 5), ∃ call ∈ m.api.service.calls,
      call.phase = .created (qwenJob 5) 7 := by
    decide +kernel
  obtain ⟨m, hm, call, hcall, hphase⟩ := hrun
  have hchargeable : Chargeable (qwenJob 5) := ⟨.inl (by decide), by decide +kernel⟩
  have hserved := (chargeable_requests_are_callable start_seededMarket rfl
    (steps_of_seededAfter hm) hcall hphase).1 hchargeable
  exact ⟨m, hm, call, hcall, hphase, hchargeable, hserved⟩

instance (db : DB) (userID : UUID) (amount : Int64) : Decidable (Affords db userID amount) :=
  inferInstanceAs (Decidable (∃ walletID ∈ db.walletOf (.user, userID),
    ∃ wallet ∈ db.wallet walletID, amount.toInt ≤ wallet.balanceCredits.toInt ∧
      wallet.reservedCredits.toInt + amount.toInt ≤ maxInt64))

/-- Prices of zero are accepted; a request for the model passes its checks, finds a route and
gets a job, its caller can afford it, and its reservation is refused as invalid input. -/
theorem free_request_is_refused :
    ∃ m ∈ seededAfter (offerEvents 0),
      (marketMachine samplePlatform sampleConfig).Steps Machine.anyStep seededMarket
        (offerEvents 0) m ∧
      (qwenJob 0).model ∈ m.db.catalog.models ∧ (qwenJob 0).model.status = .active ∧
      validate (some (qwenJob 0).request) = .ok (qwenJob 0).request ∧
      ∃ call ∈ m.api.service.calls, call.phase = .created (qwenJob 0) 7 ∧
        Affords m.db 1 ((qwenJob 0).reservedCredits samplePlatform) ∧
        RefusedAsInvalid samplePlatform m.db (qwenJob 0) ∧
        ¬ Callable samplePlatform sampleConfig m.db call (qwenJob 0) 7 := by
  have hrun : ∃ m ∈ seededAfter (offerEvents 0), (qwenJob 0).model ∈ m.db.catalog.models ∧
      validate (some (qwenJob 0).request) = .ok (qwenJob 0).request ∧
      ∃ call ∈ m.api.service.calls, call.phase = .created (qwenJob 0) 7 ∧
        Affords m.db 1 ((qwenJob 0).reservedCredits samplePlatform) := by
    decide +kernel
  have hzero : ¬ 0 < ((qwenJob 0).reservedCredits samplePlatform).toInt := by decide +kernel
  obtain ⟨m, hm, hmodel, hvalid, call, hcall, hphase, haffords⟩ := hrun
  have hrefused : RefusedAsInvalid samplePlatform m.db (qwenJob 0) := refusedAsInvalid_iff.mpr hzero
  exact ⟨m, hm, steps_of_seededAfter hm, hmodel, rfl, hvalid, call, hcall, hphase, haffords,
    hrefused, fun hserved => hserved.1 hrefused⟩

end Nuvonode.Contract
