/-
  Contract/Reservations.lean --- reservations balance over any number of calls.

  The runs are those of the service whose wallets' credits, free and reserved, fit
  `int64` in every state.  In such a run no release is refused, so every call that
  took a reservation returns it once, whichever way it ends.
-/
import Nuvonode.Handler.Invariant
import Nuvonode.Contract.Settlement

set_option autoImplicit false

namespace Nuvonode.Contract

open Nuvonode.Foundation Nuvonode.Database Nuvonode.Repository Nuvonode.Service Nuvonode.Handler
  Nuvonode.Ws

/-- The credits of every wallet, free and reserved, fit `int64`. -/
def CreditsFit (db : DB) : Prop :=
  ∀ wallet ∈ db.wallets, wallet.balanceCredits.toInt + wallet.reservedCredits.toInt ≤ maxInt64

instance (db : DB) : Decidable (CreditsFit db) :=
  inferInstanceAs (Decidable (∀ wallet ∈ db.wallets, _))

/-- What a call did to its reservation: it took none, or it took it and gave all of it
back once, by a release or by a settlement. -/
def SettledUp (db : DB) (call : Call) : Prop :=
  call.commits = [] ∨ ∃ jobID row walletID, call.jobID = some jobID ∧ db.job jobID = some row ∧
    (call.commits = [.reserve walletID row.reservedCredits,
        .release walletID row.reservedCredits] ∨
      ∃ input, call.commits = [.reserve walletID row.reservedCredits, .settle input] ∧
        input.userWalletID = walletID ∧ input.reservedCredits = row.reservedCredits)

/-! ## No release is refused -/

section Held

variable {P : Platform} {cfg : Config} {s : ChatService} {call : Call} {walletID : UUID}
  {amount : Int64}

/-- The balance that a release leaves fits a word. -/
theorem Held.fits {db : DB} {wallet : WalletRow} (hfits : CreditsFit db)
    (hfound : db.wallet walletID = some wallet)
    (hheld : amount.toInt ≤ wallet.reservedCredits.toInt) :
    wallet.balanceCredits.toInt + amount.toInt ≤ maxInt64 := by
  have hwallet := hfits wallet (Table.mem_of_select hfound).1
  omega

/-- A release of a held reservation fails only for a reason the ledger cannot store. -/
theorem Held.release_exec (h : Invariant P s) (hfits : CreditsFit s.db) (hcall : call ∈ s.calls)
    (hcommits : call.commits = [.reserve walletID amount]) (reason : String) :
    ∃ db, (release walletID amount reason).exec s.db =
      if storable reason then .ok ((), db) else .error .invalidText := by
  obtain ⟨hpos, wallet, hfound, hheld⟩ := h.held hcall hcommits
  exact ⟨_, exec_release h.ledger hfound hpos hheld (Held.fits hfits hfound hheld)⟩

theorem Held.release_not_refused (h : Invariant P s) (hfits : CreditsFit s.db)
    (hcall : call ∈ s.calls) (hcommits : call.commits = [.reserve walletID amount])
    (reason : String) :
    (release walletID amount reason).exec s.db ≠ .error .insufficientCredits := by
  obtain ⟨db, hexec⟩ := Held.release_exec h hfits hcall hcommits reason
  rw [hexec]
  split <;> simp

/-- A settlement of a held reservation is not refused for want of credits. -/
theorem Held.settlement_not_refused (h : Invariant P s) (hfits : CreditsFit s.db)
    (hcall : call ∈ s.calls) (hcommits : call.commits = [.reserve walletID amount])
    {input : UsageSettlement} (hwallet : input.userWalletID = walletID)
    (hamount : input.reservedCredits = amount)
    (hreward : 0 ≤ input.providerRewardCredits.toInt)
    (hcost : input.providerRewardCredits.toInt ≤ input.actualCostCredits.toInt)
    (hreserved : input.actualCostCredits.toInt ≤ input.reservedCredits.toInt) :
    (finalizeUsage input).exec s.db ≠ .error .insufficientCredits := by
  obtain ⟨-, wallet, hfound, hheld⟩ := h.held hcall hcommits
  have hbalance := Held.fits hfits hfound hheld
  subst hwallet hamount
  have hcovered : Covered s.db input :=
    ⟨hreward, hreward.trans hcost, hreserved, wallet, hfound, hheld, hbalance, by omega⟩
  exact hcovered.not_refused h.ledger

end Held

/-! ## Every reservation is returned -/

/-- A call past its release no longer holds its reservation. -/
def Returned (call : Call) : Prop :=
  match call.phase with
  | .released .. | .done _ => ∀ walletID amount, call.commits ≠ [.reserve walletID amount]
  | _ => True

section Returning

variable {P : Platform} {cfg : Config} {s s' : ChatService} {call call' : Call} {db : DB}

theorem Returned.of_nil {phase : Phase} (h : call.commits = []) : Returned (call.goto phase) := by
  have hne : ∀ walletID amount, call.commits ≠ [.reserve walletID amount] := by
    intro walletID amount
    rw [h]
    exact nofun
  cases phase <;> first | exact trivial | exact hne

theorem Returned.step (h : Invariant P s) (hfits : CreditsFit s.db) (hcall : call ∈ s.calls)
    (hreturned : Returned call) (hstep : Transition P s.db call db call') : Returned call' := by
  have hinv := h.calls call hcall
  -- The two steps that would keep a reservation do not happen.
  have hkeeps : ∀ {walletID : UUID} {amount : Int64} {reason : String} {e : Err} {p : Prop},
      call.commits = [.reserve walletID amount] → storable reason = true →
      (release walletID amount reason).exec s.db = .error e → p := by
    intro walletID amount reason e p hcommits hreason hrefused
    obtain ⟨db, hexec⟩ := Held.release_exec h hfits hcall hcommits reason
    rw [hexec, hreason] at hrefused
    cases hrefused
  cases hstep with
  | search hsearching _ => exact .of_nil ((callInv_of_searching hsearching).mp hinv).2
  | release hphase _ =>
      simp only [CallInv, hphase] at hinv
      intro walletID amount
      simp [Call.committed, Call.goto, hinv.2.1]
  | keep hphase hrefused =>
      simp only [CallInv, hphase] at hinv
      exact hkeeps hinv.2.1 hinv.2.2.2.reason hrefused
  | recordRefusal hphase =>
      simp only [CallInv, hphase] at hinv
      exact .of_nil hinv.2.1
  | recordFailure hphase =>
      simp only [Returned, hphase] at hreturned
      exact hreturned
  | settle hphase _ =>
      simp only [CallInv, hphase] at hinv
      intro walletID amount
      simp [Call.committed, Call.goto, hinv.2.1]
  | returnCredits hphase _ =>
      simp only [CallInv, hphase] at hinv
      intro walletID amount
      simp [Call.committed, Call.goto, hinv.2.1]
  | keepCredits hphase hrefused =>
      simp only [CallInv, hphase] at hinv
      exact hkeeps hinv.2.1 (by decide) hrefused
  | _ => exact trivial

/-- A finished call that holds nothing is settled up. -/
theorem settledUp_of_returned (h : CallInv P s.db call) {response : Response}
    (hdone : call.phase = .done response) (hreturned : Returned call) : SettledUp s.db call := by
  simp only [CallInv, hdone] at h
  simp only [Returned, hdone] at hreturned
  cases hjobID : call.jobID with
  | none =>
      simp only [hjobID] at h
      exact .inl h.1
  | some jobID =>
      simp only [hjobID] at h
      cases h with
      | failed hrow _ _ hshape =>
          rcases hshape with hnil | ⟨-, walletID, hone | htwo⟩
          · exact .inl hnil
          · exact absurd hone (hreturned _ _)
          · exact .inr ⟨jobID, _, walletID, hjobID, hrow, .inl htwo⟩
      | settled input hrow _ _ _ htwo hamount =>
          exact .inr ⟨jobID, _, _, hjobID, hrow, .inr ⟨input, htwo, rfl, hamount⟩⟩

/-- The guard: the credits of every wallet still fit `int64` after the step. -/
def StaysFitting (_ : ChatService) (_ : ServiceEvent) (s' : ChatService) : Prop := CreditsFit s'.db

/-- In a run whose credits fit, every call past its release has returned its reservation. -/
theorem returned_of_reaches {es : List ServiceEvent}
    (hreach : (chatMachine P cfg).Reaches StaysFitting es s) :
    Invariant P s ∧ CreditsFit s.db ∧ ∀ call ∈ s.calls, Returned call := by
  refine hreach.invariant
    (fun s => Invariant P s ∧ CreditsFit s.db ∧ ∀ call ∈ s.calls, Returned call) ?_ ?_
  · rintro s ⟨hfresh, hcalls⟩
    refine ⟨.start hfresh hcalls, ?_, by simp [hcalls]⟩
    obtain ⟨catalog, hdb⟩ := hfresh
    rw [hdb]
    simp [CreditsFit, DB.seeded]
  · rintro s e s' ⟨hinv, hfits, hreturned⟩ hnext hguard
    refine ⟨hinv.step hnext, hguard, ?_⟩
    cases kind_of_next hnext with
    | background _ => exact hreturned
    | arrive _ =>
        intro call hcall
        rcases List.mem_append.mp hcall with hold | hnew
        · exact hreturned call hold
        · rw [List.mem_singleton.mp hnew]
          exact trivial
    | call hcall hstepped =>
        intro new hnew
        rcases ChatService.mem_put hnew with rfl | ⟨hold, -⟩
        · have hmem := (Table.mem_of_select hcall).1
          exact .step hinv hfits hmem (hreturned _ hmem) hstepped.transition
        · exact hreturned new hold

end Returning

/-- In every state of every interleaving of chat requests, registrations and adjustments
whose credits fit `int64`, the reserved column of a wallet is the sum of the reservations
in flight; a finished call has settled up; and neither a release nor a covered settlement
of a reservation in flight is refused for want of credits. -/
theorem reservations_balance (P : Platform) (cfg : Config) {es : List ServiceEvent}
    {s : ChatService} (hreach : (chatMachine P cfg).Reaches StaysFitting es s) :
    (∀ wallet ∈ s.db.wallets, wallet.reservedCredits.toInt =
        Table.total (Call.holds wallet.id) s.calls) ∧
      (∀ call ∈ s.calls, ∀ response, call.phase = .done response → SettledUp s.db call) ∧
      (∀ call ∈ s.calls, ∀ walletID amount, call.commits = [.reserve walletID amount] →
        (∃ jobID row, call.jobID = some jobID ∧ s.db.job jobID = some row ∧
          row.reservedCredits = amount) ∧
        (∀ reason, (release walletID amount reason).exec s.db ≠ .error .insufficientCredits) ∧
        ∀ input, input.userWalletID = walletID → input.reservedCredits = amount →
          0 ≤ input.providerRewardCredits.toInt →
          input.providerRewardCredits.toInt ≤ input.actualCostCredits.toInt →
          input.actualCostCredits.toInt ≤ input.reservedCredits.toInt →
          (finalizeUsage input).exec s.db ≠ .error .insufficientCredits) ∧
      (∀ wallet ∈ s.db.wallets,
        (∀ call ∈ s.calls, ∀ amount, call.commits ≠ [.reserve wallet.id amount]) →
          wallet.reservedCredits = 0) := by
  obtain ⟨hinv, hfits, hreturned⟩ := returned_of_reaches hreach
  have hcolumn : ∀ wallet ∈ s.db.wallets, wallet.reservedCredits.toInt =
      Table.total (Call.holds wallet.id) s.calls := by
    intro wallet hwallet
    have hselect : s.db.wallet wallet.id = some wallet :=
      Table.select_of_mem hinv.ledger.unique hwallet
    rw [← hinv.reserved, reservedOf, hselect]
    rfl
  refine ⟨hcolumn, fun call hcall response hdone =>
    settledUp_of_returned (hinv.calls call hcall) hdone (hreturned call hcall), ?_, ?_⟩
  · intro call hcall walletID amount hcommits
    exact ⟨((hinv.calls call hcall).reservation hcommits).2,
      Held.release_not_refused hinv hfits hcall hcommits,
      fun input hwallet hamount hreward hcost hreserved =>
        Held.settlement_not_refused hinv hfits hcall hcommits hwallet hamount hreward hcost
          hreserved⟩
  · intro wallet hwallet hnone
    have hzero : Table.total (Call.holds wallet.id) s.calls = 0 := by
      have hcongr : Table.total (Call.holds wallet.id) s.calls =
          Table.total (fun _ : Call => (0 : ℤ)) s.calls := by
        refine Table.total_congr fun call hcall => ?_
        unfold Call.holds
        split
        · rename_i reservedIn amount hcommits
          have hne : wallet.id ≠ reservedIn := by
            rintro rfl
            exact hnone call hcall amount hcommits
          exact if_neg hne
        · rfl
      rw [hcongr]
      simp [Table.total]
    rw [← hcolumn wallet hwallet] at hzero
    exact Int64.toInt_inj.mp hzero

/-! ## A sample run -/

/-- The catalog of the sample run: one project with a key, and one model that one
instance of a provider runs. -/
def chatCatalog : Catalog :=
  { sampleCatalog with
    apiKeys := [⟨21, "key_a", 20, "laptop", "pvn_live_a",
      "hash of change_me_dev_onlypvn_live_a_b", .active, none, none⟩]
    advertisements :=
      [⟨25, "pma_a", 5, 24, some 22, some 23, "ollama", "llama3:8b", "sha256:a", .approved⟩] }

/-- The temperature 0.7. -/
def sampleTemperature : FiniteFloat := ⟨0x3FE6666666666666#64, by decide⟩

/-- A fresh service whose catalog has no instance yet. -/
def freshService : ChatService where
  db := DB.seeded { chatCatalog with instances := [], advertisements := [] }
  calls := []

/-- What the sample call takes from outside. -/
def sampleEnv : Env where
  newID := 7
  now := "20250101000000.000000000"
  route := some ⟨5, "prv_b", 24, 23, "llama3:8b"⟩

/-- Two users register, one of them brings a provider, and the other sends a request,
which is dispatched. -/
def dispatchEvents : List ServiceEvent :=
  [.register 1 2 "usr_a" ⟨"a@example.com", "password", "Ada"⟩,
    .register 3 4 "usr_b" ⟨"b@example.com", "password", "Bob"⟩,
    .createProvider 5 6 "prv_b" "pvn_provider_b" 3 "box",
    .changeCatalog chatCatalog,
    .arrive 0 "pvn_live_a_b" "req_a"
      (some ⟨"llama", [⟨"user", "hello"⟩], 50, some sampleTemperature, false⟩)] ++
  List.replicate 6 (.advance 0 sampleEnv)

/-- The provider answers, and the call settles. -/
def settleEvents : List ServiceEvent :=
  [.deliver 0 (.ok (.jobResult "job_20250101000000.000000000" "hi there" "stop" none 900)),
    .advance 0 sampleEnv]

/-- Run the sample service, as long as the credits fit. -/
def runSample (s : ChatService) (es : List ServiceEvent) : Option ChatService :=
  Machine.exec (next samplePlatform sampleConfig) (fun _ _ s' => decide (CreditsFit s'.db)) s es

/-- The sample service after some events. -/
def sampleAfter (es : List ServiceEvent) : ChatService :=
  (runSample freshService es).getD freshService

theorem reaches_sampleAfter {es : List ServiceEvent} (h : (runSample freshService es).isSome) :
    (chatMachine samplePlatform sampleConfig).Reaches StaysFitting es (sampleAfter es) := by
  obtain ⟨s, hs⟩ := Option.isSome_iff_exists.mp h
  have hsteps : (chatMachine samplePlatform sampleConfig).Steps StaysFitting freshService es s :=
    Machine.steps_of_exec (fun _ _ s' hfits => of_decide_eq_true (p := CreditsFit s'.db) hfits) hs
  rw [sampleAfter, hs]
  exact ⟨freshService, ⟨⟨_, rfl⟩, rfl⟩, hsteps⟩

/-- While the sample call is dispatched its 52 credits are the reserved column of its
wallet, and when it is done it has settled up. -/
theorem sample_reservations_balance :
    (sampleAfter dispatchEvents).db.wallet 2 = some ⟨2, .user, 1, 9948, 52⟩ ∧
      (∀ wallet ∈ (sampleAfter dispatchEvents).db.wallets, wallet.reservedCredits.toInt =
        Table.total (Call.holds wallet.id) (sampleAfter dispatchEvents).calls) ∧
      ∀ call ∈ (sampleAfter (dispatchEvents ++ settleEvents)).calls, ∀ response,
        call.phase = .done response →
          SettledUp (sampleAfter (dispatchEvents ++ settleEvents)).db call := by
  have hdispatched : (runSample freshService dispatchEvents).isSome := by decide +kernel
  have hsettled : (runSample freshService (dispatchEvents ++ settleEvents)).isSome := by
    decide +kernel
  exact ⟨by decide +kernel,
    (reservations_balance samplePlatform sampleConfig (reaches_sampleAfter hdispatched)).1,
    (reservations_balance samplePlatform sampleConfig (reaches_sampleAfter hsettled)).2.1⟩

end Nuvonode.Contract
