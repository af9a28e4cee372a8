/-
  Handler/Credits.lean --- the credits of the server are an escrow.

  The wallets are its accounts, a job is the id of a hold, and what a request commits is an
  operation.  Registrations and adjustments put credits in or take them out.  The ledger is
  what the escrow writes down, line by line.
-/
import Nuvonode.Foundation.Escrow
import Nuvonode.Handler.Registration

set_option autoImplicit false

namespace Nuvonode.Handler

open Nuvonode.Foundation Nuvonode.Database Nuvonode.Repository Nuvonode.Service Nuvonode.Ws

/-! ## Entries as lines -/

/-- Wallets as accounts, jobs as holds, and the entries that fund a wallet as sources. -/
abbrev CreditOp := EscrowOp UUID UUID EntryType ℤ

abbrev creditMachine : Machine (Escrow UUID UUID ℤ) CreditOp := escrowMachine UUID UUID EntryType ℤ

/-- What an entry is about. -/
def lineKind : EntryType → LineKind EntryType
  | .reserve => .reserved
  | .releaseReserve => .released
  | .debitUsage => .charged
  | .creditProviderReward => .rewarded
  | entryType => .funded entryType

/-- An entry of the ledger as a line. -/
def lineOf (row : LedgerRow) : Line UUID EntryType ℤ :=
  ⟨row.walletID, lineKind row.entryType, row.amountCredits.toInt, row.reservedDelta.toInt⟩

/-- The ledger as lines. -/
def ledgerLines (db : DB) : List (Line UUID EntryType ℤ) := db.walletLedger.map lineOf

/-- What a commit of a request is to the hold of its job. -/
def Commit.op (jobID : UUID) : Commit → CreditOp
  | .reserve walletID amount => .take jobID walletID amount.toInt
  | .release walletID amount => .giveBack jobID walletID amount.toInt
  | .settle input => .charge jobID input.userWalletID input.reservedCredits.toInt
      input.actualCostCredits.toInt input.providerRewardCredits.toInt

@[simp] theorem Commit.hold_op (jobID : UUID) (commit : Commit) :
    (commit.op jobID).hold = some jobID := by
  cases commit <;> rfl

/-- The free column of a wallet, zero where there is no such wallet. -/
def balanceOf (db : DB) (walletID : UUID) : ℤ :=
  ((db.wallet walletID).map fun row => row.balanceCredits.toInt).getD 0

section Lines

variable {db db' : DB} {walletID : UUID} {entryType : EntryType} {amount reservedDelta : Int64}
  {reason : String} {createdBy : Option UUID} {c : Prop}

theorem lineSum_ledgerLines (db : DB) (walletID : UUID) :
    lineSum Line.amount walletID (ledgerLines db) =
        ledgerSum LedgerRow.amountCredits db.walletLedger walletID ∧
      lineSum Line.reserved walletID (ledgerLines db) =
        ledgerSum LedgerRow.reservedDelta db.walletLedger walletID := by
  simp only [lineSum, ledgerLines, ledgerSum, Table.total, List.map_map]
  exact ⟨rfl, rfl⟩

/-- The columns of a wallet are the sums of its lines. -/
theorem columns_eq_lineSum (h : LedgerExact db) (walletID : UUID) :
    balanceOf db walletID = lineSum Line.amount walletID (ledgerLines db) ∧
      reservedOf db walletID = lineSum Line.reserved walletID (ledgerLines db) ∧
      0 ≤ balanceOf db walletID := by
  obtain ⟨hamount, hreserved⟩ := lineSum_ledgerLines db walletID
  rw [hamount, hreserved, balanceOf, reservedOf]
  cases hwallet : db.wallet walletID with
  | none =>
      have hnone : ∀ row ∈ db.walletLedger, row.walletID ≠ walletID := by
        rintro row hrow rfl
        have hsome := h.owned row hrow
        rw [hwallet] at hsome
        cases hsome
      exact ⟨(ledgerSum_eq_zero hnone).symm, (ledgerSum_eq_zero hnone).symm, le_refl 0⟩
  | some wallet =>
      obtain ⟨rfl, hexact⟩ := h.exact_of_wallet hwallet
      exact ⟨hexact.balance, hexact.reserved, hexact.balanceRange.1⟩

/-- An entry is one more line. -/
theorem Posted.lines
    (h : Posted walletID entryType amount reservedDelta reason createdBy db db') :
    ledgerLines db' = ledgerLines db ++
      [⟨walletID, lineKind entryType, amount.toInt, reservedDelta.toInt⟩] := by
  obtain ⟨wallet, hfound, -, -, rfl⟩ := h
  obtain rfl : wallet.id = walletID := (Table.mem_of_select hfound).2
  exact List.map_append

theorem PostedIf.lines [Decidable c]
    (h : PostedIf c walletID entryType amount reservedDelta reason db db') :
    ledgerLines db' = ledgerLines db ++
      if c then [⟨walletID, lineKind entryType, amount.toInt, reservedDelta.toInt⟩] else [] := by
  rcases h with ⟨hc, hposted⟩ | ⟨hc, rfl⟩
  · rw [if_pos hc, Posted.lines hposted]
  · rw [if_neg hc, List.append_nil]

/-- A settlement writes the lines of a charge. -/
theorem Settled.lines {input : UsageSettlement} (h : Settled input db db')
    (hreserved : 0 < input.reservedCredits.toInt) (jobID : UUID) :
    ledgerLines db' = ledgerLines db ++ ((Commit.settle input).op jobID).lines := by
  obtain ⟨-, hcost, -⟩ := h.amounts
  obtain ⟨db₁, db₂, db₃, source, stats, h₁, h₂, h₃, -, -, rfl⟩ := h.effect
  have hsame : ledgerLines (settle input source stats db₃) = ledgerLines db₃ := rfl
  have hzero : (0 : Int64).toInt = 0 := rfl
  rw [hsame, PostedIf.lines h₃, PostedIf.lines h₂, PostedIf.lines h₁,
    if_pos (pos_iff.mpr hreserved), toInt_neg_of_nonneg hreserved.le, toInt_neg_of_nonneg hcost,
    hzero]
  simp only [Commit.op, EscrowOp.lines, pos_iff, List.append_assoc, lineKind]

end Lines

/-! ## What a step writes down -/

/-- Nothing is written down, or that a wallet is funded. -/
inductive Entered (db db' : DB) : Prop where
  | nothing : db'.walletLedger = db.walletLedger → Entered db db'
  | funded (source : EntryType) (walletID : UUID) (amount : ℤ) :
      ledgerLines db' = ledgerLines db ++ [⟨walletID, .funded source, amount, 0⟩] → Entered db db'

/-- What a request may commit after what it has committed. -/
inductive MayCommit : List Commit → Commit → Prop where
  | reserve {walletID : UUID} {amount : Int64} : 0 < amount.toInt →
      MayCommit [] (.reserve walletID amount)
  | release {walletID : UUID} {amount : Int64} :
      MayCommit [.reserve walletID amount] (.release walletID amount)
  | settle {input : UsageSettlement} : 0 ≤ input.actualCostCredits.toInt →
      input.actualCostCredits.toInt ≤ input.reservedCredits.toInt →
      0 ≤ input.providerRewardCredits.toInt →
      MayCommit [.reserve input.userWalletID input.reservedCredits] (.settle input)

/-- What a request writes down in one step: nothing, or what it commits. -/
inductive Wrote (db : DB) (call : Call) (db' : DB) (call' : Call) : Prop where
  | nothing : db'.walletLedger = db.walletLedger → call'.commits = call.commits →
      Wrote db call db' call'
  | commit (jobID : UUID) (commit : Commit) : call.jobID = some jobID →
      call'.jobID = some jobID → MayCommit call.commits commit →
      call'.commits = call.commits ++ [commit] →
      ledgerLines db' = ledgerLines db ++ (commit.op jobID).lines → Wrote db call db' call'

section Writing

variable {P : Platform} {cfg : Config} {db db' : DB} {call call' : Call}

/-- A statement of a request writes down what it commits. -/
theorem Transition.wrote (h : Transition P db call db' call') (hinv : CallInv P db call) :
    Wrote db call db' call' := by
  have hfailed : ∀ {jobID : UUID} {code message : String},
      (afterwards (markJobFailed jobID .failed code message) db).walletLedger =
        db.walletLedger := by
    intro jobID code message
    rcases afterwards_markJobFailed db jobID with hsame | ⟨-, stats, hfailed⟩
    · rw [hsame]
    · rw [hfailed]
      rfl
  have hzero : (0 : Int64).toInt = 0 := rfl
  cases h with
  | reserve hphase hpos hwallet hposted =>
      simp only [CallInv, hphase] at hinv
      obtain ⟨hjobID, hcommits, -⟩ := hinv
      refine .commit _ _ hjobID hjobID ?_ rfl ?_
      · rw [hcommits]
        exact .reserve hpos
      · rw [Posted.lines hposted, toInt_neg_of_nonneg hpos.le]
        rfl
  | release hphase hposted =>
      simp only [CallInv, hphase] at hinv
      obtain ⟨hjobID, hcommits, hreserved, -⟩ := hinv
      refine .commit _ _ hjobID hjobID ?_ rfl ?_
      · rw [hcommits]
        exact .release
      · rw [Posted.lines hposted, toInt_neg_of_nonneg hreserved.positive.le]
        rfl
  | returnCredits hphase hposted =>
      simp only [CallInv, hphase] at hinv
      obtain ⟨hjobID, hcommits, hreserved⟩ := hinv
      refine .commit _ _ hjobID hjobID ?_ rfl ?_
      · rw [hcommits]
        exact .release
      · rw [Posted.lines hposted, toInt_neg_of_nonneg hreserved.positive.le]
        rfl
  | @settle job jobID walletID result _ hphase hsettled =>
      simp only [CallInv, hphase] at hinv
      obtain ⟨hjobID, hcommits, hreserved⟩ := hinv
      obtain ⟨-, hcost, hreward⟩ := hsettled.amounts
      refine .commit _ _ hjobID hjobID ?_ rfl (Settled.lines hsettled hreserved.positive _)
      rw [hcommits]
      exact @MayCommit.settle (job.settlement P walletID jobID result) hcost
        (ChatJob.actualCost_le P job result) hreward
  | recordRefusal => exact .nothing hfailed rfl
  | recordFailure => exact .nothing hfailed rfl
  | _ => exact .nothing rfl rfl

variable {s s' : ChatService} {e : ServiceEvent}

/-- What a step of the requests can be. -/
inductive CreditStep (P : Platform) (s : ChatService) : ChatService → Prop where
  | background {db : DB} : Background s.db db → Entered s.db db → CreditStep P s (s.on db)
  | arrive {id : Nat} {bearer requestID : String} {body : Option ChatRequest} :
      CreditStep P s { s with calls := Table.insert s.calls (.arrived id bearer requestID body) }
  | call {call call' : Call} {db : DB} : s.call call.id = some call →
      Transition P s.db call db call' → CreditStep P s (s.put db call')

/-- A transaction writes down what it returns with, or nothing. -/
theorem entered_afterwards {α : Type} {p : Sql α}
    (h : ∀ r db', p.exec db = .ok (r, db') → Entered db db') : Entered db (afterwards p db) := by
  unfold afterwards
  split
  · rename_i hexec
    exact h _ _ hexec
  · exact .nothing rfl

theorem entered_register {userID walletID : UUID} {publicID : String} {input : RegisterInput} :
    Entered db (afterwards (register P cfg userID walletID publicID input) db) := by
  refine entered_afterwards fun r db' hexec => ?_
  obtain ⟨ws, hyields, rfl⟩ := yields_of_exec hexec
  obtain ⟨-, -, hposted⟩ := yields_register hyields
  exact .funded .grant walletID cfg.startingFreeCredits.toInt (Posted.lines hposted)

theorem entered_createProviderAccount {providerID walletID ownerUserID : UUID}
    {publicID token name : String} : Entered db (afterwards
      (createProviderAccount P cfg providerID walletID publicID token ownerUserID name) db) := by
  obtain ⟨providers, wallets, hdb⟩ := afterwards_createProviderAccount P cfg db providerID
    walletID ownerUserID publicID token name
  have hledger := congrArg DB.walletLedger hdb
  exact .nothing hledger

theorem entered_adminAdjust {actorUserID : UUID} {target reason : String} {amount : Int64} :
    Entered db (afterwards (adminAdjust actorUserID target amount reason) db) := by
  refine entered_afterwards fun r db' hexec => ?_
  obtain ⟨ws, hyields, rfl⟩ := yields_of_exec hexec
  obtain ⟨walletID, db₁, row, hposted, hresult⟩ := yields_adminAdjust hyields
  refine .funded .adminAdjustment walletID amount.toInt ?_
  rw [hresult]
  exact Posted.lines hposted

theorem creditStep_of_next (hlocal : elsewhere (.service e) = false)
    (h : Handler.next P cfg s e = some s') : CreditStep P s s' := by
  cases e with
  | register userID walletID publicID input =>
      cases h
      exact .background (background_afterwards fun _ _ => background_register) entered_register
  | createProvider providerID walletID publicID token ownerUserID name =>
      cases h
      exact .background (background_afterwards fun _ _ => background_createProviderAccount)
        entered_createProviderAccount
  | adminAdjust actorUserID target amount reason =>
      cases h
      exact .background (background_afterwards fun _ _ => background_adminAdjust)
        entered_adminAdjust
  | setApproval _ _ _ | disableProvider _ _ | changeCatalog _ => cases hlocal
  | arrive id bearer requestID body =>
      simp only [Handler.next] at h
      split at h
      · cases h
        exact .arrive
      · cases h
  | advance id env =>
      obtain ⟨call, hcall, h⟩ := Option.bind_eq_some_iff.mp h
      obtain ⟨⟨db, call'⟩, hadvance, h⟩ := Option.bind_eq_some_iff.mp h
      cases h
      obtain rfl : call.id = id := (Table.mem_of_select hcall).2
      exact .call hcall (transition_of_advance hadvance)
  | deliver id outcome =>
      obtain ⟨call, hcall, h⟩ := Option.bind_eq_some_iff.mp h
      obtain ⟨call', hdeliver, h⟩ := Option.bind_eq_some_iff.mp h
      cases h
      obtain rfl : call.id = id := (Table.mem_of_select hcall).2
      exact .call hcall (transition_of_deliver hdeliver)

variable {m m' : Market} {e' : MarketEvent}

/-- A step that registers something writes nothing down. -/
theorem creditStep_of_registers {now : Nat} {facts : List Fact}
    (h : Registers now s.db facts db') : CreditStep P s (s.on db') := by
  refine .background (background_of_registers h) (.nothing ?_)
  rw [h.others]

/-- A step of the market is such a step of its requests. -/
theorem Market.Step.credits (h : m.Step P cfg e' m') :
    CreditStep P m.api.service m'.api.service := by
  have hsame : CreditStep P m.api.service m.api.service :=
    .background (.refl _) (.nothing rfl)
  cases h with
  | api hlocal hstep =>
      cases hstep with
      | service _ hnext => exact creditStep_of_next hlocal hnext
      | deliver _ _ hnext => exact creditStep_of_next rfl hnext
      | hello _ _ _ _ | refuseHello _ => cases hlocal
      | _ => exact hsame
  | hello hstep =>
      cases hstep with
      | refuseHello _ => exact hsame
      | hello _ hupsert _ _ =>
          have hregisters : Registers m.clock m.db [_] _ := (registers_upsertInstance hupsert).1
          exact creditStep_of_registers hregisters
  | frame _ _ _ hpossible hrun => exact creditStep_of_registers (registers_frame hpossible hrun)
  | @request _ _ r _ _ hrun =>
      have hstep : CreditStep P m.api.service (m.api.service.on _) :=
        creditStep_of_registers (registers_request hrun)
      cases r <;> exact hstep
  | @useKey apiKeyID =>
      have hregisters : Registers m.clock m.api.service.db [] (useAPIKey m.clock apiKeyID m.db) :=
        registers_useAPIKey apiKeyID
      exact creditStep_of_registers hregisters
  | @sweep now _ =>
      have hregisters : Registers m.clock m.api.service.db [] (markOfflineTimedOut cfg now m.db) :=
        registers_markStale _
      exact creditStep_of_registers hregisters
  | _ => exact hsame

end Writing

/-! ## The simulation -/

/-- The operations are what the ledger and the requests say. -/
structure Booked (s : ChatService) (ops : List CreditOp) : Prop where
  ledger : ledgerLines s.db = ops.flatMap EscrowOp.lines
  requests : ∀ call ∈ s.calls, ∀ jobID, call.jobID = some jobID →
    about jobID ops = call.commits.map (Commit.op jobID)
  jobs : ∀ op ∈ ops, ∀ jobID, op.hold = some jobID →
    ∃ call ∈ s.calls, call.jobID = some jobID

section Simulation

variable {P : Platform} {s s' : ChatService} {ops : List CreditOp} {b : Escrow UUID UUID ℤ}

theorem Booked.start (hfresh : Fresh s.db) (hcalls : s.calls = []) : Booked s [] := by
  obtain ⟨catalog, hdb⟩ := hfresh
  refine ⟨by rw [hdb]; rfl, ?_, ?_⟩
  · rw [hcalls]
    intro call hcall
    cases hcall
  · intro op hop
    cases hop

/-- The accounts of the escrow are the columns of the wallets. -/
theorem Booked.columns (h : Booked s ops) (hexact : LedgerExact s.db)
    (hreach : creditMachine.Reaches Machine.anyStep ops b) (walletID : UUID) :
    b.balance walletID = balanceOf s.db walletID ∧
      b.reserved walletID = reservedOf s.db walletID := by
  obtain ⟨hbalance, hreserved⟩ := Escrow.replay hreach walletID
  obtain ⟨hbalance', hreserved', -⟩ := columns_eq_lineSum hexact walletID
  rw [hbalance, hreserved, hbalance', hreserved', h.ledger]
  exact ⟨rfl, rfl⟩

/-- A line that the ledger could take overdraws no account. -/
theorem Booked.covers (h : Booked s ops) {db : DB} (hexact : LedgerExact db)
    (hreach : creditMachine.Reaches Machine.anyStep ops b) {walletID : UUID}
    {kind : LineKind EntryType} {amount reserved : ℤ}
    (hlines : ledgerLines db = ledgerLines s.db ++ [⟨walletID, kind, amount, reserved⟩]) :
    0 ≤ b.balance walletID + amount := by
  obtain ⟨hbalance, -⟩ := Escrow.replay hreach walletID
  obtain ⟨hbalance', -, hnonneg⟩ := columns_eq_lineSum hexact walletID
  have hsum : lineSum Line.amount walletID (ledgerLines db) = b.balance walletID + amount := by
    rw [hlines, lineSum_append, h.ledger, ← hbalance]
    simp [lineSum]
  rw [← hsum, ← hbalance']
  exact hnonneg

/-- One more operation that the escrow allows. -/
theorem exists_snoc (hreach : creditMachine.Reaches Machine.anyStep ops b) (op : CreditOp)
    (hallowed : b.allows op) : ∃ b', creditMachine.Reaches Machine.anyStep (ops ++ [op]) b' :=
  ⟨_, hreach.snoc (Escrow.next_eq_some_iff.mpr ⟨hallowed, rfl⟩) trivial⟩

/-- What a request commits is an operation that the escrow allows. -/
theorem Booked.allows (h : Booked s ops) {db : DB} (hexact : LedgerExact db)
    (hreach : creditMachine.Reaches Machine.anyStep ops b) {call : Call} (hcall : call ∈ s.calls)
    {jobID : UUID} (hjobID : call.jobID = some jobID) {commit : Commit}
    (hfits : MayCommit call.commits commit)
    (hlines : ledgerLines db = ledgerLines s.db ++ (commit.op jobID).lines) :
    b.allows (commit.op jobID) := by
  obtain ⟨-, hhold⟩ := Escrow.life hreach jobID
  rw [h.requests call hcall jobID hjobID] at hhold
  generalize call.commits = commits at hfits hhold
  cases hfits with
  | @reserve walletID amount hpos =>
      have hcovers : 0 ≤ b.balance walletID + -amount.toInt := h.covers hexact hreach hlines
      exact ⟨hhold, hpos, by omega⟩
  | release => exact hhold
  | settle hcost hcovered hreward => exact ⟨hhold, hcost, hcovered, hreward⟩

/-- A background step is a funding, or nothing. -/
theorem Booked.background (h : Booked s ops) {db : DB} (hexact : LedgerExact db)
    (hreach : creditMachine.Reaches Machine.anyStep ops b) (hentered : Entered s.db db) :
    ∃ done b', done.length ≤ 1 ∧ creditMachine.Reaches Machine.anyStep (ops ++ done) b' ∧
      Booked (s.on db) (ops ++ done) := by
  cases hentered with
  | nothing hledger =>
      refine ⟨[], b, Nat.zero_le 1, by rwa [List.append_nil], ?_⟩
      rw [List.append_nil]
      exact ⟨(congrArg (List.map lineOf) hledger).trans h.ledger, h.requests, h.jobs⟩
  | funded source walletID amount hlines =>
      obtain ⟨b', hreach'⟩ := exists_snoc hreach (.fund source walletID amount)
        (h.covers hexact hreach hlines)
      refine ⟨_, b', le_refl 1, hreach', ?_, ?_, ?_⟩
      · rw [List.flatMap_append, ← h.ledger]
        exact hlines
      · intro call hcall jobID hjobID
        rw [about_snoc, if_neg (fun hhold => by cases hhold), List.append_nil]
        exact h.requests call hcall jobID hjobID
      · intro op hop jobID hhold
        rcases List.mem_append.mp hop with hold | hnew
        · exact h.jobs op hold jobID hhold
        · rw [List.mem_singleton.mp hnew] at hhold
          cases hhold

/-- A request that arrives has written nothing down. -/
theorem Booked.arrive (h : Booked s ops) {id : Nat} {bearer requestID : String}
    {body : Option ChatRequest} :
    Booked { s with calls := Table.insert s.calls (.arrived id bearer requestID body) } ops where
  ledger := h.ledger
  requests := by
    intro call hcall jobID hjobID
    rcases List.mem_append.mp hcall with hold | hnew
    · exact h.requests call hold jobID hjobID
    · rw [List.mem_singleton.mp hnew] at hjobID
      cases hjobID
  jobs := by
    intro op hop jobID hhold
    obtain ⟨call, hcall, hjobID⟩ := h.jobs op hop jobID hhold
    exact ⟨call, List.mem_append_left _ hcall, hjobID⟩

/-- A request without a job has committed nothing. -/
theorem CallInv.commits_of_none {db : DB} {call : Call} (h : CallInv P db call)
    (hnone : call.jobID = none) : call.commits = [] := by
  unfold CallInv at h
  cases hphase : call.phase <;> simp only [hphase, hnone] at h
  case received | authenticated | modelFound | routed => exact h.2
  case done => exact h.1
  all_goals exact absurd h.1 (Option.some_ne_none _).symm

/-- A request keeps its job. -/
theorem Transition.jobID_of_some {db db' : DB} {call call' : Call} {jobID : UUID}
    (h : Transition P db call db' call') (hinv : CallInv P db call)
    (hjobID : call.jobID = some jobID) : call'.jobID = some jobID := by
  rcases h.jobID_cases hinv with hsame | ⟨hnone, -⟩
  · exact hsame.trans hjobID
  · rw [hjobID] at hnone
    cases hnone

/-- The requests that own jobs still do after a step of one of them. -/
theorem exists_owner (hinv : Invariant P s) {call call' : Call} {db : DB}
    (hcall : s.call call.id = some call) (hstep : Transition P s.db call db call')
    {owner : Call} (howner : owner ∈ s.calls) {jobID : UUID} (hjobID : owner.jobID = some jobID) :
    ∃ new ∈ (s.put db call').calls, new.jobID = some jobID := by
  obtain ⟨hmem, -⟩ := Table.mem_of_select hcall
  by_cases hid : owner.id = call'.id
  · have hselect : s.call owner.id = some owner := Table.select_of_mem hinv.ids howner
    rw [hid, hstep.id_eq] at hselect
    obtain rfl : call = owner := Option.some.inj (hcall.symm.trans hselect)
    exact ⟨call', Table.mem_update.mpr ⟨call, howner, if_pos hid⟩,
      hstep.jobID_of_some (hinv.calls call hmem) hjobID⟩
  · exact ⟨owner, Table.mem_update.mpr ⟨owner, howner, if_neg hid⟩, hjobID⟩

/-- A step of a request is what it commits, or nothing. -/
theorem Booked.call (h : Booked s ops) (hinv : Invariant P s)
    (hreach : creditMachine.Reaches Machine.anyStep ops b) {call call' : Call} {db : DB}
    (hcall : s.call call.id = some call) (hstep : Transition P s.db call db call') :
    ∃ done b', done.length ≤ 1 ∧ creditMachine.Reaches Machine.anyStep (ops ++ done) b' ∧
      Booked (s.put db call') (ops ++ done) := by
  have hmem : call ∈ s.calls := (Table.mem_of_select hcall).1
  have hcallInv := hinv.calls call hmem
  cases hstep.wrote hcallInv with
  | nothing hledger hcommits =>
      refine ⟨[], b, Nat.zero_le 1, by rwa [List.append_nil], ?_⟩
      rw [List.append_nil]
      refine ⟨(congrArg (List.map lineOf) hledger).trans h.ledger, ?_, ?_⟩
      · intro new hnew jobID hjobID
        rcases ChatService.mem_put hnew with rfl | ⟨hold, -⟩
        · rw [hcommits]
          rcases hstep.jobID_cases hcallInv with hsame | ⟨hnone, created, hcreated, hfree⟩
          · exact h.requests call hmem jobID (hsame ▸ hjobID)
          · -- The job is new, so that no operation is about it.
            obtain rfl : created = jobID := Option.some.inj (hcreated.symm.trans hjobID)
            rw [hcallInv.commits_of_none hnone]
            refine List.filter_eq_nil_iff.mpr fun op hop hhold => ?_
            obtain ⟨owner, howner, hown⟩ := h.jobs op hop created (of_decide_eq_true hhold)
            have hsome := (hinv.calls owner howner).job_isSome hown
            rw [hfree] at hsome
            cases hsome
        · exact h.requests new hold jobID hjobID
      · intro op hop jobID hhold
        obtain ⟨owner, howner, hjobID⟩ := h.jobs op hop jobID hhold
        exact exists_owner hinv hcall hstep howner hjobID
  | commit jobID commit hjobID hjobID' hfits hcommits hlines =>
      have hexact : LedgerExact db := hstep.ledger hinv.ledger
      obtain ⟨b', hreach'⟩ := exists_snoc hreach _
        (h.allows hexact hreach hmem hjobID hfits hlines)
      refine ⟨_, b', le_refl 1, hreach', ?_, ?_, ?_⟩
      · rw [List.flatMap_append, List.flatMap_singleton, ← h.ledger]
        exact hlines
      · intro new hnew other hother
        rw [about_snoc, Commit.hold_op]
        rcases ChatService.mem_put hnew with rfl | ⟨hold, hne⟩
        · obtain rfl : jobID = other := Option.some.inj (hjobID'.symm.trans hother)
          rw [if_pos rfl, h.requests call hmem jobID hjobID, hcommits, List.map_append]
          rfl
        · have hother' := hinv.other_job hmem hstep hold hne hother
          rw [hjobID'] at hother'
          rw [if_neg hother', List.append_nil]
          exact h.requests new hold other hother
      · intro op hop other hhold
        rcases List.mem_append.mp hop with hold | hnew
        · obtain ⟨owner, howner, hother⟩ := h.jobs op hold other hhold
          exact exists_owner hinv hcall hstep howner hother
        · rw [List.mem_singleton.mp hnew, Commit.hold_op] at hhold
          exact exists_owner hinv hcall hstep hmem (hhold ▸ hjobID)

/-- A step of the server is at most one operation. -/
theorem Booked.step (h : Booked s ops) (hinv : Invariant P s)
    (hreach : creditMachine.Reaches Machine.anyStep ops b) (hstep : CreditStep P s s') :
    ∃ done b', done.length ≤ 1 ∧ creditMachine.Reaches Machine.anyStep (ops ++ done) b' ∧
      Booked s' (ops ++ done) := by
  cases hstep with
  | background hbackground hentered =>
      exact h.background (hbackground.ledger hinv.ledger) hreach hentered
  | arrive =>
      refine ⟨[], b, Nat.zero_le 1, by rwa [List.append_nil], ?_⟩
      rw [List.append_nil]
      exact h.arrive
  | call hcall htransition => exact h.call hinv hreach hcall htransition

/-- A run of the escrow that a market keeps: its lines are the ledger, its accounts are the
wallets, and the operations about a job are what its request committed. -/
structure Keeps (m : Market) (ops : List CreditOp) (b : Escrow UUID UUID ℤ) : Prop where
  run : creditMachine.Reaches Machine.anyStep ops b
  ledger : ledgerLines m.db = ops.flatMap EscrowOp.lines
  wallets : ∀ walletID, b.balance walletID = balanceOf m.db walletID ∧
    b.reserved walletID = reservedOf m.db walletID
  requests : ∀ call ∈ m.api.service.calls, ∀ jobID, call.jobID = some jobID →
    about jobID ops = call.commits.map (Commit.op jobID)
  jobs : ∀ op ∈ ops, ∀ jobID, op.hold = some jobID →
    ∃ call ∈ m.api.service.calls, call.jobID = some jobID
  lives : ∀ jobID, Life jobID (about jobID ops)
  solvent : ∀ walletID, 0 ≤ b.balance walletID

variable {cfg : Config} {m m' : Market}

theorem Keeps.of_booked (h : Booked m.api.service ops) (hinv : Invariant P m.api.service)
    (hreach : creditMachine.Reaches Machine.anyStep ops b) : Keeps m ops b where
  run := hreach
  ledger := h.ledger
  wallets := h.columns hinv.ledger hreach
  requests := h.requests
  jobs := h.jobs
  lives := fun jobID => (Escrow.life hreach jobID).1
  solvent := Escrow.solvent hreach

theorem Keeps.start (h : (marketMachine P cfg).start m) : Keeps m [] .empty := by
  obtain ⟨⟨⟨models, modelVersions, hunique, hdb⟩, hcalls⟩, -⟩ := h
  have hfresh : Fresh m.api.service.db := ⟨_, hdb⟩
  exact .of_booked (.start hfresh hcalls) (Invariant.start (P := P) hfresh hcalls) (.start rfl)

/-- Every step of the server is an operation of the escrow, or none. -/
theorem Keeps.step {e : MarketEvent} (h : Keeps m ops b) (hinv : Invariant P m.api.service)
    (hstep : m.Step P cfg e m') : ∃ done b', done.length ≤ 1 ∧ Keeps m' (ops ++ done) b' := by
  have hbooked : Booked m.api.service ops := ⟨h.ledger, h.requests, h.jobs⟩
  obtain ⟨done, b', hone, hreach, hbooked'⟩ := hbooked.step hinv h.run hstep.credits
  exact ⟨done, b', hone, .of_booked hbooked' (hstep.invariant hinv) hreach⟩

theorem keeps_of_reaches {guard : Market → MarketEvent → Market → Prop} {es : List MarketEvent}
    (h : (marketMachine P cfg).Reaches guard es m) :
    Invariant P m.api.service ∧ ∃ ops b, ops.length ≤ es.length ∧ Keeps m ops b := by
  refine h.invariant_trace (fun es m => Invariant P m.api.service ∧
    ∃ ops b, ops.length ≤ es.length ∧ Keeps m ops b) ?_ ?_
  · intro m hstart
    refine ⟨?_, [], .empty, le_refl 0, .start hstart⟩
    obtain ⟨⟨⟨models, modelVersions, hunique, hdb⟩, hcalls⟩, -⟩ := hstart
    exact .start ⟨_, hdb⟩ hcalls
  · rintro es m e m' ⟨hinv, ops, b, hlength, hkeeps⟩ hnext -
    have hstep := Market.step_of_next hnext
    obtain ⟨done, b', hone, hkeeps'⟩ := hkeeps.step hinv hstep
    refine ⟨hstep.invariant hinv, ops ++ done, b', ?_, hkeeps'⟩
    rw [List.length_append, List.length_append, List.length_singleton]
    omega

end Simulation

end Nuvonode.Handler
