/-
  Handler/Invariant.lean --- the invariant of the service.

  Every reachable state has its wallets equal to their ledger, its books in order,
  every call in the state its phase says, and the reserved column of every wallet
  equal to the reservations of the calls that hold one.
-/
import Nuvonode.Handler.CallInvariant

set_option autoImplicit false

namespace Nuvonode.Handler

open Nuvonode.Foundation Nuvonode.Database Nuvonode.Repository Nuvonode.Service Nuvonode.Ws

/-- What a call has reserved in a wallet and has neither released nor settled. -/
def Call.holds (walletID : UUID) (call : Call) : ℤ :=
  match call.commits with
  | [.reserve reservedIn amount] => if walletID = reservedIn then amount.toInt else 0
  | _ => 0

/-- The invariant of the service. -/
structure Invariant (P : Platform) (s : ChatService) : Prop where
  ledger : LedgerExact s.db
  books : Books s.db
  stats : StatsBounded s.db
  ids : Table.Unique Call.id s.calls
  calls : ∀ call ∈ s.calls, CallInv P s.db call
  owners : ∀ call ∈ s.calls, ∀ other ∈ s.calls, ∀ jobID, call.jobID = some jobID →
    other.jobID = some jobID → call = other
  reserved : ∀ walletID, reservedOf s.db walletID = Table.total (Call.holds walletID) s.calls

/-! ## One step of a call -/

section Step

variable {P : Platform} {db db' : DB} {call call' : Call}

theorem Transition.ledger (h : Transition P db call db' call') (hexact : LedgerExact db) :
    LedgerExact db' := by
  have hfailed : ∀ (jobID : UUID) (code message : String),
      LedgerExact (afterwards (markJobFailed jobID .failed code message) db) := by
    intro jobID code message
    rcases afterwards_markJobFailed db jobID with hsame | ⟨-, stats, hfailed⟩
    · rwa [hsame]
    · rw [hfailed]
      exact hexact.congr rfl rfl
  cases h with
  | create => exact hexact.congr rfl rfl
  | dispatch => exact hexact.congr rfl rfl
  | reserve _ _ _ hposted => exact hexact.posted hposted
  | release _ hposted => exact hexact.posted hposted
  | returnCredits _ hposted => exact hexact.posted hposted
  | settle _ hsettled => exact (hsettled.measures hexact).1
  | recordRefusal => exact hfailed _ _ _
  | recordFailure => exact hfailed _ _ _
  | _ => exact hexact

theorem Transition.stats (h : Transition P db call db' call') (hstats : StatsBounded db) :
    StatsBounded db' := by
  have hposted : ∀ {walletID : UUID} {entryType : EntryType} {amount reservedDelta : Int64}
      {reason : String} {createdBy : Option UUID},
      Posted walletID entryType amount reservedDelta reason createdBy db db' →
        StatsBounded db' := by
    intro walletID entryType amount reservedDelta reason createdBy h
    rw [h.frame]
    exact hstats
  cases h with
  | reserve _ _ _ h => exact hposted h
  | release _ h => exact hposted h
  | returnCredits _ h => exact hposted h
  | settle _ hsettled => exact hsettled.statsBounded hstats
  | recordRefusal => exact statsBounded_markJobFailed hstats
  | recordFailure => exact statsBounded_markJobFailed hstats
  | _ => exact hstats

theorem Transition.books (h : Transition P db call db' call') (hexact : LedgerExact db)
    (hbooks : Books db) (hinv : CallInv P db call) : Books db' := by
  have hfailed : ∀ {jobID : UUID} {code message : String}, db.usage jobID = none →
      Books (afterwards (markJobFailed jobID .failed code message) db) := by
    intro jobID code message hunused
    rcases afterwards_markJobFailed db jobID with hsame | ⟨-, stats, hfailed⟩
    · rwa [hsame]
    · rw [hfailed]
      exact hbooks.updateJob hunused (fun _ => rfl) fun _ => JobStatus.noConfusion
  have hzero : ∀ {amount : Int64}, 0 < amount.toInt → (-amount).toInt + amount.toInt = 0 := by
    intro amount hpos
    rw [toInt_neg_of_nonneg hpos.le]
    omega
  cases h with
  | create hphase hfree _ => exact hbooks.insertJob hfree JobStatus.noConfusion
  | reserve hphase hpos hwallet hposted =>
      exact hbooks.moved hexact hposted (.inl rfl) (hzero hpos)
  | recordRefusal hphase =>
      simp only [CallInv, hphase] at hinv
      exact hfailed hinv.2.2.unused
  | dispatch hphase =>
      simp only [CallInv, hphase] at hinv
      exact hbooks.updateJob hinv.2.2.pending.unused (fun _ => rfl) fun _ => JobStatus.noConfusion
  | release hphase hposted =>
      simp only [CallInv, hphase] at hinv
      have hpos := hinv.2.2.1.positive
      exact hbooks.moved hexact hposted (.inr rfl) ((add_comm _ _).trans (hzero hpos))
  | recordFailure hphase =>
      simp only [CallInv, hphase] at hinv
      exact hfailed hinv.2.2.1.pending.unused
  | settle hphase hsettled =>
      simp only [CallInv, hphase] at hinv
      have hreserved := hinv.2.2
      exact hbooks.settled hexact hsettled hreserved.pending.row hreserved.wallet
        (ChatJob.actualCost_le P _ _)
  | returnCredits hphase hposted =>
      simp only [CallInv, hphase] at hinv
      have hpos := hinv.2.2.positive
      exact hbooks.moved hexact hposted (.inr rfl) ((add_comm _ _).trans (hzero hpos))
  | _ => exact hbooks

/-- A step moves the reserved column of a wallet by what the call comes to hold in it. -/
theorem Transition.reserved (h : Transition P db call db' call') (hexact : LedgerExact db)
    (hinv : CallInv P db call) (walletID : UUID) :
    reservedOf db' walletID =
      reservedOf db walletID - call.holds walletID + call'.holds walletID := by
  -- A step without a commit holds what it held, and leaves the column alone.
  have hquiet : ∀ {db' : DB} {call' : Call}, call'.commits = call.commits →
      reservedOf db' walletID = reservedOf db walletID →
      reservedOf db' walletID =
        reservedOf db walletID - call.holds walletID + call'.holds walletID := by
    intro db' call' hcommits hsame
    rw [Call.holds, Call.holds, hcommits, hsame]
    omega
  have hfailed : ∀ {jobID : UUID} {code message : String}, reservedOf
      (afterwards (markJobFailed jobID .failed code message) db) walletID =
        reservedOf db walletID := by
    intro jobID code message
    rcases afterwards_markJobFailed db jobID with hsame | ⟨-, stats, hfailed⟩
    · rw [hsame]
    · rw [hfailed]
      rfl
  cases h with
  | reserve hphase hpos hwallet hposted =>
      simp only [CallInv, hphase] at hinv
      rw [hposted.reservedOf hexact]
      simp [Call.holds, Call.committed, Call.goto, hinv.2.1]
  | release hphase hposted =>
      simp only [CallInv, hphase] at hinv
      obtain ⟨-, hcommits, hreserved, -⟩ := hinv
      rw [hposted.reservedOf hexact, toInt_neg_of_nonneg hreserved.positive.le]
      simp only [Call.holds, Call.committed, Call.goto, hcommits, List.cons_append,
        List.nil_append]
      split <;> omega
  | returnCredits hphase hposted =>
      simp only [CallInv, hphase] at hinv
      obtain ⟨-, hcommits, hreserved⟩ := hinv
      rw [hposted.reservedOf hexact, toInt_neg_of_nonneg hreserved.positive.le]
      simp only [Call.holds, Call.committed, Call.goto, hcommits, List.cons_append,
        List.nil_append]
      split <;> omega
  | @settle job jobID reservedIn result db' hphase hsettled =>
      simp only [CallInv, hphase] at hinv
      obtain ⟨-, hcommits, -⟩ := hinv
      have hmoved : reservedOf db' walletID = reservedOf db walletID +
          if walletID = reservedIn then -(job.reservedCredits P).toInt else 0 :=
        (hsettled.measures hexact).2.1 walletID
      rw [hmoved]
      simp only [Call.holds, Call.committed, Call.goto, hcommits, List.cons_append,
        List.nil_append]
      split <;> omega
  | recordRefusal => exact hquiet rfl hfailed
  | recordFailure => exact hquiet rfl hfailed
  | _ => exact hquiet rfl rfl

end Step

/-! ## One step of the service -/

section Service

variable {P : Platform} {cfg : Config} {s s' : ChatService} {e : ServiceEvent}

theorem Invariant.start (h : Fresh s.db) (hcalls : s.calls = []) : Invariant P s := by
  obtain ⟨catalog, hdb⟩ := h
  refine ⟨?_, ?_, ?_, ?_, ?_, ?_, ?_⟩
  · exact hdb ▸ LedgerExact.seeded catalog
  · exact hdb ▸ Books.seeded catalog
  · rw [hdb]
    simp [StatsBounded, DB.seeded]
  · rw [hcalls]
    exact List.nodup_nil
  · simp [hcalls]
  · simp [hcalls]
  · intro walletID
    rw [hdb, hcalls]
    rfl

/-- Every call keeps its invariant through a background change. -/
theorem Invariant.background (h : Invariant P s) {db : DB} (hstep : Background s.db db) :
    Invariant P (s.on db) where
  ledger := hstep.ledger h.ledger
  books := h.books.background h.ledger hstep
  stats := by
    intro row hrow
    simp only [ChatService.on, hstep.stats] at hrow
    exact h.stats row hrow
  ids := h.ids
  calls := fun call hcall =>
    (h.calls call hcall).keep (.of_background hstep none) fun _ _ => nofun
  owners := h.owners
  reserved := fun walletID => (hstep.reserved h.ledger walletID).trans (h.reserved walletID)

/-- A new call has no job and holds nothing. -/
theorem Invariant.arrive (h : Invariant P s) {id : Nat} {bearer requestID : String}
    {body : Option ChatRequest} (hfree : s.call id = none) :
    Invariant P { s with calls := Table.insert s.calls (.arrived id bearer requestID body) } where
  ledger := h.ledger
  books := h.books
  stats := h.stats
  ids := Table.unique_insert h.ids hfree
  calls := by
    intro call hcall
    rcases List.mem_append.mp hcall with hold | hnew
    · exact h.calls call hold
    · rw [List.mem_singleton.mp hnew]
      exact ⟨rfl, rfl⟩
  owners := by
    have hnone : ∀ call ∈ [Call.arrived id bearer requestID body], call.jobID = none := by
      intro call hcall
      rw [List.mem_singleton.mp hcall]
      rfl
    intro call hcall other hother jobID hjob hjob'
    rcases List.mem_append.mp hcall with hcall | hcall
    · rcases List.mem_append.mp hother with hother | hother
      · exact h.owners call hcall other hother jobID hjob hjob'
      · rw [hnone other hother] at hjob'
        cases hjob'
    · rw [hnone call hcall] at hjob
      cases hjob
  reserved := by
    intro walletID
    have hzero : (Call.arrived id bearer requestID body).holds walletID = 0 := rfl
    rw [Table.total_insert, hzero, Int.add_zero]
    exact h.reserved walletID

/-- The calls after one of them is replaced. -/
theorem ChatService.mem_put {db : DB} {call' new : Call} (h : new ∈ (s.put db call').calls) :
    new = call' ∨ new ∈ s.calls ∧ new.id ≠ call'.id := by
  obtain ⟨old, hold, rfl⟩ := Table.mem_update.mp h
  split
  · exact .inl rfl
  · rename_i hne
    exact .inr ⟨hold, hne⟩

/-- No other call has the job that a call has after its step. -/
theorem Invariant.other_job (h : Invariant P s) {call call' other : Call} {db : DB}
    (hcall : call ∈ s.calls) (hstep : Transition P s.db call db call') (hother : other ∈ s.calls)
    (hne : other.id ≠ call'.id) {jobID : UUID} (hjob : other.jobID = some jobID) :
    call'.jobID ≠ some jobID := by
  intro hjob'
  rcases hstep.jobID_cases (h.calls call hcall) with hsame | ⟨-, new, hnew, hfree⟩
  · rw [hsame] at hjob'
    have heq := h.owners call hcall other hother jobID hjob' hjob
    rw [hstep.id_eq, heq] at hne
    exact hne rfl
  · have hsome := (h.calls other hother).job_isSome hjob
    obtain rfl : new = jobID := Option.some.inj (hnew.symm.trans hjob')
    rw [hfree] at hsome
    cases hsome

theorem Invariant.call (h : Invariant P s) {call call' : Call} {db : DB}
    (hcall : s.call call.id = some call) (hstep : Transition P s.db call db call') :
    Invariant P (s.put db call') := by
  have hmem : call ∈ s.calls := (Table.mem_of_select hcall).1
  have hinv := h.calls call hmem
  have hid := hstep.id_eq
  refine ⟨hstep.ledger h.ledger, hstep.books h.ledger h.books hinv, hstep.stats h.stats, ?_, ?_,
    ?_, ?_⟩
  · -- The replaced call has the number of the new one.
    have hkept : (s.put db call').calls.map Call.id = s.calls.map Call.id := by
      simp only [ChatService.put, Table.update, List.map_map]
      refine List.map_congr_left fun old _ => ?_
      by_cases hold : old.id = call'.id <;> simp [hold]
    unfold Table.Unique
    rw [hkept]
    exact h.ids
  · intro new hnew
    rcases ChatService.mem_put hnew with rfl | ⟨hold, hne⟩
    · exact hstep.callInv h.books hinv
    · exact (h.calls new hold).keep (hstep.keeps hinv)
        fun _ hjob => h.other_job hmem hstep hold hne hjob
  · intro a ha b hb jobID hja hjb
    rcases ChatService.mem_put ha with rfl | ⟨hoa, hneA⟩
    · rcases ChatService.mem_put hb with rfl | ⟨hob, hneB⟩
      · rfl
      · exact absurd hja (h.other_job hmem hstep hob hneB hjb)
    · rcases ChatService.mem_put hb with rfl | ⟨hob, hneB⟩
      · exact absurd hjb (h.other_job hmem hstep hoa hneA hja)
      · exact h.owners a hoa b hob jobID hja hjb
  · intro walletID
    have htotal : Table.total (Call.holds walletID)
        (Table.update Call.id s.calls call'.id fun _ => call') = _ :=
      Table.total_update _ h.ids (hid ▸ hcall)
    rw [ChatService.put, htotal, hstep.reserved h.ledger hinv walletID, h.reserved walletID]

/-- Every event keeps the invariant. -/
theorem Invariant.step (h : Invariant P s) (hnext : next P cfg s e = some s') :
    Invariant P s' := by
  cases kind_of_next hnext with
  | background hstep => exact h.background hstep
  | arrive hfree => exact h.arrive hfree
  | call hcall hstepped => exact h.call hcall hstepped.transition

/-- The invariant holds throughout every run. -/
theorem invariant_of_reaches {guard : ChatService → ServiceEvent → ChatService → Prop}
    {es : List ServiceEvent} (h : (chatMachine P cfg).Reaches guard es s) : Invariant P s :=
  h.invariant (Invariant P) (fun _ hstart => .start hstart.1 hstart.2)
    fun _ _ _ hinv hnext _ => hinv.step hnext

/-- No call holds less than nothing. -/
theorem CallInv.holds_nonneg {db : DB} {call : Call} (h : CallInv P db call) (walletID : UUID) :
    0 ≤ call.holds walletID := by
  unfold Call.holds
  split
  · rename_i reservedIn amount hcommits
    have hpos := (h.reservation hcommits).1
    split <;> omega
  · exact le_refl 0

/-- The wallet of a reservation holds at least that reservation. -/
theorem Invariant.held (h : Invariant P s) {call : Call} (hcall : call ∈ s.calls)
    {walletID : UUID} {amount : Int64} (hcommits : call.commits = [.reserve walletID amount]) :
    0 < amount.toInt ∧ ∃ wallet, s.db.wallet walletID = some wallet ∧
      amount.toInt ≤ wallet.reservedCredits.toInt := by
  have hpos := ((h.calls call hcall).reservation hcommits).1
  have hholds : call.holds walletID = amount.toInt := by simp [Call.holds, hcommits]
  have hle : call.holds walletID ≤ reservedOf s.db walletID := by
    rw [h.reserved]
    exact Table.le_total (fun other hother => (h.calls other hother).holds_nonneg walletID) hcall
  rw [hholds, reservedOf] at hle
  cases hwallet : s.db.wallet walletID with
  | none =>
      rw [hwallet] at hle
      simp only [Option.map_none, Option.getD_none] at hle
      omega
  | some wallet =>
      rw [hwallet] at hle
      exact ⟨hpos, wallet, rfl, hle⟩

end Service

/-! ## Following one call -/

section Follow

variable {P : Platform} {cfg : Config} {s s' : ChatService} {e : ServiceEvent} {id : Nat}
  {call : Call}

/-- A step is a step of a given call, or leaves the call and its job alone. -/
theorem Invariant.follow (h : Invariant P s) (hnext : next P cfg s e = some s')
    (hcall : s.call id = some call) :
    (s'.call id = some call ∧ ∃ other, KeepsOthers other s.db s'.db ∧
        ∀ jobID, call.jobID = some jobID → other ≠ some jobID) ∨
      ∃ call', s'.call id = some call' ∧ Stepped P cfg s call e s'.db call' := by
  obtain ⟨hmem, hid⟩ := Table.mem_of_select hcall
  cases kind_of_next hnext with
  | background hstep =>
      exact .inl ⟨hcall, none, .of_background hstep none, fun _ _ => nofun⟩
  | arrive hfree =>
      exact .inl ⟨Table.select_insert_of_some hcall, none, .refl none _, fun _ _ => nofun⟩
  | @call stepped call' db hstepped hstep =>
      have htransition := hstep.transition
      have hid' := htransition.id_eq
      have hselect : (s.put db call').call id =
          if call'.id = id then (s.call id).map (fun _ => call') else s.call id :=
        Table.select_replace
      rw [hcall, ← hid] at hselect
      by_cases hsame : call'.id = call.id
      · -- It is the step of this call.
        obtain rfl : stepped = call := by
          rw [← hid', hsame, hid, hcall] at hstepped
          exact (Option.some.inj hstepped).symm
        rw [if_pos hsame, hid] at hselect
        exact .inr ⟨call', hselect, hstep⟩
      · rw [if_neg hsame, hid] at hselect
        have hstepped' := (Table.mem_of_select hstepped).1
        exact .inl ⟨hselect, call'.jobID, htransition.keeps (h.calls _ hstepped'),
          fun _ hjob => h.other_job hstepped' htransition hmem (Ne.symm hsame) hjob⟩

/-- The rule for what holds of one call along a run: its own steps must keep it, and so
must every change that is about other jobs. -/
theorem Invariant.track {guard : ChatService → ServiceEvent → ChatService → Prop}
    (T : DB → Call → Prop) {es : List ServiceEvent}
    (hsteps : (chatMachine P cfg).Steps guard s es s') (h : Invariant P s)
    (hcall : s.call id = some call) (hstart : T s.db call)
    (hkeep : ∀ {db db' : DB} {call : Call} {other : Option UUID}, T db call →
      KeepsOthers other db db' → (∀ jobID, call.jobID = some jobID → other ≠ some jobID) →
      T db' call)
    (hown : ∀ {a b : ChatService} {e : ServiceEvent} {call call' : Call}, Invariant P a →
      a.call id = some call → T a.db call → Stepped P cfg a call e b.db call' → guard a e b →
      T b.db call') :
    Invariant P s' ∧ ∃ call, s'.call id = some call ∧ T s'.db call := by
  refine hsteps.preserves
    (fun _ s => Invariant P s ∧ ∃ call, s.call id = some call ∧ T s.db call)
    ⟨h, call, hcall, hstart⟩ ?_
  rintro _ a e b ⟨hinv, call, hcall, hT⟩ hnext hguard
  refine ⟨hinv.step hnext, ?_⟩
  rcases hinv.follow hnext hcall with ⟨hsame, other, hkeeps, hother⟩ | ⟨call', hcall', hstep⟩
  · exact ⟨call, hsame, hkeep hT hkeeps hother⟩
  · exact ⟨call', hcall', hown hinv hcall hT hstep hguard⟩

end Follow

end Nuvonode.Handler
