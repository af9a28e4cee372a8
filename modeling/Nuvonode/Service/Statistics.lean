/-
  Service/Statistics.lean --- the statistics of one provider, event by event.

  A settlement that commits and a failure that is recorded are the events of a provider.
  The row of the provider is what its events make of no row, in the order of their
  commits and whatever else the server does.
-/
import Nuvonode.Foundation.History
import Nuvonode.Service.Operations

set_option autoImplicit false

namespace Nuvonode.Service

open Nuvonode.Foundation Nuvonode.Database Nuvonode.Repository

/-! ## Events -/

/-- What happens to the statistics of a provider. -/
inductive StatsEvent where
  /-- `FinalizeUsage` commits. -/
  | settled (latencyMS : ℤ)
  /-- `MarkJobFailed` runs. -/
  | failed (status : JobStatus)
  deriving DecidableEq

namespace StatsEvent

/-- The row after an event; a settlement fails where a column overflows. -/
def apply (providerID : UUID) (old : Option StatsRow) : StatsEvent → Option StatsRow
  | .settled latencyMS => StatsRow.settled latencyMS providerID old
  | .failed status => some (StatsRow.failed status providerID old)

/-- The latency that an event reports. -/
def latency : StatsEvent → Option ℤ
  | .settled latencyMS => some latencyMS
  | .failed _ => none

end StatsEvent

/-- What the events of a provider make of no row, where every event is allowed. -/
inductive StatsRun (providerID : UUID)
    (allowed : Option StatsRow → StatsEvent → StatsRow → Prop) :
    List StatsEvent → Option StatsRow → Prop where
  | start : StatsRun providerID allowed [] none
  | step {log : List StatsEvent} {old : Option StatsRow} {event : StatsEvent} {row : StatsRow} :
      StatsRun providerID allowed log old → event.apply providerID old = some row →
      allowed old event row → StatsRun providerID allowed (log ++ [event]) (some row)

/-- A provider has no row as long as it has no event. -/
theorem StatsRun.eq_none_iff {providerID : UUID}
    {allowed : Option StatsRow → StatsEvent → StatsRow → Prop} {log : List StatsEvent}
    {stats : Option StatsRow} (h : StatsRun providerID allowed log stats) :
    stats = none ↔ log = [] := by
  cases h with
  | start => exact ⟨fun _ => rfl, fun _ => rfl⟩
  | step _ _ _ => exact iff_of_false (Option.some_ne_none _) (by simp)

/-- The event that an operation is to a provider when it commits on a database. -/
def statsEvent (providerID : UUID) (db : DB) : Operation → Option StatsEvent
  | .finalize input =>
      if input.providerID = providerID then some (.settled input.latencyMS) else none
  | .markFailed jobID status _ _ =>
      if (db.job jobID).bind JobRow.providerID = some providerID then some (.failed status)
      else none
  | _ => none

/-- The usage records of a provider. -/
def usageRecordsOf (providerID : UUID) (db : DB) : ℕ :=
  db.usageRecords.countP fun row => row.providerID = providerID

/-! ## What an operation is to a provider -/

/-- A change that an event of a provider makes, or none. -/
def StatsChange (providerID : UUID) (event : Option StatsEvent) (db db' : DB) : Prop :=
  match event with
  | none => db'.stats providerID = db.stats providerID ∧
      usageRecordsOf providerID db' = usageRecordsOf providerID db
  | some event => (∃ row, event.apply providerID (db.stats providerID) = some row ∧
        db'.stats providerID = some row) ∧
      usageRecordsOf providerID db' =
        usageRecordsOf providerID db + if event.latency.isSome then 1 else 0

section Changes

variable {providerID : UUID} {db db' : DB}

theorem StatsChange.of_tables (hstats : db'.providerStats = db.providerStats)
    (husage : db'.usageRecords = db.usageRecords) : StatsChange providerID none db db' := by
  constructor
  · rw [DB.stats, hstats, DB.stats]
  · rw [usageRecordsOf, husage, usageRecordsOf]

/-- An event keeps the row with its provider. -/
theorem StatsEvent.apply_providerID {event : StatsEvent} {row : StatsRow}
    (h : event.apply providerID (db.stats providerID) = some row) :
    row.providerID = providerID := by
  cases hold : db.stats providerID with
  | none =>
      rw [hold] at h
      cases event with
      | settled latencyMS =>
          obtain ⟨avg, -, h⟩ := Option.bind_eq_some_iff.mp h
          obtain ⟨trust, -, h⟩ := Option.bind_eq_some_iff.mp h
          cases h
          rfl
      | failed status =>
          cases h
          rfl
  | some old =>
      have hid : old.providerID = providerID := (Table.mem_of_select hold).2
      rw [hold] at h
      cases event with
      | settled latencyMS =>
          obtain ⟨avg, -, h⟩ := Option.bind_eq_some_iff.mp h
          cases h
          exact hid
      | failed status =>
          cases h
          exact hid

/-- The row that an event puts. -/
theorem StatsChange.of_put {db₁ : DB} {event : StatsEvent} {row : StatsRow}
    (hrow : event.apply providerID (db.stats providerID) = some row)
    (husage : usageRecordsOf providerID db₁ =
      usageRecordsOf providerID db + if event.latency.isSome then 1 else 0) :
    StatsChange providerID (some event) db (db₁.apply (.putStats row)) := by
  refine ⟨⟨row, hrow, ?_⟩, husage⟩
  rw [DB.stats_putStats, if_pos (StatsEvent.apply_providerID hrow)]

/-- The row that an event of another provider puts. -/
theorem StatsChange.of_put_other {db₁ : DB} {event : StatsEvent} {row : StatsRow} {other : UUID}
    (hne : other ≠ providerID) (hstats : db₁.providerStats = db.providerStats)
    (hrow : event.apply other (db.stats other) = some row)
    (husage : usageRecordsOf providerID db₁ = usageRecordsOf providerID db) :
    StatsChange providerID none db (db₁.apply (.putStats row)) := by
  refine ⟨?_, husage⟩
  rw [DB.stats_putStats, StatsEvent.apply_providerID hrow, if_neg hne, DB.stats, hstats,
    DB.stats]

/-- A settlement is an event of its provider. -/
theorem statsChange_settled {input : UsageSettlement} (h : Settled input db db') :
    StatsChange providerID
      (if input.providerID = providerID then some (.settled input.latencyMS) else none) db db' := by
  obtain ⟨db₁, db₂, db₃, source, stats, h₁, h₂, h₃, -, hrow, rfl⟩ := h.effect
  have hstats : db₃.providerStats = db.providerStats := by rw [h₃.frame, h₂.frame, h₁.frame]
  have hrecords : db₃.usageRecords = db.usageRecords := by rw [h₃.frame, h₂.frame, h₁.frame]
  -- The settlement is the put of the row on a database with the other tables changed.
  let before : DB := { db₃ with
    usageRecords := Table.insert db₃.usageRecords (input.record source)
    inferenceJobs := Table.update JobRow.id db₃.inferenceJobs input.jobID
      (JobRow.settle input.actualCostCredits input.providerRewardCredits) }
  have hput : settle input source stats db₃ = before.apply (.putStats stats) := rfl
  have husage : usageRecordsOf providerID before = usageRecordsOf providerID db +
      if input.providerID = providerID then 1 else 0 := by
    simp only [usageRecordsOf, before, Table.insert, hrecords, List.countP_append,
      List.countP_singleton, UsageSettlement.record, decide_eq_true_eq]
  have hevent : StatsEvent.apply input.providerID (db.stats input.providerID)
      (.settled input.latencyMS) = some stats := by
    have hsame : db₃.stats input.providerID = db.stats input.providerID := by
      rw [DB.stats, hstats, DB.stats]
    rw [← hsame]
    exact hrow
  rw [hput]
  split
  · rename_i hsame
    rw [if_pos hsame] at husage
    rw [hsame] at hevent
    exact .of_put hevent husage
  · rename_i hne
    rw [if_neg hne] at husage
    exact .of_put_other hne hstats hevent husage

/-- A failure is an event of the provider of its job. -/
theorem statsChange_markJobFailed {seen : DB → Prop} {jobID : UUID} {status : JobStatus}
    {code message : String} {r : Unit} {ws : List DbWrite}
    (h : Tx.Yields (S := store) seen db (markJobFailed jobID status code message) [] r ws) :
    StatsChange providerID
      (if (db.job jobID).bind JobRow.providerID = some providerID then some (.failed status)
        else none) db (store.applyAll db ws) := by
  simp only [markJobFailed, Tx.yields_bind, yields_require, yields_lockJob] at h
  obtain ⟨_, _, ⟨-, rfl⟩, _, _, ⟨rfl, rfl⟩, h⟩ := h
  split at h
  · rename_i hnone
    rw [Tx.yields_perform] at h
    subst h
    have hjob : (db.job jobID).bind JobRow.providerID = none := hnone
    rw [hjob, if_neg (by simp)]
    exact .of_tables rfl rfl
  · rename_i other hsome
    have hjob : (db.job jobID).bind JobRow.providerID = some other := hsome
    simp only [upsertFailedStats, Tx.yields_bind, Tx.yields_perform, yields_lockStats,
      yields_references] at h
    obtain ⟨_, _, rfl, _, _, ⟨rfl, rfl⟩, _, _, ⟨_, rfl⟩, rfl⟩ := h
    let before : DB := db.apply (.failJob jobID status code message)
    let row : StatsRow := StatsRow.failed status other (db.stats other)
    have hevent : StatsEvent.apply other (db.stats other) (.failed status) = some row := rfl
    rw [hjob]
    split
    · rename_i hsame
      cases hsame
      have hchange : StatsChange providerID (some (.failed status)) db
          (before.apply (.putStats row)) := .of_put hevent rfl
      exact hchange
    · rename_i hne
      have hchange : StatsChange providerID none db (before.apply (.putStats row)) :=
        .of_put_other (fun heq => hne (congrArg some heq)) rfl hevent rfl
      exact hchange

/-- **An operation that commits is its event to a provider, or nothing.** -/
theorem statsChange_program {P : Platform} {cfg : Config} {seen : DB → Prop} {op : Operation}
    {r : Unit} {ws : List DbWrite}
    (h : Tx.Yields (S := store) seen db (program P cfg op) [] r ws) :
    StatsChange providerID (statsEvent providerID db op) db (store.applyAll db ws) := by
  cases op with
  | register userID walletID publicID input =>
      simp only [program, ignore, Tx.yields_bind, Tx.yields_pure] at h
      obtain ⟨user, _, hregister, -, rfl⟩ := h
      obtain ⟨-, -, hposted⟩ := yields_register hregister
      rw [hposted.frame]
      exact .of_tables rfl rfl
  | createProvider otherID walletID publicID token ownerUserID name =>
      simp only [program, ignore, Tx.yields_bind, Tx.yields_pure] at h
      obtain ⟨provider, _, hcreate, -, rfl⟩ := h
      obtain ⟨-, -, hresult⟩ := yields_createProviderAccount hcreate
      rw [hresult]
      exact .of_tables rfl rfl
  | reserve userID amount reason =>
      simp only [program, ignore, Tx.yields_bind, Tx.yields_pure] at h
      obtain ⟨walletID, _, hreserve, -, rfl⟩ := h
      obtain ⟨-, -, hposted⟩ := yields_reserveForUser hreserve
      rw [hposted.frame]
      exact .of_tables rfl rfl
  | release walletID amount reason =>
      have hposted := yields_release h
      rw [hposted.frame]
      exact .of_tables rfl rfl
  | finalize input => exact statsChange_settled (yields_finalizeUsage h)
  | adminAdjust actorUserID target amount reason =>
      simp only [program, ignore, Tx.yields_bind, Tx.yields_pure] at h
      obtain ⟨wallet, _, hadjust, -, rfl⟩ := h
      obtain ⟨walletID, db₁, row, hposted, hresult⟩ := yields_adminAdjust hadjust
      rw [hresult, hposted.frame]
      exact .of_tables rfl rfl
  | createJob id job =>
      simp only [program, ignore, Tx.yields_bind, Tx.yields_pure] at h
      obtain ⟨jobID, _, hcreate, -, rfl⟩ := h
      obtain ⟨-, -, -, hresult⟩ := yields_createInferenceJob hcreate
      rw [hresult]
      exact .of_tables rfl rfl
  | markDispatched jobID =>
      simp only [program, markJobDispatched, Tx.yields_perform] at h
      subst h
      exact .of_tables rfl rfl
  | markFailed jobID status code message => exact statsChange_markJobFailed h

end Changes

/-! ## The events of a run -/

/-- A database where nothing has happened to a provider. -/
def Unrated (providerID : UUID) (db : DB) : Prop :=
  db.stats providerID = none ∧ usageRecordsOf providerID db = 0

/-- The event of a provider that a step of the server is. -/
def shownStats (providerID : UUID) (m : Server store Err Operation Unit) :
    ServerEvent Operation → Server store Err Operation Unit → List StatsEvent
  | .commit _ op, _ => (statsEvent providerID m.committed op).toList
  | _, _ => []

/-- A guard on the events of a provider. -/
def OnStats (providerID : UUID) (allowed : Option StatsRow → StatsEvent → StatsRow → Prop)
    (m : Server store Err Operation Unit) (e : ServerEvent Operation)
    (m' : Server store Err Operation Unit) : Prop :=
  ∀ event ∈ shownStats providerID m e m', ∀ row, m'.committed.stats providerID = some row →
    allowed (m.committed.stats providerID) event row

section Runs

variable {P : Platform} {cfg : Config} {providerID : UUID} {es : List (ServerEvent Operation)}
  {m : Server store Err Operation Unit} {log : List StatsEvent}
  {allowed : Option StatsRow → StatsEvent → StatsRow → Prop}

/-- What the server has recorded of a provider is what its events made of no row. -/
theorem statsRun_of_reaches
    (h : ((serverMachine P cfg (Unrated providerID)).recorded (shownStats providerID)).Reaches
      (Machine.onState (OnStats providerID allowed)) es (m, log)) :
    StatsRun providerID allowed log (m.committed.stats providerID) ∧
      usageRecordsOf providerID m.committed = (log.filterMap StatsEvent.latency).length := by
  have hall := h.invariant_trace (fun es s =>
    (serverMachine P cfg (Unrated providerID)).Reaches Machine.anyStep es s.1 ∧
      StatsRun providerID allowed s.2 (s.1.committed.stats providerID) ∧
        usageRecordsOf providerID s.1.committed =
          (s.2.filterMap StatsEvent.latency).length) ?_ ?_
  · exact hall.2
  · rintro ⟨m, log⟩ ⟨hstart, rfl⟩
    obtain ⟨hnone, hzero⟩ := hstart.1
    refine ⟨.start hstart, ?_, hzero⟩
    rw [hnone]
    exact .start
  · rintro es ⟨m, log⟩ e ⟨m', log'⟩ ⟨hreach, hrun, husage⟩ ⟨hstep, hlog⟩ hguard
    obtain rfl : log' = log ++ shownStats providerID m e m' := hlog
    refine ⟨hreach.snoc hstep trivial, ?_⟩
    cases e with
    | commit t op =>
        obtain ⟨r, ws, hyields, hcommitted⟩ := Server.commit_atomic hreach hstep
        have hchange : StatsChange providerID (statsEvent providerID m.committed op) m.committed
            m'.committed := hcommitted ▸ statsChange_program hyields
        have hshown : shownStats providerID m (.commit t op) m' =
            (statsEvent providerID m.committed op).toList := rfl
        cases hevent : statsEvent providerID m.committed op with
        | none =>
            rw [hevent] at hchange hshown
            obtain ⟨hsame, hcount⟩ := hchange
            simp only [hshown, hsame, hcount, Option.toList_none, List.append_nil]
            exact ⟨hrun, husage⟩
        | some event =>
            rw [hevent] at hchange hshown
            obtain ⟨⟨row, hrow, hstats⟩, hcount⟩ := hchange
            have hallowed : allowed (m.committed.stats providerID) event row :=
              hguard event (by rw [hshown]; exact List.mem_singleton_self event) row hstats
            simp only [hshown, hstats, hcount, Option.toList_some, List.filterMap_append,
              List.length_append, husage]
            refine ⟨.step hrun hrow hallowed, ?_⟩
            cases event <;> rfl
    | _ =>
        have hsame : m'.committed = m.committed := Server.committed_of_step hstep (by simp)
        simp only [shownStats, hsame, List.append_nil]
        exact ⟨hrun, husage⟩

/-- The invariant rule for the row of a provider. -/
theorem stats_invariant (I : Option StatsRow → Prop)
    (h : (serverMachine P cfg (Unrated providerID)).Reaches (OnStats providerID allowed) es m)
    (hnone : I none)
    (hstep : ∀ stats event row, I stats → StatsEvent.apply providerID stats event = some row →
      allowed stats event row → I (some row)) : I (m.committed.stats providerID) := by
  obtain ⟨log, hrecorded⟩ := h.record (shownStats providerID)
  have hrun := (statsRun_of_reaches hrecorded).1
  clear hrecorded
  generalize m.committed.stats providerID = stats at hrun
  induction hrun with
  | start => exact hnone
  | step _ happly hallowed ih => exact hstep _ _ _ ih happly hallowed

/-! ## An operation that runs alone -/

/-- The last step of an execution. -/
theorem steps_snoc_inv {σ ε : Type} {M : Machine σ ε} {guard : σ → ε → σ → Prop} {s s' : σ}
    {es : List ε} {e : ε} (h : Machine.Steps M guard s (es ++ [e]) s') :
    ∃ mid, Machine.Steps M guard s es mid ∧ M.step mid e s' := by
  generalize hevents : es ++ [e] = events at h
  cases h with
  | refl => exact absurd hevents (by simp)
  | snoc hsteps hstep _ =>
      obtain ⟨rfl, hlast⟩ := List.append_inj' hevents rfl
      cases hlast
      exact ⟨_, hsteps, hstep⟩

variable (providerID) in
/-- Until something commits there is nothing to record. -/
theorem steps_quiet {start : DB → Prop} {m' : Server store Err Operation Unit}
    (h : Machine.Steps (serverMachine P cfg start) Machine.anyStep m es m')
    (hes : ∀ t op, .commit t op ∉ es) :
    Machine.Steps ((serverMachine P cfg start).recorded (shownStats providerID))
      (Machine.onState (OnStats providerID allowed)) (m, log) es (m', log) ∧
        m'.committed = m.committed := by
  induction h with
  | refl => exact ⟨.refl, rfl⟩
  | @snoc es mid last e hsteps hstep _ ih =>
      have hbefore : ∀ t op, .commit t op ∉ es := fun t op hmem =>
        hes t op (List.mem_append_left _ hmem)
      have hne : ∀ t op, e ≠ .commit t op := fun t op heq =>
        hes t op (List.mem_append_right _ (List.mem_singleton.mpr heq.symm))
      obtain ⟨hquiet, hcommitted⟩ := ih hbefore
      have hshown : shownStats providerID mid e last = [] := by
        cases e with
        | commit t op => exact absurd rfl (hne t op)
        | _ => rfl
      refine ⟨.snoc hquiet ⟨hstep, ?_⟩ fun event hmem => ?_, ?_⟩
      · rw [hshown, List.append_nil]
      · rw [hshown] at hmem
        exact absurd hmem List.not_mem_nil
      · rw [Server.committed_of_step hstep hne, hcommitted]

/-- An operation on an idle server is its event. -/
theorem steps_of_operation {start : DB → Prop} {db db' : DB} (op : Operation)
    (h : (program P cfg op).exec db = .ok ((), db'))
    (hallowed : ∀ event ∈ statsEvent providerID db op, ∀ row, db'.stats providerID = some row →
      allowed (db.stats providerID) event row) :
    ∃ es, Machine.Steps ((serverMachine P cfg start).recorded (shownStats providerID))
      (Machine.onState (OnStats providerID allowed)) (idleServer db, log) es
        (idleServer db', log ++ (statsEvent providerID db op).toList) := by
  obtain ⟨n, hsteps⟩ := Server.steps_of_exec (m := idleServer db) (fun _ => rfl) 0 op h
  rw [← List.cons_append] at hsteps
  obtain ⟨mid, hbefore, hcommit⟩ := steps_snoc_inv hsteps
  obtain ⟨hquiet, hcommitted⟩ := steps_quiet providerID hbefore (by simp)
  have hdb : mid.committed = db := hcommitted
  have hshown : shownStats providerID mid (.commit 0 op) (idleServer db') =
      (statsEvent providerID db op).toList := by
    rw [shownStats, hdb]
  refine ⟨_, .snoc hquiet ⟨hcommit, ?_⟩ fun event hmem row hrow => ?_⟩
  · exact congrArg (log ++ ·) hshown.symm
  · rw [hdb]
    have hevent : event ∈ (statsEvent providerID db op).toList := by
      rw [← hshown]
      exact hmem
    exact hallowed event (Option.mem_toList.mp hevent) row hrow

variable (P cfg) in
/-- What operations that run one after another leave. -/
def afterAll (db : DB) (ops : List Operation) : DB :=
  ops.foldl (fun db op => afterwards (program P cfg op) db) db

variable (P cfg providerID) in
/-- The events of a provider that these operations are. -/
def statsEvents : DB → List Operation → List StatsEvent
  | _, [] => []
  | db, op :: ops =>
      (statsEvent providerID db op).toList ++ statsEvents (afterwards (program P cfg op) db) ops

variable (P cfg providerID allowed) in
/-- Each of these operations commits, and its event is allowed. -/
def AllowedInTurn : DB → List Operation → Prop
  | _, [] => True
  | db, op :: ops =>
      (program P cfg op).exec db = .ok ((), afterwards (program P cfg op) db) ∧
        (∀ event ∈ statsEvent providerID db op,
          ∀ row ∈ (afterwards (program P cfg op) db).stats providerID,
            allowed (db.stats providerID) event row) ∧
        AllowedInTurn (afterwards (program P cfg op) db) ops

instance decidableAllowedInTurn [∀ stats event row, Decidable (allowed stats event row)] :
    (db : DB) → (ops : List Operation) → Decidable (AllowedInTurn P cfg providerID allowed db ops)
  | _, [] => isTrue trivial
  | db, op :: ops =>
      have : Decidable (AllowedInTurn P cfg providerID allowed
          (afterwards (program P cfg op) db) ops) :=
        decidableAllowedInTurn (afterwards (program P cfg op) db) ops
      inferInstanceAs (Decidable (_ ∧ _ ∧ _))

/-- Operations that run one after another on an idle server are their events. -/
theorem steps_of_operations {start : DB → Prop} {ops : List Operation} {db : DB}
    (h : AllowedInTurn P cfg providerID allowed db ops) :
    ∃ es, Machine.Steps ((serverMachine P cfg start).recorded (shownStats providerID))
      (Machine.onState (OnStats providerID allowed)) (idleServer db, log) es
        (idleServer (afterAll P cfg db ops), log ++ statsEvents P cfg providerID db ops) := by
  induction ops generalizing db log with
  | nil =>
      rw [statsEvents, List.append_nil]
      exact ⟨[], .refl⟩
  | cons op ops ih =>
      obtain ⟨hexec, hallowed, hrest⟩ := h
      obtain ⟨es, hfirst⟩ : ∃ es, Machine.Steps
          ((serverMachine P cfg start).recorded (shownStats providerID))
          (Machine.onState (OnStats providerID allowed)) (idleServer db, log) es
          (idleServer (afterwards (program P cfg op) db),
            log ++ (statsEvent providerID db op).toList) :=
        steps_of_operation op hexec hallowed
      obtain ⟨es', hsteps⟩ := ih hrest
      rw [List.append_assoc] at hsteps
      exact ⟨es ++ es', hfirst.trans hsteps⟩

/-- A run of such operations from a database without events of the provider. -/
theorem reaches_of_operations {ops : List Operation} {db : DB} (hstart : Unrated providerID db)
    (h : AllowedInTurn P cfg providerID allowed db ops) :
    ∃ es, ((serverMachine P cfg (Unrated providerID)).recorded (shownStats providerID)).Reaches
      (Machine.onState (OnStats providerID allowed)) es
        (idleServer (afterAll P cfg db ops), statsEvents P cfg providerID db ops) := by
  obtain ⟨es, hsteps⟩ : ∃ es, Machine.Steps
      ((serverMachine P cfg (Unrated providerID)).recorded (shownStats providerID))
      (Machine.onState (OnStats providerID allowed)) (idleServer db, []) es
      (idleServer (afterAll P cfg db ops), [] ++ statsEvents P cfg providerID db ops) :=
    steps_of_operations h
  exact ⟨es, _, ⟨⟨hstart, fun _ => rfl⟩, rfl⟩, hsteps⟩

end Runs

end Nuvonode.Service
