/-
  Contract/Heartbeats.lean --- whether the heartbeats of a machine at work are taken.

  The id of a job, as its request has it, is `job_` and a time.  The column of an
  instance for its current job is a `UUID`, so a heartbeat that names the job fails as a
  whole: the time of the last heartbeat stays, and a sweep retires the instance.
-/
import Nuvonode.Contract.Freshness
import Nuvonode.Contract.Occupancy
import Nuvonode.Ws.Channels

set_option autoImplicit false

namespace Nuvonode.Contract

open Nuvonode.Foundation Nuvonode.Database Nuvonode.Repository Nuvonode.Service Nuvonode.Handler
  Nuvonode.Ws

/-! ## The ids of jobs -/

/-- A request for a job has been written to a connection. -/
def SentJob (m : Market) (jobID : String) : Prop :=
  ∃ id dispatch, m.api.network.dispatch id = some dispatch ∧ dispatch.phase.Written ∧
    dispatch.payload.jobID = jobID

/-- The job of every open request, and that of every dispatch, is named after a time. -/
structure NamedJobs (m : Market) : Prop where
  current : ∀ call ∈ m.api.service.calls, ∀ job, Call.current call = some job →
    ∃ now, job.publicID = jobPublicID now
  dispatched : ∀ id dispatch, m.api.network.dispatch id = some dispatch →
    ∃ now, dispatch.payload.jobID = jobPublicID now

/-- Such a name is no UUID. -/
theorem uuidOf_jobPublicID (now : String) : uuidOf (jobPublicID now) = none := by
  have hchars : (jobPublicID now).toList = 'j' :: 'o' :: 'b' :: '_' :: now.toList := by
    rw [jobPublicID, String.toList_append]
    rfl
  have hdigit : hexDigit 'j' = none := by decide
  have hbytes : uuidBytes 16 0 ('j' :: 'o' :: 'b' :: '_' :: now.toList) = none := by
    rw [uuidBytes, hdigit]
    rfl
  unfold uuidOf
  simp only [hchars, List.head?_cons]
  simp [hbytes]

section Names

variable {P : Platform} {cfg : Config} {m m' : Market} {e : MarketEvent} {es : List MarketEvent}

/-- A dispatch has the request it had before, or that of an open request. -/
theorem payload_before (h : m.Step P cfg e m') {id : DispatchID} {dispatch : Dispatch}
    (hdispatch : m'.api.network.dispatch id = some dispatch) :
    (∃ old, m.api.network.dispatch id = some old ∧ dispatch.payload = old.payload) ∨
      ∃ call ∈ m.api.service.calls, ∃ job, Call.current call = some job ∧
        dispatch.payload = job.payload cfg := by
  -- A step of the network that is no dispatch.
  have hother : ∀ {e' : NetworkEvent}, m.api.network.next e' = some m'.api.network →
      (∀ id providerPublicID payload, e' ≠ .dispatch id providerPublicID payload) →
      ∃ old, m.api.network.dispatch id = some old ∧ dispatch.payload = old.payload := by
    intro e' hnext hne
    rcases (Network.step_of_next hnext).dispatch_before hdispatch with
      ⟨old, hold, -, hpayload⟩ | heq
    · exact ⟨old, hold, hpayload⟩
    · exact absurd heq (hne _ _ _)
  cases h with
  | api hlocal hstep =>
      cases hstep with
      | network hshared hnext =>
          refine .inl (hother hnext ?_)
          rintro _ _ _ rfl
          cases hshared
      | connect _ hnext => exact .inl (hother hnext fun _ _ _ => NetworkEvent.noConfusion)
      | @dispatch id' call job jobID walletID network hcall hphase hnext =>
          rcases (Network.step_of_next hnext).dispatch_before hdispatch with
            ⟨old, hold, -, hpayload⟩ | heq
          · exact .inl ⟨old, hold, hpayload⟩
          · obtain ⟨-, -, hpayload⟩ := NetworkEvent.dispatch.inj heq
            refine .inr ⟨call, (Table.mem_of_select hcall).1, job, ?_, hpayload.symm⟩
            rw [Call.current, hphase]
      | hello _ _ _ _ | refuseHello _ => cases hlocal
      | service _ _ | deliver _ _ _ => exact .inl ⟨dispatch, hdispatch, rfl⟩
  | hello hstep =>
      cases hstep with
      | refuseHello hnext => exact .inl (hother hnext fun _ _ _ => NetworkEvent.noConfusion)
      | hello _ _ _ hnext => exact .inl (hother hnext fun _ _ _ => NetworkEvent.noConfusion)
  | @request _ _ r _ _ _ => cases r <;> exact .inl ⟨dispatch, hdispatch, rfl⟩
  | disconnect _ hnext => exact .inl (hother hnext fun _ _ _ => NetworkEvent.noConfusion)
  | _ => exact .inl ⟨dispatch, hdispatch, rfl⟩

theorem NamedJobs.step (h : NamedJobs m) (hstep : m.Step P cfg e m') : NamedJobs m' := by
  constructor
  · intro call hcall job hcurrent
    rcases calls_of_step hstep with hsame | ⟨e', hnext, -⟩
    · rw [hsame] at hcall
      exact h.current call hcall job hcurrent
    · rcases calls_before hnext hcall with hkept | hreceived | ⟨old, hold, db, hstepped⟩
      · exact h.current call hkept job hcurrent
      · rw [Call.current, hreceived] at hcurrent
        cases hcurrent
      · rcases current_of_transition hstepped.transition hcurrent with hbefore | hphase
        · exact h.current old hold job hbefore
        · obtain ⟨env, -, hadvance⟩ := advanced_of_stepped hstepped hphase
          exact ⟨env.now, (routed_of_advance hadvance hphase).2.2.2⟩
  · intro id dispatch hdispatch
    rcases payload_before hstep hdispatch with ⟨old, hold, hpayload⟩ | ⟨call, hcall, job, hjob, heq⟩
    · rw [hpayload]
      exact h.dispatched id old hold
    · rw [heq]
      exact h.current call hcall job hjob

theorem namedJobs_of_reaches (hreach : (marketMachine P cfg).Reaches Machine.anyStep es m) :
    NamedJobs m := by
  refine hreach.invariant NamedJobs ?_ ?_
  · intro m hstart
    obtain ⟨⟨-, hcalls⟩, hnetwork, -⟩ := hstart
    constructor
    · intro call hcall
      rw [hcalls] at hcall
      exact absurd hcall List.not_mem_nil
    · intro id dispatch hdispatch
      rw [hnetwork] at hdispatch
      cases hdispatch
  · intro m e m' hnamed hnext _
    exact hnamed.step (Market.step_of_next hnext)

end Names

/-! ## One instance -/

/-- Every row of an instance has a heartbeat that is no older than a time. -/
def BeatSince (bound : Int) (instanceID : UUID) (r : Registry) : Prop :=
  ∀ inst ∈ r.catalog.instances, inst.id = instanceID →
    ∃ beat ∈ inst.lastHeartbeatAt, bound ≤ (beat : Int)

section Change

variable {now : Nat} {r r' : Registry} {facts : List Fact} {bound cutoff : Int} {instanceID : UUID}

/-- A row that is written keeps its id, and its heartbeat or has one of its own time. -/
theorem beatSince_update {κ : Type} [DecidableEq κ] {key : InstanceRow → κ} {k : κ}
    {change : InstanceRow → InstanceRow} (hbound : bound ≤ now)
    (hbeat : BeatSince bound instanceID r)
    (hid : ∀ row, (change row).id = row.id)
    (hchange : ∀ row, (change row).lastHeartbeatAt = row.lastHeartbeatAt ∨
      (change row).lastHeartbeatAt = some now) :
    BeatSince bound instanceID
      (r.withInstances (Table.update key r.catalog.instances k change)) := by
  refine beats_update hbeat fun row hinstance => ?_
  rcases hchange row with hsame | hnew
  · exact .inl ⟨(hid row).symm.trans hinstance, hsame⟩
  · exact .inr ⟨now, hnew, hbound⟩

/-- No statement makes the heartbeat of an instance older. -/
theorem BeatSince.change (hbeat : BeatSince bound instanceID r) (hbound : bound ≤ now)
    (h : r.Change now facts r') : BeatSince bound instanceID r' := by
  cases h with
  | disable _ => exact beatSince_update hbound hbeat (fun _ => rfl) fun _ => .inl rfl
  | connect _ => exact beatSince_update hbound hbeat (fun _ => rfl) fun _ => .inr rfl
  | beat _ => exact beatSince_update hbound hbeat (fun _ => rfl) fun _ => .inr rfl
  | join _ _ hnow =>
      intro inst hinst hinstance
      rcases List.mem_append.mp hinst with hold | hnew
      · exact hbeat inst hold hinstance
      · obtain rfl := List.mem_singleton.mp hnew
        exact ⟨now, hnow, hbound⟩
  | expire =>
      intro inst hinst hinstance
      obtain ⟨old, hold, rfl⟩ := List.mem_map.mp hinst
      unfold InstanceRow.expire at hinstance ⊢
      split at hinstance
      · rename_i hexpired
        rw [if_pos hexpired]
        exact hbeat old hold hinstance
      · rename_i hkept
        rw [if_neg hkept]
        exact hbeat old hold hinstance
  | _ => exact hbeat

theorem BeatSince.mono {bound' : Int} (hle : bound' ≤ bound)
    (hbeat : BeatSince bound instanceID r) : BeatSince bound' instanceID r := by
  intro inst hinst hinstance
  obtain ⟨beat, hlast, hbound⟩ := hbeat inst hinst hinstance
  exact ⟨beat, hlast, hle.trans hbound⟩

/-- A sweep leaves an instance alone whose heartbeat is not before its cutoff. -/
theorem expire_eq_self (hbeat : BeatSince cutoff instanceID r) {inst : InstanceRow}
    (hinst : inst ∈ r.catalog.instances) (hinstance : inst.id = instanceID) :
    InstanceRow.expire cutoff inst = inst := by
  unfold InstanceRow.expire
  refine if_neg ?_
  rintro ⟨-, beat, hold, hlt⟩
  obtain ⟨beat', hbeat', hle⟩ := hbeat inst hinst hinstance
  obtain rfl := Option.some.inj (hold.symm.trans hbeat')
  exact absurd hlt (not_lt.mpr hle)

end Change

section Runs

variable {P : Platform} {cfg : Config} {m m' : Market} {es : List MarketEvent} {bound : Int}
  {instanceID : UUID}

/-- Nothing that happens later makes the heartbeat of an instance older. -/
theorem beatSince_of_steps (hlater : (marketMachine P cfg).Steps Machine.anyStep m es m')
    (hbeat : BeatSince bound instanceID (registry m.db)) (hbound : bound ≤ m.clock) :
    BeatSince bound instanceID (registry m'.db) :=
  (registry_of_steps (fun _ _ _ _ hle hbeat hchange => hbeat.change hle hchange) hlater hbeat
    hbound).1

end Runs

/-! ## The contract -/

/-- A heartbeat of an instance is taken: its statement succeeds, and leaves the status, the
job and the time in the row. -/
structure Taken (m m' : Market) (instanceID : UUID) (status : String)
    (currentJobID : Option String) : Prop where
  accepted : providerHeartbeat m.clock instanceID status currentJobID m.db = .ok m'.db
  written : ∃ inst ∈ m'.db.catalog.instances, inst.id = instanceID ∧
    some inst.status = instanceStatusOf status ∧
    inst.currentJobID.isSome = currentJobID.isSome ∧ inst.lastHeartbeatAt = some m.clock

section Contract

variable {P : Platform} {cfg : Config} {m m' : Market} {es : List MarketEvent} {session : Session}
  {conn : ConnID} {instanceID : UUID} {status : String} {currentJobID : Option String}

/-- The statuses that a session may report. -/
def Reportable (status : String) : Prop :=
  status = "online" ∨ status = "busy" ∨ status = "draining"

/-- A heartbeat without a job is what `InstanceRow.beat` makes of the row. -/
theorem providerHeartbeat_none (now : Nat) (instanceID : UUID) (db : DB)
    (hstatus : Reportable status) :
    ∃ parsed, instanceStatusOf status = some parsed ∧
      providerHeartbeat now instanceID status none db = .ok { db with catalog := { db.catalog with
        instances := Table.update InstanceRow.id db.catalog.instances instanceID
          (InstanceRow.beat now parsed none) } } := by
  rcases hstatus with rfl | rfl | rfl
  · exact ⟨.online, rfl, rfl⟩
  · exact ⟨.busy, rfl, rfl⟩
  · exact ⟨.draining, rfl, rfl⟩

/-- A heartbeat with a text that is no UUID fails. -/
theorem providerHeartbeat_error (now : Nat) (instanceID : UUID) (status : String) (db : DB)
    {jobID : String} (hjob : uuidOf jobID = none) :
    ∃ e, providerHeartbeat now instanceID status (some jobID) db = .error e := by
  unfold providerHeartbeat
  split
  · exact ⟨_, rfl⟩
  · refine ⟨.invalidText, ?_⟩
    unfold updateProviderHeartbeat
    rw [Option.elim_some, hjob]
    rfl

/-- The id of a job that was sent is no UUID. -/
theorem uuidOf_of_sentJob (hreach : (marketMachine P cfg).Reaches Machine.anyStep es m)
    {jobID : String} (hsent : SentJob m jobID) : uuidOf jobID = none := by
  obtain ⟨id, dispatch, hdispatch, -, rfl⟩ := hsent
  obtain ⟨now, hname⟩ := (namedJobs_of_reaches hreach).dispatched id dispatch hdispatch
  rw [hname]
  exact uuidOf_jobPublicID now

/-- What a session that reads makes of a heartbeat. -/
theorem next_heartbeat (P : Platform) (cfg : Config)
    (hsession : m.api.network.session conn = some session) (hphase : session.phase = .reading)
    (hinstance : session.instanceID = some instanceID) (status : String)
    (currentJobID : Option String) :
    m.next P cfg (.frame conn (.heartbeat status currentJobID)) =
      some (m.on (orSame m.db
        (providerHeartbeat m.clock instanceID status currentJobID m.db))) := by
  simp only [Market.next, hsession, Option.bind_eq_bind, Option.bind_some, hphase, hinstance,
    ProviderFrame.possible, and_self, if_true, ProviderFrame.run]

/-- A heartbeat without a job is taken. -/
theorem taken_of_none (hlinked : Linked (registry m.db) m.api.network)
    (hsession : m.api.network.session conn = some session)
    (hinstance : session.instanceID = some instanceID) (hstatus : Reportable status) :
    Taken m (m.on (orSame m.db (providerHeartbeat m.clock instanceID status none m.db)))
        instanceID status none ∧
      BeatSince m.clock instanceID (registry
        (m.on (orSame m.db (providerHeartbeat m.clock instanceID status none m.db))).db) := by
  obtain ⟨parsed, hparsed, hrun⟩ := providerHeartbeat_none m.clock instanceID m.db hstatus
  rw [hrun]
  refine ⟨⟨hrun, ?_⟩, ?_⟩
  · obtain ⟨row, hrow, hid, -⟩ := hlinked.inst conn session instanceID hsession hinstance
    refine ⟨InstanceRow.beat m.clock parsed none row, Table.mem_update.mpr ⟨row, hrow, ?_⟩, hid,
      hparsed.symm, rfl, rfl⟩
    rw [if_pos hid]
  · intro inst hinst hid
    obtain ⟨old, -, rfl⟩ := Table.mem_update.mp hinst
    split at hid
    · rename_i hkey
      rw [if_pos hkey]
      exact ⟨m.clock, rfl, le_refl _⟩
    · rename_i hkey
      exact absurd hid hkey

/-- A sweep whose cutoff is not after the heartbeat of an instance leaves its rows. -/
theorem kept_by_sweep {now : Nat} {bound : Int} (hnext : m.next P cfg (.sweep now) = some m')
    (hbeat : BeatSince bound instanceID (registry m.db)) (hbound : offlineCutoff cfg now ≤ bound) :
    ∀ inst ∈ m'.db.catalog.instances, inst.id = instanceID → inst ∈ m.db.catalog.instances := by
  intro inst hinst hid
  cases Market.step_of_next hnext with
  | sweep _ =>
      obtain ⟨old, hold, rfl⟩ := List.mem_map.mp hinst
      rw [InstanceRow.expire_id] at hid
      rw [expire_eq_self (hbeat.mono hbound) hold hid]
      exact hold

/-- In every run, a heartbeat that the read loop of a session reads after its hello, whose job is
none or one that the server sent, is taken exactly if it has no job.  From a heartbeat that is
taken, no sweep of the rest of the run changes the instance until the timeout has passed. -/
theorem heartbeat_is_taken_iff (hreach : (marketMachine P cfg).Reaches Machine.anyStep es m)
    (hsession : m.api.network.session conn = some session) (hphase : session.phase = .reading)
    (hinstance : session.instanceID = some instanceID) (hstatus : Reportable status)
    (hjob : ∀ jobID ∈ currentJobID, SentJob m jobID) :
    ∃ m', m.next P cfg (.frame conn (.heartbeat status currentJobID)) = some m' ∧
      (Taken m m' instanceID status currentJobID ↔ currentJobID = none) ∧
      (currentJobID = none → ∀ es' m₂ now m₃,
        (marketMachine P cfg).Steps Machine.anyStep m' es' m₂ →
        m₂.next P cfg (.sweep now) = some m₃ → offlineCutoff cfg now ≤ m.clock →
          ∀ inst ∈ m₃.db.catalog.instances, inst.id = instanceID →
            inst ∈ m₂.db.catalog.instances) := by
  refine ⟨_, next_heartbeat P cfg hsession hphase hinstance status currentJobID, ?_, ?_⟩
  · constructor
    · intro htaken
      cases hcurrent : currentJobID with
      | none => rfl
      | some jobID =>
          -- The text of the job is no UUID.
          have hnone := uuidOf_of_sentJob hreach (hjob jobID hcurrent)
          obtain ⟨e, hrun⟩ := providerHeartbeat_error m.clock instanceID status m.db hnone
          have haccepted := htaken.accepted
          rw [hcurrent, hrun] at haccepted
          cases haccepted
    · rintro rfl
      exact (taken_of_none (linked_of_reaches hreach).2 hsession hinstance hstatus).1
  · rintro rfl es' m₂ now m₃ hlater hsweep hcutoff
    obtain ⟨-, hbeat⟩ := taken_of_none (linked_of_reaches hreach).2 hsession hinstance hstatus
    exact kept_by_sweep hsweep (beatSince_of_steps hlater hbeat (le_refl _)) hcutoff

end Contract

/-! ## Sample runs -/

/-- The id of the job of the sample request. -/
def sampleJobID : String := jobPublicID "20250101000000.000000000"

/-- The sample machine is asked for an answer. -/
def workingEvents : List MarketEvent :=
  openingEvents ++ requestEvents none ++ [.api (.network (.write 0 none)), .tick 40000000]

/-- What holds when the sample machine is at work. -/
theorem working_run :
    (runMarket (fun _ _ _ => true) workingEvents).isSome ∧
      ∃ session ∈ (marketAfter workingEvents).api.network.session 0,
        session.phase = .reading ∧ session.instanceID = some 24 := by
  decide +kernel

/-- The sample machine keeps its instance by a heartbeat without the job. -/
theorem sample_heartbeat_is_taken :
    ∃ m', (marketAfter workingEvents).next samplePlatform sampleConfig
        (.frame 0 (.heartbeat "busy" none)) = some m' ∧
      (Taken (marketAfter workingEvents) m' 24 "busy" none ↔ (none : Option String) = none) ∧
      ((none : Option String) = none → ∀ es' m₂ now m₃,
        (marketMachine samplePlatform sampleConfig).Steps Machine.anyStep m' es' m₂ →
        m₂.next samplePlatform sampleConfig (.sweep now) = some m₃ →
        offlineCutoff sampleConfig now ≤ (marketAfter workingEvents).clock →
          ∀ inst ∈ m₃.db.catalog.instances, inst.id = 24 → inst ∈ m₂.db.catalog.instances) := by
  obtain ⟨hrun, session, hsession, hphase, hinstance⟩ := working_run
  exact heartbeat_is_taken_iff (reaches_marketAfter hrun) hsession hphase hinstance
    (.inr (.inl rfl)) fun jobID hjobID => absurd hjobID (Option.not_mem_none jobID)

/-- The heartbeat of the machine with its job, and a sweep ten seconds later. -/
def namingEvents : List MarketEvent :=
  [.frame 0 (.heartbeat "busy" (some sampleJobID)), .tick 10000000, .sweep 50000000]

/-- The heartbeat names the job that was sent, and changes nothing: the machine, whose
heartbeat is ten seconds old, is offline after the sweep. -/
theorem machine_at_work_goes_offline :
    ∃ m m', (marketMachine samplePlatform sampleConfig).Reaches Machine.anyStep workingEvents m ∧
      SentJob m sampleJobID ∧
      (∃ session ∈ m.api.network.session 0, session.phase = .reading ∧
        session.instanceID = some 24) ∧
      m.next samplePlatform sampleConfig (.frame 0 (.heartbeat "busy" (some sampleJobID))) =
        some m' ∧
      m'.db.catalog.instances = m.db.catalog.instances ∧
      ¬ Taken m m' 24 "busy" (some sampleJobID) ∧
      (∃ inst ∈ m.db.catalog.instances, inst.id = 24 ∧ inst.status = .online) ∧
      ∃ m₃, (marketMachine samplePlatform sampleConfig).Reaches Machine.anyStep
          (workingEvents ++ namingEvents) m₃ ∧
        offlineCutoff sampleConfig 50000000 ≤ m.clock ∧
        ∃ inst ∈ m₃.db.catalog.instances, inst.id = 24 ∧ inst.status = .offline := by
  obtain ⟨hrun, session, hsession, hphase, hinstance⟩ := working_run
  have hsent : ∃ dispatch ∈ (marketAfter workingEvents).api.network.dispatch 0,
      dispatch.phase = .waiting 0 ∧ dispatch.payload.jobID = sampleJobID := by
    decide +kernel
  have honline : ∃ inst ∈ (marketAfter workingEvents).db.catalog.instances,
      inst.id = 24 ∧ inst.status = .online := by
    decide +kernel
  have hlater : (runMarket (fun _ _ _ => true) (workingEvents ++ namingEvents)).isSome ∧
      offlineCutoff sampleConfig 50000000 ≤ (marketAfter workingEvents).clock ∧
      ∃ inst ∈ (marketAfter (workingEvents ++ namingEvents)).db.catalog.instances,
        inst.id = 24 ∧ inst.status = .offline := by
    decide +kernel
  obtain ⟨e, herror⟩ := providerHeartbeat_error (marketAfter workingEvents).clock 24 "busy"
    (marketAfter workingEvents).db (uuidOf_jobPublicID "20250101000000.000000000")
  have hnext := next_heartbeat samplePlatform sampleConfig hsession hphase hinstance "busy"
    (some sampleJobID)
  refine ⟨_, _, reaches_marketAfter hrun, ?_, ⟨session, hsession, hphase, hinstance⟩, hnext, ?_,
    fun htaken => ?_, honline, _, reaches_marketAfter hlater.1, hlater.2⟩
  · obtain ⟨dispatch, hdispatch, hwaiting, hjobID⟩ := hsent
    refine ⟨0, dispatch, hdispatch, ?_, hjobID⟩
    rw [hwaiting]
    trivial
  · rw [sampleJobID, herror]
    rfl
  · have haccepted := htaken.accepted
    rw [sampleJobID, herror] at haccepted
    cases haccepted

end Nuvonode.Contract
