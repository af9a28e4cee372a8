/-
  Contract/Occupancy.lean --- one job for each machine.

  `FindRoutableProvider` reads the status of an instance, and nothing marks an instance as
  taken: until its machine reports that it is busy, every request is routed to it.  A run
  has one job for each instance where a request finds a route only to an instance that no
  open request was routed to and that no dispatched job row names, and where a machine
  reports that it is busy or draining only when no request waits to be written to it.  The
  rows matter beside the requests: a job whose settlement failed stays dispatched when its
  request is over.
-/
import Nuvonode.Contract.Moderation

set_option autoImplicit false

namespace Nuvonode.Contract

open Nuvonode.Foundation Nuvonode.Database Nuvonode.Repository Nuvonode.Service Nuvonode.Handler
  Nuvonode.Ws

/-! ## The job of a request -/

/-- The job of a request that has a route, and has neither been refused nor answered. -/
def Call.current (call : Call) : Option ChatJob :=
  match call.phase with
  | .routed job | .created job _ | .reserved job _ _ | .dispatched job _ _
  | .failing job _ _ _ | .released job _ _ _ | .answered job _ _ _
  | .unsettled job _ _ _ => some job
  | _ => none

/-- The instance that an open request was routed to. -/
def Call.occupies (call : Call) : Option UUID :=
  (Call.current call).map fun job => job.route.providerInstanceID

/-- Whether the job of a request has been dispatched, and has neither been completed nor
failed. -/
def Call.inFlight (call : Call) : Bool :=
  match call.phase with
  | .dispatched .. | .failing .. | .released .. | .answered .. | .unsettled .. => true
  | _ => false

/-- A job that has been dispatched to an instance, and whose row says neither that it has
succeeded nor that it has failed. -/
def RunsOn (db : DB) (jobID instanceID : UUID) : Prop :=
  ∃ row, db.job jobID = some row ∧ row.status = .dispatched ∧
    row.providerInstanceID = some instanceID

/-- The instance of the route that a request finds. -/
def Call.selects (env : Env) (call : Call) : Option UUID :=
  match call.phase with
  | .modelFound .. => env.route.map RoutableProvider.providerInstanceID
  | _ => none

/-- Whether a request waits to be written to an instance. -/
def Waits (m : Market) (call : Call) (instanceID : UUID) : Prop :=
  match call.phase with
  | .routed job | .created job _ | .reserved job _ _ => job.route.providerInstanceID = instanceID
  | .dispatched job _ _ => job.route.providerInstanceID = instanceID ∧
      ∀ dispatch ∈ m.api.network.dispatch call.id, ¬ dispatch.Written
  | _ => False

/-- Whether no open request was routed to an instance, and no job is dispatched to it. -/
def Free (s : ChatService) (instanceID : UUID) : Prop :=
  (∀ call ∈ s.calls, Call.occupies call ≠ some instanceID) ∧
    ∀ jobID, ¬ RunsOn s.db jobID instanceID

/-- The guard.  A request finds a route only to an instance that is free, and an instance
reports that it is busy or draining only when no request waits to be written to it. -/
def OneAtATime (m : Market) (e : MarketEvent) (_ : Market) : Prop :=
  match e with
  | .api (.service (.advance id env)) => ∀ call ∈ m.api.service.call id,
      ∀ instanceID ∈ Call.selects env call, Free m.api.service instanceID
  | .frame conn (.heartbeat status _) => status = "busy" ∨ status = "draining" →
      ∀ session ∈ m.api.network.session conn, ∀ instanceID ∈ session.instanceID,
        ∀ call ∈ m.api.service.calls, ¬ Waits m call instanceID
  | _ => True

/-! ## One step of a call -/

section Calls

variable {P : Platform} {cfg : Config} {s s' : ChatService} {e : ServiceEvent} {db db' : DB}
  {call call' : Call} {env : Env} {instanceID : UUID}

/-- What a step to a phase before the job does: it reads the request from a body that passes
the checks, finds its model in the table, or finds a route for it. -/
theorem search_of_advance (h : call.advance P cfg env db = some (db', call'))
    (hlater : call'.phase.Searching) :
    (∃ auth request, call.phase = .received ∧ call'.phase = .authenticated auth request ∧
      validate call.body = .ok request) ∨
    (∃ auth request model, call.phase = .authenticated auth request ∧
      call'.phase = .modelFound auth request model ∧
      activeModelBySlug request.model db = .ok model) ∨
    ∃ job, call.phase = .modelFound job.auth job.request job.model ∧ call'.phase = .routed job ∧
      env.route = some job.route ∧ findsRoute job.model.id db (some job.route) = true ∧
      job.publicID = jobPublicID env.now := by
  cases hcall : call.phase with
  | received =>
      simp only [Call.advance, hcall] at h
      split at h
      · cases h
        exact hlater.elim
      · split at h
        · cases h
          exact hlater.elim
        · rename_i hvalid
          cases h
          exact .inl ⟨_, _, rfl, rfl, hvalid⟩
  | authenticated auth request =>
      simp only [Call.advance, hcall] at h
      split at h
      · cases h
        exact hlater.elim
      · rename_i hmodel
        split at h
        · cases h
          exact hlater.elim
        · cases h
          exact .inr (.inl ⟨_, _, _, rfl, rfl, hmodel⟩)
  | modelFound auth request model =>
      simp only [Call.advance, hcall] at h
      split at h
      · rename_i hfinds
        split at h
        · cases h
          exact hlater.elim
        · rename_i route hroute
          cases h
          rw [hroute] at hfinds
          exact .inr (.inr ⟨_, rfl, rfl, hroute, hfinds, rfl⟩)
      · cases h
  | routed job =>
      simp only [Call.advance, hcall] at h
      split at h
      · cases h
        exact hlater.elim
      · cases h
        exact hlater.elim
  | _ =>
      -- No other phase leads back to the search.
      cases transition_of_advance h with
      | search hsearching _ =>
          rw [hcall] at hsearching
          exact hsearching.elim
      | _ => exact hlater.elim

/-- A request gets a route where one is found for its model, and a job that is named after
the time. -/
theorem routed_of_advance (h : call.advance P cfg env db = some (db', call')) {job : ChatJob}
    (hphase : call'.phase = .routed job) :
    call.phase = .modelFound job.auth job.request job.model ∧
      env.route = some job.route ∧ findsRoute job.model.id db (some job.route) = true ∧
      job.publicID = jobPublicID env.now := by
  rcases search_of_advance h (by rw [hphase]; trivial) with
    ⟨_, _, -, hnext, -⟩ | ⟨_, _, _, -, hnext, -⟩ | ⟨found, hfound, hnext, hrest⟩
  · cases hphase.symm.trans hnext
  · cases hphase.symm.trans hnext
  · cases hphase.symm.trans hnext
    exact ⟨hfound, hrest⟩

/-- No other step of a request leads to a route. -/
theorem advanced_of_stepped (h : Stepped P cfg s call e db call') {job : ChatJob}
    (hphase : call'.phase = .routed job) :
    ∃ env, e = .advance call.id env ∧ call.advance P cfg env s.db = some (db, call') := by
  cases h with
  | @advance env _ _ hadvance => exact ⟨env, rfl, hadvance⟩
  | @deliver outcome _ hdeliver =>
      unfold Call.deliver at hdeliver
      split at hdeliver
      · cases hdeliver
        cases outcome with
        | error err => cases hphase
        | ok frame =>
            simp only [Call.goto] at hphase
            split at hphase <;> cases hphase
      · cases hdeliver

theorem selects_of_stepped (h : Stepped P cfg s call e db call') {job : ChatJob}
    (hphase : call'.phase = .routed job) :
    ∃ env, e = .advance call.id env ∧
      Call.selects env call = some job.route.providerInstanceID ∧
      findsRoute job.model.id s.db (some job.route) = true := by
  obtain ⟨env, hevent, hadvance⟩ := advanced_of_stepped h hphase
  obtain ⟨hfound, hroute, hfinds, -⟩ := routed_of_advance hadvance hphase
  exact ⟨env, hevent, by simp [Call.selects, hfound, hroute], hfinds⟩

/-- A step of a request keeps its job, lets it go or finds a route for it. -/
theorem current_of_transition (h : Transition P db call db' call') {job : ChatJob}
    (hcurrent : Call.current call' = some job) :
    Call.current call = some job ∨ call'.phase = .routed job := by
  cases h with
  | search _ hnext =>
      rcases hnext with hsearching | ⟨response, rfl, -⟩
      · rename_i phase _
        cases phase with
        | routed other =>
            cases hcurrent
            exact .inr rfl
        | received | authenticated | modelFound => cases hcurrent
        | _ => exact hsearching.elim
      · cases hcurrent
  | create hphase | reserve hphase | dispatch hphase | fail hphase | answer hphase
  | release hphase | keep hphase | unsettle hphase =>
      rw [Call.current, hphase]
      exact .inl hcurrent
  | _ => cases hcurrent

/-- A step of a request keeps its instance, lets it go or finds a route. -/
theorem occupies_of_transition (h : Transition P db call db' call')
    (hoccupies : Call.occupies call' = some instanceID) :
    Call.occupies call = some instanceID ∨
      ∃ job, call'.phase = .routed job ∧ job.route.providerInstanceID = instanceID := by
  obtain ⟨job, hcurrent, hinstance⟩ := Option.map_eq_some_iff.mp hoccupies
  rcases current_of_transition h hcurrent with hold | hphase
  · exact .inl (Option.map_eq_some_iff.mpr ⟨job, hold, hinstance⟩)
  · exact .inr ⟨job, hphase, hinstance⟩

/-- A request that waits was waiting before its step, or has just found a route. -/
theorem waits_of_transition {m m' : Market} (h : Transition P db call db' call')
    (hwaits : Waits m' call' instanceID) :
    Waits m call instanceID ∨
      ∃ job, call'.phase = .routed job ∧ job.route.providerInstanceID = instanceID := by
  cases h with
  | search _ hnext =>
      rcases hnext with hsearching | ⟨response, rfl, -⟩
      · rename_i phase _
        cases phase with
        | routed job => exact .inr ⟨job, rfl, hwaits⟩
        | received | authenticated | modelFound => exact hwaits.elim
        | _ => exact hsearching.elim
      · exact hwaits.elim
  | create hphase | reserve hphase =>
      rw [Waits, hphase]
      exact .inl hwaits
  | dispatch hphase =>
      rw [Waits, hphase]
      exact .inl hwaits.1
  | _ => exact hwaits.elim

/-- No two open requests were routed to one instance. -/
def Exclusive (s : ChatService) : Prop :=
  ∀ call ∈ s.calls, ∀ other ∈ s.calls, ∀ instanceID, Call.occupies call = some instanceID →
    Call.occupies other = some instanceID → call = other

/-- Every step that finds a route only to a free instance keeps them apart. -/
theorem Exclusive.step (h : Exclusive s) (hnext : next P cfg s e = some s')
    (hselect : ∀ id env, e = .advance id env → ∀ call ∈ s.call id,
      ∀ instanceID ∈ Call.selects env call, Free s instanceID) : Exclusive s' := by
  cases kind_of_next hnext with
  | background _ => exact h
  | arrive _ =>
      intro call hcall other hother instanceID hoccupies hoccupies'
      rcases List.mem_append.mp hcall with hcall | hcall
      · rcases List.mem_append.mp hother with hother | hother
        · exact h call hcall other hother instanceID hoccupies hoccupies'
        · rw [List.mem_singleton.mp hother] at hoccupies'
          cases hoccupies'
      · rw [List.mem_singleton.mp hcall] at hoccupies
        cases hoccupies
  | @call stepped call' db hstepped hstep =>
      have htransition := hstep.transition
      obtain ⟨hmem, -⟩ := Table.mem_of_select hstepped
      -- No other request was routed to the instance of the one that is stepped.
      have hapart : ∀ other ∈ s.calls, other.id ≠ call'.id → ∀ instanceID,
          Call.occupies call' = some instanceID → Call.occupies other ≠ some instanceID := by
        intro other hother hne instanceID hoccupies hoccupies'
        rcases occupies_of_transition htransition hoccupies with hold | ⟨job, hphase, hinstance⟩
        · have hsame := h stepped hmem other hother instanceID hold hoccupies'
          rw [htransition.id_eq, hsame] at hne
          exact hne rfl
        · obtain ⟨env, rfl, hselects, -⟩ := selects_of_stepped hstep hphase
          rw [hinstance] at hselects
          exact (hselect _ _ rfl stepped hstepped instanceID hselects).1 other hother hoccupies'
      intro a ha b hb instanceID hoa hob
      rcases ChatService.mem_put ha with rfl | ⟨holda, hnea⟩
      · rcases ChatService.mem_put hb with rfl | ⟨holdb, hneb⟩
        · rfl
        · exact absurd hob (hapart b holdb hneb instanceID hoa)
      · rcases ChatService.mem_put hb with rfl | ⟨holdb, hneb⟩
        · exact absurd hoa (hapart a holda hnea instanceID hob)
        · exact h a holda b holdb instanceID hoa hob

/-! ## The dispatched jobs -/

/-- A job that a row update leaves dispatched is another one, or the one it was about. -/
theorem runsOn_update (change : JobRow → JobRow) {jobID updated : UUID}
    (hid : ∀ row, (change row).id = row.id)
    (hjobs : db'.inferenceJobs = Table.update JobRow.id db.inferenceJobs updated change)
    (hruns : RunsOn db' jobID instanceID) : RunsOn db jobID instanceID ∨
      jobID = updated ∧ ∃ row, db.job updated = some row ∧ (change row).status = .dispatched ∧
        (change row).providerInstanceID = some instanceID := by
  obtain ⟨row, hrow, hstatus, hinstance⟩ := hruns
  rw [DB.job, hjobs] at hrow
  by_cases hsame : jobID = updated
  · subst hsame
    rw [Table.select_update_self hid] at hrow
    obtain ⟨old, hold, rfl⟩ := Option.map_eq_some_iff.mp hrow
    exact .inr ⟨rfl, old, hold, hstatus, hinstance⟩
  · rw [Table.select_update_of_ne hid hsame] at hrow
    exact .inl ⟨row, hrow, hstatus, hinstance⟩

theorem runsOn_congr {jobID : UUID} (hjobs : db'.inferenceJobs = db.inferenceJobs)
    (hruns : RunsOn db' jobID instanceID) : RunsOn db jobID instanceID := by
  obtain ⟨row, hrow, hboth⟩ := hruns
  exact ⟨row, by rwa [DB.job, hjobs] at hrow, hboth⟩

/-- No job is dispatched by a failure that is recorded. -/
theorem runsOn_markJobFailed {failed jobID : UUID} {code message : String}
    (hruns : RunsOn (afterwards (markJobFailed failed .failed code message) db) jobID instanceID) :
    RunsOn db jobID instanceID := by
  rcases afterwards_markJobFailed db failed with hsame | ⟨-, stats, hfailed⟩
  · rwa [hsame] at hruns
  · rw [hfailed] at hruns
    rcases runsOn_update (JobRow.fail .failed code message) (fun _ => rfl) rfl hruns
      with hold | ⟨-, row, -, hstatus, -⟩
    · exact hold
    · cases hstatus

/-- A job is dispatched before the step of a request, or by it. -/
theorem runsOn_before (h : Transition P db call db' call') (hinv : CallInv P db call)
    {jobID : UUID} (hruns : RunsOn db' jobID instanceID) : RunsOn db jobID instanceID ∨
      ∃ job walletID, call.phase = .reserved job jobID walletID ∧
        job.route.providerInstanceID = instanceID := by
  cases h with
  | create hphase hfree hparties =>
      obtain ⟨row, hrow, hstatus, hinstance⟩ := hruns
      rw [DB.job, DB.apply, Table.select_insert] at hrow
      rcases Option.or_eq_some_iff.mp hrow with hold | ⟨-, hnew⟩
      · exact .inl ⟨row, hold, hstatus, hinstance⟩
      · split at hnew
        · cases hnew
          cases hstatus
        · cases hnew
  | reserve _ _ _ hposted | release _ hposted | returnCredits _ hposted =>
      exact .inl (runsOn_congr (by rw [hposted.frame]) hruns)
  | recordRefusal | recordFailure => exact .inl (runsOn_markJobFailed hruns)
  | @dispatch job dispatched walletID hphase =>
      rcases runsOn_update JobRow.dispatch (fun _ => rfl) rfl hruns
        with hold | ⟨rfl, row, hrow, -, hinstance⟩
      · exact .inl hold
      · simp only [CallInv, hphase] at hinv
        obtain rfl := Option.some.inj (hinv.2.2.pending.row.symm.trans hrow)
        exact .inr ⟨job, walletID, hphase, Option.some.inj hinstance⟩
  | settle hphase hsettled =>
      obtain ⟨source, -, hjobs⟩ := hsettled.tables
      rcases runsOn_update (JobRow.settle _ _) (fun _ => rfl) hjobs hruns with
        hold | ⟨-, row, -, hstatus, -⟩
      · exact .inl hold
      · cases hstatus
  | _ => exact .inl hruns

/-- A request keeps the job that it has. -/
theorem jobID_of_transition (h : Transition P db call db' call') (hinv : CallInv P db call)
    {jobID : UUID} (hjobID : call.jobID = some jobID) : call'.jobID = some jobID := by
  cases h with
  | create hphase =>
      simp only [CallInv, hphase] at hinv
      rw [hinv.1] at hjobID
      cases hjobID
  | _ => exact hjobID

/-- At most one job is dispatched to an instance, and it is that of the open request that was
routed there, if there is one. -/
structure Assigned (s : ChatService) : Prop where
  single : ∀ instanceID jobID other, RunsOn s.db jobID instanceID → RunsOn s.db other instanceID →
    jobID = other
  own : ∀ call ∈ s.calls, ∀ instanceID jobID, Call.occupies call = some instanceID →
    RunsOn s.db jobID instanceID → call.jobID = some jobID

/-- Every step that finds a route only to a free instance keeps the jobs assigned. -/
theorem Assigned.step (h : Assigned s) (hinv : Invariant P s) (hexclusive : Exclusive s)
    (hnext : next P cfg s e = some s')
    (hselect : ∀ id env, e = .advance id env → ∀ call ∈ s.call id,
      ∀ instanceID ∈ Call.selects env call, Free s instanceID) : Assigned s' := by
  cases kind_of_next hnext with
  | background hstep =>
      exact ⟨fun instanceID jobID other hruns hother =>
          h.single instanceID jobID other (runsOn_congr hstep.jobs hruns)
            (runsOn_congr hstep.jobs hother),
        fun call hcall instanceID jobID hoccupies hruns =>
          h.own call hcall instanceID jobID hoccupies (runsOn_congr hstep.jobs hruns)⟩
  | arrive _ =>
      refine ⟨h.single, fun call hcall instanceID jobID hoccupies hruns => ?_⟩
      rcases List.mem_append.mp hcall with hold | hnew
      · exact h.own call hold instanceID jobID hoccupies hruns
      · rw [List.mem_singleton.mp hnew] at hoccupies
        cases hoccupies
  | @call stepped call' db hstepped hstep =>
      have htransition := hstep.transition
      obtain ⟨hmem, -⟩ := Table.mem_of_select hstepped
      have hstepInv := hinv.calls stepped hmem
      -- A job that the step dispatches is that of the stepped request.
      have hbefore : ∀ {instanceID jobID}, RunsOn db jobID instanceID →
          RunsOn s.db jobID instanceID ∨ stepped.jobID = some jobID ∧
            Call.occupies stepped = some instanceID ∧ ∀ env, Call.selects env stepped = none := by
        intro instanceID jobID hruns
        rcases runsOn_before htransition hstepInv hruns with hold | ⟨job, walletID, hphase, rfl⟩
        · exact .inl hold
        · simp only [CallInv, hphase] at hstepInv
          exact .inr ⟨hstepInv.1, by rw [Call.occupies, Call.current, hphase]; rfl,
            fun env => by rw [Call.selects, hphase]⟩
      refine ⟨fun instanceID jobID other hruns hother => ?_,
        fun call hcall instanceID jobID hoccupies hruns => ?_⟩
      · rcases hbefore hruns with hold | ⟨hjobID, hoccupies, -⟩
        · rcases hbefore hother with hold' | ⟨hjobID', hoccupies', -⟩
          · exact h.single instanceID jobID other hold hold'
          · exact Option.some.inj ((h.own stepped hmem instanceID jobID hoccupies' hold).symm.trans
              hjobID')
        · rcases hbefore hother with hold' | ⟨hjobID', -, -⟩
          · exact Option.some.inj (hjobID.symm.trans
              (h.own stepped hmem instanceID other hoccupies hold'))
          · exact Option.some.inj (hjobID.symm.trans hjobID')
      · rcases ChatService.mem_put hcall with rfl | ⟨hkept, hne⟩
        · rcases occupies_of_transition htransition hoccupies with hheld | ⟨job, hphase, rfl⟩
          · refine jobID_of_transition htransition hstepInv ?_
            rcases hbefore hruns with hold | ⟨hjobID, -, -⟩
            · exact h.own stepped hmem instanceID jobID hheld hold
            · exact hjobID
          · obtain ⟨env, rfl, hselects, -⟩ := selects_of_stepped hstep hphase
            rcases hbefore hruns with hold | ⟨-, -, hnone⟩
            · exact absurd hold ((hselect _ _ rfl stepped hstepped _ hselects).2 jobID)
            · rw [hnone env] at hselects
              cases hselects
        · rcases hbefore hruns with hold | ⟨-, hheld, -⟩
          · exact h.own call hkept instanceID jobID hoccupies hold
          · obtain rfl := hexclusive call hkept stepped hmem instanceID hoccupies hheld
            exact absurd htransition.id_eq.symm hne

end Calls

/-! ## One step of the market -/

section Steps

variable {P : Platform} {cfg : Config} {m m' : Market} {e : MarketEvent} {call : Call}
  {instanceID : UUID}

/-- A step of the market is one of the requests, or leaves them and their jobs alone. -/
theorem service_of_step (h : m.Step P cfg e m') :
    (m'.api.service.calls = m.api.service.calls ∧
        m'.api.service.db.inferenceJobs = m.api.service.db.inferenceJobs) ∨
      ∃ e', next P cfg m.api.service e' = some m'.api.service ∧
        (e = .api (.service e') ∨ isDeliver e' = true) := by
  cases h with
  | api _ hstep =>
      cases hstep with
      | service _ hnext => exact .inr ⟨_, hnext, .inl rfl⟩
      | deliver _ _ hnext => exact .inr ⟨_, hnext, .inr rfl⟩
      | _ => exact .inl ⟨rfl, rfl⟩
  | hello hstep => cases hstep <;> exact .inl ⟨rfl, rfl⟩
  | frame _ _ _ hpossible hrun =>
      have hbackground := background_of_registers (registers_frame hpossible hrun)
      exact .inl ⟨rfl, hbackground.jobs⟩
  | @request _ _ r _ _ hrun =>
      have hbackground := background_of_registers (registers_request hrun)
      cases r <;> exact .inl ⟨rfl, hbackground.jobs⟩
  | _ => exact .inl ⟨rfl, rfl⟩

theorem calls_of_step (h : m.Step P cfg e m') :
    m'.api.service.calls = m.api.service.calls ∨
      ∃ e', next P cfg m.api.service e' = some m'.api.service ∧
        (e = .api (.service e') ∨ isDeliver e' = true) :=
  (service_of_step h).imp_left And.left

/-- A request is the one it was, has just arrived or was stepped. -/
theorem calls_before {s s' : ChatService} {e : ServiceEvent} (hnext : next P cfg s e = some s')
    (hcall : call ∈ s'.calls) :
    call ∈ s.calls ∨ call.phase = .received ∨
      ∃ old ∈ s.calls, ∃ db, Stepped P cfg s old e db call := by
  cases kind_of_next hnext with
  | background _ => exact .inl hcall
  | arrive _ =>
      rcases List.mem_append.mp hcall with hold | hnew
      · exact .inl hold
      · rw [List.mem_singleton.mp hnew]
        exact .inr (.inl rfl)
  | call hold hstep =>
      rcases ChatService.mem_put hcall with rfl | ⟨hkept, -⟩
      · exact .inr (.inr ⟨_, (Table.mem_of_select hold).1, _, hstep⟩)
      · exact .inl hkept

/-- A request that is not stepped was waiting before, where it waits afterwards. -/
theorem waits_of_network (h : m.Step P cfg e m') (hwaits : Waits m' call instanceID) :
    Waits m call instanceID := by
  unfold Waits at hwaits ⊢
  split at hwaits
  all_goals first | exact hwaits | skip
  refine ⟨hwaits.1, fun dispatch hdispatch hwritten => ?_⟩
  rcases h.network_part with hsame | ⟨e', hconnects⟩
  · exact hwaits.2 dispatch (hsame ▸ hdispatch) hwritten
  · obtain ⟨dispatch', hdispatch', hwritten'⟩ := hconnects.step.written_after hdispatch hwritten
    exact hwaits.2 dispatch' hdispatch' hwritten'

/-- A request that waits was waiting before, or has just found a route. -/
theorem waits_before (h : m.Step P cfg e m') (hcall : call ∈ m'.api.service.calls)
    (hwaits : Waits m' call instanceID) :
    (∃ old ∈ m.api.service.calls, Waits m old instanceID) ∨
      ∃ id env, ∃ job : ChatJob, e = .api (.service (.advance id env)) ∧
        job.route.providerInstanceID = instanceID ∧
        findsRoute job.model.id m.db (some job.route) = true := by
  rcases calls_of_step h with hsame | ⟨e', hnext, hevent⟩
  · rw [hsame] at hcall
    exact .inl ⟨call, hcall, waits_of_network h hwaits⟩
  · rcases calls_before hnext hcall with hkept | hreceived | ⟨old, hold, db, hstep⟩
    · exact .inl ⟨call, hkept, waits_of_network h hwaits⟩
    · rw [Waits, hreceived] at hwaits
      exact hwaits.elim
    · rcases waits_of_transition (m := m) hstep.transition hwaits with hbefore | ⟨job, hphase, hjob⟩
      · exact .inl ⟨old, hold, hbefore⟩
      · obtain ⟨env, rfl, -, hfinds⟩ := selects_of_stepped hstep hphase
        rcases hevent with rfl | hdeliver
        · exact .inr ⟨_, env, job, rfl, hjob, hfinds⟩
        · cases hdeliver

end Steps

/-! ## The invariant -/

/-- The last report of an instance is neither that it is busy nor that it is draining. -/
def Available (log : List Fact) (instanceID : UUID) : Prop :=
  latest (reportOf instanceID) log ≠ some .busy ∧ latest (reportOf instanceID) log ≠ some .draining

/-- Open requests have different instances, at most one job is dispatched to each, and a
request waits for one that is available. -/
structure Uncrowded (log : List Fact) (m : Market) : Prop where
  moderated : Moderated log (registry m.db)
  exclusive : Exclusive m.api.service
  assigned : Assigned m.api.service
  available : ∀ call ∈ m.api.service.calls, ∀ instanceID, Waits m call instanceID →
    Available log instanceID

/-- What a job row says of the request that it belongs to. -/
theorem inFlight_row {P : Platform} {db : DB} {call : Call} (h : CallInv P db call)
    (hinflight : Call.inFlight call) :
    ∃ job jobID row, Call.current call = some job ∧ call.jobID = some jobID ∧
      db.job jobID = some row ∧ row.status = .dispatched ∧
      row.providerInstanceID = some job.route.providerInstanceID := by
  unfold Call.inFlight at hinflight
  unfold CallInv at h
  cases hphase : call.phase with
  | dispatched job jobID | answered job jobID | unsettled job jobID =>
      rw [hphase] at h
      exact ⟨job, jobID, _, by rw [Call.current, hphase], h.1, h.2.2.pending.row, rfl, rfl⟩
  | failing job jobID | released job jobID =>
      rw [hphase] at h
      exact ⟨job, jobID, _, by rw [Call.current, hphase], h.1, h.2.2.1.pending.row, rfl, rfl⟩
  | _ =>
      rw [hphase] at hinflight
      cases hinflight

section Runs

variable {P : Platform} {cfg : Config} {m m' : Market} {e : MarketEvent} {log : List Fact}
  {es : List MarketEvent}

/-- What is available stays so, but for a heartbeat that says otherwise. -/
theorem Available.step {instanceID : UUID} (h : Available log instanceID)
    (hreport : ∀ conn session text job, e = .frame conn (.heartbeat text job) →
      m.api.network.session conn = some session → session.instanceID = some instanceID →
      text ≠ "busy" ∧ text ≠ "draining") :
    Available (log ++ m.shows P cfg e m') instanceID := by
  -- A new entry would be that of a heartbeat with the text of its status.
  have hsilent : ∀ status, status ≠ .online → latest (reportOf instanceID) log ≠ some status →
      (∀ text, instanceStatusOf text = some status → text = "busy" ∨ text = "draining") →
      latest (reportOf instanceID) (log ++ m.shows P cfg e m') ≠ some status := by
    intro status hne hbefore htexts hlatest
    rcases latest_append_eq_some hlatest with hold | ⟨fact, hfact, hview⟩
    · exact hbefore hold
    · obtain rfl : fact = .reported instanceID status := by
        cases fact with
        | reported id shown =>
            simp only [reportOf] at hview
            split at hview
            · rename_i hid
              rw [hid, Option.some.inj hview]
            · cases hview
        | _ => cases hview
      rcases reported_of_shows hfact with ⟨_, _, _, _, -, honline, -⟩ |
        ⟨conn, session, text, job, db, hevent, hsession, hinstance, hparsed, -⟩
      · exact hne honline
      · obtain ⟨hbusy, hdraining⟩ := hreport conn session text job hevent hsession hinstance
        rcases htexts text hparsed with htext | htext
        · exact hbusy htext
        · exact hdraining htext
  refine ⟨hsilent .busy (by decide) h.1 fun text hparsed => .inl ?_,
    hsilent .draining (by decide) h.2 fun text hparsed => .inr ?_⟩
  all_goals
    unfold instanceStatusOf at hparsed
    split_ifs at hparsed <;> first | assumption | cases hparsed

/-- Every step that meets the guard keeps the invariant. -/
theorem Uncrowded.step (h : Uncrowded log m) (hinv : Invariant P m.api.service)
    (hstep : m.Step P cfg e m') (hguard : OneAtATime m e m') :
    Uncrowded (log ++ m.shows P cfg e m') m' where
  moderated := h.moderated.change hstep.change
  exclusive := by
    rcases calls_of_step hstep with hsame | ⟨e', hnext, hevent⟩
    · unfold Exclusive
      rw [hsame]
      exact h.exclusive
    · refine h.exclusive.step hnext ?_
      rintro id env rfl
      rcases hevent with rfl | hdeliver
      · exact hguard
      · cases hdeliver
  assigned := by
    rcases service_of_step hstep with ⟨hcalls, hjobs⟩ | ⟨e', hnext, hevent⟩
    · refine ⟨fun instanceID jobID other hruns hother => ?_,
        fun call hcall instanceID jobID hoccupies hruns => ?_⟩
      · exact h.assigned.single instanceID jobID other (runsOn_congr hjobs hruns)
          (runsOn_congr hjobs hother)
      · exact h.assigned.own call (hcalls ▸ hcall) instanceID jobID hoccupies
          (runsOn_congr hjobs hruns)
    · refine h.assigned.step hinv h.exclusive hnext ?_
      rintro id env rfl
      rcases hevent with rfl | hdeliver
      · exact hguard
      · cases hdeliver
  available := by
    intro call hcall instanceID hwaits
    rcases waits_before hstep hcall hwaits with
      ⟨old, hold, hbefore⟩ | ⟨id, env, job, rfl, rfl, hfinds⟩
    · refine (h.available old hold instanceID hbefore).step ?_
      rintro conn session text current rfl hsession hinstance
      refine ⟨fun hbusy => ?_, fun hdraining => ?_⟩
      · exact hguard (.inl hbusy) session hsession instanceID hinstance old hold hbefore
      · exact hguard (.inr hdraining) session hsession instanceID hinstance old hold hbefore
    · -- The route that was found is one to an instance that is online.
      obtain ⟨provider, inst, ad, version, hrows⟩ := rows_of_findsRoute hfinds
      obtain ⟨-, -, -, -, -, -, honline, -⟩ := hrows.conditions
      have hreport := h.moderated.report inst hrows.inst_mem
      rw [honline] at hreport
      have hlatest := hreport.resolve_left InstanceStatus.noConfusion
      have hsilent : m.shows P cfg (.api (.service (.advance id env))) m' = [] := rfl
      rw [hsilent, List.append_nil, hrows.route_eq]
      unfold Available
      rw [hlatest]
      decide

/-- The invariant holds throughout every run that meets the guard. -/
theorem uncrowded_of_reaches
    (hreach : ((marketMachine P cfg).recorded (Market.shows P cfg)).Reaches
      (Machine.onState OneAtATime) es (m, log)) :
    Invariant P m.api.service ∧ Uncrowded log m := by
  refine hreach.invariant (fun s => Invariant P s.1.api.service ∧ Uncrowded s.2 s.1) ?_ ?_
  · rintro ⟨m, log⟩ ⟨⟨⟨⟨models, modelVersions, hversions, hdb⟩, hcalls⟩, -⟩, rfl⟩
    refine ⟨.start ⟨_, hdb⟩ hcalls, .start ?_, ?_, ⟨?_, ?_⟩, ?_⟩
    · rw [hdb]
      exact ⟨rfl, rfl, rfl, hversions⟩
    · unfold Exclusive
      rw [hcalls]
      simp
    · rintro instanceID jobID other ⟨row, hrow, -⟩
      change m.db.job jobID = some row at hrow
      rw [hdb] at hrow
      cases hrow
    · rw [hcalls]
      simp
    · rw [hcalls]
      simp
  · rintro s e s' ⟨hinv, huncrowded⟩ ⟨hnext, hlog⟩ hguard
    rw [hlog]
    have hstep := Market.step_of_next hnext
    exact ⟨hstep.invariant hinv, huncrowded.step hinv hstep hguard⟩

/-! ## The contract -/

/-- Whether an event dispatches a job to an instance: the statement that marks it as
dispatched, and the write of its request. -/
def Dispatches (m : Market) (e : MarketEvent) (instanceID : UUID) : Prop :=
  match e with
  | .api (.service (.advance id _)) => ∃ call job jobID walletID,
      m.api.service.call id = some call ∧ call.phase = .reserved job jobID walletID ∧
        job.route.providerInstanceID = instanceID
  | .api (.network (.write id _)) => ∃ call job jobID walletID,
      m.api.service.call id = some call ∧ call.phase = .dispatched job jobID walletID ∧
        job.route.providerInstanceID = instanceID
  | _ => False

/-- A job is dispatched by a step of a request that waits. -/
theorem waits_of_dispatches {instanceID : UUID} (hnext : m.next P cfg e = some m')
    (h : Dispatches m e instanceID) : ∃ call ∈ m.api.service.calls, Waits m call instanceID := by
  unfold Dispatches at h
  split at h
  · obtain ⟨call, job, jobID, walletID, hcall, hphase, hinstance⟩ := h
    refine ⟨call, (Table.mem_of_select hcall).1, ?_⟩
    rw [Waits, hphase]
    exact hinstance
  · rename_i id failure
    obtain ⟨call, job, jobID, walletID, hcall, hphase, hinstance⟩ := h
    obtain ⟨hmem, hid⟩ := Table.mem_of_select hcall
    refine ⟨call, hmem, ?_⟩
    rw [Waits, hphase, hid]
    refine ⟨hinstance, fun dispatch hdispatch hwritten => ?_⟩
    have hopened : ∀ {conn : ConnID}, dispatch.phase ≠ .opened conn := by
      intro conn hopened
      rw [Dispatch.Written, hopened] at hwritten
      exact hwritten
    cases Market.step_of_next hnext with
    | api _ hstep =>
        cases hstep with
        | network _ hnetwork =>
            cases Network.step_of_next hnetwork with
            | write hold hphase | refuse hold hphase =>
                obtain rfl := Option.some.inj (hdispatch.symm.trans hold)
                exact hopened hphase
  · exact h.elim

/-- In every run that meets the guard, no two job rows that say that they are dispatched name
the same instance; the job of a request that is in flight has such a row, which names the
instance it was routed to; and no job is dispatched to an instance whose last report is that
it is busy or draining. -/
theorem one_job_per_instance (P : Platform) (cfg : Config)
    (hreach : ((marketMachine P cfg).recorded (Market.shows P cfg)).Reaches
      (Machine.onState OneAtATime) es (m, log)) :
    (∀ row ∈ m.db.inferenceJobs, ∀ other ∈ m.db.inferenceJobs, ∀ instanceID,
      row.status = .dispatched → other.status = .dispatched →
      row.providerInstanceID = some instanceID → other.providerInstanceID = some instanceID →
      row = other) ∧
      (∀ call ∈ m.api.service.calls, Call.inFlight call → ∃ jobID row instanceID,
        call.jobID = some jobID ∧ m.db.job jobID = some row ∧ row.status = .dispatched ∧
          row.providerInstanceID = some instanceID ∧ Call.occupies call = some instanceID) ∧
      ∀ e m' instanceID, m.next P cfg e = some m' → Dispatches m e instanceID →
        latest (reportOf instanceID) log ≠ some .busy ∧
          latest (reportOf instanceID) log ≠ some .draining := by
  obtain ⟨hinv, huncrowded⟩ := uncrowded_of_reaches hreach
  refine ⟨?_, ?_, ?_⟩
  · intro row hrow other hother instanceID hstatus hstatus' hinstance hinstance'
    have hselect : m.db.job row.id = some row := Table.select_of_mem hinv.books.jobs hrow
    have hselect' : m.db.job other.id = some other := Table.select_of_mem hinv.books.jobs hother
    have hsame := huncrowded.assigned.single instanceID row.id other.id
      ⟨row, hselect, hstatus, hinstance⟩ ⟨other, hselect', hstatus', hinstance'⟩
    rw [hsame] at hselect
    exact Option.some.inj (hselect.symm.trans hselect')
  · intro call hcall hinflight
    obtain ⟨job, jobID, row, hcurrent, hjobID, hrow, hstatus, hinstance⟩ :=
      inFlight_row (hinv.calls call hcall) hinflight
    exact ⟨jobID, row, _, hjobID, hrow, hstatus, hinstance, by rw [Call.occupies, hcurrent]; rfl⟩
  · intro e m' instanceID hnext hdispatches
    obtain ⟨call, hcall, hwaits⟩ := waits_of_dispatches hnext hdispatches
    exact huncrowded.available call hcall instanceID hwaits

end Runs

/-! ## Sample runs -/

/-- Whether no open request has a route. -/
def unrouted (s : ChatService) : Bool := s.calls.all fun call => decide (Call.occupies call = none)

/-- A check of runs in which a request finds a route only when no request has one and no job
is dispatched, and no machine that a request was routed to is busy or draining. -/
def alone (m : Market) (e : MarketEvent) (_ : Market) : Bool :=
  match e with
  | .api (.service (.advance id env)) => (m.api.service.call id).all fun call =>
      decide (Call.selects env call = none) || (unrouted m.api.service &&
        m.db.inferenceJobs.all fun row => decide (row.status ≠ .dispatched))
  | .frame _ (.heartbeat status _) => decide (status = "online") || unrouted m.api.service
  | _ => true

theorem not_occupies_of_unrouted {s : ChatService} (h : unrouted s = true) {call : Call}
    (hcall : call ∈ s.calls) (instanceID : UUID) : Call.occupies call ≠ some instanceID := by
  rw [of_decide_eq_true (List.all_eq_true.mp h call hcall)]
  exact nofun

/-- A request that waits was routed. -/
theorem occupies_of_waits {m : Market} {call : Call} {instanceID : UUID}
    (h : Waits m call instanceID) : Call.occupies call = some instanceID := by
  unfold Waits at h
  split at h <;> rename_i hphase
  · rw [Call.occupies, Call.current, hphase, ← h]
    rfl
  · rw [Call.occupies, Call.current, hphase, ← h]
    rfl
  · rw [Call.occupies, Call.current, hphase, ← h]
    rfl
  · rw [Call.occupies, Call.current, hphase, ← h.1]
    rfl
  · exact h.elim

theorem oneAtATime_of_alone {m m' : Market} {e : MarketEvent} (h : alone m e m' = true) :
    OneAtATime m e m' := by
  unfold alone at h
  split at h
  · intro call hcall instanceID hselects
    rw [Option.mem_def.mp hcall, Option.all_some, Bool.or_eq_true] at h
    rcases h with hnone | hfree
    · rw [of_decide_eq_true hnone] at hselects
      cases hselects
    · obtain ⟨hunrouted, hrows⟩ := Bool.and_eq_true_iff.mp hfree
      refine ⟨fun other hother => not_occupies_of_unrouted hunrouted hother instanceID, ?_⟩
      rintro jobID ⟨row, hrow, hstatus, -⟩
      have hmem := (Table.mem_of_select hrow).1
      exact of_decide_eq_true (List.all_eq_true.mp hrows row hmem) hstatus
  · rintro hbusy session - instanceID - call hcall hwaits
    rcases Bool.or_eq_true_iff.mp h with honline | hunrouted
    · rw [of_decide_eq_true honline] at hbusy
      revert hbusy
      decide
    · exact not_occupies_of_unrouted hunrouted hcall instanceID (occupies_of_waits hwaits)
  · rename_i hadvance hheartbeat
    unfold OneAtATime
    split
    · exact (hadvance _ _ rfl).elim
    · exact (hheartbeat _ _ _ rfl).elim
    · trivial

/-- A second request with the same key, up to its dispatch. -/
def secondRequest : List MarketEvent :=
  .api (.service (.arrive 1 "pvn_live_a_b" "req_b"
    (some ⟨"llama", [⟨"user", "hello"⟩], 50, none, false⟩))) ::
  List.replicate 6 (.api (.service (.advance 1 { sampleEnv with newID := 8, now := "later" })))

/-- The machine is busy after its first job, and gets a second one when it is online again. -/
def inTurnEvents : List MarketEvent :=
  openingEvents ++ requestEvents none ++ completionEvents ++
    [.frame 0 (.heartbeat "busy" none), .frame 0 (.heartbeat "online" none)] ++ secondRequest ++
    [.api (.dispatch 1), .api (.network (.lookup 1)), .api (.network (.openJob 1))]

/-- The instance of the job that a request waits to have written. -/
def Call.dispatchedTo (call : Call) : Option UUID :=
  match call.phase with
  | .dispatched job _ _ => some job.route.providerInstanceID
  | _ => none

theorem dispatches_of_dispatchedTo {m : Market} {id : Nat} {refusal : Option String}
    {instanceID : UUID} (h : (m.api.service.call id).bind Call.dispatchedTo = some instanceID) :
    Dispatches m (.api (.network (.write id refusal))) instanceID := by
  obtain ⟨call, hcall, hinstance⟩ := Option.bind_eq_some_iff.mp h
  unfold Call.dispatchedTo at hinstance
  split at hinstance
  · rename_i job jobID walletID hphase
    exact ⟨call, job, jobID, walletID, hcall, hphase, Option.some.inj hinstance⟩
  · cases hinstance

/-- The second job of a machine is its only one, and its machine can take it. -/
theorem sample_machine_has_one_job :
    ∃ m log, ((marketMachine samplePlatform sampleConfig).recorded
        (Market.shows samplePlatform sampleConfig)).Reaches (Machine.onState OneAtATime)
          inTurnEvents (m, log) ∧
      m.db.inferenceJobs.map (fun row => (row.status, row.providerInstanceID)) =
        [(.succeeded, some 24), (.dispatched, some 24)] ∧
      (∀ row ∈ m.db.inferenceJobs, ∀ other ∈ m.db.inferenceJobs, ∀ instanceID,
        row.status = .dispatched → other.status = .dispatched →
        row.providerInstanceID = some instanceID → other.providerInstanceID = some instanceID →
        row = other) ∧
      (m.next samplePlatform sampleConfig (.api (.network (.write 1 none)))).isSome ∧
      latest (reportOf 24) log ≠ some .busy ∧ latest (reportOf 24) log ≠ some .draining := by
  let served := (runMarket alone inTurnEvents).getD freshMarket
  obtain ⟨hrun, hrows, hinstance, hnext⟩ :
      (runMarket alone inTurnEvents).isSome ∧
        served.db.inferenceJobs.map (fun row => (row.status, row.providerInstanceID)) =
          [(.succeeded, some 24), (.dispatched, some 24)] ∧
        (served.api.service.call 1).bind Call.dispatchedTo = some 24 ∧
        (served.next samplePlatform sampleConfig (.api (.network (.write 1 none)))).isSome := by
    decide +kernel
  have hreach : (marketMachine samplePlatform sampleConfig).Reaches OneAtATime inTurnEvents
      served := Machine.reaches_of_exec (fun _ _ _ => oneAtATime_of_alone) start_freshMarket hrun
  obtain ⟨log, hrecorded⟩ := hreach.record (Market.shows samplePlatform sampleConfig)
  obtain ⟨hsingle, -, havailable⟩ := one_job_per_instance samplePlatform sampleConfig hrecorded
  obtain ⟨m', hwrite⟩ := Option.isSome_iff_exists.mp hnext
  exact ⟨served, log, hrecorded, hrows, hsingle, hnext,
    havailable _ m' 24 hwrite (dispatches_of_dispatchedTo hinstance)⟩

/-- The jobs of two requests are dispatched to the same instance, before its machine has
said that it is busy. -/
theorem instance_has_two_jobs :
    ∃ m, (marketMachine samplePlatform sampleConfig).Reaches Machine.anyStep
        (openingEvents ++ requestEvents none ++ secondRequest) m ∧
      ∃ row ∈ m.db.inferenceJobs, ∃ other ∈ m.db.inferenceJobs, row ≠ other ∧
        row.status = .dispatched ∧ other.status = .dispatched ∧
        row.providerInstanceID = some 24 ∧ other.providerInstanceID = some 24 := by
  obtain ⟨hrun, hrows⟩ :
      (runMarket (fun _ _ _ => true)
        (openingEvents ++ requestEvents none ++ secondRequest)).isSome ∧
      ∃ row ∈
        (marketAfter (openingEvents ++ requestEvents none ++ secondRequest)).db.inferenceJobs,
        ∃ other ∈
          (marketAfter (openingEvents ++ requestEvents none ++ secondRequest)).db.inferenceJobs,
          row ≠ other ∧ row.status = .dispatched ∧ other.status = .dispatched ∧
            row.providerInstanceID = some 24 ∧ other.providerInstanceID = some 24 := by
    decide +kernel
  exact ⟨_, reaches_marketAfter hrun, hrows⟩

end Nuvonode.Contract
