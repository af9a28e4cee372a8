/-
  Handler/JobNames.lean --- the public ids that jobs are dispatched under.

  A request dispatches its job under the public id of its row in `inference_jobs`, which
  is unique there, and a row belongs to one request.  So no two dispatches have the same
  job, and what holds of the hub where they do not holds of the server without a proviso.
-/
import Nuvonode.Handler.Api
import Nuvonode.Handler.JobRows
import Nuvonode.Ws.Channels

set_option autoImplicit false

namespace Nuvonode.Handler

open Nuvonode.Foundation Nuvonode.Database Nuvonode.Repository Nuvonode.Service Nuvonode.Ws

/-- The request of a dispatch has a job, whose public id the dispatch carries. -/
def OwnName (s : Api) (id : DispatchID) (name : String) : Prop :=
  ∃ call jobID row, s.service.call id = some call ∧ call.jobID = some jobID ∧
    s.service.db.job jobID = some row ∧ row.publicID = name

/-- Public ids are unique, and every dispatch carries that of its request's job. -/
structure Named (s : Api) : Prop where
  table : JobTable s.service.db
  dispatches : ∀ id dispatch, s.network.dispatch id = some dispatch →
    OwnName s id dispatch.payload.jobID

section Named

variable {P : Platform} {cfg : Config} {s s' : Api} {e : ApiEvent}

/-- The job of a request and its public id last. -/
theorem OwnName.service (hinv : Invariant P s.service) {e : ServiceEvent} {service : ChatService}
    (hnext : next P cfg s.service e = some service) {id : DispatchID} {name : String}
    (h : OwnName s id name) (network : Network) :
    OwnName ((s.serve service).connected network) id name := by
  obtain ⟨call, jobID, row, hcall, hjobID, hrow, hname⟩ := h
  obtain ⟨row', hrow', hmoved⟩ := (jobsStep_of_next hinv hnext).job_after hrow
  have hname' : row'.publicID = name := by
    rcases hmoved with rfl | hmove
    · exact hname
    · exact hmove.publicID_eq.trans hname
  rcases hinv.follow hnext hcall with ⟨hsame, -⟩ | ⟨call', hcall', hstepped⟩
  · exact ⟨call, jobID, row', hsame, hjobID, hrow', hname'⟩
  · have hcallInv := hinv.calls call (Table.mem_of_select hcall).1
    refine ⟨call', jobID, row', hcall', ?_, hrow', hname'⟩
    rcases hstepped.transition.jobID_cases hcallInv with hkept | ⟨hnone, -⟩
    · exact hkept.trans hjobID
    · rw [hjobID] at hnone
      cases hnone

/-- A request that dispatches does so under the public id of its row. -/
theorem OwnName.of_dispatched (hinv : Invariant P s.service) {id : Nat} {call : Call}
    {job : ChatJob} {jobID walletID : UUID} (hcall : s.service.call id = some call)
    (hphase : call.phase = .dispatched job jobID walletID) : OwnName s id job.publicID := by
  have hcallInv := hinv.calls call (Table.mem_of_select hcall).1
  simp only [CallInv, hphase] at hcallInv
  obtain ⟨hjobID, -, hreserved⟩ := hcallInv
  exact ⟨call, jobID, _, hcall, hjobID, hreserved.pending.row, rfl⟩

/-- An event of the network that calls no dispatch. -/
theorem Named.network (h : Named s) {e : NetworkEvent} {network : Network}
    (hnext : s.network.next e = some network)
    (hcalls : ∀ id providerPublicID payload, e = .dispatch id providerPublicID payload →
      OwnName s id payload.jobID) : Named (s.connected network) := by
  refine ⟨h.table, fun id dispatch hdispatch => ?_⟩
  rcases (Network.step_of_next hnext).dispatch_before hdispatch with ⟨old, hold, -, hpayload⟩ |
    hevent
  · rw [hpayload]
    exact h.dispatches id old hold
  · exact hcalls _ _ _ hevent

theorem Named.service (h : Named s) (hinv : Invariant P s.service) {e : ServiceEvent}
    {service : ChatService} (hnext : next P cfg s.service e = some service) :
    Named (s.serve service) :=
  ⟨h.table.step (jobsStep_of_next hinv hnext), fun id dispatch hdispatch =>
    (h.dispatches id dispatch hdispatch).service hinv hnext s.network⟩

/-- Every step of the server keeps the names. -/
theorem Named.step (h : Named s) (hinv : Invariant P s.service) (hstep : s.Step P cfg e s') :
    Named s' := by
  cases hstep with
  | service _ hnext => exact h.service hinv hnext
  | network hlocal hnext =>
      refine h.network hnext ?_
      rintro id providerPublicID payload rfl
      cases hlocal
  | connect _ hnext | refuseHello hnext =>
      refine h.network hnext ?_
      intro id providerPublicID payload hevent
      cases hevent
  | @hello _ _ _ _ _ _ _ catalog _ _ _ hfollows hnext =>
      have hcatalog : next P cfg s.service (.changeCatalog catalog) =
          some (s.service.on { s.service.db with catalog }) := by
        simp only [next, hfollows, if_true]
      refine (h.service hinv hcatalog).network hnext ?_
      intro id providerPublicID payload hevent
      cases hevent
  | dispatch hcall hphase hnext =>
      refine h.network hnext ?_
      rintro id providerPublicID payload ⟨⟩
      exact .of_dispatched hinv hcall hphase
  | deliver _ _ hnext => exact h.service hinv hnext

theorem named_of_reaches {guard : Api → ApiEvent → Api → Prop} {es : List ApiEvent}
    (h : (apiMachine P cfg).Reaches guard es s) : Invariant P s.service ∧ Named s := by
  refine h.invariant (fun s => Invariant P s.service ∧ Named s) ?_ ?_
  · rintro s ⟨⟨⟨catalog, hdb⟩, hcalls⟩, hnetwork⟩
    refine ⟨.start ⟨catalog, hdb⟩ hcalls, ⟨?_, ?_⟩, ?_⟩
    · rw [hdb]
      exact List.nodup_nil
    · rw [hdb]
      exact fun _ _ => nofun
    · rw [hnetwork]
      exact fun _ _ => nofun
  · rintro s e s' ⟨hinv, hnamed⟩ hnext -
    have hstep := Api.step_of_next hnext
    exact ⟨hstep.invariant hinv, hnamed.step hinv hstep⟩

/-- A name belongs to one request. -/
theorem Named.eq_of_name (h : Named s) (hinv : Invariant P s.service) {id id' : DispatchID}
    {name : String} (hname : OwnName s id name) (hname' : OwnName s id' name) : id = id' := by
  obtain ⟨call, jobID, row, hcall, hjobID, hrow, hpublicID⟩ := hname
  obtain ⟨call', jobID', row', hcall', hjobID', hrow', hpublicID'⟩ := hname'
  obtain ⟨hmem, hid⟩ := Table.mem_of_select hrow
  obtain ⟨hmem', hid'⟩ := Table.mem_of_select hrow'
  have hselect := Table.select_of_mem h.table.unique hmem
  rw [hpublicID, ← hpublicID', Table.select_of_mem h.table.unique hmem'] at hselect
  obtain rfl := Option.some.inj hselect
  obtain rfl : jobID = jobID' := hid.symm.trans hid'
  obtain ⟨hcallMem, rfl⟩ := Table.mem_of_select hcall
  obtain ⟨hcallMem', rfl⟩ := Table.mem_of_select hcall'
  rw [hinv.owners call hcallMem call' hcallMem' jobID hjobID hjobID']

/-- No two dispatches of the server have the same job. -/
theorem Named.distinct (h : Named s) (hinv : Invariant P s.service) :
    DistinctJobs s.network := by
  intro id id' dispatch dispatch' hdispatch hdispatch' hsame
  exact h.eq_of_name hinv (h.dispatches id dispatch hdispatch)
    (hsame ▸ h.dispatches id' dispatch' hdispatch')

/-- A dispatch that leaves the jobs distinct had a job of its own. -/
theorem freshJob_of_distinct {n n' : Network} {e : NetworkEvent} (hstep : n.Step e n')
    (hdistinct : DistinctJobs n') : FreshJob n e n' := by
  cases e with
  | dispatch id providerPublicID payload =>
      intro old dispatch hold hname
      obtain ⟨dispatch', hdispatch', hpayload, -⟩ := hstep.payload_after hold
      cases hstep with
      | dispatch hfree =>
          have hnew : (n.setDispatch id (.called providerPublicID payload)).dispatch id =
              some (.called providerPublicID payload) := by
            rw [Network.dispatch_setDispatch, if_pos rfl]
          have heq := hdistinct old id dispatch' _ hdispatch' hnew (by rw [hpayload]; exact hname)
          rw [heq, hfree] at hold
          cases hold
  | _ => trivial

/-- Every run of the server dispatches each job under a name of its own. -/
theorem freshJob_of_reaches {guard : Api → ApiEvent → Api → Prop} {es : List ApiEvent}
    (h : (apiMachine P cfg).Reaches guard es s) :
    ∃ es', networkMachine.Reaches FreshJob es' s.network := by
  have hboth : (Invariant P s.service ∧ Named s) ∧
      ∃ es', networkMachine.Reaches FreshJob es' s.network := by
    refine h.invariant_trace (fun es s => (Invariant P s.service ∧ Named s) ∧
      ∃ es', networkMachine.Reaches FreshJob es' s.network) ?_ ?_
    · intro a ha
      have hstart : (apiMachine P cfg).Reaches guard [] a := .start ha
      exact ⟨named_of_reaches hstart, [], .start ha.2⟩
    · rintro es a e b ⟨⟨hinv, hnamed⟩, es', hreach⟩ hnext -
      have hstep := Api.step_of_next hnext
      have hinv' := hstep.invariant hinv
      have hnamed' := hnamed.step hinv hstep
      refine ⟨⟨hinv', hnamed'⟩, ?_⟩
      rcases hstep.network_part with hsame | ⟨e', hnext', -⟩
      · exact ⟨es', hsame ▸ hreach⟩
      · exact ⟨es' ++ [e'], hreach.snoc hnext'
          (freshJob_of_distinct (Network.step_of_next hnext') (hnamed'.distinct hinv'))⟩
  exact hboth.2

end Named

end Nuvonode.Handler
