/-
  Handler/CallRequest.lean --- the request of a call, from its body to its response.

  A call keeps its body.  The job that it dispatches is for that body, and what it is
  answered with, when it succeeds, is made of that job and of what its dispatch returned.
-/
import Nuvonode.Handler.Api

set_option autoImplicit false

namespace Nuvonode.Handler

open Nuvonode.Foundation Nuvonode.Database Nuvonode.Repository Nuvonode.Service Nuvonode.Ws

/-! ## Before the dispatch -/

/-- The job is for the body of the call, and for the model that it names. -/
def Call.Fits (call : Call) (job : ChatJob) : Prop :=
  call.body = some job.request ∧ job.model.slug = job.request.model

/-- What a call has found so far is for its body; a call that succeeded was answered. -/
def Call.Asks (call : Call) : Prop :=
  match call.phase with
  | .authenticated _ request => call.body = some request
  | .modelFound _ request model => call.body = some request ∧ model.slug = request.model
  | .routed job | .created job _ | .refused job _ _ | .reserved job _ _
  | .dispatched job _ _ => call.Fits job
  | .answered .. => call.outcome.isSome
  | .done response => response.status = 200 → call.outcome.isSome
  | _ => True

section Asks

variable {P : Platform} {cfg : Config} {db db' : DB} {call call' : Call}

/-- What is accepted is the body. -/
theorem validate_eq_ok {body : Option ChatRequest} {request : ChatRequest}
    (h : validate body = .ok request) : body = some request := by
  unfold validate at h
  split at h
  · cases h
  · split_ifs at h
    cases h
    rfl

theorem slug_of_activeModel {slug : String} {model : ModelRow}
    (h : activeModelBySlug slug db = .ok model) : model.slug = slug := by
  unfold activeModelBySlug at h
  split at h
  · split at h
    · rename_i row hrow
      split at h
      · cases h
        exact (Table.mem_of_select hrow).2
      · cases h
    · cases h
  · cases h

/-- A call that is refused was not answered with 200. -/
theorem asks_done {response : Response} (h : response.status ≠ 200) :
    (call.goto (.done response)).Asks := fun hok => absurd hok h

/-- Every statement of a call keeps to its body. -/
theorem asks_of_advance {env : Env} (hinv : CallInv P db call) (hasks : call.Asks)
    (h : call.advance P cfg env db = some (db', call')) : call'.Asks := by
  cases transition_of_advance h with
  | search hsearching _ =>
      cases hphase : call.phase with
      | received =>
          simp only [Call.advance, hphase] at h
          split at h
          · cases h
            exact asks_done (handle_status _)
          · split at h
            · rename_i response hbody
              cases h
              exact asks_done (validate_status hbody)
            · rename_i request hbody
              cases h
              exact validate_eq_ok hbody
      | authenticated auth request =>
          simp only [Call.Asks, hphase] at hasks
          simp only [Call.advance, hphase] at h
          split at h
          · cases h
            refine asks_done ?_
            split
            · decide
            · exact handle_status _
          · rename_i model hmodel
            split at h
            · cases h
              exact asks_done (by decide)
            · cases h
              exact ⟨hasks, slug_of_activeModel hmodel⟩
      | modelFound auth request model =>
          simp only [Call.Asks, hphase] at hasks
          simp only [Call.advance, hphase] at h
          split at h
          · split at h
            · cases h
              exact asks_done (by decide)
            · cases h
              exact hasks
          · cases h
      | routed job =>
          simp only [Call.Asks, hphase] at hasks
          simp only [Call.advance, hphase] at h
          split at h
          · cases h
            exact asks_done (handle_status _)
          · rw [← (Prod.mk.inj (Option.some.inj h)).2]
            exact hasks
      | _ => simp [hphase, Phase.Searching] at hsearching
  | create hphase _ _ | refuse hphase | reserve hphase _ _ _ | dispatch hphase =>
      simp only [Call.Asks, hphase] at hasks
      exact hasks
  | recordRefusal _ | returnCredits _ _ | keepCredits _ _ => exact asks_done (handle_status _)
  | recordFailure hphase =>
      simp only [CallInv, hphase] at hinv
      exact asks_done hinv.2.2.2.status
  | settle hphase _ =>
      simp only [Call.Asks, hphase] at hasks
      exact fun _ => hasks
  | answer _ _ => exact rfl
  | _ => exact trivial

theorem asks_of_deliver {outcome : Except DispatchError CompletionFrame}
    (h : call.deliver outcome = some call') : call'.Asks := by
  unfold Call.deliver at h
  split at h
  · cases h
    cases outcome with
    | error e => exact trivial
    | ok frame =>
        simp only [Call.goto, Call.Asks]
        split_ifs
        · exact trivial
        · exact rfl
  · cases h

end Asks

/-! ## After the dispatch -/

/-- A call that has dispatched a job, however far it is with it: a response that succeeds
is that of the job and of the frame that its dispatch returned. -/
def Call.Serves (call : Call) (job : ChatJob) : Prop :=
  match call.phase with
  | .dispatched job' _ _ | .failing job' _ _ _ | .released job' _ _ _ | .unsettled job' _ _ _ =>
      job' = job
  | .answered job' _ _ result => job' = job ∧ ∃ frame, call.outcome = some (.ok frame) ∧
      frame.payload.errorCode = "" ∧ frame.payload = result
  | .done response => response.status = 200 → ∃ frame, call.outcome = some (.ok frame) ∧
      frame.payload.errorCode = "" ∧ response = job.completion frame.payload
  | _ => False

section Serves

variable {P : Platform} {cfg : Config} {db db' : DB} {call call' : Call} {job : ChatJob}

/-- A step of a call keeps its body. -/
theorem Transition.body_eq (h : Transition P db call db' call') : call'.body = call.body := by
  cases h <;> rfl

/-- A step of a call is one for the same job. -/
theorem Transition.serves (h : Transition P db call db' call') (hinv : CallInv P db call)
    (hserves : call.Serves job) : call'.Serves job := by
  cases h with
  | search hsearching _ =>
      cases hphase : call.phase <;>
        simp [hphase, Phase.Searching, Call.Serves] at hsearching hserves
  | create hphase _ _ | refuse hphase | reserve hphase _ _ _ | recordRefusal hphase
  | dispatch hphase =>
      simp [Call.Serves, hphase] at hserves
  | fail hphase _ | release hphase _ | keep hphase _ =>
      simp only [Call.Serves, hphase] at hserves
      exact hserves
  | answer hphase hcode =>
      simp only [Call.Serves, hphase] at hserves
      exact ⟨hserves, _, rfl, hcode, rfl⟩
  | recordFailure hphase =>
      simp only [CallInv, hphase] at hinv
      exact fun hok => absurd hok hinv.2.2.2.status
  | settle hphase _ =>
      simp only [Call.Serves, hphase] at hserves
      obtain ⟨rfl, frame, houtcome, hcode, rfl⟩ := hserves
      exact fun _ => ⟨frame, houtcome, hcode, rfl⟩
  | unsettle hphase _ =>
      simp only [Call.Serves, hphase] at hserves
      exact hserves.1
  | returnCredits _ _ | keepCredits _ _ => exact fun hok => absurd hok (handle_status _)

end Serves

/-! ## Runs of the server -/

/-- The dispatch is that of a call which has this job. -/
def Dispatched (cfg : Config) (s : ChatService) (id : DispatchID) (dispatch : Dispatch) : Prop :=
  ∃ call job, s.call id = some call ∧ call.Fits job ∧ call.Serves job ∧
    dispatch.providerPublicID = job.route.providerPublicID ∧
    dispatch.payload = job.payload cfg

/-- Every call is for its body, and every dispatch is that of a call. -/
structure Requested (cfg : Config) (s : Api) : Prop where
  asks : ∀ call ∈ s.service.calls, call.Asks
  dispatches : ∀ id dispatch, s.network.dispatch id = some dispatch →
    Dispatched cfg s.service id dispatch

section Requested

variable {P : Platform} {cfg : Config} {s s' : Api} {e : ApiEvent}

/-- The requests move. -/
theorem Requested.service (h : Requested cfg s) (hinv : Invariant P s.service) {e : ServiceEvent}
    {service : ChatService} (hnext : next P cfg s.service e = some service) :
    Requested cfg (s.serve service) := by
  refine ⟨fun call hcall => ?_, fun id dispatch hdispatch => ?_⟩
  · cases kind_of_next hnext with
    | background _ => exact h.asks call hcall
    | arrive _ =>
        rcases List.mem_append.mp hcall with hold | hnew
        · exact h.asks call hold
        · rw [List.mem_singleton.mp hnew]
          exact trivial
    | @call old new db hold hstep =>
        rcases ChatService.mem_put hcall with rfl | ⟨hother, -⟩
        · have hmem := (Table.mem_of_select hold).1
          cases hstep with
          | advance hadvance =>
              exact asks_of_advance (hinv.calls old hmem) (h.asks old hmem) hadvance
          | deliver hdeliver => exact asks_of_deliver hdeliver
        · exact h.asks call hother
  · obtain ⟨call, job, hcall, hfits, hserves, hroute⟩ := h.dispatches id dispatch hdispatch
    rcases hinv.follow hnext hcall with ⟨hsame, -⟩ | ⟨call', hcall', hstepped⟩
    · exact ⟨call, job, hsame, hfits, hserves, hroute⟩
    · have hcallInv := hinv.calls call (Table.mem_of_select hcall).1
      refine ⟨call', job, hcall', ⟨?_, hfits.2⟩, hstepped.transition.serves hcallInv hserves,
        hroute⟩
      rw [hstepped.transition.body_eq, hfits.1]

/-- The network moves. -/
theorem Requested.network (h : Requested cfg s) {e : NetworkEvent} {network : Network}
    (hnext : s.network.next e = some network)
    (hcalls : ∀ id providerPublicID payload, e = .dispatch id providerPublicID payload →
      ∃ call job, s.service.call id = some call ∧ call.Fits job ∧ call.Serves job ∧
        providerPublicID = job.route.providerPublicID ∧ payload = job.payload cfg) :
    Requested cfg (s.connected network) := by
  refine ⟨h.asks, fun id dispatch hdispatch => ?_⟩
  rcases (Network.step_of_next hnext).dispatch_before hdispatch with
    ⟨old, hold, hprovider, hpayload⟩ | hevent
  · obtain ⟨call, job, hcall, hfits, hserves, hroute⟩ := h.dispatches id old hold
    exact ⟨call, job, hcall, hfits, hserves, by rwa [hprovider, hpayload]⟩
  · exact hcalls _ _ _ hevent

theorem Requested.step (h : Requested cfg s) (hinv : Invariant P s.service)
    (hstep : s.Step P cfg e s') : Requested cfg s' := by
  cases hstep with
  | service _ hnext => exact h.service hinv hnext
  | network hlocal hnext =>
      refine h.network hnext ?_
      rintro id providerPublicID payload rfl
      cases hlocal
  | connect _ hnext | refuseHello hnext =>
      refine h.network hnext ?_
      intro id providerPublicID payload hevent
      cases hevent
  | @hello _ _ _ _ _ _ _ catalog _ _ _ hfollows hnext =>
      have hcatalog : next P cfg s.service (.changeCatalog catalog) =
          some (s.service.on { s.service.db with catalog }) := by
        simp only [next, hfollows, if_true]
      refine (h.service hinv hcatalog).network hnext ?_
      intro id providerPublicID payload hevent
      cases hevent
  | @dispatch id call job jobID walletID _ hcall hphase hnext =>
      refine h.network hnext ?_
      rintro id providerPublicID payload ⟨⟩
      have hasks := h.asks call (Table.mem_of_select hcall).1
      simp only [Call.Asks, hphase] at hasks
      refine ⟨call, job, hcall, hasks, ?_, rfl, rfl⟩
      simp only [Call.Serves, hphase]
  | deliver _ _ hnext => exact h.service hinv hnext

theorem requested_of_reaches {guard : Api → ApiEvent → Api → Prop} {es : List ApiEvent}
    (h : (apiMachine P cfg).Reaches guard es s) : Invariant P s.service ∧ Requested cfg s := by
  refine h.invariant (fun s => Invariant P s.service ∧ Requested cfg s) ?_ ?_
  · rintro s ⟨⟨hfresh, hcalls⟩, hnetwork⟩
    refine ⟨.start hfresh hcalls, fun call hcall => ?_, fun id dispatch hdispatch => ?_⟩
    · rw [hcalls] at hcall
      exact absurd hcall List.not_mem_nil
    · rw [hnetwork] at hdispatch
      cases hdispatch
  · rintro s e s' ⟨hinv, hrequested⟩ hnext -
    have hstep := Api.step_of_next hnext
    exact ⟨hstep.invariant hinv, hrequested.step hinv hstep⟩

/-- A call that succeeded was answered by its dispatch, for the job that it dispatched. -/
theorem Requested.of_completed (h : Requested cfg s) (hinv : Invariant P s.service)
    (htied : Tied cfg s) {call : Call} (hcall : call ∈ s.service.calls) {response : Response}
    (hphase : call.phase = .done response) (hok : response.status = 200) :
    ∃ job frame dispatch delivery, call.Fits job ∧ call.outcome = some (.ok frame) ∧
      frame.payload.errorCode = "" ∧ response = job.completion frame.payload ∧
      s.network.dispatch call.id = some dispatch ∧ dispatch.phase = .returned (.ok delivery) ∧
      delivery.frame = frame ∧ dispatch.providerPublicID = job.route.providerPublicID ∧
      dispatch.payload = job.payload cfg := by
  have hselect : s.service.call call.id = some call := Table.select_of_mem hinv.ids hcall
  have hasks := h.asks call hcall
  simp only [Call.Asks, hphase] at hasks
  obtain ⟨outcome, houtcome⟩ := Option.isSome_iff_exists.mp (hasks hok)
  obtain ⟨dispatch, result, hdispatch, hreturned, heq⟩ := htied.outcome _ _ _ hselect houtcome
  obtain ⟨call', job, hcall', hfits, hserves, hprovider, hpayload⟩ := h.dispatches _ _ hdispatch
  obtain rfl := Option.some.inj (hselect.symm.trans hcall')
  simp only [Call.Serves, hphase] at hserves
  obtain ⟨frame, hframe, hcode, hresponse⟩ := hserves hok
  rw [houtcome, Option.some.injEq] at hframe
  subst hframe
  cases result with
  | error e => cases heq
  | ok delivery =>
      exact ⟨job, frame, dispatch, delivery, hfits, houtcome, hcode, hresponse, hdispatch,
        hreturned, (Except.ok.inj heq).symm, hprovider, hpayload⟩

end Requested

end Nuvonode.Handler
