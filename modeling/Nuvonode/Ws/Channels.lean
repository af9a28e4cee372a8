/-
  Ws/Channels.lean --- the channels of the hub and the dispatches that made them.

  A dispatch is in flight from the registration of its channel to its deferred
  deletion.  Where no two dispatches have the same job, the hub knows exactly the
  channels of the dispatches in flight.
-/
import Nuvonode.Ws.Network

set_option autoImplicit false

namespace Nuvonode.Ws

open Nuvonode.Foundation Nuvonode.Database

/-- The channel is registered and not deleted. -/
def DispatchPhase.InFlight : DispatchPhase → Prop
  | .opened _ => True
  | .waiting _ => True
  | .finishing _ => True
  | _ => False

/-- The request is not answered yet, nor given up. -/
def DispatchPhase.Early : DispatchPhase → Prop
  | .called => True
  | .found _ => True
  | .opened _ => True
  | .waiting _ => True
  | _ => False

/-- What an event can do to one dispatch. -/
inductive Dispatch.Moves (n : Network) (id : DispatchID) (dispatch : Dispatch) :
    NetworkEvent → Dispatch → Prop where
  | lookup : dispatch.phase = .called →
      dispatch.Moves n id (.lookup id) (dispatch.goto (n.route dispatch.providerPublicID))
  | openJob {conn : ConnID} : dispatch.phase = .found conn →
      dispatch.Moves n id (.openJob id) (dispatch.goto (.opened conn))
  | refuse {conn : ConnID} {text : String} : dispatch.phase = .opened conn →
      dispatch.Moves n id (.write id (some text))
        (dispatch.goto (.finishing (.error (.writeFailed text))))
  | write {conn : ConnID} : dispatch.phase = .opened conn →
      dispatch.Moves n id (.write id none) (dispatch.goto (.waiting conn))
  | receive {conn : ConnID} {delivery : Delivery} : dispatch.phase = .waiting conn →
      dispatch.buffer = some delivery → dispatch.Moves n id (.receive id) (dispatch.take delivery)
  | timeout {conn : ConnID} : dispatch.phase = .waiting conn →
      dispatch.Moves n id (.timeout id) (dispatch.goto (.finishing (.error .jobTimeout)))
  | closeJob {outcome : Except DispatchError Delivery} : dispatch.phase = .finishing outcome →
      dispatch.Moves n id (.closeJob id) (dispatch.goto (.returned outcome))
  | fill {conn : ConnID} {session : Session} {frame : CompletionFrame} :
      n.session conn = some session → session.phase = .completing id frame →
      dispatch.buffer = none → dispatch.Moves n id (.send conn) (dispatch.fill { conn, frame })

section Steps

variable {n n' : Network} {e : NetworkEvent} {id : DispatchID} {dispatch : Dispatch}

/-- A dispatch is as it was before, has just been called, or has moved. -/
theorem Network.Step.moves (h : n.Step e n') (hdispatch : n'.dispatch id = some dispatch) :
    n.dispatch id = some dispatch ∨
      (n.dispatch id = none ∧ ∃ providerPublicID payload,
        e = .dispatch id providerPublicID payload ∧
          dispatch = .called providerPublicID payload) ∨
      ∃ old, n.dispatch id = some old ∧ old.Moves n id e dispatch := by
  -- One dispatch is replaced, and it has moved.
  have hmoved : ∀ {set : DispatchID} {old new : Dispatch}, n.dispatch set = some old →
      (n.setDispatch set new).dispatch id = some dispatch → old.Moves n set e new →
      n.dispatch id = some dispatch ∨ ∃ old, n.dispatch id = some old ∧
        old.Moves n id e dispatch := by
    intro set old new hold hset hmove
    rw [Network.dispatch_setDispatch] at hset
    split at hset
    · rename_i heq
      cases hset
      cases heq
      exact .inr ⟨old, hold, hmove⟩
    · exact .inl hset
  cases h with
  | @dispatch new providerPublicID payload hfree =>
      rw [Network.dispatch_setDispatch] at hdispatch
      split at hdispatch
      · rename_i heq
        cases hdispatch
        cases heq
        exact .inr (.inl ⟨hfree, providerPublicID, payload, rfl, rfl⟩)
      · exact .inl hdispatch
  | lookup hold hphase => exact (hmoved hold hdispatch (.lookup hphase)).imp_right .inr
  | openJob hold hphase => exact (hmoved hold hdispatch (.openJob hphase)).imp_right .inr
  | refuse hold hphase => exact (hmoved hold hdispatch (.refuse hphase)).imp_right .inr
  | write hold hphase => exact (hmoved hold hdispatch (.write hphase)).imp_right .inr
  | receive hold hphase hbuffer =>
      exact (hmoved hold hdispatch (.receive hphase hbuffer)).imp_right .inr
  | timeout hold hphase => exact (hmoved hold hdispatch (.timeout hphase)).imp_right .inr
  | closeJob hold hphase => exact (hmoved hold hdispatch (.closeJob hphase)).imp_right .inr
  | send hsession hphase hold hempty =>
      exact (hmoved hold hdispatch (.fill hsession hphase hempty)).imp_right .inr
  | disconnect =>
      rw [Network.dispatch_setLatest, Network.dispatch_withHub,
        Network.dispatch_closeConnection] at hdispatch
      exact .inl hdispatch
  | _ => exact .inl hdispatch

/-- A dispatch keeps its request. -/
theorem Dispatch.Moves.payload_eq {new : Dispatch} (h : dispatch.Moves n id e new) :
    new.payload = dispatch.payload := by
  cases h <;> rfl

/-- A channel is filled by a session that sends to it, and by nothing else. -/
theorem Dispatch.Moves.buffer {new : Dispatch}
    (h : dispatch.Moves n id e new) : new.buffer = dispatch.buffer ∨ new.buffer = none ∨
      ∃ conn session frame, e = .send conn ∧ n.session conn = some session ∧
        session.phase = .completing id frame := by
  cases h with
  | fill hsession hphase _ => exact .inr (.inr ⟨_, _, _, rfl, hsession, hphase⟩)
  | receive _ _ => exact .inr (.inl rfl)
  | _ => exact .inl rfl

/-- What an event can do to the channels that the hub knows. -/
theorem Network.Step.jobs_cases (h : n.Step e n') :
    n'.hub.jobs = n.hub.jobs ∨
      (∃ id dispatch conn, e = .openJob id ∧ n.dispatch id = some dispatch ∧
        dispatch.phase = .found conn ∧
        n'.dispatch id = some (dispatch.goto (.opened conn)) ∧
        ∀ jobID, n'.hub.jobs jobID =
          if jobID = dispatch.payload.jobID then some id else n.hub.jobs jobID) ∨
      ∃ id dispatch outcome, e = .closeJob id ∧ n.dispatch id = some dispatch ∧
        dispatch.phase = .finishing outcome ∧
        n'.dispatch id = some (dispatch.goto (.returned outcome)) ∧
        ∀ jobID, n'.hub.jobs jobID =
          if jobID = dispatch.payload.jobID then none else n.hub.jobs jobID := by
  cases h with
  | @openJob id dispatch conn hold hphase =>
      refine .inr (.inl ⟨id, dispatch, conn, rfl, hold, hphase, by simp, fun jobID => ?_⟩)
      rw [Network.hub_withHub, Hub.jobs_openJob]
  | @closeJob id dispatch outcome hold hphase =>
      refine .inr (.inr ⟨id, dispatch, outcome, rfl, hold, hphase, by simp, fun jobID => ?_⟩)
      rw [Network.hub_withHub, Hub.jobs_closeJob]
  | _ => exact .inl rfl

end Steps

/-! ## Registered channels -/

/-- Every channel that the hub knows is that of a dispatch in flight for the job. -/
def Registered (n : Network) : Prop :=
  ∀ jobID id, n.hub.jobs jobID = some id → ∃ dispatch, n.dispatch id = some dispatch ∧
    dispatch.payload.jobID = jobID ∧ dispatch.phase.InFlight

/-- No two dispatches have the same job. -/
def DistinctJobs (n : Network) : Prop :=
  ∀ id id' dispatch dispatch', n.dispatch id = some dispatch → n.dispatch id' = some dispatch' →
    dispatch.payload.jobID = dispatch'.payload.jobID → id = id'

/-- Every dispatch in flight has its channel in the hub. -/
def Findable (n : Network) : Prop :=
  ∀ id dispatch, n.dispatch id = some dispatch → dispatch.phase.InFlight →
    n.hub.jobs dispatch.payload.jobID = some id

/-- The guard: a request is dispatched under a job of its own. -/
def FreshJob (n : Network) (e : NetworkEvent) (_ : Network) : Prop :=
  match e with
  | .dispatch _ _ payload => ∀ id dispatch, n.dispatch id = some dispatch →
      dispatch.payload.jobID ≠ payload.jobID
  | _ => True

section Registered

variable {n n' : Network} {e : NetworkEvent}

/-- The only event that makes a dispatch in flight one that is not is its deletion. -/
theorem Dispatch.Moves.inFlight {id : DispatchID} {dispatch new : Dispatch}
    (h : dispatch.Moves n id e new) (hflight : dispatch.phase.InFlight) :
    new.phase.InFlight ∨ e = .closeJob id := by
  cases h with
  | lookup hphase => simp [hphase, DispatchPhase.InFlight] at hflight
  | fill _ _ _ => exact .inl hflight
  | closeJob _ => exact .inr rfl
  | _ => exact .inl trivial

/-- The only event that makes a dispatch one in flight is its registration. -/
theorem Dispatch.Moves.not_inFlight {id : DispatchID} {dispatch new : Dispatch}
    (h : dispatch.Moves n id e new) (hflight : new.phase.InFlight) :
    dispatch.phase.InFlight ∨ e = .openJob id := by
  cases h with
  | lookup hphase =>
      simp only [Dispatch.goto, Network.route] at hflight
      split at hflight <;> simp [DispatchPhase.InFlight] at hflight
  | openJob _ => exact .inr rfl
  | fill _ _ _ => exact .inl hflight
  | closeJob _ => simp [Dispatch.goto, DispatchPhase.InFlight] at hflight
  | refuse hphase | write hphase | receive hphase _ | timeout hphase =>
      rw [hphase]
      exact .inl trivial

/-- A dispatch stays, with its request. -/
theorem Network.Step.payload_after (h : n.Step e n') {id : DispatchID} {dispatch : Dispatch}
    (hdispatch : n.dispatch id = some dispatch) : ∃ dispatch', n'.dispatch id = some dispatch' ∧
      dispatch'.payload = dispatch.payload ∧
        (dispatch' = dispatch ∨ dispatch.Moves n id e dispatch') := by
  obtain ⟨dispatch', hdispatch', -⟩ := h.dispatch_after hdispatch
  refine ⟨dispatch', hdispatch', ?_⟩
  rcases h.moves hdispatch' with hsame | ⟨hfree, -⟩ | ⟨old, hold, hmove⟩
  · obtain rfl := Option.some.inj (hdispatch.symm.trans hsame)
    exact ⟨rfl, .inl rfl⟩
  · rw [hdispatch] at hfree
    cases hfree
  · obtain rfl := Option.some.inj (hdispatch.symm.trans hold)
    exact ⟨hmove.payload_eq, .inr hmove⟩

theorem Registered.step (h : Registered n) (hstep : n.Step e n') : Registered n' := by
  -- A channel that the hub still knows, and that this event does not delete.
  have hkept : ∀ {jobID : String} {id : DispatchID}, n.hub.jobs jobID = some id →
      e ≠ .closeJob id → ∃ dispatch, n'.dispatch id = some dispatch ∧
        dispatch.payload.jobID = jobID ∧ dispatch.phase.InFlight := by
    intro jobID id hjob hclose
    obtain ⟨dispatch, hdispatch, hname, hflight⟩ := h jobID id hjob
    obtain ⟨dispatch', hdispatch', hpayload, rfl | hmove⟩ := hstep.payload_after hdispatch
    · exact ⟨dispatch', hdispatch', hname, hflight⟩
    · exact ⟨dispatch', hdispatch', by rw [hpayload, hname],
        (hmove.inFlight hflight).resolve_right hclose⟩
  intro jobID id hjob
  rcases hstep.jobs_cases with hsame | ⟨opened, dispatch, conn, rfl, -, -, hnew, hjobs⟩ |
    ⟨closed, dispatch, outcome, rfl, hold, -, -, hjobs⟩
  · rw [hsame] at hjob
    refine hkept hjob ?_
    rintro rfl
    -- A deletion would have deleted this very entry.
    cases hstep with
    | @closeJob _ closing outcome hold hphase =>
        obtain ⟨dispatch, hdispatch, hname, -⟩ := h jobID id hjob
        obtain rfl := Option.some.inj (hold.symm.trans hdispatch)
        have hgone : (n.hub.closeJob closing.payload.jobID).jobs jobID = n.hub.jobs jobID :=
          congrFun hsame jobID
        rw [Hub.jobs_closeJob, if_pos hname.symm, hjob] at hgone
        cases hgone
  · rw [hjobs] at hjob
    split at hjob
    · rename_i heq
      cases hjob
      exact ⟨_, hnew, heq.symm, trivial⟩
    · exact hkept hjob (by simp)
  · rw [hjobs] at hjob
    split at hjob
    · cases hjob
    · rename_i hne
      refine hkept hjob ?_
      rintro ⟨⟩
      obtain ⟨dispatch', hdispatch', hname, -⟩ := h jobID id hjob
      obtain rfl := Option.some.inj (hold.symm.trans hdispatch')
      exact hne hname.symm

theorem registered_of_reaches {guard : Network → NetworkEvent → Network → Prop}
    {es : List NetworkEvent} (h : networkMachine.Reaches guard es n) : Registered n := by
  refine h.invariant Registered ?_ fun _ _ _ hreg hnext _ => hreg.step (Network.step_of_next hnext)
  rintro n rfl
  exact fun _ _ => nofun

theorem DistinctJobs.step (h : DistinctJobs n) (hstep : n.Step e n') (hguard : FreshJob n e n') :
    DistinctJobs n' := by
  -- A dispatch is an old one with the same request, or the one that was called.
  have hbefore : ∀ {id : DispatchID} {dispatch : Dispatch}, n'.dispatch id = some dispatch →
      (∃ old, n.dispatch id = some old ∧ old.payload = dispatch.payload) ∨
        ∃ p, e = .dispatch id p dispatch.payload := by
    intro id dispatch hdispatch
    rcases hstep.dispatch_before hdispatch with ⟨old, hold, -, hpayload⟩ | hevent
    · exact .inl ⟨old, hold, hpayload.symm⟩
    · exact .inr ⟨_, hevent⟩
  intro id id' dispatch dispatch' hdispatch hdispatch' hname
  rcases hbefore hdispatch with ⟨old, hold, hpayload⟩ | ⟨p, rfl⟩
  · rcases hbefore hdispatch' with ⟨old', hold', hpayload'⟩ | ⟨p, rfl⟩
    · exact h id id' old old' hold hold' (by rw [hpayload, hpayload', hname])
    · exact absurd (by rw [hpayload, hname]) (hguard id old hold)
  · rcases hbefore hdispatch' with ⟨old', hold', hpayload'⟩ | ⟨p', hevent⟩
    · exact absurd (by rw [hpayload', hname]) (hguard id' old' hold')
    · exact (NetworkEvent.dispatch.inj hevent).1

theorem Findable.step (h : Findable n) (hdistinct : DistinctJobs n') (hstep : n.Step e n') :
    Findable n' := by
  intro id dispatch hdispatch hflight
  -- The dispatch was in flight before, or this event registers it.
  have hbefore : (∃ old, n.dispatch id = some old ∧ old.phase.InFlight ∧
      old.payload = dispatch.payload) ∨ e = .openJob id := by
    rcases hstep.moves hdispatch with hsame | ⟨-, p, payload, -, rfl⟩ | ⟨old, hold, hmove⟩
    · exact .inl ⟨dispatch, hsame, hflight, rfl⟩
    · exact hflight.elim
    · exact (hmove.not_inFlight hflight).imp_left fun hold' =>
        ⟨old, hold, hold', hmove.payload_eq.symm⟩
  rcases hstep.jobs_cases with hsame | ⟨opened, other, conn, rfl, -, -, hnew, hjobs⟩ |
    ⟨closed, other, outcome, rfl, -, -, hnew, hjobs⟩
  · rcases hbefore with ⟨old, hold, hflight', hpayload⟩ | rfl
    · rw [hsame, ← hpayload]
      exact h id old hold hflight'
    · cases hstep with
      | @openJob _ dispatch' conn hold _ =>
          rw [Network.dispatch_withHub, Network.dispatch_setDispatch, if_pos rfl] at hdispatch
          cases hdispatch
          simp [Dispatch.goto]
  · rw [hjobs]
    split
    · rename_i heq
      rw [hdistinct id opened dispatch _ hdispatch hnew heq]
    · rename_i hne
      rcases hbefore with ⟨old, hold, hflight', hpayload⟩ | hevent
      · rw [← hpayload]
        exact h id old hold hflight'
      · cases hevent
        obtain rfl := Option.some.inj (hdispatch.symm.trans hnew)
        exact absurd rfl hne
  · rw [hjobs]
    split
    · rename_i heq
      obtain rfl := hdistinct id closed dispatch _ hdispatch hnew heq
      obtain rfl := Option.some.inj (hdispatch.symm.trans hnew)
      exact hflight.elim
    · obtain ⟨old, hold, hflight', hpayload⟩ := hbefore.resolve_right (by simp)
      rw [← hpayload]
      exact h id old hold hflight'

end Registered

/-! ## Requests that were written -/

/-- The request was written to a connection. -/
def DispatchPhase.Written : DispatchPhase → Prop
  | .waiting _ => True
  | .finishing (.ok _) => True
  | .finishing (.error .jobTimeout) => True
  | .returned (.ok _) => True
  | .returned (.error .jobTimeout) => True
  | _ => False

/-- The dispatches whose requests were written are those of which `written` holds. -/
def WrittenAre (written : DispatchID → Prop) (n : Network) : Prop :=
  ∀ id, written id ↔ ∃ dispatch, n.dispatch id = some dispatch ∧ dispatch.phase.Written

section Written

variable {n n' : Network} {e : NetworkEvent}

/-- A request that is written stays written, and only a write makes it so. -/
theorem Dispatch.Moves.written {id : DispatchID} {dispatch new : Dispatch}
    (h : dispatch.Moves n id e new) :
    new.phase.Written ↔ dispatch.phase.Written ∨ e = .write id none := by
  cases h with
  | lookup hphase =>
      simp only [Dispatch.goto, Network.route, hphase, reduceCtorEq, or_false]
      split <;> exact Iff.rfl
  | @closeJob outcome hphase =>
      simp only [Dispatch.goto, hphase, reduceCtorEq, or_false]
      cases outcome with
      | ok _ => exact Iff.rfl
      | error e => cases e <;> exact Iff.rfl
  | fill _ _ _ => simp [Dispatch.fill]
  | openJob hphase | refuse hphase | write hphase | receive hphase _ | timeout hphase =>
      simp [Dispatch.goto, Dispatch.take, hphase, DispatchPhase.Written]

theorem WrittenAre.step {written : DispatchID → Prop} (h : WrittenAre written n)
    (hstep : n.Step e n') : WrittenAre (fun id => written id ∨ e = .write id none) n' := by
  intro id
  constructor
  · rintro (hwritten | rfl)
    · obtain ⟨dispatch, hdispatch, hphase⟩ := (h id).mp hwritten
      obtain ⟨dispatch', hdispatch', -, rfl | hmove⟩ := hstep.payload_after hdispatch
      · exact ⟨dispatch', hdispatch', hphase⟩
      · exact ⟨dispatch', hdispatch', hmove.written.mpr (.inl hphase)⟩
    · cases hstep with
      | write hold _ =>
          exact ⟨_, Network.dispatch_setDispatch.trans (if_pos rfl), trivial⟩
  · rintro ⟨dispatch, hdispatch, hphase⟩
    rcases hstep.moves hdispatch with hsame | ⟨-, p, payload, -, rfl⟩ | ⟨old, hold, hmove⟩
    · exact .inl ((h id).mpr ⟨dispatch, hsame, hphase⟩)
    · exact hphase.elim
    · exact (hmove.written.mp hphase).imp_left fun hbefore => (h id).mpr ⟨old, hold, hbefore⟩

end Written

end Nuvonode.Ws
