/-
  Ws/Network.lean --- what the sessions and the dispatches do to each other.

  `Step` says once what an event can do.  A session stays the session of its
  provider, and a dispatch the dispatch for its provider and its request; so what a
  channel holds can be traced back to the session that sent it.
-/
import Nuvonode.Foundation.Machine
import Nuvonode.Ws.Hub

set_option autoImplicit false

namespace Nuvonode.Ws

open Nuvonode.Foundation Nuvonode.Database

/-- The network, with no session and no dispatch at first. -/
abbrev networkMachine : Machine Network NetworkEvent :=
  Machine.ofNext (fun n => n = .start) Network.next

namespace Network

section Lookups

variable {n : Network} {conn other : ConnID} {id channel : DispatchID} {session : Session}
  {dispatch : Dispatch}

@[simp] theorem session_setSession :
    (n.setSession conn session).session other =
      if other = conn then some session else n.session other := by
  simp [setSession, Function.update_apply]

@[simp] theorem dispatch_setSession : (n.setSession conn session).dispatch = n.dispatch := rfl

@[simp] theorem hub_setSession : (n.setSession conn session).hub = n.hub := rfl

@[simp] theorem latest_setSession : (n.setSession conn session).latest = n.latest := rfl

@[simp] theorem dispatch_setDispatch :
    (n.setDispatch id dispatch).dispatch channel =
      if channel = id then some dispatch else n.dispatch channel := by
  simp [setDispatch, Function.update_apply]

@[simp] theorem session_setDispatch : (n.setDispatch id dispatch).session = n.session := rfl

@[simp] theorem hub_setDispatch : (n.setDispatch id dispatch).hub = n.hub := rfl

@[simp] theorem latest_setDispatch : (n.setDispatch id dispatch).latest = n.latest := rfl

@[simp] theorem session_withHub (hub : Hub) : (n.withHub hub).session = n.session := rfl

@[simp] theorem dispatch_withHub (hub : Hub) : (n.withHub hub).dispatch = n.dispatch := rfl

@[simp] theorem hub_withHub (hub : Hub) : (n.withHub hub).hub = hub := rfl

@[simp] theorem latest_withHub (hub : Hub) : (n.withHub hub).latest = n.latest := rfl

@[simp] theorem session_setLatest (p : String) (c : Option ConnID) :
    (n.setLatest p c).session = n.session := rfl

@[simp] theorem dispatch_setLatest (p : String) (c : Option ConnID) :
    (n.setLatest p c).dispatch = n.dispatch := rfl

@[simp] theorem hub_setLatest (p : String) (c : Option ConnID) :
    (n.setLatest p c).hub = n.hub := rfl

@[simp] theorem latest_setLatest (p q : String) (c : Option ConnID) :
    (n.setLatest p c).latest q = if q = p then c else n.latest q := by
  simp [setLatest, Function.update_apply]

/-- Closing a connection changes nothing of a session but the mark. -/
theorem session_closeConnection (provider : Option ProviderConnection) :
    (n.closeConnection provider).session conn = (n.session conn).map fun session =>
      { session with closed := session.closed || provider.any fun p => p.conn = conn } := by
  cases provider with
  | none => cases hsession : n.session conn <;> simp [closeConnection, hsession]
  | some provider =>
      by_cases hconn : conn = provider.conn
      · subst hconn
        cases hsession : n.session provider.conn <;> simp [closeConnection, hsession]
      · have hne : ¬ provider.conn = conn := fun heq => hconn heq.symm
        cases hsession : n.session provider.conn <;> cases hother : n.session conn <;>
          simp [closeConnection, hsession, hother, hconn, hne]

@[simp] theorem dispatch_closeConnection (provider : Option ProviderConnection) :
    (n.closeConnection provider).dispatch = n.dispatch := by
  unfold closeConnection
  split
  · rfl
  · split <;> rfl

@[simp] theorem hub_closeConnection (provider : Option ProviderConnection) :
    (n.closeConnection provider).hub = n.hub := by
  unfold closeConnection
  split
  · rfl
  · split <;> rfl

@[simp] theorem latest_closeConnection (provider : Option ProviderConnection) :
    (n.closeConnection provider).latest = n.latest := by
  unfold closeConnection
  split
  · rfl
  · split <;> rfl

end Lookups

end Network

@[simp] theorem Hub.providers_register (hub : Hub) (p q : String) (conn : ConnID) :
    (hub.register p conn).providers q =
      if q = p then some { providerPublicID := p, conn } else hub.providers q := by
  simp [Hub.register, Function.update_apply]

@[simp] theorem Hub.providers_unregister (hub : Hub) (p q : String) :
    (hub.unregister p).providers q = if q = p then none else hub.providers q := by
  simp [Hub.unregister, Function.update_apply]

@[simp] theorem Hub.jobs_register (hub : Hub) (p : String) (conn : ConnID) :
    (hub.register p conn).jobs = hub.jobs := rfl

@[simp] theorem Hub.jobs_unregister (hub : Hub) (p : String) :
    (hub.unregister p).jobs = hub.jobs := rfl

@[simp] theorem Hub.providers_openJob (hub : Hub) (jobID : String) (channel : DispatchID) :
    (hub.openJob jobID channel).providers = hub.providers := rfl

@[simp] theorem Hub.jobs_openJob (hub : Hub) (jobID other : String) (channel : DispatchID) :
    (hub.openJob jobID channel).jobs other =
      if other = jobID then some channel else hub.jobs other := by
  simp [Hub.openJob, Function.update_apply]

@[simp] theorem Hub.providers_closeJob (hub : Hub) (jobID : String) :
    (hub.closeJob jobID).providers = hub.providers := rfl

@[simp] theorem Hub.jobs_closeJob (hub : Hub) (jobID other : String) :
    (hub.closeJob jobID).jobs other = if other = jobID then none else hub.jobs other := by
  simp [Hub.closeJob, Function.update_apply]

/-! ## What an event can do -/

/-- One step of the network. -/
inductive Network.Step (n : Network) : NetworkEvent → Network → Prop where
  | accept {conn : ConnID} {providerID : UUID} {providerPublicID : String} :
      n.session conn = none →
      n.Step (.accept conn providerID providerPublicID)
        (n.setSession conn (.accepted providerID providerPublicID))
  | register {conn : ConnID} {session : Session} : n.session conn = some session →
      session.phase = .accepted →
      n.Step (.register conn) (((n.setSession conn (session.goto .reading)).withHub
        (n.hub.register session.providerPublicID conn)).setLatest session.providerPublicID conn)
  | hello {conn : ConnID} {session : Session} {instanceID : Option UUID} :
      n.session conn = some session → session.phase = .reading →
      n.Step (.hello conn instanceID) (n.setSession conn (session.greet instanceID))
  | ignore {conn : ConnID} {session : Session} {frame : CompletionFrame} :
      n.session conn = some session → session.phase = .reading →
      n.hub.jobs frame.jobID = none → n.Step (.complete conn frame) n
  | complete {conn : ConnID} {session : Session} {frame : CompletionFrame}
      {channel : DispatchID} : n.session conn = some session → session.phase = .reading →
      n.hub.jobs frame.jobID = some channel →
      n.Step (.complete conn frame)
        (n.setSession conn (session.goto (.completing channel frame)))
  | send {conn : ConnID} {session : Session} {frame : CompletionFrame} {channel : DispatchID}
      {dispatch : Dispatch} : n.session conn = some session →
      session.phase = .completing channel frame → n.dispatch channel = some dispatch →
      dispatch.buffer = none →
      n.Step (.send conn) ((n.setSession conn (session.goto .reading)).setDispatch channel
        (dispatch.fill { conn, frame }))
  | drop {conn : ConnID} {session : Session} : n.session conn = some session →
      session.phase = .reading →
      n.Step (.drop conn) (n.setSession conn (session.goto .leaving))
  | unregister {conn : ConnID} {session : Session} : n.session conn = some session →
      session.phase = .leaving →
      n.Step (.unregister conn) ((n.setSession conn (session.goto .ended)).withHub
        (n.hub.unregister session.providerPublicID))
  | disconnect {providerPublicID : String} :
      n.Step (.disconnect providerPublicID)
        (((n.closeConnection (n.hub.providers providerPublicID)).withHub
          (n.hub.unregister providerPublicID)).setLatest providerPublicID none)
  | dispatch {id : DispatchID} {providerPublicID : String} {payload : JobRequestPayload} :
      n.dispatch id = none →
      n.Step (.dispatch id providerPublicID payload)
        (n.setDispatch id (.called providerPublicID payload))
  | lookup {id : DispatchID} {dispatch : Dispatch} : n.dispatch id = some dispatch →
      dispatch.phase = .called →
      n.Step (.lookup id) (n.setDispatch id (dispatch.goto (n.route dispatch.providerPublicID)))
  | openJob {id : DispatchID} {dispatch : Dispatch} {conn : ConnID} :
      n.dispatch id = some dispatch → dispatch.phase = .found conn →
      n.Step (.openJob id) ((n.setDispatch id (dispatch.goto (.opened conn))).withHub
        (n.hub.openJob dispatch.payload.jobID id))
  | refuse {id : DispatchID} {dispatch : Dispatch} {conn : ConnID} {text : String} :
      n.dispatch id = some dispatch → dispatch.phase = .opened conn →
      n.Step (.write id (some text)) (n.setDispatch id
        (dispatch.goto (.finishing (.error (.writeFailed text)))))
  | write {id : DispatchID} {dispatch : Dispatch} {conn : ConnID} :
      n.dispatch id = some dispatch → dispatch.phase = .opened conn →
      n.Step (.write id none) (n.setDispatch id (dispatch.goto (.waiting conn)))
  | receive {id : DispatchID} {dispatch : Dispatch} {conn : ConnID} {delivery : Delivery} :
      n.dispatch id = some dispatch → dispatch.phase = .waiting conn →
      dispatch.buffer = some delivery →
      n.Step (.receive id) (n.setDispatch id (dispatch.take delivery))
  | timeout {id : DispatchID} {dispatch : Dispatch} {conn : ConnID} :
      n.dispatch id = some dispatch → dispatch.phase = .waiting conn →
      n.Step (.timeout id) (n.setDispatch id (dispatch.goto (.finishing (.error .jobTimeout))))
  | closeJob {id : DispatchID} {dispatch : Dispatch}
      {outcome : Except DispatchError Delivery} : n.dispatch id = some dispatch →
      dispatch.phase = .finishing outcome →
      n.Step (.closeJob id) ((n.setDispatch id (dispatch.goto (.returned outcome))).withHub
        (n.hub.closeJob dispatch.payload.jobID))

theorem Network.step_of_next {n n' : Network} {e : NetworkEvent} (h : n.next e = some n') :
    n.Step e n' := by
  cases e with
  | accept conn providerID providerPublicID =>
      simp only [next] at h
      split at h <;> cases h
      exact .accept ‹_›
  | disconnect providerPublicID =>
      cases h
      exact .disconnect
  | dispatch id providerPublicID payload =>
      simp only [next] at h
      split at h <;> cases h
      exact .dispatch ‹_›
  | register conn =>
      obtain ⟨session, hsession, h⟩ := Option.bind_eq_some_iff.mp h
      split at h <;> cases h
      exact .register hsession ‹_›
  | hello conn instanceID =>
      obtain ⟨session, hsession, h⟩ := Option.bind_eq_some_iff.mp h
      split at h <;> cases h
      exact .hello hsession ‹_›
  | complete conn frame =>
      obtain ⟨session, hsession, h⟩ := Option.bind_eq_some_iff.mp h
      split at h
      · rename_i hphase
        cases h
        unfold read
        split
        · exact .ignore hsession hphase ‹_›
        · exact .complete hsession hphase ‹_›
      · cases h
  | send conn =>
      obtain ⟨session, hsession, h⟩ := Option.bind_eq_some_iff.mp h
      split at h
      · rename_i hphase
        obtain ⟨dispatch, hdispatch, h⟩ := Option.bind_eq_some_iff.mp h
        split at h <;> cases h
        exact .send hsession hphase hdispatch ‹_›
      · cases h
  | drop conn =>
      obtain ⟨session, hsession, h⟩ := Option.bind_eq_some_iff.mp h
      split at h <;> cases h
      exact .drop hsession ‹_›
  | unregister conn =>
      obtain ⟨session, hsession, h⟩ := Option.bind_eq_some_iff.mp h
      split at h <;> cases h
      exact .unregister hsession ‹_›
  | lookup id =>
      obtain ⟨dispatch, hdispatch, h⟩ := Option.bind_eq_some_iff.mp h
      split at h <;> cases h
      exact .lookup hdispatch ‹_›
  | openJob id =>
      obtain ⟨dispatch, hdispatch, h⟩ := Option.bind_eq_some_iff.mp h
      split at h <;> cases h
      exact .openJob hdispatch ‹_›
  | write id refusal =>
      obtain ⟨dispatch, hdispatch, h⟩ := Option.bind_eq_some_iff.mp h
      split at h
      · rename_i hphase
        split at h
        · cases h
          exact .refuse hdispatch hphase
        · cases h
          exact .write hdispatch hphase
      · cases h
  | receive id =>
      obtain ⟨dispatch, hdispatch, h⟩ := Option.bind_eq_some_iff.mp h
      split at h <;> cases h
      exact .receive hdispatch ‹_› ‹_›
  | timeout id =>
      obtain ⟨dispatch, hdispatch, h⟩ := Option.bind_eq_some_iff.mp h
      split at h <;> cases h
      exact .timeout hdispatch ‹_›
  | closeJob id =>
      obtain ⟨dispatch, hdispatch, h⟩ := Option.bind_eq_some_iff.mp h
      split at h <;> cases h
      exact .closeJob hdispatch ‹_›

/-! ## What becomes of a session and of a dispatch -/

section After

variable {n n' : Network} {e : NetworkEvent} {conn : ConnID} {id : DispatchID}

/-- A session stays, of the same provider; only a hello that succeeds changes its
instance. -/
theorem Network.Step.session_after (h : n.Step e n') {session : Session}
    (hsession : n.session conn = some session) : ∃ session', n'.session conn = some session' ∧
      session'.providerPublicID = session.providerPublicID ∧
      (session'.hello = session.hello ∨
        ∃ instanceID, e = .hello conn (some instanceID) ∧ session'.hello = some instanceID) := by
  -- A session that is replaced by one of the same provider and instance.
  have hother : ∀ {set : ConnID} {old new : Session}, n.session set = some old →
      new.providerPublicID = old.providerPublicID → new.hello = old.hello →
      ∃ session', (n.setSession set new).session conn = some session' ∧
        session'.providerPublicID = session.providerPublicID ∧
        (session'.hello = session.hello ∨
          ∃ instanceID, e = .hello conn (some instanceID) ∧
            session'.hello = some instanceID) := by
    intro set old new hold hprovider hhello
    rw [session_setSession]
    split
    · rename_i heq
      rw [← heq, hsession, Option.some.injEq] at hold
      subst hold
      exact ⟨new, rfl, hprovider, .inl hhello⟩
    · exact ⟨session, hsession, rfl, .inl rfl⟩
  cases h with
  | accept hfree =>
      refine ⟨session, ?_, rfl, .inl rfl⟩
      rw [session_setSession, if_neg, hsession]
      rintro rfl
      rw [hfree] at hsession
      cases hsession
  | register hold _ | complete hold _ _ | drop hold _ | unregister hold _ =>
      exact hother hold rfl rfl
  | send hold _ _ _ => exact hother hold rfl rfl
  | @hello greeted old instanceID hold _ =>
      cases instanceID with
      | none => exact hother hold rfl rfl
      | some instanceID =>
          rw [session_setSession]
          split
          · rename_i heq
            subst heq
            obtain rfl := Option.some.inj (hsession.symm.trans hold)
            exact ⟨_, rfl, rfl, .inr ⟨instanceID, rfl, rfl⟩⟩
          · exact ⟨session, hsession, rfl, .inl rfl⟩
  | disconnect =>
      rw [session_setLatest, session_withHub, session_closeConnection, hsession]
      exact ⟨_, rfl, rfl, .inl rfl⟩
  | _ => exact ⟨session, hsession, rfl, .inl rfl⟩

/-- What a session keeps in every step. -/
structure Session.Keeps (old new : Session) : Prop where
  providerID : new.providerID = old.providerID
  providerPublicID : new.providerPublicID = old.providerPublicID
  closed : old.closed = true → new.closed = true
  ended : old.phase = .ended → new.phase = .ended

theorem Session.Keeps.refl (session : Session) : session.Keeps session :=
  ⟨rfl, rfl, fun h => h, fun h => h⟩

/-- A session is the one it was before, or has just been accepted; only a hello changes its
instance. -/
theorem Network.Step.session_before (h : n.Step e n') {session : Session}
    (hsession : n'.session conn = some session) :
    (e = .accept conn session.providerID session.providerPublicID ∧ session.instanceID = none) ∨
      ∃ old, n.session conn = some old ∧ old.Keeps session ∧
        (session.instanceID = old.instanceID ∨
          ∃ instanceID, e = .hello conn instanceID ∧ session.instanceID = instanceID) := by
  -- A session that was replaced by one that keeps what it must and the instance.
  have hother : ∀ {set : ConnID} {old new : Session}, n.session set = some old →
      (n.setSession set new).session conn = some session → old.Keeps new →
      new.instanceID = old.instanceID →
      ∃ old, n.session conn = some old ∧ old.Keeps session ∧
        (session.instanceID = old.instanceID ∨
          ∃ instanceID, e = .hello conn instanceID ∧ session.instanceID = instanceID) := by
    intro set old new hold hset hkeeps hinstance
    rw [session_setSession] at hset
    split at hset
    · rename_i heq
      cases hset
      exact ⟨old, heq ▸ hold, hkeeps, .inl hinstance⟩
    · exact ⟨session, hset, .refl session, .inl rfl⟩
  have hgoto : ∀ {old : Session} {phase : SessionPhase}, old.phase ≠ .ended →
      old.Keeps (old.goto phase) := fun hphase => ⟨rfl, rfl, fun h => h, fun h => absurd h hphase⟩
  cases h with
  | accept hfree =>
      rw [session_setSession] at hsession
      split at hsession
      · rename_i heq
        cases hsession
        exact .inl ⟨heq ▸ rfl, rfl⟩
      · exact .inr ⟨session, hsession, .refl session, .inl rfl⟩
  | register hold hphase =>
      exact .inr (hother hold hsession (hgoto (by simp [hphase])) rfl)
  | complete hold hphase _ => exact .inr (hother hold hsession (hgoto (by simp [hphase])) rfl)
  | drop hold hphase => exact .inr (hother hold hsession (hgoto (by simp [hphase])) rfl)
  | unregister hold hphase => exact .inr (hother hold hsession (hgoto (by simp [hphase])) rfl)
  | send hold hphase _ _ => exact .inr (hother hold hsession (hgoto (by simp [hphase])) rfl)
  | @hello greeted old instanceID hold hphase =>
      rw [session_setSession] at hsession
      split at hsession
      · rename_i heq
        subst heq
        cases hsession
        exact .inr ⟨old, hold, ⟨rfl, rfl, fun h => h, fun h => h⟩, .inr ⟨instanceID, rfl, rfl⟩⟩
      · exact .inr ⟨session, hsession, .refl session, .inl rfl⟩
  | disconnect =>
      rw [session_setLatest, session_withHub, session_closeConnection] at hsession
      obtain ⟨old, hold, rfl⟩ := Option.map_eq_some_iff.mp hsession
      exact .inr ⟨old, hold, ⟨rfl, rfl, fun h => by simp [h], fun h => h⟩, .inl rfl⟩
  | _ => exact .inr ⟨session, hsession, .refl session, .inl rfl⟩

/-- A dispatch stays, for the same provider. -/
theorem Network.Step.dispatch_after (h : n.Step e n') {dispatch : Dispatch}
    (hdispatch : n.dispatch id = some dispatch) : ∃ dispatch',
      n'.dispatch id = some dispatch' ∧
        dispatch'.providerPublicID = dispatch.providerPublicID := by
  have hother : ∀ {set : DispatchID} {old new : Dispatch}, n.dispatch set = some old →
      new.providerPublicID = old.providerPublicID →
      ∃ dispatch', (n.setDispatch set new).dispatch id = some dispatch' ∧
        dispatch'.providerPublicID = dispatch.providerPublicID := by
    intro set old new hold hprovider
    rw [dispatch_setDispatch]
    split
    · rename_i heq
      rw [← heq, hdispatch, Option.some.injEq] at hold
      subst hold
      exact ⟨new, rfl, hprovider⟩
    · exact ⟨dispatch, hdispatch, rfl⟩
  cases h with
  | dispatch hfree =>
      refine ⟨dispatch, ?_, rfl⟩
      rw [dispatch_setDispatch, if_neg, hdispatch]
      rintro rfl
      rw [hfree] at hdispatch
      cases hdispatch
  | lookup hold _ | openJob hold _ | refuse hold _ | write hold _ | timeout hold _
  | receive hold _ _ | closeJob hold _ => exact hother hold rfl
  | send _ _ hold _ => exact hother hold rfl
  | disconnect =>
      rw [dispatch_setLatest, dispatch_withHub, dispatch_closeConnection, hdispatch]
      exact ⟨_, rfl, rfl⟩
  | _ => exact ⟨dispatch, hdispatch, rfl⟩

end After

/-! ## Where a delivery comes from -/

/-- The delivery is in the channel, or was taken from it. -/
def Dispatch.Has (dispatch : Dispatch) (delivery : Delivery) : Prop :=
  dispatch.buffer = some delivery ∨ dispatch.phase = .finishing (.ok delivery) ∨
    dispatch.phase = .returned (.ok delivery)

section Provenance

variable {n n' : Network} {e : NetworkEvent} {conn : ConnID} {id : DispatchID}

/-- A session that completes a job did so before, or has just read the frame. -/
theorem Network.Step.completing_before (h : n.Step e n') {session : Session}
    {channel : DispatchID} {frame : CompletionFrame} (hsession : n'.session conn = some session)
    (hphase : session.phase = .completing channel frame) :
    (∃ old, n.session conn = some old ∧ old.phase = .completing channel frame) ∨
      e = .complete conn frame ∧ ∃ old, n.session conn = some old ∧
        n.hub.jobs frame.jobID = some channel := by
  -- A session that was set to a phase of another kind is not this one.
  have hother : ∀ {set : ConnID} {new : Session}, (n.setSession set new).session conn =
      some session → new.phase ≠ .completing channel frame → n.session conn = some session := by
    intro set new hset hne
    rw [session_setSession] at hset
    split at hset
    · cases hset
      exact absurd hphase hne
    · exact hset
  cases h with
  | accept _ => exact .inl ⟨session, hother hsession (by simp [Session.accepted]), hphase⟩
  | register _ _ => exact .inl ⟨session, hother hsession (by simp [Session.goto]), hphase⟩
  | hello _ hreading =>
      exact .inl ⟨session, hother hsession (by simp [Session.greet, hreading]), hphase⟩
  | drop _ _ => exact .inl ⟨session, hother hsession (by simp [Session.goto]), hphase⟩
  | unregister _ _ => exact .inl ⟨session, hother hsession (by simp [Session.goto]), hphase⟩
  | send _ _ _ _ => exact .inl ⟨session, hother hsession (by simp [Session.goto]), hphase⟩
  | @complete other old read found hold _ hjob =>
      rw [session_setSession] at hsession
      split at hsession
      · rename_i heq
        subst heq
        cases hsession
        cases hphase
        exact .inr ⟨rfl, old, hold, hjob⟩
      · exact .inl ⟨session, hsession, hphase⟩
  | disconnect =>
      have hclosed := hsession
      rw [session_setLatest, session_withHub, session_closeConnection] at hclosed
      obtain ⟨old, hold, rfl⟩ := Option.map_eq_some_iff.mp hclosed
      exact .inl ⟨old, hold, hphase⟩
  | _ => exact .inl ⟨session, hsession, hphase⟩

/-- What a dispatch has it had before, or a session has just sent it. -/
theorem Network.Step.delivery_before (h : n.Step e n') {dispatch : Dispatch}
    {delivery : Delivery} (hdispatch : n'.dispatch id = some dispatch)
    (hhas : dispatch.Has delivery) :
    (∃ old, n.dispatch id = some old ∧ old.Has delivery) ∨
      ∃ session, n.session delivery.conn = some session ∧
        session.phase = .completing id delivery.frame := by
  -- A dispatch that was replaced by one that has no more than the old one.
  have hother : ∀ {set : DispatchID} {old new : Dispatch}, n.dispatch set = some old →
      (n.setDispatch set new).dispatch id = some dispatch →
      (new.Has delivery → old.Has delivery) →
      ∃ old, n.dispatch id = some old ∧ old.Has delivery := by
    intro set old new hold hset hless
    rw [dispatch_setDispatch] at hset
    split at hset
    · rename_i heq
      cases hset
      exact ⟨old, heq ▸ hold, hless hhas⟩
    · exact ⟨dispatch, hset, hhas⟩
  cases h with
  | @dispatch new _ _ hfree =>
      rw [dispatch_setDispatch] at hdispatch
      split at hdispatch
      · cases hdispatch
        simp [Dispatch.Has, Dispatch.called] at hhas
      · exact .inl ⟨dispatch, hdispatch, hhas⟩
  | lookup hold hphase =>
      refine .inl (hother hold hdispatch fun hnew => ?_)
      unfold route at hnew
      split at hnew <;> simpa [Dispatch.Has, Dispatch.goto, hphase] using hnew
  | openJob hold hphase =>
      exact .inl (hother hold hdispatch fun hnew => by
        simpa [Dispatch.Has, Dispatch.goto, hphase] using hnew)
  | refuse hold hphase =>
      exact .inl (hother hold hdispatch fun hnew => by
        simpa [Dispatch.Has, Dispatch.goto, hphase] using hnew)
  | write hold hphase =>
      exact .inl (hother hold hdispatch fun hnew => by
        simpa [Dispatch.Has, Dispatch.goto, hphase] using hnew)
  | timeout hold hphase =>
      exact .inl (hother hold hdispatch fun hnew => by
        simpa [Dispatch.Has, Dispatch.goto, hphase] using hnew)
  | receive hold hphase hbuffer =>
      refine .inl (hother hold hdispatch fun hnew => .inl ?_)
      simp only [Dispatch.Has, Dispatch.take, reduceCtorEq, DispatchPhase.finishing.injEq,
        Except.ok.injEq, false_or, or_false] at hnew
      rw [hbuffer, hnew]
  | @closeJob _ _ outcome hold hphase =>
      refine .inl (hother hold hdispatch fun hnew => ?_)
      simp only [Dispatch.Has, Dispatch.goto, reduceCtorEq, DispatchPhase.returned.injEq,
        false_or] at hnew
      rw [Dispatch.Has, hphase, DispatchPhase.finishing.injEq]
      exact hnew.imp_right .inl
  | @send sender session frame channel old hsession hphase hold hempty =>
      rw [dispatch_setDispatch] at hdispatch
      split at hdispatch
      · rename_i heq
        subst heq
        cases hdispatch
        rcases hhas with hbuffer | hphase'
        · cases hbuffer
          exact .inr ⟨session, hsession, hphase⟩
        · exact .inl ⟨old, hold, .inr hphase'⟩
      · exact .inl ⟨dispatch, hdispatch, hhas⟩
  | disconnect =>
      rw [dispatch_setLatest, dispatch_withHub, dispatch_closeConnection] at hdispatch
      exact .inl ⟨dispatch, hdispatch, hhas⟩
  | _ => exact .inl ⟨dispatch, hdispatch, hhas⟩

/-- The dispatch has found this connection and has not written to it. -/
def Dispatch.Aims (dispatch : Dispatch) (conn : ConnID) : Prop :=
  dispatch.phase = .found conn ∨ dispatch.phase = .opened conn

/-- A dispatch that aims at a connection did so before, or has just looked it up. -/
theorem Network.Step.aims_before (h : n.Step e n') {dispatch : Dispatch}
    (hdispatch : n'.dispatch id = some dispatch) (haims : dispatch.Aims conn) :
    (∃ old, n.dispatch id = some old ∧ old.Aims conn) ∨
      e = .lookup id ∧ ∃ old provider, n.dispatch id = some old ∧
        n.hub.providers old.providerPublicID = some provider ∧ provider.conn = conn := by
  -- A dispatch that is replaced by one that does not aim, or by one that aims as before.
  have hother : ∀ {set : DispatchID} {old new : Dispatch}, n.dispatch set = some old →
      (n.setDispatch set new).dispatch id = some dispatch →
      (new.Aims conn → old.Aims conn) → ∃ old, n.dispatch id = some old ∧ old.Aims conn := by
    intro set old new hold hset himp
    rw [dispatch_setDispatch] at hset
    split at hset
    · rename_i heq
      cases hset
      exact ⟨old, heq ▸ hold, himp haims⟩
    · exact ⟨dispatch, hset, haims⟩
  cases h with
  | dispatch hfree =>
      rw [dispatch_setDispatch] at hdispatch
      split at hdispatch
      · cases hdispatch
        simp [Dispatch.Aims, Dispatch.called] at haims
      · exact .inl ⟨dispatch, hdispatch, haims⟩
  | @lookup set old hold _ =>
      rw [dispatch_setDispatch] at hdispatch
      split at hdispatch
      · rename_i heq
        subst heq
        cases hdispatch
        refine .inr ⟨rfl, old, ?_⟩
        unfold route at haims
        split at haims
        · simp [Dispatch.Aims, Dispatch.goto] at haims
        · rename_i provider hprovider
          simp only [Dispatch.Aims, Dispatch.goto, DispatchPhase.found.injEq, reduceCtorEq,
            or_false] at haims
          exact ⟨provider, hold, hprovider, haims⟩
      · exact .inl ⟨dispatch, hdispatch, haims⟩
  | @openJob set old found hold hphase =>
      refine .inl (hother hold hdispatch fun hnew => .inl ?_)
      simp only [Dispatch.Aims, Dispatch.goto, reduceCtorEq, DispatchPhase.opened.injEq,
        false_or] at hnew
      rw [hphase, hnew]
  | refuse hold _ | write hold _ | receive hold _ _ | timeout hold _ | closeJob hold _ =>
      refine .inl (hother hold hdispatch fun hnew => ?_)
      simp [Dispatch.Aims, Dispatch.goto, Dispatch.take] at hnew
  | send _ _ hold _ => exact .inl (hother hold hdispatch fun hnew => hnew)
  | disconnect =>
      rw [dispatch_setLatest, dispatch_withHub, dispatch_closeConnection] at hdispatch
      exact .inl ⟨dispatch, hdispatch, haims⟩
  | _ => exact .inl ⟨dispatch, hdispatch, haims⟩

/-- A dispatch is the one it was before, or has just been called. -/
theorem Network.Step.dispatch_before (h : n.Step e n') {dispatch : Dispatch}
    (hdispatch : n'.dispatch id = some dispatch) :
    (∃ old, n.dispatch id = some old ∧ dispatch.providerPublicID = old.providerPublicID ∧
        dispatch.payload = old.payload) ∨
      e = .dispatch id dispatch.providerPublicID dispatch.payload := by
  have hother : ∀ {set : DispatchID} {old new : Dispatch}, n.dispatch set = some old →
      (n.setDispatch set new).dispatch id = some dispatch →
      new.providerPublicID = old.providerPublicID → new.payload = old.payload →
      ∃ old, n.dispatch id = some old ∧ dispatch.providerPublicID = old.providerPublicID ∧
        dispatch.payload = old.payload := by
    intro set old new hold hset hprovider hpayload
    rw [dispatch_setDispatch] at hset
    split at hset
    · rename_i heq
      cases hset
      exact ⟨old, heq ▸ hold, hprovider, hpayload⟩
    · exact ⟨dispatch, hset, rfl, rfl⟩
  cases h with
  | dispatch hfree =>
      rw [dispatch_setDispatch] at hdispatch
      split at hdispatch
      · rename_i heq
        cases hdispatch
        rw [heq]
        exact .inr rfl
      · exact .inl ⟨dispatch, hdispatch, rfl, rfl⟩
  | lookup hold _ | openJob hold _ | refuse hold _ | write hold _ | timeout hold _
  | receive hold _ _ | closeJob hold _ => exact .inl (hother hold hdispatch rfl rfl)
  | send _ _ hold _ => exact .inl (hother hold hdispatch rfl rfl)
  | disconnect =>
      rw [dispatch_setLatest, dispatch_withHub, dispatch_closeConnection] at hdispatch
      exact .inl ⟨dispatch, hdispatch, rfl, rfl⟩
  | _ => exact .inl ⟨dispatch, hdispatch, rfl, rfl⟩

/-- What a dispatch has returned stays. -/
theorem Network.Step.returned (h : n.Step e n') {dispatch : Dispatch}
    {outcome : Except DispatchError Delivery} (hdispatch : n.dispatch id = some dispatch)
    (hphase : dispatch.phase = .returned outcome) :
    ∃ dispatch', n'.dispatch id = some dispatch' ∧ dispatch'.phase = .returned outcome := by
  -- No other step is one of this dispatch.
  have hother : ∀ {set : DispatchID} {old new : Dispatch}, n.dispatch set = some old →
      old.phase ≠ .returned outcome → (n.setDispatch set new).dispatch id = some dispatch := by
    intro set old new hold hne
    rw [dispatch_setDispatch, if_neg, hdispatch]
    rintro rfl
    rw [hdispatch, Option.some.injEq] at hold
    exact hne (hold ▸ hphase)
  cases h with
  | dispatch hfree =>
      refine ⟨dispatch, ?_, hphase⟩
      rw [dispatch_setDispatch, if_neg, hdispatch]
      rintro rfl
      rw [hdispatch] at hfree
      cases hfree
  | lookup hold hcalled => exact ⟨dispatch, hother hold (by simp [hcalled]), hphase⟩
  | openJob hold hfound => exact ⟨dispatch, hother hold (by simp [hfound]), hphase⟩
  | refuse hold hopened => exact ⟨dispatch, hother hold (by simp [hopened]), hphase⟩
  | write hold hopened => exact ⟨dispatch, hother hold (by simp [hopened]), hphase⟩
  | receive hold hwaiting _ => exact ⟨dispatch, hother hold (by simp [hwaiting]), hphase⟩
  | timeout hold hwaiting => exact ⟨dispatch, hother hold (by simp [hwaiting]), hphase⟩
  | closeJob hold hfinishing => exact ⟨dispatch, hother hold (by simp [hfinishing]), hphase⟩
  | @send conn session frame channel old _ _ hold _ =>
      rw [dispatch_setDispatch]
      split
      · rename_i heq
        subst heq
        obtain rfl := Option.some.inj (hdispatch.symm.trans hold)
        exact ⟨_, rfl, hphase⟩
      · exact ⟨dispatch, hdispatch, hphase⟩
  | disconnect =>
      refine ⟨dispatch, ?_, hphase⟩
      rw [dispatch_setLatest, dispatch_withHub, dispatch_closeConnection, hdispatch]
  | _ => exact ⟨dispatch, hdispatch, hphase⟩

/-- The request was written, or will not be. -/
def Dispatch.Written (dispatch : Dispatch) : Prop :=
  match dispatch.phase with
  | .called | .found _ | .opened _ => False
  | _ => True

/-- What was written stays written. -/
theorem Network.Step.written_after (h : n.Step e n') {dispatch : Dispatch}
    (hdispatch : n.dispatch id = some dispatch) (hwritten : dispatch.Written) :
    ∃ dispatch', n'.dispatch id = some dispatch' ∧ dispatch'.Written := by
  have hother : ∀ {set : DispatchID} {old new : Dispatch}, n.dispatch set = some old →
      (old.Written → new.Written) →
      ∃ dispatch', (n.setDispatch set new).dispatch id = some dispatch' ∧
        dispatch'.Written := by
    intro set old new hold hkeeps
    rw [dispatch_setDispatch]
    split
    · rename_i heq
      subst heq
      obtain rfl := Option.some.inj (hdispatch.symm.trans hold)
      exact ⟨new, rfl, hkeeps hwritten⟩
    · exact ⟨dispatch, hdispatch, hwritten⟩
  cases h with
  | dispatch hfree =>
      refine ⟨dispatch, ?_, hwritten⟩
      rw [dispatch_setDispatch, if_neg, hdispatch]
      rintro rfl
      rw [hdispatch] at hfree
      cases hfree
  | lookup hold hphase | openJob hold hphase =>
      refine hother hold fun hearly => ?_
      rw [Dispatch.Written, hphase] at hearly
      exact hearly.elim
  | refuse hold _ | write hold _ | receive hold _ _ | timeout hold _ | closeJob hold _ =>
      exact hother hold fun _ => trivial
  | send _ _ hold _ => exact hother hold fun hwritten => hwritten
  | disconnect =>
      refine ⟨dispatch, ?_, hwritten⟩
      rw [dispatch_setLatest, dispatch_withHub, dispatch_closeConnection, hdispatch]
  | _ => exact ⟨dispatch, hdispatch, hwritten⟩

/-- Every channel in the hub is a dispatch's. -/
theorem Network.Step.jobs_isSome (h : n.Step e n')
    (hjobs : ∀ jobID id, n.hub.jobs jobID = some id → (n.dispatch id).isSome) :
    ∀ jobID id, n'.hub.jobs jobID = some id → (n'.dispatch id).isSome := by
  have hold : ∀ {id : DispatchID}, (n.dispatch id).isSome → (n'.dispatch id).isSome := by
    intro id hsome
    obtain ⟨dispatch, hdispatch⟩ := Option.isSome_iff_exists.mp hsome
    obtain ⟨dispatch', hdispatch', -⟩ := h.dispatch_after hdispatch
    exact Option.isSome_of_eq_some hdispatch'
  intro jobID id hjob
  cases h with
  | @openJob opened dispatch conn hdispatch _ =>
      simp only [hub_withHub, Hub.jobs_openJob] at hjob
      split at hjob
      · cases hjob
        exact hold (Option.isSome_of_eq_some hdispatch)
      · exact hold (hjobs jobID id hjob)
  | closeJob =>
      simp only [hub_withHub, Hub.jobs_closeJob] at hjob
      split at hjob
      · cases hjob
      · exact hold (hjobs jobID id hjob)
  | _ => exact hold (hjobs jobID id hjob)

end Provenance

end Nuvonode.Ws
