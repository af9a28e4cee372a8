/-
  Contract/Instances.lean --- when a job runs on the instance it was routed to.

  A route names an instance, and the hub knows providers: a dispatch is written to the
  session of the provider that registered last, whichever instance it said hello for.
  `RoutedInstance` asks that this session has said hello for the routed instance, and
  does not change its instance before the request is written.
-/
import Nuvonode.Contract.Answers
import Nuvonode.Contract.Connections

set_option autoImplicit false

namespace Nuvonode.Contract

open Nuvonode.Foundation Nuvonode.Database Nuvonode.Repository Nuvonode.Service Nuvonode.Handler
  Nuvonode.Ws

/-- The instance that the route of a waiting request names. -/
def Call.routedInstance (call : Call) : Option UUID :=
  match call.phase with
  | .dispatched job _ _ => some job.route.providerInstanceID
  | _ => none

/-- The instance that a hello upserts. -/
def greeted (s : Api) (conn : ConnID) (now : Nat) (id : UUID) (publicID : String)
    (payload : HelloPayload) : Option UUID :=
  (s.network.session conn).bind fun session =>
    match upsertInstance now id session.providerID publicID payload s.service.db with
    | .ok (row, _) => some row.id
    | .error _ => none

instance (dispatch : Dispatch) (conn : ConnID) : Decidable (dispatch.Aims conn) :=
  inferInstanceAs (Decidable (_ ∨ _))

/-- The guard.  Where the hub has an entry for the provider of a route, the session that
registered last has said hello for the routed instance; and a session that a dispatch has
found says no hello for another instance before the request is written to it. -/
def RoutedInstance (s : Api) (e : ApiEvent) (_ : Api) : Prop :=
  match e with
  | .network (.lookup id) => ∀ call ∈ s.service.call id, ∀ instanceID ∈ Call.routedInstance call,
      ∀ dispatch ∈ s.network.dispatch id,
        (s.network.hub.providers dispatch.providerPublicID).isSome →
        ∀ conn ∈ s.network.latest dispatch.providerPublicID,
          ∀ session ∈ s.network.session conn, session.hello = some instanceID
  | .hello conn now id publicID payload =>
      ∀ greetedID ∈ greeted s conn now id publicID payload, ∀ call ∈ s.service.calls,
        ∀ instanceID ∈ Call.routedInstance call, ∀ dispatch ∈ s.network.dispatch call.id,
          dispatch.Aims conn → greetedID = instanceID
  | _ => True

/-- A dispatch that has found a session and has not written to it, found one of the
provider of its route that has said hello for the routed instance. -/
def Aimed (s : Api) : Prop :=
  ∀ id call dispatch conn instanceID, s.service.call id = some call →
    s.network.dispatch id = some dispatch → dispatch.Aims conn →
    Call.routedInstance call = some instanceID →
    ∃ session, s.network.session conn = some session ∧
      session.providerPublicID = dispatch.providerPublicID ∧ session.hello = some instanceID

section Aimed

variable {P : Platform} {cfg : Config} {s s' : Api} {e : ApiEvent}

theorem Call.routedInstance_eq_some {call : Call} {instanceID : UUID}
    (h : Call.routedInstance call = some instanceID) :
    ∃ job jobID walletID, call.phase = .dispatched job jobID walletID ∧
      job.route.providerInstanceID = instanceID := by
  unfold Call.routedInstance at h
  split at h
  · exact ⟨_, _, _, ‹_›, Option.some.inj h⟩
  · cases h

/-- A step of the requests leaves every dispatch aimed. -/
theorem Aimed.service (h : Aimed s) (hinv : Invariant P s.service) (htied : Tied cfg s)
    {e : ServiceEvent} {service : ChatService} (hnext : next P cfg s.service e = some service) :
    Aimed (s.serve service) := by
  intro id call dispatch conn instanceID hcall hdispatch haims hrouted
  obtain ⟨old, hold, hplace⟩ := htied.route id dispatch hdispatch
  rcases hinv.follow hnext hold with ⟨hsame, -⟩ | ⟨call', hcall', hstep⟩
  · obtain rfl := Option.some.inj (hsame.symm.trans hcall)
    exact h id old dispatch conn instanceID hold hdispatch haims hrouted
  · -- A call that has been dispatched does not come back to waiting.
    obtain rfl := Option.some.inj (hcall'.symm.trans hcall)
    have hpast := hstep.past (hplace.imp_right fun ⟨job, jobID, walletID, hphase, _⟩ =>
      ⟨job, jobID, walletID, hphase⟩)
    obtain ⟨job, jobID, walletID, hphase, -⟩ := Call.routedInstance_eq_some hrouted
    rw [hphase] at hpast
    exact hpast.1.elim

/-- A step of the network leaves every dispatch aimed, when a lookup and a hello do. -/
theorem Aimed.network (h : Aimed s) {e : NetworkEvent} {network : Network}
    (hnext : s.network.next e = some network) {service : ChatService}
    (hcalls : service.calls = s.service.calls)
    (hlookup : ∀ id call dispatch conn instanceID, e = .lookup id →
      s.service.call id = some call → s.network.dispatch id = some dispatch →
      s.network.hub.providers dispatch.providerPublicID = some conn →
      Call.routedInstance call = some instanceID →
      ∃ session, s.network.session conn.conn = some session ∧
        session.providerPublicID = dispatch.providerPublicID ∧ session.hello = some instanceID)
    (hhello : ∀ conn greetedID, e = .hello conn (some greetedID) → ∀ id call dispatch instanceID,
      s.service.call id = some call → s.network.dispatch id = some dispatch →
      dispatch.Aims conn → Call.routedInstance call = some instanceID → greetedID = instanceID) :
    Aimed ((s.serve service).connected network) := by
  have hstep := Network.step_of_next hnext
  intro id call dispatch conn instanceID hcall hdispatch haims hrouted
  have hselect : s.service.call id = some call := by
    rw [Api.connected, Api.serve, ChatService.call, hcalls] at hcall
    exact hcall
  -- The session aimed at before the step, and the dispatch as it was.
  obtain ⟨old, hold, session, hsession, hprovider, hhello'⟩ : ∃ old,
      s.network.dispatch id = some old ∧ ∃ session, s.network.session conn = some session ∧
        session.providerPublicID = old.providerPublicID ∧ session.hello = some instanceID := by
    rcases hstep.aims_before hdispatch haims with ⟨old, hold, haimed⟩ | ⟨rfl, old, provider, hold,
      hentry, rfl⟩
    · exact ⟨old, hold, h id call old conn instanceID hselect hold haimed hrouted⟩
    · exact ⟨old, hold, hlookup id call old provider instanceID rfl hselect hold hentry hrouted⟩
  obtain ⟨session', hsession', hsame, hinstance⟩ := hstep.session_after hsession
  obtain ⟨dispatch', hdispatch', hsame'⟩ := hstep.dispatch_after hold
  obtain rfl := Option.some.inj (hdispatch'.symm.trans hdispatch)
  refine ⟨session', hsession', by rw [hsame, hsame', hprovider], ?_⟩
  rcases hinstance with hkept | ⟨greetedID, rfl, hgreeted⟩
  · rw [hkept, hhello']
  · rcases hstep.aims_before hdispatch haims with ⟨old', hold', haimed⟩ | ⟨hevent, -⟩
    · rw [hgreeted, hhello conn greetedID rfl id call old' instanceID hselect hold' haimed hrouted]
    · cases hevent

theorem Aimed.step (h : Aimed s) (hinv : Invariant P s.service) (htied : Tied cfg s)
    (htracked : Tracked s.network) (hstep : s.Step P cfg e s') (hguard : RoutedInstance s e s') :
    Aimed s' := by
  cases hstep with
  | service _ hnext => exact h.service hinv htied hnext
  | deliver _ _ hnext => exact h.service hinv htied hnext
  | connect _ hnext =>
      exact h.network hnext rfl (fun _ _ _ _ _ => nofun) fun _ _ => nofun
  | refuseHello hnext =>
      exact h.network hnext rfl (fun _ _ _ _ _ => nofun) fun _ _ => nofun
  | dispatch _ _ hnext =>
      exact h.network hnext rfl (fun _ _ _ _ _ => nofun) fun _ _ => nofun
  | network hlocal hnext =>
      refine h.network hnext rfl ?_ ?_
      · rintro id call dispatch provider instanceID rfl hcall hdispatch hentry hrouted
        obtain ⟨-, hlatest, -⟩ := htracked.entry _ provider hentry
        obtain ⟨session, hsession, hprovider, -⟩ := htracked.latest _ _ hlatest
        exact ⟨session, hsession, hprovider, hguard call hcall instanceID hrouted dispatch hdispatch
          (Option.isSome_of_eq_some hentry) provider.conn hlatest session hsession⟩
      · rintro conn greetedID rfl
        cases hlocal
  | @hello conn now newID publicID payload session row _ _ hsession hupsert _ hnext =>
      refine h.network hnext rfl (fun _ _ _ _ _ => nofun) ?_
      rintro _ _ ⟨⟩ id call dispatch instanceID hcall hdispatch haims hrouted
      have hgreeted : greeted s conn now newID publicID payload = some row.id := by
        rw [greeted, hsession, Option.bind_some, hupsert]
      obtain ⟨hmem, hid⟩ := Table.mem_of_select hcall
      exact hguard row.id hgreeted call hmem instanceID hrouted dispatch (hid ▸ hdispatch) haims

theorem aimed_of_reaches {es : List ApiEvent}
    (hreach : (apiMachine P cfg).Reaches RoutedInstance es s) : Aimed s := by
  refine (hreach.invariant (fun s => Invariant P s.service ∧ Tied cfg s ∧ Tracked s.network ∧
    Aimed s) ?_ ?_).2.2.2
  · rintro s ⟨⟨hfresh, hcalls⟩, hnetwork⟩
    refine ⟨.start hfresh hcalls, .start hcalls hnetwork, ?_, ?_⟩
    · rw [hnetwork]
      exact .start
    · intro id call dispatch conn instanceID _ hdispatch
      rw [hnetwork] at hdispatch
      cases hdispatch
  · rintro s e s' ⟨hinv, htied, htracked, haimed⟩ hnext hguard
    have hstep := Api.step_of_next hnext
    refine ⟨hstep.invariant hinv, htied.step hinv hstep, ?_,
      haimed.step hinv htied htracked hstep hguard⟩
    rcases hstep.network_part with hsame | ⟨e', hnext', -⟩
    · exact hsame ▸ htracked
    · exact htracked.step (Network.step_of_next hnext')

end Aimed

/-- In a run that keeps the guard, every request is written to a session of the provider
of its route that has said hello for the routed instance, which is the instance of its
job row and of its settlement; and an instance is routed to only for an advertisement of
the model that was approved.  A request is written where its dispatch has opened its
channel. -/
theorem job_runs_on_routed_instance (P : Platform) (cfg : Config) {es : List ApiEvent} {s : Api}
    (hreach : (apiMachine P cfg).Reaches RoutedInstance es s) :
    (∀ id dispatch conn, s.network.dispatch id = some dispatch → dispatch.phase = .opened conn →
      ∃ call job jobID walletID session row, s.service.call id = some call ∧
        call.phase = .dispatched job jobID walletID ∧
        s.network.session conn = some session ∧
        session.providerPublicID = job.route.providerPublicID ∧
        session.hello = some job.route.providerInstanceID ∧
        s.service.db.job jobID = some row ∧
        row.providerInstanceID = some job.route.providerInstanceID ∧
        ∀ result, (job.settlement P walletID jobID result).providerInstanceID =
          job.route.providerInstanceID) ∧
      ∀ modelID route, findsRoute modelID s.service.db (some route) = true →
        ∃ ad ∈ s.service.db.catalog.advertisements, ad.modelID = some modelID ∧
          ad.providerInstanceID = route.providerInstanceID ∧ ad.status = .approved := by
  obtain ⟨hinv, htied⟩ := tied_of_reaches hreach
  have haimed := aimed_of_reaches hreach
  refine ⟨fun id dispatch conn hdispatch hopened => ?_, fun modelID route hroute => ?_⟩
  · have hunreturned : ∀ result, dispatch.phase ≠ .returned result := by
      rw [hopened]
      exact fun _ => DispatchPhase.noConfusion
    obtain ⟨call, job, jobID, walletID, hcall, hphase, hprovider⟩ :=
      htied.waiting hdispatch hunreturned
    have hrouted : Call.routedInstance call = some job.route.providerInstanceID := by
      rw [Call.routedInstance, hphase]
    obtain ⟨session, hsession, hsame, hhello⟩ :=
      haimed id call dispatch conn _ hcall hdispatch (.inr hopened) hrouted
    have hcallInv := hinv.calls call (Table.mem_of_select hcall).1
    simp only [CallInv, hphase] at hcallInv
    exact ⟨call, job, jobID, walletID, session, _, hcall, hphase, hsession,
      hsame.trans hprovider, hhello, hcallInv.2.2.pending.row, rfl, fun _ => rfl⟩
  · obtain ⟨provider, inst, ad, version, hrows⟩ := rows_of_findsRoute hroute
    obtain ⟨-, -, hinstance, -, -, -, -, happroved, hmodel, -⟩ := hrows.conditions
    rw [hrows.route_eq]
    exact ⟨ad, hrows.ad_mem, hmodel, hinstance, happroved⟩

/-! ## Sample runs -/

instance (s : Api) (e : ApiEvent) (s' : Api) : Decidable (RoutedInstance s e s') :=
  match e with
  | .network (.lookup id) => inferInstanceAs (Decidable (∀ call ∈ s.service.call id,
      ∀ instanceID ∈ Call.routedInstance call, ∀ dispatch ∈ s.network.dispatch id,
        (s.network.hub.providers dispatch.providerPublicID).isSome →
          ∀ conn ∈ s.network.latest dispatch.providerPublicID,
            ∀ session ∈ s.network.session conn, session.hello = some instanceID))
  | .hello conn now id publicID payload => inferInstanceAs (Decidable
      (∀ greetedID ∈ greeted s conn now id publicID payload, ∀ call ∈ s.service.calls,
        ∀ instanceID ∈ Call.routedInstance call, ∀ dispatch ∈ s.network.dispatch call.id,
          dispatch.Aims conn → greetedID = instanceID))
  | .network (.accept ..) => isTrue trivial
  | .network (.register _) => isTrue trivial
  | .network (.hello ..) => isTrue trivial
  | .network (.complete ..) => isTrue trivial
  | .network (.send _) => isTrue trivial
  | .network (.drop _) => isTrue trivial
  | .network (.unregister _) => isTrue trivial
  | .network (.disconnect _) => isTrue trivial
  | .network (.dispatch ..) => isTrue trivial
  | .network (.openJob _) => isTrue trivial
  | .network (.write ..) => isTrue trivial
  | .network (.receive _) => isTrue trivial
  | .network (.timeout _) => isTrue trivial
  | .network (.closeJob _) => isTrue trivial
  | .service _ => isTrue trivial
  | .connect .. => isTrue trivial
  | .dispatch _ => isTrue trivial
  | .deliver _ => isTrue trivial

/-- What the sample provider's machines say in a hello. -/
def sampleHello (instanceKey : String) : HelloPayload where
  instanceKey := instanceKey
  appVersion := "dev"
  hostname := "host"
  os := "linux"
  arch := "amd64"

/-- The provider `prv_b` connects a machine and the request is dispatched; `others` happens
in between. -/
def routedEvents (others : List ApiEvent) : List ApiEvent :=
  dispatchEvents.map .service ++
    [.connect 0 "pvn_provider_b", .network (.register 0),
      .hello 0 1 30 "pin_b" (sampleHello "key-a")] ++ others ++
    [.dispatch 0, .network (.lookup 0), .network (.openJob 0)]

/-- A second machine of the provider connects with the same token. -/
def secondMachine : List ApiEvent :=
  [.connect 1 "pvn_provider_b", .network (.register 1),
    .hello 1 2 31 "pin_c" (sampleHello "key-b")]

/-- With one machine connected, the request is written to a session of the instance of its
job row. -/
theorem sample_job_runs_on_routed_instance :
    ∃ s, (apiMachine samplePlatform sampleConfig).Reaches RoutedInstance (routedEvents []) s ∧
      ∃ session row, s.network.session 0 = some session ∧ s.service.db.job 7 = some row ∧
        row.providerInstanceID = session.hello ∧ session.hello = some 24 := by
  obtain ⟨s, hreach, hphase, hjob, hinstance⟩ : ∃ s,
      (apiMachine samplePlatform sampleConfig).Reaches RoutedInstance (routedEvents []) s ∧
        (s.network.dispatch 0).map Dispatch.phase = some (.opened 0) ∧
        s.service.calls.map Call.jobID = [some 7] ∧
        (s.service.db.job 7).map JobRow.providerInstanceID = some (some 24) :=
    Machine.exists_of_exec start_freshApi (by decide +kernel)
  obtain ⟨dispatch, hdispatch, hopened⟩ := Option.map_eq_some_iff.mp hphase
  obtain ⟨call, job, jobID, walletID, session, row, hcall, hwaiting, hsession, -, hhello, hrow,
    hsame, -⟩ := (job_runs_on_routed_instance samplePlatform sampleConfig hreach).1 0 dispatch 0
      hdispatch hopened
  have hcallInv := (tied_of_reaches hreach).1.calls call (Table.mem_of_select hcall).1
  simp only [CallInv, hwaiting] at hcallInv
  have hmem : call.jobID ∈ s.service.calls.map Call.jobID :=
    List.mem_map_of_mem (Table.mem_of_select hcall).1
  rw [hjob, List.mem_singleton, hcallInv.1, Option.some.injEq] at hmem
  rw [hmem] at hrow
  rw [hrow, Option.map_some, Option.some.injEq] at hinstance
  exact ⟨s, hreach, session, row, hsession, hrow, hsame.trans hhello.symm,
    hhello.trans (hsame.symm.trans hinstance)⟩

/-- With a second machine connected, the job of instance 24 is about to be written to the
session of instance 31. -/
theorem job_runs_on_other_instance :
    ∃ s, (apiMachine samplePlatform sampleConfig).Reaches Machine.anyStep
        (routedEvents secondMachine) s ∧
      (s.network.dispatch 0).map Dispatch.phase = some (.opened 1) ∧
      (s.network.session 1).map Session.hello = some (some 31) ∧
      (s.service.db.job 7).map JobRow.providerInstanceID = some (some 24) ∧
      s.service.calls.map Call.routedInstance = [some 24] :=
  Machine.exists_of_exec start_freshApi (by decide +kernel)

end Nuvonode.Contract
