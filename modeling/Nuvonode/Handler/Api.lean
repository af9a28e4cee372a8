/-
  Handler/Api.lean --- the whole server: requests, sessions and one database.

  The requests of `Handler/System` and the sessions of `Ws/Hub` run side by side.
  They meet in three places: a request calls `Dispatch` and gets what it returns, a
  session is accepted for the provider that its token names, and a hello upserts an
  instance.  Both parts are projections of the whole, so what holds of their own runs
  holds here.
-/
import Nuvonode.Handler.Invariant
import Nuvonode.Ws.Network
import Nuvonode.Ws.Sockets

set_option autoImplicit false

namespace Nuvonode.Handler

open Nuvonode.Foundation Nuvonode.Database Nuvonode.Repository Nuvonode.Service Nuvonode.Ws

/-! ## The `ProviderService` -/

/-- `ProviderService.ResolveToken`. -/
def resolveToken (P : Platform) (cfg : Config) (token : String) (db : DB) :
    Except Err ProviderRow :=
  if "pvn_provider_".toList.isPrefixOf token.toList then
    resolveProviderToken (P.hashToken cfg.providerTokenPepper token) db
  else .error .invalidCredentials

/-- `ProviderService.UpsertInstance`. -/
def upsertInstance (now : Nat) (id providerID : UUID) (publicID : String) (hello : HelloPayload)
    (db : DB) : Except Err (InstanceRow × DB) :=
  if trimSpace hello.instanceKey = "" then .error .invalidInput
  else upsertProviderInstance now id providerID publicID hello.instanceKey hello.hostname hello.os
    hello.arch hello.appVersion db

/-- A hello changes the catalog alone, and deletes nothing. -/
theorem follows_upsertInstance {now : Nat} {id providerID : UUID} {publicID : String}
    {hello : HelloPayload} {db db' : DB} {row : InstanceRow}
    (h : upsertInstance now id providerID publicID hello db = .ok (row, db')) :
    db' = { db with catalog := db'.catalog } ∧
      catalogFollows db.catalog db'.catalog = true := by
  unfold upsertInstance at h
  split at h
  · cases h
  · exact follows_upsertProviderInstance h

/-! ## The server -/

structure Api where
  service : ChatService
  network : Network

inductive ApiEvent where
  /-- Anything of the requests but the return of `Dispatch`. -/
  | service (e : ServiceEvent)
  /-- Anything of the hub but what the events below do. -/
  | network (e : NetworkEvent)
  | connect (conn : ConnID) (token : String)
  | hello (conn : ConnID) (now : Nat) (id : UUID) (publicID : String) (payload : HelloPayload)
  | dispatch (id : Nat)
  | deliver (id : Nat)
  deriving DecidableEq

/-- The events of the network that take something from the requests or the database. -/
def shared : NetworkEvent → Bool
  | .accept .. => true
  | .hello .. => true
  | .dispatch .. => true
  | _ => false

/-- The return of `Dispatch`. -/
def isDeliver : ServiceEvent → Bool
  | .deliver .. => true
  | _ => false

namespace Api

/-- The server with another service. -/
def serve (s : Api) (service : ChatService) : Api := { s with service }

/-- The server with another network. -/
def connected (s : Api) (network : Network) : Api := { s with network }

section Next

variable (P : Platform) (cfg : Config)

/-- What an event does; `none` where it cannot happen. -/
def next (s : Api) : ApiEvent → Option Api
  | .service e =>
      if isDeliver e then none else (Handler.next P cfg s.service e).map s.serve
  | .network e => if shared e then none else (s.network.next e).map s.connected
  | .connect conn token =>
      match resolveToken P cfg token s.service.db with
      | .error _ => none
      | .ok provider =>
          (s.network.next (.accept conn provider.id provider.publicID)).map s.connected
  | .hello conn now id publicID payload => do
      let session ← s.network.session conn
      if payload.instanceKey = "" then none
      else match upsertInstance now id session.providerID publicID payload s.service.db with
        | .error _ => (s.network.next (.hello conn none)).map s.connected
        | .ok (row, db) =>
            (s.network.next (.hello conn (some row.id))).map (s.serve (s.service.on db)).connected
  | .dispatch id => do
      let call ← s.service.call id
      match call.phase with
      | .dispatched job _ _ =>
          (s.network.next (.dispatch id job.route.providerPublicID (job.payload cfg))).map
            s.connected
      | _ => none
  | .deliver id => do
      let dispatch ← s.network.dispatch id
      match dispatch.phase with
      | .returned outcome =>
          (Handler.next P cfg s.service (.deliver id (outcome.map Delivery.frame))).map s.serve
      | _ => none

end Next

/-- The call of the websocket package that an event makes. -/
def socketCall (s : Api) : ApiEvent → Option SocketCall
  | .network e => s.network.socketCall e
  | .connect conn _ => some (.upgrade conn)
  | _ => none

end Api

/-- The server, from a fresh database without a request or a session. -/
abbrev apiMachine (P : Platform) (cfg : Config) : Machine Api ApiEvent :=
  Machine.ofNext (fun s => (Fresh s.service.db ∧ s.service.calls = []) ∧ s.network = .start)
    (Api.next P cfg)

/-! ## What an event can do -/

/-- One step of the server. -/
inductive Api.Step (P : Platform) (cfg : Config) (s : Api) : ApiEvent → Api → Prop where
  | service {e : ServiceEvent} {service : ChatService} : isDeliver e = false →
      Handler.next P cfg s.service e = some service → s.Step P cfg (.service e) (s.serve service)
  | network {e : NetworkEvent} {network : Network} : shared e = false →
      s.network.next e = some network → s.Step P cfg (.network e) (s.connected network)
  | connect {conn : ConnID} {token : String} {provider : ProviderRow} {network : Network} :
      resolveToken P cfg token s.service.db = .ok provider →
      s.network.next (.accept conn provider.id provider.publicID) = some network →
      s.Step P cfg (.connect conn token) (s.connected network)
  | refuseHello {conn : ConnID} {now : Nat} {id : UUID} {publicID : String}
      {payload : HelloPayload} {network : Network} :
      s.network.next (.hello conn none) = some network →
      s.Step P cfg (.hello conn now id publicID payload) (s.connected network)
  | hello {conn : ConnID} {now : Nat} {id : UUID} {publicID : String} {payload : HelloPayload}
      {session : Session} {row : InstanceRow} {catalog : Catalog} {network : Network} :
      s.network.session conn = some session →
      upsertInstance now id session.providerID publicID payload s.service.db =
        .ok (row, { s.service.db with catalog }) →
      catalogFollows s.service.db.catalog catalog = true →
      s.network.next (.hello conn (some row.id)) = some network →
      s.Step P cfg (.hello conn now id publicID payload)
        ((s.serve (s.service.on { s.service.db with catalog })).connected network)
  | dispatch {id : Nat} {call : Call} {job : ChatJob} {jobID walletID : UUID}
      {network : Network} : s.service.call id = some call →
      call.phase = .dispatched job jobID walletID →
      s.network.next (.dispatch id job.route.providerPublicID (job.payload cfg)) = some network →
      s.Step P cfg (.dispatch id) (s.connected network)
  | deliver {id : Nat} {dispatch : Dispatch} {outcome : Except DispatchError Delivery}
      {service : ChatService} : s.network.dispatch id = some dispatch →
      dispatch.phase = .returned outcome →
      Handler.next P cfg s.service (.deliver id (outcome.map Delivery.frame)) = some service →
      s.Step P cfg (.deliver id) (s.serve service)

section Steps

variable {P : Platform} {cfg : Config} {s s' : Api} {e : ApiEvent}

theorem Api.step_of_next (h : s.next P cfg e = some s') : s.Step P cfg e s' := by
  cases e with
  | service e =>
      simp only [Api.next] at h
      split at h
      · cases h
      · obtain ⟨service, hnext, rfl⟩ := Option.map_eq_some_iff.mp h
        exact .service (Bool.not_eq_true _ ▸ ‹_›) hnext
  | network e =>
      simp only [Api.next] at h
      split at h
      · cases h
      · obtain ⟨network, hnext, rfl⟩ := Option.map_eq_some_iff.mp h
        exact .network (Bool.not_eq_true _ ▸ ‹_›) hnext
  | connect conn token =>
      simp only [Api.next] at h
      split at h
      · cases h
      · obtain ⟨network, hnext, rfl⟩ := Option.map_eq_some_iff.mp h
        exact .connect ‹_› hnext
  | hello conn now id publicID payload =>
      obtain ⟨session, hsession, h⟩ := Option.bind_eq_some_iff.mp h
      split at h
      · cases h
      · split at h
        · obtain ⟨network, hnext, rfl⟩ := Option.map_eq_some_iff.mp h
          exact .refuseHello hnext
        · rename_i row db hupsert
          obtain ⟨network, hnext, rfl⟩ := Option.map_eq_some_iff.mp h
          obtain ⟨hdb, hfollows⟩ := follows_upsertInstance hupsert
          rw [hdb] at hupsert ⊢
          exact .hello hsession hupsert hfollows hnext
  | dispatch id =>
      obtain ⟨call, hcall, h⟩ := Option.bind_eq_some_iff.mp h
      split at h
      · obtain ⟨network, hnext, rfl⟩ := Option.map_eq_some_iff.mp h
        exact .dispatch hcall ‹_› hnext
      · cases h
  | deliver id =>
      obtain ⟨dispatch, hdispatch, h⟩ := Option.bind_eq_some_iff.mp h
      split at h
      · obtain ⟨service, hnext, rfl⟩ := Option.map_eq_some_iff.mp h
        exact .deliver hdispatch ‹_› hnext
      · cases h

/-! ## The two parts -/

/-- A step of the server is a step of the requests, or leaves them alone. -/
theorem Api.Step.service_part (h : s.Step P cfg e s') :
    s'.service = s.service ∨ ∃ e', Handler.next P cfg s.service e' = some s'.service := by
  cases h with
  | service _ hnext => exact .inr ⟨_, hnext⟩
  | @hello _ _ _ _ _ _ _ catalog _ _ _ hfollows _ =>
      refine .inr ⟨.changeCatalog catalog, ?_⟩
      simp only [Handler.next, hfollows, if_true]
      rfl
  | deliver _ _ hnext => exact .inr ⟨_, hnext⟩
  | _ => exact .inl rfl

/-- A step of the server is a step of the network, or leaves it alone. -/
theorem Api.Step.network_part (h : s.Step P cfg e s') :
    s'.network = s.network ∨ ∃ e', s.network.next e' = some s'.network ∧
      (e = .network e' ∨ shared e' = true) := by
  cases h with
  | network _ hnext => exact .inr ⟨_, hnext, .inl rfl⟩
  | connect _ hnext => exact .inr ⟨_, hnext, .inr rfl⟩
  | refuseHello hnext => exact .inr ⟨_, hnext, .inr rfl⟩
  | hello _ _ _ hnext => exact .inr ⟨_, hnext, .inr rfl⟩
  | dispatch _ _ hnext => exact .inr ⟨_, hnext, .inr rfl⟩
  | _ => exact .inl rfl

/-- The guard of the server that a guard of the network is. -/
def OnNetwork (guard : Network → NetworkEvent → Network → Prop) (s : Api) (e : ApiEvent)
    (s' : Api) : Prop :=
  match e with
  | .network e => guard s.network e s'.network
  | _ => True

theorem service_reaches {guard : Api → ApiEvent → Api → Prop} {es : List ApiEvent}
    (h : (apiMachine P cfg).Reaches guard es s) :
    ∃ es', (chatMachine P cfg).Reaches Machine.anyStep es' s.service := by
  refine h.project Api.service (fun _ hstart => hstart.1) fun a e b hnext _ => ?_
  rcases (Api.step_of_next hnext).service_part with hsame | ⟨e', hnext'⟩
  · exact .inl hsame
  · exact .inr ⟨e', hnext', trivial⟩

theorem network_reaches {guard : Network → NetworkEvent → Network → Prop} {es : List ApiEvent}
    (hshared : ∀ n e n', shared e = true → guard n e n')
    (h : (apiMachine P cfg).Reaches (OnNetwork guard) es s) :
    ∃ es', networkMachine.Reaches guard es' s.network := by
  refine h.project Api.network (fun _ hstart => hstart.2) fun a e b hnext hguard => ?_
  rcases (Api.step_of_next hnext).network_part with hsame | ⟨e', hnext', rfl | hevent⟩
  · exact .inl hsame
  · exact .inr ⟨e', hnext', hguard⟩
  · exact .inr ⟨e', hnext', hshared _ _ _ hevent⟩

/-! ## Requests and their dispatches -/

/-- The phases after `Dispatch` has returned. -/
def Phase.Past : Phase → Prop
  | .failing .. => True
  | .released .. => True
  | .answered .. => True
  | .unsettled .. => True
  | .done _ => True
  | _ => False

theorem Transition.past {db db' : DB} {call call' : Call} (h : Transition P db call db' call')
    (hpast : call.phase.Past ∨ ∃ job jobID walletID, call.phase = .dispatched job jobID walletID) :
    call'.phase.Past := by
  cases h with
  | search hsearching _ =>
      cases hphase : call.phase <;> simp [hphase, Phase.Past, Phase.Searching] at hpast hsearching
  | create hphase _ _ | refuse hphase | reserve hphase _ _ _ | dispatch hphase =>
      simp [hphase, Phase.Past] at hpast
  | _ => exact trivial

/-- A request that waits for `Dispatch`, or is past it, is past it after its next step. -/
theorem Stepped.past {a : ChatService} {e : ServiceEvent} {db : DB} {call call' : Call}
    (h : Stepped P cfg a call e db call')
    (hpast : call.phase.Past ∧ call.outcome.isSome ∨
      ∃ job jobID walletID, call.phase = .dispatched job jobID walletID) :
    call'.phase.Past ∧ call'.outcome.isSome := by
  refine ⟨h.transition.past (hpast.imp_left fun hboth => hboth.1), ?_⟩
  cases h with
  | deliver hdeliver =>
      rw [outcome_of_deliver hdeliver]
      rfl
  | advance hadvance =>
      rw [outcome_of_advance hadvance]
      obtain ⟨-, hsome⟩ | ⟨job, jobID, walletID, hphase⟩ := hpast
      · exact hsome
      · rw [Call.advance, hphase] at hadvance
        cases hadvance

/-- What ties the requests to the dispatches they called. -/
structure Tied (cfg : Config) (s : Api) : Prop where
  /-- A dispatch is for the route of the request that waits for it. -/
  route : ∀ id dispatch, s.network.dispatch id = some dispatch →
    ∃ call, s.service.call id = some call ∧ (call.phase.Past ∧ call.outcome.isSome ∨
      ∃ job jobID walletID, call.phase = .dispatched job jobID walletID ∧
        dispatch.providerPublicID = job.route.providerPublicID ∧
        dispatch.payload = job.payload cfg)
  /-- What a request was given its dispatch has returned. -/
  outcome : ∀ id call outcome, s.service.call id = some call → call.outcome = some outcome →
    ∃ dispatch result, s.network.dispatch id = some dispatch ∧
      dispatch.phase = .returned result ∧ outcome = result.map Delivery.frame

theorem Tied.service (h : Tied cfg s) (hinv : Invariant P s.service) {e : ServiceEvent}
    {service : ChatService} (hnext : next P cfg s.service e = some service)
    (hreturned : ∀ id outcome, e = .deliver id outcome → ∃ dispatch result,
      s.network.dispatch id = some dispatch ∧ dispatch.phase = .returned result ∧
        outcome = result.map Delivery.frame) : Tied cfg (s.serve service) := by
  refine ⟨fun id dispatch hdispatch => ?_, fun id call outcome hcall houtcome => ?_⟩
  · obtain ⟨call, hcall, hplace⟩ := h.route id dispatch hdispatch
    rcases hinv.follow hnext hcall with ⟨hsame, -⟩ | ⟨call', hcall', hstep⟩
    · exact ⟨call, hsame, hplace⟩
    · refine ⟨call', hcall', .inl (hstep.past ?_)⟩
      exact hplace.imp_right fun ⟨job, jobID, walletID, hphase, _⟩ =>
        ⟨job, jobID, walletID, hphase⟩
  · -- A call with an outcome had it before, or was given it by this step.
    cases kind_of_next hnext with
    | background _ => exact h.outcome id call outcome hcall houtcome
    | arrive hfree =>
        rcases List.mem_append.mp (Table.mem_of_select hcall).1 with hold | hnew
        · refine h.outcome id call outcome ?_ houtcome
          rw [← (Table.mem_of_select hcall).2]
          exact Table.select_of_mem hinv.ids hold
        · rw [List.mem_singleton.mp hnew] at houtcome
          cases houtcome
    | @call old new db hold hstep =>
        obtain ⟨hmem, hid⟩ := Table.mem_of_select hcall
        rcases ChatService.mem_put hmem with rfl | ⟨hother, -⟩
        · rw [hstep.transition.id_eq] at hid
          cases hstep with
          | advance hadvance =>
              rw [outcome_of_advance hadvance] at houtcome
              exact h.outcome id old outcome (hid ▸ hold) houtcome
          | deliver hdeliver =>
              rw [outcome_of_deliver hdeliver, Option.some.injEq] at houtcome
              subst houtcome hid
              exact hreturned old.id _ rfl
        · exact h.outcome id call outcome (hid ▸ Table.select_of_mem hinv.ids hother) houtcome

theorem Tied.network (h : Tied cfg s) {e : NetworkEvent} {network : Network}
    (hnext : s.network.next e = some network) {service : ChatService}
    (hcalls : service.calls = s.service.calls)
    (hcalled : ∀ id providerPublicID payload, e = .dispatch id providerPublicID payload →
      ∃ call job jobID walletID, s.service.call id = some call ∧
        call.phase = .dispatched job jobID walletID ∧
        providerPublicID = job.route.providerPublicID ∧ payload = job.payload cfg) :
    Tied cfg ((s.serve service).connected network) := by
  have hstep := Network.step_of_next hnext
  have hcall : ∀ id, service.call id = s.service.call id := by
    intro id
    rw [ChatService.call, hcalls, ChatService.call]
  refine ⟨fun id dispatch hdispatch => ?_, fun id call outcome hselect houtcome => ?_⟩
  · rw [Api.connected, Api.serve, hcall]
    rcases hstep.dispatch_before hdispatch with ⟨old, hold, hprovider, hpayload⟩ | hevent
    · rw [hprovider, hpayload]
      exact h.route id old hold
    · obtain ⟨call, job, jobID, walletID, hselect, hphase, hroute⟩ := hcalled _ _ _ hevent
      exact ⟨call, hselect, .inr ⟨job, jobID, walletID, hphase, hroute⟩⟩
  · rw [Api.connected, Api.serve, hcall] at hselect
    obtain ⟨dispatch, result, hdispatch, hphase, heq⟩ := h.outcome id call outcome hselect houtcome
    obtain ⟨dispatch', hdispatch', hphase'⟩ := hstep.returned hdispatch hphase
    exact ⟨dispatch', result, hdispatch', hphase', heq⟩

/-- Every step keeps requests and dispatches tied. -/
theorem Tied.step (h : Tied cfg s) (hinv : Invariant P s.service) (hstep : s.Step P cfg e s') :
    Tied cfg s' := by
  cases hstep with
  | service hlocal hnext =>
      refine h.service hinv hnext ?_
      rintro id outcome rfl
      cases hlocal
  | network hlocal hnext =>
      refine h.network hnext rfl ?_
      rintro id providerPublicID payload rfl
      cases hlocal
  | connect _ hnext => exact h.network hnext rfl fun _ _ _ => nofun
  | refuseHello hnext => exact h.network hnext rfl fun _ _ _ => nofun
  | hello _ _ _ hnext => exact h.network hnext rfl fun _ _ _ => nofun
  | dispatch hcall hphase hnext =>
      refine h.network hnext rfl ?_
      rintro id providerPublicID payload ⟨⟩
      exact ⟨_, _, _, _, hcall, hphase, rfl, rfl⟩
  | deliver hdispatch hphase hnext =>
      refine h.service hinv hnext ?_
      rintro id outcome ⟨⟩
      exact ⟨_, _, hdispatch, hphase, rfl⟩

theorem Tied.start (hcalls : s.service.calls = []) (hnetwork : s.network = .start) :
    Tied cfg s := by
  refine ⟨fun id dispatch hdispatch => ?_, fun id call _ hcall _ => ?_⟩
  · rw [hnetwork] at hdispatch
    cases hdispatch
  · rw [ChatService.call, hcalls] at hcall
    cases hcall

/-- Every step keeps the invariant of the requests. -/
theorem Api.Step.invariant (h : s.Step P cfg e s') (hinv : Invariant P s.service) :
    Invariant P s'.service := by
  rcases h.service_part with hsame | ⟨e', hnext⟩
  · exact hsame ▸ hinv
  · exact hinv.step hnext

/-- A dispatch that has not returned is that of a request that waits for it. -/
theorem Tied.waiting (h : Tied cfg s) {id : DispatchID} {dispatch : Dispatch}
    (hdispatch : s.network.dispatch id = some dispatch)
    (hphase : ∀ result, dispatch.phase ≠ .returned result) :
    ∃ call job jobID walletID, s.service.call id = some call ∧
      call.phase = .dispatched job jobID walletID ∧
      dispatch.providerPublicID = job.route.providerPublicID := by
  obtain ⟨call, hcall, ⟨-, hsome⟩ | ⟨job, jobID, walletID, hwaiting, hprovider, -⟩⟩ :=
    h.route id dispatch hdispatch
  · obtain ⟨outcome, houtcome⟩ := Option.isSome_iff_exists.mp hsome
    obtain ⟨dispatch', result, hdispatch', hreturned, -⟩ := h.outcome id call outcome hcall houtcome
    obtain rfl := Option.some.inj (hdispatch.symm.trans hdispatch')
    exact absurd hreturned (hphase result)
  · exact ⟨call, job, jobID, walletID, hcall, hwaiting, hprovider⟩

theorem tied_of_reaches {guard : Api → ApiEvent → Api → Prop} {es : List ApiEvent}
    (h : (apiMachine P cfg).Reaches guard es s) : Invariant P s.service ∧ Tied cfg s := by
  refine h.invariant (fun s => Invariant P s.service ∧ Tied cfg s) ?_ ?_
  · rintro s ⟨⟨hfresh, hcalls⟩, hnetwork⟩
    exact ⟨.start hfresh hcalls, .start hcalls hnetwork⟩
  · rintro s e s' ⟨hinv, htied⟩ hnext -
    have hstep := Api.step_of_next hnext
    exact ⟨hstep.invariant hinv, htied.step hinv hstep⟩

end Steps

end Nuvonode.Handler
