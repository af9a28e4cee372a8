/-
  Handler/Endings.lean --- how many steps a request has left.

  A request takes one statement after another and calls `Dispatch` once, whose own steps
  are bounded too.  Until it has its response it always has a step of its own: a query
  returns some row, and a wait for an answer times out.  Only the write to a provider has
  no deadline: where every `WriteJSON` of the websocket package returns, no provider and no
  other request keeps a request from its end.
-/
import Mathlib.Data.List.MinMax
import Mathlib.Order.TypeTags
import Nuvonode.Foundation.Ending
import Nuvonode.Handler.Api
import Nuvonode.Ws.Channels

set_option autoImplicit false

namespace Nuvonode.Handler

open Nuvonode.Foundation Nuvonode.Database Nuvonode.Repository Nuvonode.Service Nuvonode.Ws

/-! ## The steps that are left -/

/-- How many statements a request still runs, at most, with the return of `Dispatch`. -/
def Phase.statements : Phase → Nat
  | .received => 9
  | .authenticated .. => 8
  | .modelFound .. => 7
  | .routed _ => 6
  | .created .. => 5
  | .reserved .. => 4
  | .dispatched .. => 3
  | .failing .. => 2
  | .answered .. => 2
  | .refused .. => 1
  | .released .. => 1
  | .unsettled .. => 1
  | .done _ => 0

/-- How many steps a call of `Dispatch` still takes, at most. -/
def dispatchSteps : DispatchPhase → Nat
  | .called => 5
  | .found _ => 4
  | .opened _ => 3
  | .waiting _ => 2
  | .finishing _ => 1
  | .returned _ => 0

/-- The statements that are left of a request, also before it arrives. -/
def ChatService.statements (s : ChatService) (id : Nat) : Nat :=
  (s.call id).elim 9 fun call => call.phase.statements

/-- The steps that are left of a dispatch, also before it is called. -/
def dispatchLeft (n : Network) (id : DispatchID) : Nat :=
  (n.dispatch id).elim 6 fun dispatch => dispatchSteps dispatch.phase

/-- The steps that are left of a request. -/
def Api.remaining (s : Api) (id : Nat) : Nat :=
  s.service.statements id + dispatchLeft s.network id

/-- A step of the dispatch of a request. -/
def isOfDispatch (id : DispatchID) : NetworkEvent → Bool
  | .dispatch other _ _ => other = id
  | .lookup other => other = id
  | .openJob other => other = id
  | .write other _ => other = id
  | .receive other => other = id
  | .timeout other => other = id
  | .closeJob other => other = id
  | _ => false

/-- A statement of a request, or the return of its `Dispatch`. -/
def isOfCall (id : Nat) : ServiceEvent → Bool
  | .advance other _ => other = id
  | .deliver other _ => other = id
  | _ => false

/-- A step of a request. -/
def ApiEvent.isOf (id : Nat) : ApiEvent → Bool
  | .service e => isOfCall id e
  | .network e => isOfDispatch id e
  | .dispatch other => other = id
  | .deliver other => other = id
  | _ => false

theorem ChatService.statements_le (s : ChatService) (id : Nat) : s.statements id ≤ 9 := by
  unfold ChatService.statements
  cases s.call id with
  | none => exact le_refl 9
  | some call => cases hphase : call.phase <;> simp [hphase, Phase.statements]

theorem dispatchLeft_le (n : Network) (id : DispatchID) : dispatchLeft n id ≤ 6 := by
  unfold dispatchLeft
  cases n.dispatch id with
  | none => exact le_refl 6
  | some dispatch => cases hphase : dispatch.phase <;> simp [hphase, dispatchSteps]

/-- A request has at most 15 steps. -/
theorem Api.remaining_le (s : Api) (id : Nat) : s.remaining id ≤ 15 :=
  Nat.add_le_add (s.service.statements_le id) (dispatchLeft_le s.network id)

/-! ## Every step of a request makes them fewer -/

section Statements

variable {P : Platform} {cfg : Config} {db db' : DB} {call call' : Call}

theorem statements_of_advance {env : Env} (h : call.advance P cfg env db = some (db', call')) :
    call'.phase.statements < call.phase.statements := by
  cases hphase : call.phase with
  | received =>
      simp only [Call.advance, hphase] at h
      split at h
      · cases h
        exact Nat.zero_lt_succ _
      · split at h <;> cases h
        · exact Nat.zero_lt_succ _
        · exact Nat.lt_succ_self _
  | authenticated auth request =>
      simp only [Call.advance, hphase] at h
      split at h
      · cases h
        exact Nat.zero_lt_succ _
      · split at h <;> cases h
        · exact Nat.zero_lt_succ _
        · exact Nat.lt_succ_self _
  | modelFound auth request model =>
      simp only [Call.advance, hphase] at h
      split at h
      · split at h <;> cases h
        · exact Nat.zero_lt_succ _
        · exact Nat.lt_succ_self _
      · cases h
  | routed job =>
      simp only [Call.advance, hphase] at h
      split at h <;> cases h
      · exact Nat.zero_lt_succ _
      · exact Nat.lt_succ_self _
  | _ =>
      -- From its job row on, the transitions say where a request goes.
      have htransition := transition_of_advance h
      cases htransition <;>
        simp_all [Phase.statements, Phase.Searching, Call.goto, Call.committed]

theorem statements_of_deliver {outcome : Except DispatchError CompletionFrame}
    (h : call.deliver outcome = some call') :
    call'.phase.statements < call.phase.statements := by
  unfold Call.deliver at h
  split at h
  · rename_i job jobID walletID hphase
    cases h
    rw [hphase]
    change Phase.statements _ < 3
    split
    · exact Nat.lt_succ_self _
    · split <;> exact Nat.lt_succ_self _
  · cases h

end Statements

/-! ## A request always has a step -/

/-- A heartbeat precedes another one where it is later; none at all is the latest. -/
theorem heartbeatPrecedes_of_le {a b : Option Nat} (h : (show WithTop Nat from b) ≤ a) :
    heartbeatPrecedes a b = true := by
  cases a with
  | none => rfl
  | some a =>
      cases b with
      | none => exact absurd h (not_le.mpr (WithTop.coe_lt_top a))
      | some b => exact decide_eq_true (WithTop.coe_le_coe.mp h)

/-- `Store.FindRoutableProvider` returns a row, or says that there is none. -/
theorem exists_findsRoute (modelID : UUID) (db : DB) :
    ∃ route, findsRoute modelID db route = true := by
  cases hrows : routeRows modelID db with
  | nil => exact ⟨none, by rw [findsRoute, hrows]; rfl⟩
  | cons first rest =>
      let beat : Option Nat × RoutableProvider → WithTop Nat := fun row => row.1
      have hsome : ((routeRows modelID db).argmax beat).isSome := by
        rw [Option.isSome_iff_ne_none, Ne, List.argmax_eq_none, hrows]
        exact List.cons_ne_nil _ _
      obtain ⟨row, hrow⟩ := Option.isSome_iff_exists.mp hsome
      refine ⟨some row.2, List.any_eq_true.mpr ⟨row, List.argmax_mem hrow, ?_⟩⟩
      rw [Bool.and_eq_true]
      refine ⟨beq_self_eq_true _, List.all_eq_true.mpr fun other hother => ?_⟩
      exact heartbeatPrecedes_of_le (List.le_of_mem_argmax hother hrow)

section Next

variable {P : Platform} {cfg : Config} {db db' : DB} {call call' : Call}

/-- A request that has neither its response nor to wait for `Dispatch` has a statement. -/
theorem exists_advance (hbusy : ∀ response, call.phase ≠ .done response)
    (hawake : ∀ job jobID walletID, call.phase ≠ .dispatched job jobID walletID) :
    ∃ env db' call', call.advance P cfg env db = some (db', call') := by
  obtain ⟨route, hroute⟩ : ∃ route, ∀ auth request model,
      call.phase = .modelFound auth request model → findsRoute model.id db route = true := by
    by_cases hsearching : ∃ auth request model, call.phase = .modelFound auth request model
    · obtain ⟨auth, request, model, hphase⟩ := hsearching
      obtain ⟨route, hroute⟩ := exists_findsRoute model.id db
      refine ⟨route, fun auth' request' model' hphase' => ?_⟩
      rw [hphase] at hphase'
      cases hphase'
      exact hroute
    · exact ⟨none, fun auth request model hphase =>
        absurd ⟨auth, request, model, hphase⟩ hsearching⟩
  have hsome : (call.advance P cfg ⟨0, "", route⟩ db).isSome := by
    cases hphase : call.phase with
    | received =>
        simp only [Call.advance, hphase]
        split
        · rfl
        · split <;> rfl
    | authenticated auth request =>
        simp only [Call.advance, hphase]
        split
        · rfl
        · split <;> rfl
    | modelFound auth request model =>
        simp only [Call.advance, hphase, hroute auth request model hphase, if_true]
        split <;> rfl
    | dispatched job jobID walletID => exact absurd hphase (hawake job jobID walletID)
    | done response => exact absurd hphase (hbusy response)
    | _ =>
        simp only [Call.advance, hphase]
        split <;> rfl
  obtain ⟨⟨db', call'⟩, hadvance⟩ := Option.isSome_iff_exists.mp hsome
  exact ⟨_, db', call', hadvance⟩

end Next

/-! ## The steps of the server -/

section Server

variable {P : Platform} {cfg : Config} {s s' : Api} {a b : ChatService} {e : ServiceEvent}
  {n n' : Network} {id : Nat}

/-- A request that is replaced by one with fewer statements left. -/
theorem statements_put {db : DB} {call call' : Call} (hcall : a.call call.id = some call)
    (hid : call'.id = call.id) (hlt : call'.phase.statements < call.phase.statements) :
    (a.put db call').statements id ≤ a.statements id ∧
      (call.id = id → (a.put db call').statements id < a.statements id) := by
  have hselect : (a.put db call').call id =
      if call'.id = id then (a.call id).map (fun _ => call') else a.call id := Table.select_replace
  unfold ChatService.statements
  rw [hselect, hid]
  by_cases hsame : call.id = id
  · rw [if_pos hsame, ← hsame, hcall]
    exact ⟨Nat.le_of_lt hlt, fun _ => hlt⟩
  · rw [if_neg hsame]
    exact ⟨le_refl _, fun heq => absurd heq hsame⟩

/-- No event gives a request more statements, and its own leave it fewer. -/
theorem statements_of_next (id : Nat) (hnext : Handler.next P cfg a e = some b) :
    b.statements id ≤ a.statements id ∧
      (isOfCall id e = true → b.statements id < a.statements id) := by
  cases e with
  | advance other env =>
      obtain ⟨call, hcall, h⟩ := Option.bind_eq_some_iff.mp hnext
      obtain ⟨⟨db, call'⟩, hadvance, h⟩ := Option.bind_eq_some_iff.mp h
      cases h
      obtain rfl : call.id = other := (Table.mem_of_select hcall).2
      obtain ⟨hle, hlt⟩ := statements_put hcall (transition_of_advance hadvance).id_eq
        (statements_of_advance hadvance)
      exact ⟨hle, fun hown => hlt (of_decide_eq_true hown)⟩
  | deliver other outcome =>
      obtain ⟨call, hcall, h⟩ := Option.bind_eq_some_iff.mp hnext
      obtain ⟨call', hdeliver, h⟩ := Option.bind_eq_some_iff.mp h
      cases h
      obtain rfl : call.id = other := (Table.mem_of_select hcall).2
      have htransition : Transition P a.db call a.db call' := transition_of_deliver hdeliver
      obtain ⟨hle, hlt⟩ :=
        statements_put hcall htransition.id_eq (statements_of_deliver hdeliver)
      exact ⟨hle, fun hown => hlt (of_decide_eq_true hown)⟩
  | arrive other bearer requestID body =>
      refine ⟨?_, fun hown => by cases hown⟩
      simp only [Handler.next] at hnext
      split at hnext
      · cases hnext
        cases hold : a.call id with
        | none =>
            have hfull : a.statements id = 9 := by rw [ChatService.statements, hold, Option.elim]
            rw [hfull]
            exact ChatService.statements_le _ id
        | some call =>
            have hkept : Table.select Call.id
                (Table.insert a.calls (.arrived other bearer requestID body)) id = some call :=
              Table.select_insert_of_some hold
            rw [ChatService.statements, ChatService.call, hkept, ChatService.statements, hold]
      · cases hnext
  | changeCatalog catalog =>
      refine ⟨?_, fun hown => by cases hown⟩
      simp only [Handler.next] at hnext
      split at hnext
      · cases hnext
        exact le_refl _
      · cases hnext
  | _ =>
      cases hnext
      exact ⟨le_refl _, fun hown => by cases hown⟩

theorem dispatchLeft_setDispatch {set : DispatchID} {dispatch : Dispatch} :
    dispatchLeft (n.setDispatch set dispatch) id =
      if id = set then dispatchSteps dispatch.phase else dispatchLeft n id := by
  rw [dispatchLeft, Network.dispatch_setDispatch]
  split <;> rfl

/-- No event gives a dispatch more steps, and its own leave it fewer. -/
theorem dispatchLeft_of_next (id : Nat) {e : NetworkEvent} (hnext : n.next e = some n') :
    dispatchLeft n' id ≤ dispatchLeft n id ∧
      (isOfDispatch id e = true → dispatchLeft n' id < dispatchLeft n id) := by
  -- A dispatch that is replaced by one with fewer steps left.
  have hmoved : ∀ (hub : Hub) {set : DispatchID} {old new : Dispatch},
      n.dispatch set = some old → dispatchSteps new.phase < dispatchSteps old.phase →
      dispatchLeft ((n.setDispatch set new).withHub hub) id ≤ dispatchLeft n id ∧
        (decide (set = id) = true →
          dispatchLeft ((n.setDispatch set new).withHub hub) id < dispatchLeft n id) := by
    intro hub set old new hold hlt
    change dispatchLeft (n.setDispatch set new) id ≤ _ ∧
      (_ → dispatchLeft (n.setDispatch set new) id < _)
    rw [dispatchLeft_setDispatch]
    by_cases hsame : id = set
    · have hleft : dispatchLeft n id = dispatchSteps old.phase := by
        rw [dispatchLeft, hsame, hold]
        rfl
      rw [if_pos hsame, hleft]
      exact ⟨Nat.le_of_lt hlt, fun _ => hlt⟩
    · rw [if_neg hsame]
      exact ⟨le_refl _, fun heq => absurd (of_decide_eq_true heq).symm hsame⟩
  cases Network.step_of_next hnext with
  | @dispatch set providerPublicID payload hfree =>
      rw [dispatchLeft_setDispatch]
      by_cases hsame : id = set
      · have hleft : dispatchLeft n id = 6 := by
          rw [dispatchLeft, hsame, hfree]
          rfl
        rw [if_pos hsame, hleft]
        exact ⟨Nat.le_succ 5, fun _ => Nat.lt_succ_self 5⟩
      · rw [if_neg hsame]
        exact ⟨le_refl _, fun heq => absurd (of_decide_eq_true heq).symm hsame⟩
  | @lookup _ old hold hphase =>
      refine hmoved n.hub hold ?_
      rw [hphase]
      unfold Network.route
      split
      · exact Nat.zero_lt_succ 4
      · exact Nat.lt_succ_self 4
  | openJob hold hphase => exact hmoved _ hold (by rw [hphase]; exact Nat.lt_succ_self 3)
  | refuse hold hphase =>
      exact hmoved n.hub hold (by rw [hphase]; exact Nat.lt_succ_of_lt (Nat.lt_succ_self 1))
  | write hold hphase =>
      exact hmoved n.hub hold (by rw [hphase]; exact Nat.lt_succ_self 2)
  | receive hold hphase _ =>
      exact hmoved n.hub hold (by rw [hphase]; exact Nat.lt_succ_self 1)
  | timeout hold hphase =>
      exact hmoved n.hub hold (by rw [hphase]; exact Nat.lt_succ_self 1)
  | closeJob hold hphase => exact hmoved _ hold (by rw [hphase]; exact Nat.zero_lt_succ 0)
  | @send conn session frame set old _ _ hold _ =>
      refine ⟨?_, fun hown => by cases hown⟩
      rw [dispatchLeft_setDispatch]
      by_cases hsame : id = set
      · rw [if_pos hsame, dispatchLeft, hsame, hold]
        exact le_refl _
      · rw [if_neg hsame]
        exact le_refl _
  | disconnect =>
      refine ⟨?_, fun hown => by cases hown⟩
      rw [dispatchLeft, Network.dispatch_setLatest, Network.dispatch_withHub,
        Network.dispatch_closeConnection, dispatchLeft]
  | _ => exact ⟨le_refl _, fun hown => by cases hown⟩

/-- No step of the server gives a request more steps, and its own leave it fewer. -/
theorem Api.Step.remaining (id : Nat) {e : ApiEvent} (h : s.Step P cfg e s') :
    s'.remaining id ≤ s.remaining id ∧
      (e.isOf id = true → s'.remaining id < s.remaining id) := by
  unfold Api.remaining
  cases h with
  | service _ hnext =>
      obtain ⟨hle, hlt⟩ := statements_of_next id hnext
      exact ⟨Nat.add_le_add_right hle _, fun hown => Nat.add_lt_add_right (hlt hown) _⟩
  | network _ hnext =>
      obtain ⟨hle, hlt⟩ := dispatchLeft_of_next id hnext
      exact ⟨Nat.add_le_add_left hle _, fun hown => Nat.add_lt_add_left (hlt hown) _⟩
  | connect _ hnext =>
      exact ⟨Nat.add_le_add_left (dispatchLeft_of_next id hnext).1 _, fun hown => by cases hown⟩
  | refuseHello hnext =>
      exact ⟨Nat.add_le_add_left (dispatchLeft_of_next id hnext).1 _, fun hown => by cases hown⟩
  | hello _ _ _ hnext =>
      exact ⟨Nat.add_le_add_left (dispatchLeft_of_next id hnext).1 _, fun hown => by cases hown⟩
  | dispatch _ _ hnext =>
      obtain ⟨hle, hlt⟩ := dispatchLeft_of_next id hnext
      exact ⟨Nat.add_le_add_left hle _, fun hown => Nat.add_lt_add_left (hlt hown) _⟩
  | deliver _ _ hnext =>
      obtain ⟨hle, hlt⟩ := statements_of_next id hnext
      exact ⟨Nat.add_le_add_right hle _, fun hown => Nat.add_lt_add_right (hlt hown) _⟩

/-! ## Until it has its response -/

variable {S : Sockets} {t : S.Plugged Api}

/-- The server with the connections of a websocket package. -/
abbrev pluggedMachine (P : Platform) (cfg : Config) (S : Sockets) :
    Machine (S.Plugged Api) ApiEvent :=
  S.plug (apiMachine P cfg) Api.socketCall

/-- Nothing that has its answer times out. -/
def Caused (n : Network) : NetworkEvent → Prop
  | .timeout id => ∀ dispatch, n.dispatch id = some dispatch → dispatch.buffer = none
  | _ => True

/-- The guard of a run in which nothing moves but requests. -/
def ByRequests (t : S.Plugged Api) (e : ApiEvent) (_ : S.Plugged Api) : Prop :=
  (∃ id, e.isOf id = true) ∧ ∀ e', e = .network e' → Caused t.system.network e'

/-- A dispatch that has not returned has a step, which its connections allow. -/
theorem exists_dispatchStep (hreturns : S.Returns) (conns : ConnID → S.Conn)
    {dispatch : Dispatch} (hdispatch : n.dispatch id = some dispatch)
    (hphase : ∀ outcome, dispatch.phase ≠ .returned outcome) :
    ∃ e, (n.next e).isSome ∧ isOfDispatch id e = true ∧ shared e = false ∧ Caused n e ∧
      ∃ conns' : ConnID → S.Conn, ∀ conn,
        S.Becomes conn (n.socketCall e) (conns conn) (conns' conn) := by
  have hown : decide (id = id) = true := decide_eq_true rfl
  have hrest := S.exists_becomes conns
  cases hat : dispatch.phase with
  | called =>
      exact ⟨.lookup id, by simp [Network.next, hdispatch, hat], hown, rfl, trivial, hrest⟩
  | found conn =>
      exact ⟨.openJob id, by simp [Network.next, hdispatch, hat], hown, rfl, trivial, hrest⟩
  | opened conn =>
      obtain ⟨refusal, written, hwrite⟩ := hreturns (conns conn)
      refine ⟨.write id refusal, ?_, hown, rfl, trivial, ?_⟩
      · cases refusal <;> simp [Network.next, hdispatch, hat]
      · rw [Network.socketCall_write hdispatch hat]
        exact Sockets.exists_becomes_write hwrite
  | waiting conn =>
      cases hbuffer : dispatch.buffer with
      | some delivery =>
          exact ⟨.receive id, by simp [Network.next, hdispatch, hat, hbuffer], hown, rfl, trivial,
            hrest⟩
      | none =>
          refine ⟨.timeout id, by simp [Network.next, hdispatch, hat], hown, rfl, ?_, hrest⟩
          intro dispatch' hdispatch'
          rw [← Option.some.inj (hdispatch.symm.trans hdispatch'), hbuffer]
  | finishing outcome =>
      exact ⟨.closeJob id, by simp [Network.next, hdispatch, hat], hown, rfl, trivial, hrest⟩
  | returned outcome => exact absurd hat (hphase outcome)

/-- A request without its response has a step. -/
theorem exists_own (P : Platform) (cfg : Config) (hreturns : S.Returns) {call : Call}
    (hcall : t.system.service.call id = some call)
    (hbusy : ∀ response, call.phase ≠ .done response) :
    ∃ e u, (pluggedMachine P cfg S).step t e u ∧ e.isOf id = true ∧ ByRequests t e u := by
  suffices hsome : ∃ e, (t.system.next P cfg e).isSome ∧ e.isOf id = true ∧
      (∀ e', e = .network e' → Caused t.system.network e') ∧
      ∃ conns' : ConnID → S.Conn, ∀ conn,
        S.Becomes conn (t.system.socketCall e) (t.conns conn) (conns' conn) by
    obtain ⟨e, hnext, hisOf, hcaused, conns', hbecomes⟩ := hsome
    obtain ⟨s', hs'⟩ := Option.isSome_iff_exists.mp hnext
    exact ⟨e, ⟨s', conns'⟩, ⟨hs', hbecomes⟩, hisOf, ⟨id, hisOf⟩, hcaused⟩
  have hown : decide (id = id) = true := decide_eq_true rfl
  have hrest := S.exists_becomes t.conns
  by_cases hwaits : ∃ job jobID walletID, call.phase = .dispatched job jobID walletID
  · obtain ⟨job, jobID, walletID, hphase⟩ := hwaits
    cases hdispatch : t.system.network.dispatch id with
    | none =>
        exact ⟨.dispatch id, by simp [Api.next, hcall, hphase, Network.next, hdispatch], hown,
          fun _ => ApiEvent.noConfusion, hrest⟩
    | some dispatch =>
        by_cases hreturned : ∃ outcome, dispatch.phase = .returned outcome
        · obtain ⟨outcome, hreturned⟩ := hreturned
          exact ⟨.deliver id, by
            simp [Api.next, hdispatch, hreturned, Handler.next, hcall, Call.deliver, hphase],
            hown, fun _ => ApiEvent.noConfusion, hrest⟩
        · obtain ⟨e, hnext, hisOf, hlocal, hcaused, hbecomes⟩ :=
            exists_dispatchStep hreturns t.conns hdispatch fun outcome heq =>
              hreturned ⟨outcome, heq⟩
          refine ⟨.network e, ?_, hisOf, fun e' heq => ?_, hbecomes⟩
          · rw [Api.next, if_neg (by rw [hlocal]; exact Bool.false_ne_true), Option.isSome_map]
            exact hnext
          · cases heq
            exact hcaused
  · obtain ⟨env, db', call', hadvance⟩ : ∃ env db' call',
        call.advance P cfg env t.system.service.db = some (db', call') :=
      exists_advance hbusy fun job jobID walletID heq => hwaits ⟨job, jobID, walletID, heq⟩
    exact ⟨.service (.advance id env), by
      simp [Api.next, isDeliver, Handler.next, hcall, hadvance], hown,
      fun _ => ApiEvent.noConfusion, hrest⟩

/-! ## Every request has its response in the end -/

/-- The request has its response. -/
def Api.Ended (id : Nat) (s : Api) : Prop :=
  ∀ call, s.service.call id = some call → ∃ response, call.phase = .done response

/-- The requests there are. -/
def Api.ids (s : Api) : List Nat := s.service.calls.map Call.id

theorem ids_put {db : DB} {call' : Call} :
    (a.put db call').calls.map Call.id = a.calls.map Call.id := by
  simp only [ChatService.put, Table.update, List.map_map]
  refine List.map_congr_left fun old _ => ?_
  by_cases hold : old.id = call'.id <;> simp [hold]

/-- A step of a request neither adds one nor loses one. -/
theorem Api.Step.ids_eq {e : ApiEvent} (h : s.Step P cfg e s') (hown : e.isOf id = true) :
    s'.ids = s.ids := by
  cases h with
  | @service event service hlocal hnext =>
      cases event with
      | advance other env =>
          obtain ⟨call, -, hput⟩ := Option.bind_eq_some_iff.mp hnext
          obtain ⟨⟨db, call'⟩, -, hput⟩ := Option.bind_eq_some_iff.mp hput
          cases hput
          exact ids_put
      | deliver other outcome => cases hlocal
      | _ => cases hown
  | deliver _ _ hnext =>
      obtain ⟨call, -, hput⟩ := Option.bind_eq_some_iff.mp hnext
      obtain ⟨call', -, hput⟩ := Option.bind_eq_some_iff.mp hput
      cases hput
      exact ids_put
  | connect _ _ => cases hown
  | refuseHello _ => cases hown
  | hello _ _ _ _ => cases hown
  | _ => rfl

/-- A request that has its response keeps it. -/
theorem Api.Step.ended {e : ApiEvent} (h : s.Step P cfg e s') (hinv : Invariant P s.service)
    (hids : s'.ids = s.ids) (hended : s.Ended id) : s'.Ended id := by
  intro call' hcall'
  obtain ⟨hmem, hid⟩ := Table.mem_of_select hcall'
  obtain ⟨call, hcall⟩ : ∃ call, s.service.call id = some call := by
    have hold : id ∈ s.ids := hids ▸ List.mem_map.mpr ⟨call', hmem, hid⟩
    obtain ⟨old, hmem', rfl⟩ := List.mem_map.mp hold
    exact ⟨old, Table.select_of_mem hinv.ids hmem'⟩
  obtain ⟨response, hdone⟩ := hended call hcall
  rcases h.service_part with hsame | ⟨e', hnext⟩
  · exact hended call' (hsame ▸ hcall')
  · rcases hinv.follow hnext hcall with ⟨hkept, -⟩ | ⟨_, -, hstepped⟩
    · obtain rfl := Option.some.inj (hcall'.symm.trans hkept)
      exact ⟨response, hdone⟩
    · generalize s'.service.db = db at hstepped
      cases hstepped with
      | advance hadvance =>
          rw [Call.advance, hdone] at hadvance
          cases hadvance
      | deliver hdeliver =>
          rw [Call.deliver, hdone] at hdeliver
          cases hdeliver

/-- Any request can be brought to its response by its own steps, and no other one is the
worse for it. -/
theorem exists_response (cfg : Config) (id : Nat) (hreturns : S.Returns)
    (hinv : Invariant P t.system.service) :
    ∃ es t', (pluggedMachine P cfg S).Steps ByRequests t es t' ∧
      (Invariant P t'.system.service ∧ t'.system.ids = t.system.ids) ∧ t'.system.Ended id ∧
      (∀ other, t.system.Ended other → t'.system.Ended other) ∧ es.length ≤ 15 := by
  let I : S.Plugged Api → Prop := fun u =>
    (Invariant P u.system.service ∧ u.system.ids = t.system.ids) ∧
      ∀ other, t.system.Ended other → u.system.Ended other
  have hnext : ∀ u, I u → ¬ u.system.Ended id → ∃ e v, (pluggedMachine P cfg S).step u e v ∧
      ByRequests u e v ∧ I v ∧ v.system.remaining id < u.system.remaining id := by
    intro u hb hbusy
    obtain ⟨⟨hinv', hids⟩, hkeeps⟩ := hb
    obtain ⟨call, hbusy⟩ := not_forall.mp hbusy
    obtain ⟨hcall, hphase⟩ := Classical.not_imp.mp hbusy
    obtain ⟨e, v, hnext, hown, hguard⟩ :=
      exists_own P cfg hreturns hcall (not_exists.mp hphase)
    have hstep := Api.step_of_next hnext.1
    have hsame := hstep.ids_eq hown
    exact ⟨e, v, hnext, hguard, ⟨⟨hstep.invariant hinv', hsame.trans hids⟩,
      fun other hother => hstep.ended hinv' hsame (hkeeps other hother)⟩,
      (hstep.remaining id).2 hown⟩
  obtain ⟨es, t', hsteps, ⟨⟨hinv', hids⟩, hkeeps⟩, hended, hlength⟩ :=
    Machine.exists_end I (fun u => u.system.Ended id) (fun u => u.system.remaining id) hnext
      ⟨⟨hinv, rfl⟩, fun _ h => h⟩
  have hbound := t.system.remaining_le id
  exact ⟨es, t', hsteps, ⟨hinv', hids⟩, hended, hkeeps, by omega⟩

end Server

end Nuvonode.Handler
