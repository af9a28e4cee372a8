/-
  Fleet/Draining.lean --- a connection can be emptied.

  Whatever is queued on an open connection, its node and its session can work it off by
  themselves: every frame and every call has a next step, and each step leaves less to
  do.  When nothing is left, what was waited for on this connection has been delivered.
-/
import Nuvonode.Fleet.Tracing
import Nuvonode.Handler.Endings

set_option autoImplicit false

namespace Nuvonode.Fleet

open Nuvonode.Foundation Nuvonode.Database Nuvonode.Service Nuvonode.Handler Nuvonode.Ws
  Nuvonode.Contract

variable {Time : Type} {time : TextForm Time} {float : TextForm FiniteFloat}

/-! ## The work that is left -/

/-- What is left to do for a call, with the frame that it writes. -/
def callWork (call : Node.Execution Time FiniteFloat) : Nat :=
  match call.stage with
  | .started => 5
  | .asked _ => 4
  | .returned _ _ => 0

/-- What is left to do on a connection. -/
def Link.work (link : Link Time) : Nat :=
  6 * link.requests.length + (link.executions.map fun call => callWork call.2).sum +
    2 * link.frames.length

/-- What is left to send. -/
def sessionWork (n : Network) (conn : ConnID) : Nat :=
  match (n.session conn).map Session.phase with
  | some (.completing _ _) => 1
  | _ => 0

/-- What is left to do at a connection. -/
def Deployment.work (m : Deployment Time) (conn : ConnID) : Nat :=
  (m.link conn).work + sessionWork m.api.network conn

/-- The connection is open, and its read loop runs. -/
def IsOpen (n : Network) (conn : ConnID) : Prop :=
  ∃ session, n.session conn = some session ∧ session.closed = false ∧
    (session.phase = .reading ∨ ∃ channel frame, session.phase = .completing channel frame)

theorem sessionWork_le (n : Network) (conn : ConnID) : sessionWork n conn ≤ 1 := by
  unfold sessionWork
  split
  · exact le_refl 1
  · exact Nat.zero_le 1

theorem sessionWork_reading {n : Network} {conn : ConnID} {session : Session}
    (hsession : n.session conn = some session) (hphase : session.phase = .reading) :
    sessionWork n conn = 0 := by
  rw [sessionWork, hsession, Option.map_some, hphase]

theorem sessionWork_completing {n : Network} {conn : ConnID} {session : Session}
    {channel : DispatchID} {frame : CompletionFrame} (hsession : n.session conn = some session)
    (hphase : session.phase = .completing channel frame) : sessionWork n conn = 1 := by
  rw [sessionWork, hsession, Option.map_some, hphase]

/-- A call that moves is worked for as much as it was less what it is. -/
theorem work_put {link : Link Time} {call : Nat} {id : DispatchID}
    {old : Node.Execution Time FiniteFloat} (new : Node.Execution Time FiniteFloat)
    (hold : link.executions[call]? = some (id, old)) :
    (link.put call id new).work + callWork old = link.work + callWork new := by
  have hsum : ((link.executions.set call (id, new)).map fun row => callWork row.2).sum +
      callWork old = (link.executions.map fun row => callWork row.2).sum + callWork new :=
    Machine.sum_map_set (fun row => callWork row.2) hold (id, new)
  simp only [Link.work, Link.put]
  omega

/-! ## One step less -/

/-- The guard of a run in which nothing moves but a connection, and its node gets one and
the same answer from Ollama to everything. -/
def AtConnection (conn : ConnID) (outcome : Node.OllamaOutcome) (latencyMS : Int64)
    (stamp : Node.Stamp Time) (_ : Deployment Time) (e : FleetEvent Time)
    (_ : Deployment Time) : Prop :=
  match e with
  | .read c => c = conn
  | .ask c _ => c = conn
  | .finish c _ o l s => c = conn ∧ o = outcome ∧ l = latencyMS ∧ s = stamp
  | .receive c _ _ _ => c = conn
  | .api (.network (.send c)) => c = conn
  | _ => False

/-- Nothing is left to do on a connection. -/
structure Drained (m : Deployment Time) (conn : ConnID) : Prop where
  requests : (m.link conn).requests = []
  calls : ∀ id call, (id, call) ∈ (m.link conn).executions → call.running = false
  frames : (m.link conn).frames = []
  reading : ∃ session, m.api.network.session conn = some session ∧ session.phase = .reading

/-- A dispatch waits for its answer on a connection. -/
def WaitsAt (n : Network) (id : DispatchID) (conn : ConnID) : Prop :=
  ∃ dispatch, n.dispatch id = some dispatch ∧ dispatch.phase = .waiting conn

/-- Less is left to do at a connection, which is open still, and all dispatches wait that
waited before. -/
structure Deployment.Eases (m : Deployment Time) (conn : ConnID) (m' : Deployment Time) :
    Prop where
  less : m'.work conn < m.work conn
  stays : IsOpen m'.api.network conn
  waits : ∀ id, WaitsAt m.api.network id conn → WaitsAt m'.api.network id conn

section Network

variable {n n' : Network} {e : NetworkEvent} {id : DispatchID} {conn : ConnID}

/-- What is not a step of a dispatch leaves it waiting. -/
theorem WaitsAt.step (h : WaitsAt n id conn) (hstep : n.Step e n')
    (hother : isOfDispatch id e = false) : WaitsAt n' id conn := by
  obtain ⟨dispatch, hdispatch, hphase⟩ := h
  obtain ⟨dispatch', hdispatch', -, rfl | hmove⟩ := hstep.payload_after hdispatch
  · exact ⟨dispatch', hdispatch', hphase⟩
  · cases hmove with
    | fill _ _ _ => exact ⟨_, hdispatch', hphase⟩
    | _ => exact absurd (decide_eq_true rfl) (Bool.eq_false_iff.mp hother)

/-- A session that has read a frame is open still. -/
theorem open_of_read {session : Session} (hsession : n.session conn = some session)
    (hclosed : session.closed = false) (hreading : session.phase = .reading)
    (hevent : (∃ instanceID, e = .hello conn instanceID) ∨ ∃ frame, e = .complete conn frame)
    (hstep : n.Step e n') : IsOpen n' conn := by
  rcases hevent with ⟨instanceID, rfl⟩ | ⟨frame, rfl⟩
  · cases hstep with
    | hello hold _ =>
        obtain rfl := Option.some.inj (hsession.symm.trans hold)
        exact ⟨_, Network.session_setSession.trans (if_pos rfl), hclosed, .inl hreading⟩
  · cases hstep with
    | ignore _ _ _ => exact ⟨session, hsession, hclosed, .inl hreading⟩
    | complete hold _ _ =>
        obtain rfl := Option.some.inj (hsession.symm.trans hold)
        exact ⟨_, Network.session_setSession.trans (if_pos rfl), hclosed, .inr ⟨_, _, rfl⟩⟩

end Network

/-! ## The session -/

namespace Deployment

section Session

variable {P : Platform} {cfg : Config} {m : Deployment Time} {conn : ConnID}
  {session : Session} {outcome : Node.OllamaOutcome} {latencyMS : Int64}
  {stamp : Node.Stamp Time}

/-- A session that is about to send can. -/
theorem exists_send (hcarries : m.Carries time float)
    (hsession : m.api.network.session conn = some session) (hclosed : session.closed = false)
    {channel : DispatchID} {frame : CompletionFrame}
    (hphase : session.phase = .completing channel frame) :
    ∃ e m', m.next P cfg time float e = some m' ∧
      AtConnection conn outcome latencyMS stamp m e m' ∧ m.Eases conn m' := by
  obtain ⟨⟨-, envelope, hanswered, -⟩, hempty⟩ := hcarries.completing _ _ _ _ hsession hphase
  obtain ⟨-, -, dispatch, -, -, -, hdispatch, -⟩ := (hcarries.links conn).answer hanswered
  have hbuffer : dispatch.buffer = none :=
    Option.eq_none_iff_forall_not_mem.mpr fun delivery hsome =>
      hempty dispatch delivery hdispatch (.inl hsome)
  obtain ⟨n', hnext, hafter⟩ : ∃ n', m.api.network.next (.send conn) = some n' ∧
      n'.session conn = some (session.goto .reading) := by
    refine ⟨(m.api.network.setSession conn (session.goto .reading)).setDispatch channel
      (dispatch.fill { conn, frame }), ?_, Network.session_setSession.trans (if_pos rfl)⟩
    simp only [Network.next, hsession, hphase, hdispatch, hbuffer, Option.bind_eq_bind,
      Option.bind_some]
  refine ⟨.api (.network (.send conn)), m.serve (m.api.connected n'), ?_, rfl, ?_,
    ⟨_, hafter, hclosed, .inl rfl⟩, fun id hwaits => hwaits.step (Network.step_of_next hnext) rfl⟩
  · simp only [Deployment.next, carried, Api.next, shared, hnext, Option.map_some]
    rfl
  · rw [work, work, sessionWork_completing hsession hphase]
    change (m.link conn).work + sessionWork n' conn < _
    rw [sessionWork_reading hafter rfl]
    exact Nat.lt_succ_self _

/-- What is read from a frame can be done. -/
theorem exists_of_frameEvent {now : Nat} {newID : UUID} {publicID : String} {data : Json}
    {e : ApiEvent} (hsession : m.api.network.session conn = some session)
    (hreading : session.phase = .reading)
    (hevent : frameEvent time conn now newID publicID data = some e) :
    ∃ api e', m.api.next P cfg e = some api ∧ m.api.network.Step e' api.network ∧
      ((∃ instanceID, e' = .hello conn instanceID) ∨ ∃ frame, e' = .complete conn frame) := by
  obtain ⟨received, -, hmessage⟩ := Option.bind_eq_some_iff.mp hevent
  have hhello : ∀ instanceID, m.api.network.next (.hello conn instanceID) =
      some (m.api.network.setSession conn (session.greet instanceID)) := by
    intro instanceID
    simp only [Network.next, hsession, hreading, Option.bind_eq_bind, Option.bind_some]
  have hcomplete : ∀ frame, ∃ api e', m.api.next P cfg (.network (.complete conn frame)) =
      some api ∧ m.api.network.Step e' api.network ∧
      ((∃ instanceID, e' = .hello conn instanceID) ∨ ∃ frame, e' = .complete conn frame) := by
    intro frame
    have hnext : m.api.network.next (.complete conn frame) =
        some (m.api.network.read conn session frame) := by
      simp only [Network.next, hsession, hreading, Option.bind_eq_bind, Option.bind_some]
    refine ⟨m.api.connected (m.api.network.read conn session frame), _, ?_,
      Network.step_of_next hnext, .inr ⟨frame, rfl⟩⟩
    simp only [Api.next, shared, hnext, Option.map_some]
    rfl
  cases hkind : received.message with
  | hello payload =>
      rw [hkind] at hmessage
      simp only [messageEvent] at hmessage
      split at hmessage
      · cases hmessage
      · rename_i hkey
        cases hmessage
        cases hupsert : upsertInstance now newID session.providerID publicID
            payload.toHelloPayload m.api.service.db with
        | error err =>
            refine ⟨m.api.connected _, _, ?_, Network.step_of_next (hhello none), .inl ⟨_, rfl⟩⟩
            simp only [Api.next, hsession, Option.bind_eq_bind, Option.bind_some, hupsert, hhello,
              Option.map_some]
            exact if_neg hkey
        | ok result =>
            refine ⟨(m.api.serve (m.api.service.on result.2)).connected _, _, ?_,
              Network.step_of_next (hhello (some result.1.id)), .inl ⟨_, rfl⟩⟩
            simp only [Api.next, hsession, Option.bind_eq_bind, Option.bind_some, hupsert, hhello,
              Option.map_some]
            exact if_neg hkey
  | heartbeat | modelList =>
      rw [hkind] at hmessage
      cases hmessage
  | _ =>
      rw [hkind] at hmessage
      cases hmessage
      exact hcomplete _

/-- A session that reads can read the next frame. -/
theorem exists_receive (hsession : m.api.network.session conn = some session)
    (hclosed : session.closed = false) (hreading : session.phase = .reading)
    {ticket : Option DispatchID} {data : Json} {rest : List (Option DispatchID × Json)}
    (hhead : (m.link conn).frames = (ticket, data) :: rest) :
    ∃ e m', m.next P cfg time float e = some m' ∧
      AtConnection conn outcome latencyMS stamp m e m' ∧ m.Eases conn m' := by
  have hreads : reads m.api.network conn = true := by
    rw [reads, hsession, Option.any_some, hreading]
    rfl
  have hless : ((m.link conn).consume ticket rest).work + 2 = (m.link conn).work := by
    simp only [Link.work, Link.consume, hhead, List.length_cons]
    omega
  cases hevent : frameEvent time conn 0 0 "" data with
  | none =>
      refine ⟨.receive conn 0 0 "", m.setLink conn ((m.link conn).consume ticket rest), ?_, rfl, ?_,
        ⟨session, hsession, hclosed, .inl hreading⟩, fun _ hwaits => hwaits⟩
      · simp only [Deployment.next, hhead, hreads, hevent, if_true]
      · rw [work, work, link_setLink_self]
        change _ + sessionWork m.api.network conn < _
        omega
  | some e =>
      obtain ⟨api, e', hnext, hstep, hread⟩ :
          ∃ api e', m.api.next P cfg e = some api ∧ m.api.network.Step e' api.network ∧
            ((∃ instanceID, e' = .hello conn instanceID) ∨ ∃ frame, e' = .complete conn frame) :=
        exists_of_frameEvent hsession hreading hevent
      refine ⟨.receive conn 0 0 "",
        (m.serve api).setLink conn ((m.link conn).consume ticket rest), ?_, rfl, ?_,
        open_of_read hsession hclosed hreading hread hstep, fun id hwaits => ?_⟩
      · simp only [Deployment.next, hhead, hreads, hevent, hnext, if_true, Option.map_some]
      · have hbound := sessionWork_le api.network conn
        rw [work, work, link_setLink_self]
        change _ + sessionWork api.network conn < _
        omega
      · refine hwaits.step hstep ?_
        rcases hread with ⟨instanceID, rfl⟩ | ⟨frame, rfl⟩ <;> rfl

/-! ## The node -/

/-- The node can read the next request. -/
theorem exists_read (hcarries : m.Carries time float) (hopen : IsOpen m.api.network conn)
    {id : DispatchID} {data : Json} {rest : List (DispatchID × Json)}
    (hhead : (m.link conn).requests = (id, data) :: rest) :
    ∃ e m', m.next P cfg time float e = some m' ∧
      AtConnection conn outcome latencyMS stamp m e m' ∧ m.Eases conn m' := by
  obtain ⟨dispatch, now, -, rfl⟩ :=
    (hcarries.links conn).requests id data (hhead ▸ List.mem_cons_self)
  have hless : ((m.link conn).start rest (started time id
      (Wire.dispatch time float now (wirePayload dispatch.payload)))).work + 1 =
        (m.link conn).work := by
    rw [started_request]
    simp only [Link.work, Link.start, hhead, List.map_append, List.sum_append, List.map_cons,
      List.map_nil, List.sum_cons, List.sum_nil, List.length_cons, callWork]
    omega
  refine ⟨.read conn, m.setLink conn ((m.link conn).start rest (started time id
    (Wire.dispatch time float now (wirePayload dispatch.payload)))), ?_, rfl, ?_, hopen,
    fun _ hwaits => hwaits⟩
  · simp only [Deployment.next, hhead]
  · rw [work, work, link_setLink_self]
    change _ + sessionWork m.api.network conn < _
    omega

/-- A call that runs can move. -/
theorem exists_move (hcarries : m.Carries time float) (hopen : IsOpen m.api.network conn)
    {id : DispatchID} {call : Node.Execution Time FiniteFloat}
    (hmem : (id, call) ∈ (m.link conn).executions)
    (hruns : call.running = true) :
    ∃ e m', m.next P cfg time float e = some m' ∧
      AtConnection conn outcome latencyMS stamp m e m' ∧ m.Eases conn m' := by
  obtain ⟨i, hi⟩ := List.mem_iff_getElem?.mp hmem
  cases hstage : call.stage with
  | started =>
      let new : Node.Execution Time FiniteFloat :=
        { call with stage := .asked (Node.askedJob float call.payload) }
      have hask : call.ask float = some new := by rw [Node.Execution.ask, hstage]
      have hless : ((m.link conn).put i id new).work + 5 = (m.link conn).work + 4 := by
        have hput := work_put new hi
        rwa [callWork, hstage] at hput
      refine ⟨.ask conn i, m.setLink conn ((m.link conn).put i id new), ?_, rfl, ?_, hopen,
        fun _ hwaits => hwaits⟩
      · simp only [Deployment.next, hi, hask, Option.bind_eq_bind, Option.bind_some]
      · rw [work, work, link_setLink_self]
        change _ + sessionWork m.api.network conn < _
        omega
  | asked job =>
      obtain ⟨dispatch, -, hfollows⟩ := (hcarries.links conn).executions id call hmem
      obtain ⟨envelope, hone, -⟩ : ∃ envelope, Node.executeJob float
          (requestData float dispatch.payload) (fun _ => outcome) latencyMS stamp =
            [envelope] ∧ envelope.type = messageType envelope.payload ∧
          answerOf envelope = some (nodeFrame dispatch.payload.jobID outcome latencyMS) :=
        executeJob_requestData outcome latencyMS stamp
      let new : Node.Execution Time FiniteFloat := { call with stage := .returned job [envelope] }
      have hfinish : call.finish float outcome latencyMS stamp = some new := by
        have hwritten := hone
        rw [← hfollows.1] at hwritten
        simp only [Node.Execution.finish, hstage, hwritten]
        rfl
      have hless : (((m.link conn).put i id new).write (some id)
          [Node.writeJSON time envelope]).work + 2 = (m.link conn).work := by
        have hput : ((m.link conn).put i id new).work + 4 = (m.link conn).work + 0 := by
          have hput := work_put new hi
          rwa [callWork, hstage] at hput
        simp only [Link.work, Link.write, Link.put, List.map_cons, List.map_nil,
          List.length_append, List.length_singleton] at hput ⊢
        omega
      refine ⟨.finish conn i outcome latencyMS stamp, m.setLink conn
        (((m.link conn).put i id new).write (some id) [Node.writeJSON time envelope]), ?_,
        ⟨rfl, rfl, rfl, rfl⟩, ?_, hopen, fun _ hwaits => hwaits⟩
      · simp only [Deployment.next, hi, hfinish, Option.bind_eq_bind, Option.bind_some]
        rfl
      · rw [work, work, link_setLink_self]
        change _ + sessionWork m.api.network conn < _
        omega
  | returned job written =>
      rw [Node.Execution.running, hstage] at hruns
      cases hruns

/-! ## Until nothing is left -/

/-- At an open connection there is something that can be done, until nothing is left. -/
theorem exists_ease (hcarries : m.Carries time float) (hopen : IsOpen m.api.network conn)
    (hleft : ¬ Drained m conn) :
    ∃ e m', m.next P cfg time float e = some m' ∧
      AtConnection conn outcome latencyMS stamp m e m' ∧ m.Eases conn m' := by
  obtain ⟨session, hsession, hclosed, hreading | ⟨channel, frame, hsending⟩⟩ := id hopen
  · cases hframes : (m.link conn).frames with
    | cons head rest => exact exists_receive hsession hclosed hreading hframes
    | nil =>
        cases hrequests : (m.link conn).requests with
        | cons head rest => exact exists_read hcarries hopen hrequests
        | nil =>
            by_cases hruns : ∃ id call, (id, call) ∈ (m.link conn).executions ∧ call.running = true
            · obtain ⟨id, call, hmem, hruns⟩ := hruns
              exact exists_move hcarries hopen hmem hruns
            · refine absurd ⟨hrequests, fun id call hmem => ?_, hframes, session, hsession,
                hreading⟩ hleft
              exact Bool.eq_false_iff.mpr fun heq => hruns ⟨id, call, hmem, heq⟩
  · exact exists_send hcarries hsession hclosed hsending

end Session

end Deployment

end Nuvonode.Fleet
