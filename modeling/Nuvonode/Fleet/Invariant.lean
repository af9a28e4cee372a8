/-
  Fleet/Invariant.lean --- what holds in every state of a deployment.

  Whatever the network has of an answer, `ProviderWS` has read it on the connection that
  the dispatch was written to, and its node wrote it at the end of the one call for that
  dispatch.  The invariant is kept by every step of the network under a condition on the
  frames that are read, and the queues meet that condition.
-/
import Nuvonode.Fleet.Carrying
import Nuvonode.Handler.JobNames

set_option autoImplicit false

namespace Nuvonode.Fleet

open Nuvonode.Foundation Nuvonode.Database Nuvonode.Service Nuvonode.Handler Nuvonode.Ws
  Nuvonode.Contract

variable {Time : Type} {time : TextForm Time} {float : TextForm FiniteFloat}

/-! ## Answers that were read -/

/-- The server has read the answer for a dispatch on this connection, as this frame. -/
def Link.Gave (link : Link Time) (id : DispatchID) (frame : CompletionFrame) : Prop :=
  id ∈ link.answered ∧ ∃ envelope, link.AnsweredBy id envelope ∧ answerOf envelope = some frame

section Answered

variable {n : Network} {sent : DispatchID → Option ConnID} {conn : ConnID} {link : Link Time}
  {id : DispatchID} {envelope : Node.Envelope Time Node.Payload}

/-- Where an answer comes from: a call that asked Ollama for the request of the dispatch,
and wrote what came of it. -/
theorem Link.Carries.answer (h : link.Carries time float n sent conn)
    (hanswered : link.AnsweredBy id envelope) :
    sent id = some conn ∧ envelope.type = messageType envelope.payload ∧
      ∃ dispatch call outcome latencyMS, n.dispatch id = some dispatch ∧
        (id, call) ∈ link.executions ∧ call.written = some [envelope] ∧
        call.job = some (nodeJob dispatch.payload) ∧
        answerOf envelope = some (nodeFrame dispatch.payload.jobID outcome latencyMS) := by
  obtain ⟨call, hmem, hwritten⟩ := hanswered
  have hcarried : id ∈ link.carried :=
    List.mem_append_right _ (List.mem_map.mpr ⟨(id, call), hmem, rfl⟩)
  obtain ⟨dispatch, hdispatch, -, hjob, hfollows⟩ := h.executions id call hmem
  obtain ⟨outcome, latencyMS, stamp, hlist⟩ := hfollows _ hwritten
  have hstage : call.stage ≠ .started := by
    intro hstarted
    rw [Node.Execution.written, hstarted] at hwritten
    cases hwritten
  obtain ⟨written, hone, htype, hframe⟩ :
      ∃ envelope, Node.executeJob float (requestData float dispatch.payload)
          (fun _ => outcome) latencyMS stamp = [envelope] ∧
        envelope.type = messageType envelope.payload ∧
        answerOf envelope = some (nodeFrame dispatch.payload.jobID outcome latencyMS) :=
    executeJob_requestData outcome latencyMS stamp
  obtain rfl : envelope = written := List.singleton_inj.mp (hlist.trans hone)
  refine ⟨h.sent id hcarried, htype, dispatch, call, outcome, latencyMS, hdispatch,
    hmem, hwritten, ?_, hframe⟩
  rw [hjob hstage, askedJob_requestData]

theorem Link.Carries.sent_of_gave (h : link.Carries time float n sent conn)
    {frame : CompletionFrame} (hgave : link.Gave id frame) : sent id = some conn := by
  obtain ⟨-, envelope, hanswered, -⟩ := hgave
  exact (h.answer hanswered).1

end Answered

/-! ## The invariant -/

namespace Deployment

/-- Everything that a deployment has under way. -/
structure Carries (time : TextForm Time) (float : TextForm FiniteFloat) (m : Deployment Time) :
    Prop where
  links : ∀ conn, (m.link conn).Carries time float m.api.network m.sent conn
  /-- A request was written to a session of the provider of its dispatch. -/
  written : ∀ id conn, m.sent id = some conn → Owned m.api.network conn id ∧
    ∃ dispatch, m.api.network.dispatch id = some dispatch ∧ dispatch.phase.Written
  /-- What a session is about to send it has read, and its dispatch has nothing yet. -/
  completing : ∀ conn session channel frame, m.api.network.session conn = some session →
    session.phase = .completing channel frame → (m.link conn).Gave channel frame ∧
      ∀ dispatch delivery, m.api.network.dispatch channel = some dispatch →
        ¬ dispatch.Has delivery
  /-- What a dispatch has was read. -/
  deliveries : ∀ id dispatch delivery, m.api.network.dispatch id = some dispatch →
    dispatch.Has delivery → (m.link delivery.conn).Gave id delivery.frame

section Steps

variable {m m' : Deployment Time} {n' : Network} {e : NetworkEvent}

/-- A step of the network, under a condition on the frame that it reads. -/
theorem Carries.on_step (h : m.Carries time float) (hstep : m.api.network.Step e m'.api.network)
    (hlinks : ∀ conn, (m'.link conn).Carries time float m'.api.network m'.sent conn)
    (hsent : ∀ id conn, m'.sent id = some conn → m.sent id = some conn ∨
      e = .write id none ∧ Owned m.api.network conn id)
    (hgave : ∀ conn id frame, (m.link conn).Gave id frame → (m'.link conn).Gave id frame)
    (hread : ∀ conn frame channel, e = .complete conn frame →
      m.api.network.hub.jobs frame.jobID = some channel → (m'.link conn).Gave channel frame ∧
        ∀ dispatch delivery, m.api.network.dispatch channel = some dispatch →
          ¬ dispatch.Has delivery) : m'.Carries time float where
  links := hlinks
  written := by
    intro id conn hnew
    rcases hsent id conn hnew with hold | ⟨rfl, howned⟩
    · obtain ⟨howned, dispatch, hdispatch, hwritten⟩ := h.written id conn hold
      obtain ⟨dispatch', hdispatch', -, rfl | hmove⟩ := hstep.payload_after hdispatch
      · exact ⟨howned.step hstep, dispatch', hdispatch', hwritten⟩
      · exact ⟨howned.step hstep, dispatch', hdispatch', hmove.written.mpr (.inl hwritten)⟩
    · refine ⟨howned.step hstep, ?_⟩
      generalize hnetwork : m'.api.network = n' at hstep
      cases hstep with
      | write _ _ => exact ⟨_, Network.dispatch_setDispatch.trans (if_pos rfl), trivial⟩
  completing := by
    intro conn session channel frame hsession hphase
    -- The dispatch had nothing before the step.
    obtain ⟨hgiven, hempty⟩ : (m'.link conn).Gave channel frame ∧
        ∀ dispatch delivery, m.api.network.dispatch channel = some dispatch →
          ¬ dispatch.Has delivery := by
      rcases hstep.completing_before hsession hphase with ⟨old, hold, hsame⟩ | ⟨rfl, -, -, hjob⟩
      · obtain ⟨hgiven, hempty⟩ := h.completing conn old channel frame hold hsame
        exact ⟨hgave conn channel frame hgiven, hempty⟩
      · exact hread conn frame channel rfl hjob
    refine ⟨hgiven, fun dispatch delivery hdispatch hhas => ?_⟩
    rcases hstep.moves hdispatch with hsame | ⟨-, p, payload, -, rfl⟩ | ⟨old, hold, hmove⟩
    · exact hempty dispatch delivery hsame hhas
    · simp [Dispatch.Has, Dispatch.called] at hhas
    · rcases has_of_moves hmove hhas with hhad | ⟨sender, rfl, hsender, hsends⟩
      · exact hempty old delivery hold hhad
      · -- Only the session itself could send, and then it reads again.
        obtain ⟨hother, -⟩ := h.completing _ sender channel _ hsender hsends
        have hconn := (hlinks conn).sent_of_gave hgiven
        have hconn' := (hlinks delivery.conn).sent_of_gave (hgave _ _ _ hother)
        obtain rfl : conn = delivery.conn := Option.some.inj (hconn.symm.trans hconn')
        rw [reading_of_send hstep hsession] at hphase
        cases hphase
  deliveries := by
    intro id dispatch delivery hdispatch hhas
    rcases hstep.moves hdispatch with hsame | ⟨-, p, payload, -, rfl⟩ | ⟨old, hold, hmove⟩
    · exact hgave _ _ _ (h.deliveries id dispatch delivery hsame hhas)
    · simp [Dispatch.Has, Dispatch.called] at hhas
    · rcases has_of_moves hmove hhas with hhad | ⟨sender, -, hsender, hsends⟩
      · exact hgave _ _ _ (h.deliveries id old delivery hold hhad)
      · exact hgave _ _ _ (h.completing _ sender id _ hsender hsends).1

/-- A step that leaves the network alone. -/
theorem Carries.on_link (h : m.Carries time float) (hnetwork : m'.api.network = m.api.network)
    (hlinks : ∀ conn, (m'.link conn).Carries time float m.api.network m.sent conn)
    (hsent : m'.sent = m.sent)
    (hgave : ∀ conn id frame, (m.link conn).Gave id frame → (m'.link conn).Gave id frame) :
    m'.Carries time float where
  links := by
    rw [hnetwork, hsent]
    exact hlinks
  written := by
    rw [hnetwork, hsent]
    exact h.written
  completing := by
    rw [hnetwork]
    intro conn session channel frame hsession hphase
    obtain ⟨hgiven, hempty⟩ := h.completing conn session channel frame hsession hphase
    exact ⟨hgave conn channel frame hgiven, hempty⟩
  deliveries := by
    rw [hnetwork]
    intro id dispatch delivery hdispatch hhas
    exact hgave _ _ _ (h.deliveries id dispatch delivery hdispatch hhas)

/-- One connection is replaced by one that carries what it should. -/
theorem links_setLink {conn : ConnID} {link : Link Time} {n : Network}
    {sent : DispatchID → Option ConnID}
    (hothers : ∀ other, other ≠ conn → (m.link other).Carries time float n sent other)
    (hlink : link.Carries time float n sent conn) (other : ConnID) :
    ((m.setLink conn link).link other).Carries time float n sent other := by
  by_cases hsame : other = conn
  · subst hsame
    rw [link_setLink_self]
    exact hlink
  · rw [link_setLink_of_ne _ _ hsame]
    exact hothers other hsame

theorem gave_setLink {conn : ConnID} {link : Link Time}
    (hgave : ∀ id frame, (m.link conn).Gave id frame → link.Gave id frame) (other : ConnID)
    (id : DispatchID) (frame : CompletionFrame) (h : (m.link other).Gave id frame) :
    ((m.setLink conn link).link other).Gave id frame := by
  by_cases hsame : other = conn
  · subst hsame
    rw [link_setLink_self]
    exact hgave id frame h
  · rw [link_setLink_of_ne _ _ hsame]
    exact h

/-- A step that changes one connection, and nothing that was read. -/
theorem Carries.replace (h : m.Carries time float) {conn : ConnID} {link : Link Time}
    (hlink : link.Carries time float m.api.network m.sent conn)
    (hgave : ∀ id frame, (m.link conn).Gave id frame → link.Gave id frame) :
    (m.setLink conn link).Carries time float :=
  h.on_link rfl (links_setLink (fun other _ => h.links other) hlink) rfl (gave_setLink hgave)

end Steps

end Deployment

/-! ## Runs -/

section Runs

variable {P : Platform} {cfg : Config} {m m' : Deployment Time} {e : FleetEvent Time}

/-- What the server does beside reading answers. -/
theorem network_part_of_ne {api api' : Api} {e : ApiEvent}
    (hne : ∀ conn frame, e ≠ .network (.complete conn frame)) (h : api.Step P cfg e api') :
    api'.network = api.network ∨
      ∃ e', api.network.next e' = some api'.network ∧ ∀ conn frame, e' ≠ .complete conn frame := by
  rcases h.network_part with hsame | ⟨e', hnext, rfl | hshared⟩
  · exact .inl hsame
  · exact .inr ⟨e', hnext, fun conn frame heq => hne conn frame (congrArg ApiEvent.network heq)⟩
  · refine .inr ⟨e', hnext, ?_⟩
    rintro conn frame rfl
    cases hshared

theorem hello_ne_complete {conn : ConnID} {now : Nat} {newID : UUID} {publicID : String}
    {payload : HelloPayload} (other : ConnID) (frame : CompletionFrame) :
    ApiEvent.hello conn now newID publicID payload ≠ .network (.complete other frame) := by
  intro heq
  cases heq

theorem ne_complete_of_carried {e : ApiEvent} (hlocal : carried e = false) (conn : ConnID)
    (frame : CompletionFrame) : e ≠ .network (.complete conn frame) := by
  rintro rfl
  cases hlocal

/-- A connection keeps what it carries over a step of the network. -/
theorem Link.Carries.network_step {n n' : Network} {e : NetworkEvent}
    {sent : DispatchID → Option ConnID} {conn : ConnID} {link : Link Time}
    (h : link.Carries time float n sent conn) (hstep : n.Step e n') :
    link.Carries time float n' sent conn := by
  refine h.mono (fun _ _ hsent => hsent) fun id dispatch hdispatch => ?_
  obtain ⟨dispatch', hdispatch', hpayload, -⟩ := hstep.payload_after hdispatch
  exact ⟨dispatch', hdispatch', hpayload⟩

namespace Deployment

/-- A request is written for the first time, to a session of its provider. -/
theorem Carries.write (h : m.Carries time float) (haimed : Aimed m.api.network)
    {id : DispatchID} {now : Time} {dispatch : Dispatch}
    {conn : ConnID} {api : Api} (hdispatch : m.api.network.dispatch id = some dispatch)
    (hphase : dispatch.phase = .opened conn)
    (hnext : m.api.next P cfg (.network (.write id none)) = some api) :
    (((m.serve api).send id conn).setLink conn ((m.link conn).request id
      (Wire.dispatch time float now (wirePayload dispatch.payload)))).Carries
        time float := by
  obtain ⟨network, hnetwork, rfl⟩ := Option.map_eq_some_iff.mp hnext
  have hstep := Network.step_of_next hnetwork
  have hunsent : m.sent id = none := by
    refine Option.eq_none_iff_forall_not_mem.mpr fun other hsent => ?_
    obtain ⟨-, dispatch', hdispatch', hwritten⟩ := h.written id other hsent
    obtain rfl := Option.some.inj (hdispatch.symm.trans hdispatch')
    rw [hphase] at hwritten
    exact hwritten
  have hfresh : ∀ other, id ∉ (m.link other).carried := by
    intro other hcarried
    rw [(h.links other).sent id hcarried] at hunsent
    cases hunsent
  have hlater : ∀ other, (m.link other).Carries time float network
      (Function.update m.sent id (some conn)) other := by
    intro other
    refine ((h.links other).network_step hstep).mono (fun id' hcarried hsent => ?_)
      fun _ dispatch hdispatch => ⟨dispatch, hdispatch, rfl⟩
    rw [Function.update_of_ne, hsent]
    rintro rfl
    exact hfresh other hcarried
  obtain ⟨dispatch', hdispatch', hpayload, -⟩ := hstep.payload_after hdispatch
  have hrequest : ((m.link conn).request id (Wire.dispatch time float now
      (wirePayload dispatch.payload))).Carries time float network
        (Function.update m.sent id (some conn)) conn := by
    refine (hlater conn).request (Function.update_self ..) (hfresh conn) ?_
    exact ⟨dispatch', now, hdispatch', by rw [hpayload]⟩
  refine h.on_step hstep (links_setLink (fun other _ => hlater other) hrequest) ?_
    (gave_setLink fun _ _ hgave => hgave) fun _ _ _ => nofun
  intro id' conn' hsent
  change Function.update m.sent id (some conn) id' = some conn' at hsent
  by_cases hsame : id' = id
  · subst hsame
    rw [Function.update_self] at hsent
    cases hsent
    exact .inr ⟨rfl, haimed id' dispatch conn hdispatch (.inr hphase)⟩
  · rw [Function.update_of_ne hsame] at hsent
    exact .inl hsent

/-- The next frame of a connection, where it is an answer: it names the job of its own
dispatch, and that dispatch has been given nothing yet. -/
theorem Carries.head (h : m.Carries time float) (hregistered : Registered m.api.network)
    (hdistinct : DistinctJobs m.api.network) {conn : ConnID} {id : DispatchID} {data : Json}
    {rest : List (Option DispatchID × Json)}
    (hhead : (m.link conn).frames = (some id, data) :: rest) :
    ∃ envelope frame, (m.link conn).AnsweredBy id envelope ∧ answerOf envelope = some frame ∧
      Owned m.api.network conn id ∧
      (∀ now newID publicID, frameEvent time conn now newID publicID data =
        some (.network (.complete conn frame))) ∧
      (∀ channel, m.api.network.hub.jobs frame.jobID = some channel → channel = id) ∧
      ∀ other frame', ¬ (m.link other).Gave id frame' := by
  obtain ⟨envelope, hanswered, rfl⟩ := (h.links conn).frames id data (hhead ▸ List.mem_cons_self)
  obtain ⟨hsent, htype, dispatch, call, outcome, latencyMS, hdispatch, -, -, -,
    hframe⟩ := (h.links conn).answer hanswered
  refine ⟨envelope, _, hanswered, hframe, (h.written id conn hsent).1,
    fun _ _ _ => frameEvent_answer htype hframe, fun channel hjob => ?_,
    fun other frame' hgiven => ?_⟩
  · obtain ⟨found, hfound, hname, -⟩ := hregistered _ _ hjob
    rw [nodeFrame_jobID] at hname
    exact hdistinct channel id found dispatch hfound hdispatch hname
  · -- An answer that was read is not in the queue any more.
    have hconn := (h.links other).sent_of_gave hgiven
    obtain rfl : conn = other := Option.some.inj (hsent.symm.trans hconn)
    have hnodup := (h.links conn).repliesOnce
    rw [Link.replies, hhead, List.filterMap_cons, List.cons_append] at hnodup
    exact (List.nodup_cons.mp hnodup).1 (List.mem_append_right _ hgiven.1)

/-- The server reads a frame; an answer is for the dispatch that it names. -/
theorem Carries.receive (h : m.Carries time float) (hregistered : Registered m.api.network)
    (hdistinct : DistinctJobs m.api.network) {conn : ConnID} {now : Nat} {newID : UUID}
    {publicID : String} {ticket : Option DispatchID} {data : Json}
    {rest : List (Option DispatchID × Json)} {e : ApiEvent} {api : Api}
    (hhead : (m.link conn).frames = (ticket, data) :: rest)
    (hevent : frameEvent time conn now newID publicID data = some e)
    (hnext : m.api.next P cfg e = some api) :
    ((m.serve api).setLink conn ((m.link conn).consume ticket rest)).Carries time float := by
  have hlink : ∀ {e' : NetworkEvent}, m.api.network.Step e' api.network → ∀ other,
      (((m.serve api).setLink conn ((m.link conn).consume ticket rest)).link other).Carries
        time float api.network m.sent other := by
    intro e' hstep
    exact links_setLink (fun other _ => (h.links other).network_step hstep)
      (((h.links conn).consume hhead).network_step hstep)
  have hgave : ∀ other id frame, (m.link other).Gave id frame →
      (((m.serve api).setLink conn ((m.link conn).consume ticket rest)).link other).Gave id
        frame :=
    gave_setLink fun id frame hgave => ⟨List.mem_append_left _ hgave.1, hgave.2⟩
  cases ticket with
  | none =>
      -- A frame of the node's own accord says hello.
      obtain ⟨payload, rfl⟩ := (h.links conn).silent data (hhead ▸ List.mem_cons_self) conn now
        newID publicID e hevent
      rcases network_part_of_ne hello_ne_complete (Api.step_of_next hnext) with hsame |
        ⟨e', hnetwork, hread⟩
      · refine h.on_link hsame ?_ rfl hgave
        exact links_setLink (fun other _ => h.links other) ((h.links conn).consume hhead)
      · have hstep := Network.step_of_next hnetwork
        exact h.on_step hstep (hlink hstep) (fun _ _ hsent => .inl hsent) hgave
          fun other frame _ heq => absurd heq (hread other frame)
  | some id =>
      obtain ⟨envelope, frame, hanswered, hframe, -, hcomplete, hname, hfirst⟩ :=
        h.head hregistered hdistinct hhead
      rw [hcomplete] at hevent
      cases hevent
      obtain ⟨network, hnetwork, rfl⟩ := Option.map_eq_some_iff.mp hnext
      have hstep := Network.step_of_next hnetwork
      refine h.on_step hstep (hlink hstep) (fun _ _ hold => .inl hold) hgave ?_
      rintro _ _ channel ⟨⟩ hjob
      obtain rfl := hname channel hjob
      refine ⟨⟨?_, envelope, ?_, hframe⟩, fun dispatch' delivery hdispatch' hhas => ?_⟩
      · rw [link_setLink_self]
        exact List.mem_append_right _ (by simp)
      · rw [link_setLink_self]
        exact hanswered
      · exact hfirst _ _ (h.deliveries channel dispatch' delivery hdispatch' hhas)

/-- Every step of a deployment keeps it. -/
theorem Carries.step (h : m.Carries time float) (haimed : Aimed m.api.network)
    (hregistered : Registered m.api.network) (hdistinct : DistinctJobs m.api.network)
    (hstep : m.Step P cfg time float e m') : m'.Carries time float := by
  cases hstep with
  | api hlocal hnext =>
      rcases network_part_of_ne (ne_complete_of_carried hlocal) (Api.step_of_next hnext) with
        hsame | ⟨e', hnetwork, hread⟩
      · exact h.on_link hsame h.links rfl fun _ _ _ hgave => hgave
      · have hstep := Network.step_of_next hnetwork
        exact h.on_step hstep (fun conn => (h.links conn).network_step hstep)
          (fun _ _ hsent => .inl hsent) (fun _ _ _ hgave => hgave)
          fun conn frame _ heq => absurd heq (hread conn frame)
  | write hdispatch hphase hnext => exact h.write haimed hdispatch hphase hnext
  | @announce conn announcement stamp =>
      exact h.replace (h.links conn).announce fun _ _ hgave => hgave
  | @read conn id data rest hhead =>
      refine h.replace ((h.links conn).start hhead) fun other frame hgave => ?_
      obtain ⟨hanswered, envelope, ⟨call, hmem, hwritten⟩, hframe⟩ := hgave
      exact ⟨hanswered, envelope, ⟨call, List.mem_append_left _ hmem, hwritten⟩, hframe⟩
  | @ask conn call id old new hold hask =>
      have hsilent := written_of_running (Node.Execution.running_of_ask hask)
      refine h.replace ((h.links conn).put hold hsilent fun _ hfollows => hfollows.ask hask) ?_
      rintro other frame ⟨hanswered, envelope, hby, hframe⟩
      exact ⟨hanswered, envelope, Link.Carries.answeredBy_put hold hsilent hby, hframe⟩
  | @finish conn call outcome latencyMS stamp id old new hold hfinish =>
      have hsilent := written_of_running (Node.Execution.running_of_finish hfinish)
      obtain ⟨dispatch, -, hruns⟩ :=
        (h.links conn).executions id old (List.mem_of_getElem? hold)
      obtain ⟨-, hwritten⟩ := hruns.finish hfinish
      obtain ⟨envelope, hone, -⟩ : ∃ envelope, Node.executeJob float
          (requestData float dispatch.payload) (fun _ => outcome) latencyMS stamp =
            [envelope] ∧ envelope.type = messageType envelope.payload ∧
          answerOf envelope = some (nodeFrame dispatch.payload.jobID outcome latencyMS) :=
        executeJob_requestData outcome latencyMS stamp
      rw [hone] at hwritten
      rw [hwritten]
      refine h.replace ((h.links conn).finish hold hsilent
        (fun _ hfollows => (hfollows.finish hfinish).1) hwritten) ?_
      rintro other frame ⟨hanswered, envelope, hby, hframe⟩
      exact ⟨hanswered, envelope, Link.Carries.answeredBy_put hold hsilent hby, hframe⟩
  | @ignore conn now newID publicID ticket data rest hhead hnone =>
      exact h.replace ((h.links conn).consume hhead) fun id frame hgave =>
        ⟨List.mem_append_left _ hgave.1, hgave.2⟩
  | receive hhead hevent hnext => exact h.receive hregistered hdistinct hhead hevent hnext

/-- What the network does, it does under the conditions of its own results: a frame
is read on a session of the chosen provider, and finds the channel of its job empty. -/
theorem Carries.guarded (h : m.Carries time float) (hregistered : Registered m.api.network)
    (hdistinct : DistinctJobs m.api.network) (hstep : m.Step P cfg time float e m') :
    m'.api.network = m.api.network ∨ ∃ e', m.api.network.next e' = some m'.api.network ∧
      OwnFrames m.api.network e' m'.api.network ∧ FindsRoom m.api.network e' m'.api.network := by
  -- Nothing is asked of an event that reads no answer.
  have hfree : ∀ {e' : NetworkEvent} {n' : Network}, (∀ conn frame, e' ≠ .complete conn frame) →
      OwnFrames m.api.network e' n' ∧ FindsRoom m.api.network e' n' := by
    intro e' n' hread
    cases e' with
    | complete conn frame => exact absurd rfl (hread conn frame)
    | _ => exact ⟨trivial, trivial⟩
  cases hstep with
  | api hlocal hnext =>
      rcases network_part_of_ne (ne_complete_of_carried hlocal) (Api.step_of_next hnext) with
        hsame | ⟨e', hnetwork, hread⟩
      · exact .inl hsame
      · exact .inr ⟨e', hnetwork, hfree hread⟩
  | write _ _ hnext =>
      obtain ⟨network, hnetwork, rfl⟩ := Option.map_eq_some_iff.mp hnext
      exact .inr ⟨_, hnetwork, trivial, trivial⟩
  | @receive conn now newID publicID ticket data rest e' api hhead hevent hnext =>
      cases ticket with
      | none =>
          obtain ⟨payload, rfl⟩ := (h.links conn).silent data (hhead ▸ List.mem_cons_self) conn now
            newID publicID e' hevent
          rcases network_part_of_ne hello_ne_complete (Api.step_of_next hnext) with hsame |
            ⟨e', hnetwork, hread⟩
          · exact .inl hsame
          · exact .inr ⟨e', hnetwork, hfree hread⟩
      | some id =>
          obtain ⟨envelope, frame, -, -, howned, hcomplete, hname, hfirst⟩ :=
            h.head hregistered hdistinct hhead
          rw [hcomplete] at hevent
          cases hevent
          obtain ⟨network, hnetwork, rfl⟩ := Option.map_eq_some_iff.mp hnext
          refine .inr ⟨_, hnetwork, ?_, fun channel hjob => ?_⟩
          · intro session hsession channel hjob dispatch hdispatch
            obtain rfl := hname channel hjob
            obtain ⟨session', dispatch', hsession', hdispatch', hsame⟩ := howned
            obtain rfl := Option.some.inj (hsession'.symm.trans hsession)
            obtain rfl := Option.some.inj (hdispatch'.symm.trans hdispatch)
            exact hsame
          · obtain rfl := hname channel hjob
            refine ⟨fun dispatch hdispatch => ?_, fun other session sent hsession hphase => ?_⟩
            · refine Option.eq_none_iff_forall_not_mem.mpr fun delivery hbuffer => ?_
              exact hfirst _ _ (h.deliveries channel dispatch delivery hdispatch (.inl hbuffer))
            · exact hfirst _ _ (h.completing other session channel sent hsession hphase).1
  | _ => exact .inl rfl

theorem carries_of_reaches
    {guard : Deployment Time → FleetEvent Time → Deployment Time → Prop}
    {es : List (FleetEvent Time)} (h : (fleetMachine P cfg time float).Reaches guard es m) :
    m.Carries time float := by
  refine h.invariant_trace
    (fun es m => (fleetMachine P cfg time float).Reaches guard es m ∧ m.Carries time float)
    ?_ ?_ |>.2
  · rintro m ⟨⟨hservice, hnetwork⟩, hlink, hsent⟩
    refine ⟨.start ⟨⟨hservice, hnetwork⟩, hlink, hsent⟩, fun conn => ?_, fun id conn hsome => ?_,
      ?_, ?_⟩
    · rw [hlink]
      exact .fresh
    · rw [hsent] at hsome
      cases hsome
    · rw [hnetwork]
      exact fun _ _ _ _ => nofun
    · rw [hnetwork]
      exact fun _ _ _ => nofun
  · rintro es a e b ⟨hreach, hcarries⟩ hnext hguard
    obtain ⟨es', hapi⟩ := api_reaches hreach
    obtain ⟨hinv, hnamed⟩ := named_of_reaches hapi
    obtain ⟨es'', hnetwork⟩ := freshJob_of_reaches hapi
    exact ⟨hreach.snoc hnext hguard, hcarries.step (aimed_of_reaches hnetwork)
      (registered_of_reaches hnetwork) (hnamed.distinct hinv) (Deployment.step_of_next hnext)⟩

end Deployment

end Runs

end Nuvonode.Fleet
