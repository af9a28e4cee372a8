/-
  Fleet/Tracing.lean --- no request is lost on its way.

  A dispatch that waits for its answer waits for something: its request is in the queue
  to the node, or a call of the node runs for it, or its answer is in the queue to the
  server, or a session is about to send it, or it is in the channel.  Each of these leads
  to the next one, and nothing leads anywhere else.
-/
import Nuvonode.Contract.Delivery
import Nuvonode.Fleet.Invariant

set_option autoImplicit false

namespace Nuvonode.Fleet

open Nuvonode.Foundation Nuvonode.Database Nuvonode.Service Nuvonode.Handler Nuvonode.Ws
  Nuvonode.Contract

variable {Time : Type} {time : TextForm Time} {float : TextForm FiniteFloat}

/-! ## Waiting dispatches and sending sessions -/

section Network

variable {n n' : Network} {e : NetworkEvent} {id : DispatchID} {conn : ConnID}

/-- A dispatch waits since its request was written, and its channel only fills up. -/
theorem waiting_before {dispatch : Dispatch} (hstep : n.Step e n') (hne : e ≠ .write id none)
    (hdispatch : n'.dispatch id = some dispatch) (hphase : dispatch.phase = .waiting conn) :
    ∃ old, n.dispatch id = some old ∧ old.phase = .waiting conn ∧
      (old.buffer.isSome → dispatch.buffer.isSome) := by
  rcases hstep.moves hdispatch with hsame | ⟨-, p, payload, -, rfl⟩ | ⟨old, hold, hmove⟩
  · exact ⟨dispatch, hsame, hphase, fun h => h⟩
  · simp [Dispatch.called] at hphase
  · cases hmove with
    | lookup _ =>
        simp only [Dispatch.goto, Network.route] at hphase
        split at hphase <;> cases hphase
    | write _ => exact absurd rfl hne
    | fill _ _ _ => exact ⟨old, hold, hphase, fun _ => rfl⟩
    | _ => cases hphase

/-- A session sends what it is about to send, and nothing else ends that. -/
theorem completing_after {session : Session} {frame : CompletionFrame} (hstep : n.Step e n')
    (hsession : n.session conn = some session) (hphase : session.phase = .completing id frame) :
    (∃ session', n'.session conn = some session' ∧ session'.phase = .completing id frame) ∨
      ∃ dispatch, n'.dispatch id = some dispatch ∧ dispatch.buffer.isSome := by
  -- No other event is one of a session in this phase.
  have hother : ∀ {set : ConnID} {old new : Session}, n.session set = some old →
      old.phase ≠ .completing id frame → (n.setSession set new).session conn = some session := by
    intro set old new hold hne
    rw [Network.session_setSession, if_neg, hsession]
    rintro rfl
    rw [hsession, Option.some.injEq] at hold
    exact hne (hold ▸ hphase)
  cases hstep with
  | accept hfree =>
      refine .inl ⟨session, ?_, hphase⟩
      rw [Network.session_setSession, if_neg, hsession]
      rintro rfl
      rw [hsession] at hfree
      cases hfree
  | register hold hat => exact .inl ⟨session, hother hold (by simp [hat]), hphase⟩
  | hello hold hat => exact .inl ⟨session, hother hold (by simp [hat]), hphase⟩
  | complete hold hat _ => exact .inl ⟨session, hother hold (by simp [hat]), hphase⟩
  | drop hold hat => exact .inl ⟨session, hother hold (by simp [hat]), hphase⟩
  | unregister hold hat => exact .inl ⟨session, hother hold (by simp [hat]), hphase⟩
  | @send sender old sent channel dispatch hold hat hdispatch hempty =>
      by_cases hsame : sender = conn
      · subst hsame
        obtain rfl := Option.some.inj (hsession.symm.trans hold)
        rw [hphase, SessionPhase.completing.injEq] at hat
        obtain ⟨rfl, rfl⟩ := hat
        exact .inr ⟨_, Network.dispatch_setDispatch.trans (if_pos rfl), rfl⟩
      · refine .inl ⟨session, ?_, hphase⟩
        rw [Network.session_setDispatch, Network.session_setSession, if_neg (Ne.symm hsame),
          hsession]
  | @disconnect providerPublicID =>
      refine .inl ⟨{ session with closed := session.closed ||
        (n.hub.providers providerPublicID).any fun p => p.conn = conn }, ?_, hphase⟩
      rw [Network.session_setLatest, Network.session_withHub, Network.session_closeConnection,
        hsession]
      rfl
  | _ => exact .inl ⟨session, hsession, hphase⟩

end Network

/-! ## On its way -/

/-- Where a request and its answer can be. -/
inductive Place where
  /-- In the queue to the node. -/
  | unread
  /-- A call of the node runs for it. -/
  | running
  /-- In the queue to the server. -/
  | unanswered
  /-- A session is about to send it. -/
  | sending
  /-- In the channel. -/
  | delivered
  deriving DecidableEq

/-- Where the answer is that a dispatch waits for on a connection. -/
inductive Deployment.At (m : Deployment Time) (id : DispatchID) (conn : ConnID) : Place → Prop
    where
  | unread {data : Json} : (id, data) ∈ (m.link conn).requests → m.At id conn .unread
  | running {call : Node.Execution Time FiniteFloat} : (id, call) ∈ (m.link conn).executions →
      call.running = true → m.At id conn .running
  | unanswered {data : Json} : (some id, data) ∈ (m.link conn).frames → m.At id conn .unanswered
  | sending {session : Session} {frame : CompletionFrame} :
      m.api.network.session conn = some session → session.phase = .completing id frame →
      m.At id conn .sending
  | delivered {dispatch : Dispatch} : m.api.network.dispatch id = some dispatch →
      dispatch.buffer.isSome → m.At id conn .delivered

/-- It is somewhere. -/
def Deployment.OnItsWay (m : Deployment Time) (id : DispatchID) (conn : ConnID) : Prop :=
  ∃ place, m.At id conn place

/-- A connection that loses nothing of what a dispatch waits for. -/
structure Link.Keeps (id : DispatchID) (old new : Link Time) : Prop where
  requests : ∀ data, (id, data) ∈ old.requests → (id, data) ∈ new.requests
  executions : ∀ call, (id, call) ∈ old.executions → (id, call) ∈ new.executions
  frames : ∀ data, (some id, data) ∈ old.frames → (some id, data) ∈ new.frames

theorem Link.Keeps.refl (id : DispatchID) (link : Link Time) : Link.Keeps id link link :=
  ⟨fun _ h => h, fun _ h => h, fun _ h => h⟩

namespace Deployment

/-- Nothing that is waited for is lost. -/
def Traced (m : Deployment Time) : Prop :=
  ∀ id dispatch conn, m.api.network.dispatch id = some dispatch →
    dispatch.phase = .waiting conn → m.sent id = some conn ∧ m.OnItsWay id conn

section Steps

variable {m m' : Deployment Time} {e : NetworkEvent} {id : DispatchID} {conn : ConnID}

/-- What was on its way still is after a step of the network. -/
theorem OnItsWay.on_step {old dispatch : Dispatch} (h : m.OnItsWay id conn)
    (hstep : m.api.network.Step e m'.api.network)
    (hlink : Link.Keeps id (m.link conn) (m'.link conn))
    (hold : m.api.network.dispatch id = some old)
    (hdispatch : m'.api.network.dispatch id = some dispatch)
    (hbuffer : old.buffer.isSome → dispatch.buffer.isSome) : m'.OnItsWay id conn := by
  obtain ⟨place, h⟩ := h
  cases h with
  | unread hmem => exact ⟨_, .unread (hlink.requests _ hmem)⟩
  | running hmem hruns => exact ⟨_, .running (hlink.executions _ hmem) hruns⟩
  | unanswered hmem => exact ⟨_, .unanswered (hlink.frames _ hmem)⟩
  | sending hsession hphase =>
      rcases completing_after hstep hsession hphase with ⟨session', hsession', hphase'⟩ |
        ⟨dispatch', hdispatch', hsome⟩
      · exact ⟨_, .sending hsession' hphase'⟩
      · exact ⟨_, .delivered hdispatch' hsome⟩
  | delivered hhad hsome =>
      obtain rfl := Option.some.inj (hold.symm.trans hhad)
      exact ⟨_, .delivered hdispatch (hbuffer hsome)⟩

/-- What was on its way still is where the network does nothing. -/
theorem OnItsWay.on_link (h : m.OnItsWay id conn) (hnetwork : m'.api.network = m.api.network)
    (hlink : Link.Keeps id (m.link conn) (m'.link conn)) : m'.OnItsWay id conn := by
  obtain ⟨place, h⟩ := h
  cases h with
  | unread hmem => exact ⟨_, .unread (hlink.requests _ hmem)⟩
  | running hmem hruns => exact ⟨_, .running (hlink.executions _ hmem) hruns⟩
  | unanswered hmem => exact ⟨_, .unanswered (hlink.frames _ hmem)⟩
  | sending hsession hphase => exact ⟨_, .sending (hnetwork ▸ hsession) hphase⟩
  | delivered hdispatch hsome => exact ⟨_, .delivered (hnetwork ▸ hdispatch) hsome⟩

/-- A step of the network that writes no request. -/
theorem Traced.on_step (h : m.Traced) (hstep : m.api.network.Step e m'.api.network)
    (hquiet : ∀ id, e ≠ .write id none) (hsent : m'.sent = m.sent)
    (hlink : ∀ id dispatch conn, m.api.network.dispatch id = some dispatch →
      dispatch.phase = .waiting conn →
      m'.OnItsWay id conn ∨ Link.Keeps id (m.link conn) (m'.link conn)) : m'.Traced := by
  intro id dispatch conn hdispatch hphase
  obtain ⟨old, hold, hwaits, hbuffer⟩ := waiting_before hstep (hquiet id) hdispatch hphase
  obtain ⟨hconn, hway⟩ := h id old conn hold hwaits
  refine ⟨hsent ▸ hconn, ?_⟩
  rcases hlink id old conn hold hwaits with hdone | hkeeps
  · exact hdone
  · exact hway.on_step hstep hkeeps hold hdispatch hbuffer

/-- A step that leaves the network alone. -/
theorem Traced.on_link (h : m.Traced) (hnetwork : m'.api.network = m.api.network)
    (hsent : m'.sent = m.sent)
    (hlink : ∀ id conn, m'.OnItsWay id conn ∨ Link.Keeps id (m.link conn) (m'.link conn)) :
    m'.Traced := by
  intro id dispatch conn hdispatch hphase
  obtain ⟨hconn, hway⟩ := h id dispatch conn (hnetwork ▸ hdispatch) hphase
  refine ⟨hsent ▸ hconn, ?_⟩
  rcases hlink id conn with hdone | hkeeps
  · exact hdone
  · exact hway.on_link hnetwork hkeeps

/-- One connection changes, and loses nothing or has what is waited for. -/
theorem keeps_setLink {link : Link Time}
    (hlink : (m.setLink conn link).OnItsWay id conn ∨ Link.Keeps id (m.link conn) link)
    (other : ConnID) : (m.setLink conn link).OnItsWay id other ∨
      Link.Keeps id (m.link other) ((m.setLink conn link).link other) := by
  by_cases hsame : other = conn
  · subst hsame
    rw [link_setLink_self]
    exact hlink
  · rw [link_setLink_of_ne _ _ hsame]
    exact .inr (.refl _ _)

end Steps

/-! ## Every step -/

section Every

variable {P : Platform} {cfg : Config} {m m' : Deployment Time} {e : FleetEvent Time}

/-- What the server does beside reading answers and writing requests. -/
theorem network_part_of_quiet {api api' : Api} {e : ApiEvent} (hlocal : carried e = false)
    (h : api.Step P cfg e api') :
    api'.network = api.network ∨
      ∃ e', api.network.Step e' api'.network ∧ ∀ id, e' ≠ .write id none := by
  rcases h.network_part with hsame | ⟨e', hnext, heq⟩
  · exact .inl hsame
  · refine .inr ⟨e', Network.step_of_next hnext, ?_⟩
    rintro id rfl
    rcases heq with rfl | hshared
    · cases hlocal
    · cases hshared

/-- A request that is written is in the queue to the node. -/
theorem Traced.write (h : m.Traced) {id : DispatchID} {now : Time}
    {dispatch : Dispatch} {conn : ConnID} {api : Api}
    (hdispatch : m.api.network.dispatch id = some dispatch)
    (hphase : dispatch.phase = .opened conn)
    (hnext : m.api.next P cfg (.network (.write id none)) = some api) :
    (((m.serve api).send id conn).setLink conn ((m.link conn).request id
      (Wire.dispatch time float now (wirePayload dispatch.payload)))).Traced := by
  obtain ⟨network, hnetwork, rfl⟩ := Option.map_eq_some_iff.mp hnext
  have hstep := Network.step_of_next hnetwork
  let m' : Deployment Time := ((m.serve (m.api.connected network)).send id conn).setLink conn
    ((m.link conn).request id
      (Wire.dispatch time float now (wirePayload dispatch.payload)))
  change m'.Traced
  have hkeeps : ∀ id' other, Link.Keeps id' (m.link other) (m'.link other) := by
    intro id' other
    by_cases hsame : other = conn
    · subst hsame
      rw [link_setLink_self]
      exact ⟨fun _ hmem => List.mem_append_left _ hmem, fun _ hmem => hmem, fun _ hmem => hmem⟩
    · rw [link_setLink_of_ne _ _ hsame]
      exact .refl _ _
  intro id' waiting other hwaiting hwaits
  by_cases hsame : id' = id
  · -- The dispatch waits where its request was written.
    subst hsame
    have hafter : m'.api.network.dispatch id' = some (dispatch.goto (.waiting conn)) := by
      generalize hnew : m'.api.network = n'
      change m.api.network.Step _ network at hstep
      obtain rfl : network = n' := hnew
      cases hstep with
      | write hold hopened =>
          obtain rfl := Option.some.inj (hdispatch.symm.trans hold)
          rw [hphase, DispatchPhase.opened.injEq] at hopened
          subst hopened
          exact Network.dispatch_setDispatch.trans (if_pos rfl)
    obtain rfl := Option.some.inj (hwaiting.symm.trans hafter)
    cases hwaits
    have hqueued : (id', Wire.dispatch time float now (wirePayload dispatch.payload)) ∈
        (m'.link conn).requests := by
      rw [link_setLink_self]
      exact List.mem_append_right _ (List.mem_singleton.mpr rfl)
    exact ⟨Function.update_self .., _, .unread hqueued⟩
  · have hne : NetworkEvent.write id none ≠ .write id' none := by
      intro heq
      cases heq
      exact hsame rfl
    obtain ⟨old, hold, hwaited, hbuffer⟩ := waiting_before hstep hne hwaiting hwaits
    obtain ⟨hconn, hway⟩ := h id' old other hold hwaited
    refine ⟨(Function.update_of_ne hsame ..).trans hconn, ?_⟩
    exact hway.on_step hstep (hkeeps id' other) hold hwaiting hbuffer

/-- The node reads the next request. -/
theorem Traced.read (h : m.Traced) {conn : ConnID} {id : DispatchID} {data : Json}
    {rest : List (DispatchID × Json)} (hcarries : m.Carries time float)
    (hhead : (m.link conn).requests = (id, data) :: rest) :
    (m.setLink conn ((m.link conn).start rest (started time id data))).Traced := by
  obtain ⟨dispatch, now, -, rfl⟩ :=
    (hcarries.links conn).requests id data (hhead ▸ List.mem_cons_self)
  rw [started_request]
  let call : Node.Execution Time FiniteFloat :=
    { payload := requestData float dispatch.payload, stage := .started }
  refine h.on_link rfl rfl (fun id' => keeps_setLink ?_)
  by_cases hsame : id' = id
  · have hstarted : (id', call) ∈
        ((m.setLink conn ((m.link conn).start rest [(id, call)])).link conn).executions := by
      rw [link_setLink_self, hsame]
      exact List.mem_append_right _ (List.mem_singleton.mpr rfl)
    exact .inl ⟨_, .running hstarted rfl⟩
  · refine .inr ⟨fun data hmem => ?_, fun _ hmem => List.mem_append_left _ hmem,
      fun _ hmem => hmem⟩
    rw [hhead] at hmem
    rcases List.mem_cons.mp hmem with heq | hrest
    · exact absurd (Prod.mk.inj heq).1 hsame
    · exact hrest

/-- A call moves and goes on running, or writes its answer. -/
theorem Traced.put (h : m.Traced) {conn : ConnID} {call : Nat} {id : DispatchID}
    {old new : Node.Execution Time FiniteFloat} (written : List Json)
    (hold : (m.link conn).executions[call]? = some (id, old))
    (hmoved : new.running = true ∨ written ≠ []) :
    (m.setLink conn (((m.link conn).put call id new).write (some id) written)).Traced := by
  let link := ((m.link conn).put call id new).write (some id) written
  have hframes : ∀ frame ∈ (m.link conn).frames, frame ∈ link.frames :=
    fun _ hmem => List.mem_append_left _ hmem
  refine h.on_link rfl rfl (fun id' => keeps_setLink ?_)
  by_cases hsame : id' = id
  · -- Whatever was on its way for this dispatch, the call or its answer is now.
    refine .inl ?_
    rcases hmoved with hruns | hwrote
    · have hmem : (id', new) ∈ ((m.setLink conn link).link conn).executions := by
        rw [link_setLink_self, hsame]
        exact List.mem_iff_getElem?.mpr
          ⟨call, List.getElem?_set_self (List.getElem?_eq_some_iff.mp hold).1⟩
      exact ⟨_, .running hmem hruns⟩
    · obtain ⟨data, hdata⟩ := List.exists_mem_of_ne_nil written hwrote
      have hmem : (some id', data) ∈ ((m.setLink conn link).link conn).frames := by
        rw [link_setLink_self, hsame]
        exact List.mem_append_right _ (List.mem_map.mpr ⟨data, hdata, rfl⟩)
      exact ⟨_, .unanswered hmem⟩
  · refine .inr ⟨fun _ hmem => hmem, fun other hmem => ?_, fun _ hmem => hframes _ hmem⟩
    obtain ⟨i, hi⟩ := List.mem_iff_getElem?.mp hmem
    refine List.mem_iff_getElem?.mpr ⟨i, ?_⟩
    have hne : call ≠ i := by
      rintro rfl
      exact hsame (Prod.mk.inj (Option.some.inj (hi.symm.trans hold))).1
    exact (List.getElem?_set_ne hne).trans hi

/-- The server reads a frame, and the answer in it is about to be sent. -/
theorem Traced.receive (h : m.Traced) (hcarries : m.Carries time float)
    (hregistered : Registered m.api.network) (hdistinct : DistinctJobs m.api.network)
    (hfindable : Findable m.api.network) {conn : ConnID} {now : Nat} {newID : UUID}
    {publicID : String} {ticket : Option DispatchID} {data : Json}
    {rest : List (Option DispatchID × Json)} {e : ApiEvent} {api : Api}
    (hhead : (m.link conn).frames = (ticket, data) :: rest)
    (hevent : frameEvent time conn now newID publicID data = some e)
    (hnext : m.api.next P cfg e = some api) :
    ((m.serve api).setLink conn ((m.link conn).consume ticket rest)).Traced := by
  -- Only what the answer that was read is for is not in the queue any more.
  have hkeeps : ∀ id, ticket ≠ some id →
      Link.Keeps id (m.link conn) ((m.link conn).consume ticket rest) := by
    intro id hne
    refine ⟨fun _ hmem => hmem, fun _ hmem => hmem, fun data' hmem => ?_⟩
    rw [hhead] at hmem
    rcases List.mem_cons.mp hmem with heq | hrest
    · exact absurd (Prod.mk.inj heq).1.symm hne
    · exact hrest
  cases ticket with
  | none =>
      have hall : ∀ id other,
          ((m.serve api).setLink conn ((m.link conn).consume none rest)).OnItsWay id other ∨
            Link.Keeps id (m.link other)
              (((m.serve api).setLink conn ((m.link conn).consume none rest)).link other) :=
        fun id => keeps_setLink (.inr (hkeeps id (Option.some_ne_none id).symm))
      obtain ⟨payload, rfl⟩ := (hcarries.links conn).silent data (hhead ▸ List.mem_cons_self) conn
        now newID publicID e hevent
      rcases (Api.step_of_next hnext).network_part with hsame | ⟨e', hnetwork, heq⟩
      · exact h.on_link hsame rfl hall
      · refine h.on_step (Network.step_of_next hnetwork) ?_ rfl fun id _ other _ _ => hall id other
        rintro id rfl
        rcases heq with heq | hshared
        · cases heq
        · cases hshared
  | some id =>
      obtain ⟨envelope, frame, hanswered, hframe, -, hcomplete, -, -⟩ :=
        hcarries.head hregistered hdistinct hhead
      obtain ⟨hconn, -, asked, call, outcome, latencyMS, hasked, -, -, -, hanswer⟩ :=
        (hcarries.links conn).answer hanswered
      obtain rfl := Option.some.inj (hframe.symm.trans hanswer)
      rw [hcomplete] at hevent
      cases hevent
      obtain ⟨network, hnetwork, rfl⟩ := Option.map_eq_some_iff.mp hnext
      have hstep := Network.step_of_next hnetwork
      refine h.on_step hstep (fun other heq => by cases heq) rfl
        fun id' dispatch other hdispatch hphase => ?_
      by_cases hsame : id' = id
      · -- The channel of a job that is waited for is registered, so `Complete` finds it.
        subst hsame
        obtain rfl : conn = other :=
          Option.some.inj (hconn.symm.trans (h id' dispatch other hdispatch hphase).1)
        obtain rfl := Option.some.inj (hdispatch.symm.trans hasked)
        have hflight : dispatch.phase.InFlight := by
          rw [hphase]
          trivial
        have hjob := hfindable id' dispatch hdispatch hflight
        refine .inl ?_
        generalize hnew : ((m.serve (m.api.connected network)).setLink conn
          ((m.link conn).consume (some id') rest)) = m'
        have hafter : m'.api.network = network := hnew ▸ rfl
        cases hstep with
        | ignore _ _ hnone =>
            rw [nodeFrame_jobID, hjob] at hnone
            cases hnone
        | @complete _ session _ channel hsession hreading hfound =>
            rw [nodeFrame_jobID, hjob, Option.some.injEq] at hfound
            subst hfound
            have hsends : m'.api.network.session conn = some (session.goto (.completing id'
                (nodeFrame dispatch.payload.jobID outcome latencyMS))) := by
              rw [hafter]
              exact Network.session_setSession.trans (if_pos rfl)
            exact ⟨_, .sending hsends rfl⟩
      · have hne : some id ≠ some id' := fun heq => hsame (Option.some.inj heq).symm
        exact keeps_setLink (m := m.serve (m.api.connected network)) (.inr (hkeeps id' hne)) other

/-- Every step of a deployment keeps it. -/
theorem Traced.step (h : m.Traced) (hcarries : m.Carries time float)
    (hregistered : Registered m.api.network) (hdistinct : DistinctJobs m.api.network)
    (hfindable : Findable m.api.network) (hstep : m.Step P cfg time float e m') : m'.Traced := by
  cases hstep with
  | api hlocal hnext =>
      rcases network_part_of_quiet hlocal (Api.step_of_next hnext) with hsame | ⟨e', hstep, hquiet⟩
      · exact h.on_link hsame rfl fun _ _ => .inr (.refl _ _)
      · exact h.on_step hstep hquiet rfl fun _ _ _ _ _ => .inr (.refl _ _)
  | write hdispatch hphase hnext => exact h.write hdispatch hphase hnext
  | announce =>
      exact h.on_link rfl rfl fun _ => keeps_setLink
        (.inr ⟨fun _ hmem => hmem, fun _ hmem => hmem, fun _ hmem => List.mem_append_left _ hmem⟩)
  | read hhead => exact h.read hcarries hhead
  | @ask conn call id old new hold hask =>
      have hruns : new.running = true := by
        rw [(Node.Execution.ask_eq_some hask).2]
        rfl
      have hput := h.put [] hold (.inl hruns)
      rwa [Link.write, List.map_nil, List.append_nil] at hput
  | @finish conn call outcome latencyMS stamp id old new hold hfinish =>
      obtain ⟨dispatch, -, hfollows⟩ :=
        (hcarries.links conn).executions id old (List.mem_of_getElem? hold)
      obtain ⟨-, hwritten⟩ := hfollows.finish hfinish
      obtain ⟨envelope, hone, -⟩ : ∃ envelope, Node.executeJob float
          (requestData float dispatch.payload) (fun _ => outcome) latencyMS stamp =
            [envelope] ∧ envelope.type = messageType envelope.payload ∧
          answerOf envelope = some (nodeFrame dispatch.payload.jobID outcome latencyMS) :=
        executeJob_requestData outcome latencyMS stamp
      refine h.put _ hold (.inr ?_)
      rw [hwritten, hone]
      exact List.cons_ne_nil _ _
  | @ignore conn now newID publicID ticket data rest hhead hnone =>
      refine h.on_link rfl rfl fun id => keeps_setLink
        (.inr ⟨fun _ hmem => hmem, fun _ hmem => hmem, fun data' hmem => ?_⟩)
      rw [hhead] at hmem
      rcases List.mem_cons.mp hmem with heq | hrest
      · -- An answer is never ignored.
        obtain ⟨rfl, rfl⟩ := Prod.mk.inj heq
        obtain ⟨_, _, -, -, -, hcomplete, -⟩ := hcarries.head hregistered hdistinct hhead
        rw [hcomplete] at hnone
        cases hnone
      · exact hrest
  | receive hhead hevent hnext =>
      exact h.receive hcarries hregistered hdistinct hfindable hhead hevent hnext

end Every

end Deployment

/-! ## Every run -/

/-- Where jobs are fresh, the channel of every dispatch in flight is registered. -/
theorem findable_of_reaches {es : List NetworkEvent} {n : Network}
    (h : networkMachine.Reaches FreshJob es n) : Findable n := by
  obtain ⟨log, hlogged⟩ := h.record sends
  exact (delivering_of_reaches hlogged).findable

theorem Deployment.traced_of_reaches {P : Platform} {cfg : Config}
    {guard : Deployment Time → FleetEvent Time → Deployment Time → Prop}
    {es : List (FleetEvent Time)} {m : Deployment Time}
    (h : (fleetMachine P cfg time float).Reaches guard es m) : m.Traced := by
  refine h.invariant_trace
    (fun es m => (fleetMachine P cfg time float).Reaches guard es m ∧ m.Traced) ?_ ?_ |>.2
  · rintro m hstart
    refine ⟨.start hstart, fun id dispatch conn hdispatch _ => ?_⟩
    rw [hstart.1.2] at hdispatch
    cases hdispatch
  · rintro es a e b ⟨hreach, htraced⟩ hnext hguard
    obtain ⟨es', hapi⟩ := api_reaches hreach
    obtain ⟨hinv, hnamed⟩ := named_of_reaches hapi
    obtain ⟨es'', hnetwork⟩ := freshJob_of_reaches hapi
    exact ⟨hreach.snoc hnext hguard, htraced.step (carries_of_reaches hreach)
      (registered_of_reaches hnetwork) (hnamed.distinct hinv) (findable_of_reaches hnetwork)
      (step_of_next hnext)⟩

/-! ## One place -/

section Places

variable {m : Deployment Time} {id : DispatchID} {conn : ConnID} {place place' : Place}

/-- What tells a place from the others: whether the request is queued, a call has written its
answer, the server has read it, and the dispatch has it. -/
def Deployment.Signs (m : Deployment Time) (id : DispatchID) (conn : ConnID) : Place → Prop
  | .unread => id ∈ (m.link conn).requests.map Prod.fst
  | .running => id ∉ (m.link conn).requests.map Prod.fst ∧
      ¬ ∃ envelope, (m.link conn).AnsweredBy id envelope
  | .unanswered => id ∉ (m.link conn).requests.map Prod.fst ∧
      (∃ envelope, (m.link conn).AnsweredBy id envelope) ∧ id ∉ (m.link conn).answered
  | .sending => id ∉ (m.link conn).requests.map Prod.fst ∧
      (∃ envelope, (m.link conn).AnsweredBy id envelope) ∧ id ∈ (m.link conn).answered ∧
      ∀ dispatch delivery, m.api.network.dispatch id = some dispatch → ¬ dispatch.Has delivery
  | .delivered => id ∉ (m.link conn).requests.map Prod.fst ∧
      (∃ envelope, (m.link conn).AnsweredBy id envelope) ∧ id ∈ (m.link conn).answered ∧
      ∃ dispatch delivery, m.api.network.dispatch id = some dispatch ∧ dispatch.Has delivery

/-- What has been written down is not queued. -/
theorem Link.Carries.not_queued {n : Network} {sent : DispatchID → Option ConnID}
    {link : Link Time} (h : link.Carries time float n sent conn)
    {call : Node.Execution Time FiniteFloat} (hmem : (id, call) ∈ link.executions) :
    id ∉ link.requests.map Prod.fst := by
  intro hqueued
  exact List.disjoint_of_nodup_append h.once hqueued (List.mem_map.mpr ⟨(id, call), hmem, rfl⟩)

theorem Deployment.At.signs (h : m.At id conn place) (hcarries : m.Carries time float)
    (hsent : m.sent id = some conn) : m.Signs id conn place := by
  have hlink := hcarries.links conn
  -- What the server has read, a call has written.
  have hgave : ∀ frame, (m.link conn).Gave id frame → id ∉ (m.link conn).requests.map Prod.fst ∧
      (∃ envelope, (m.link conn).AnsweredBy id envelope) ∧ id ∈ (m.link conn).answered := by
    rintro frame ⟨hanswered, envelope, hby, -⟩
    have ⟨call, hmem, _⟩ := hby
    exact ⟨hlink.not_queued hmem, ⟨envelope, hby⟩, hanswered⟩
  cases h with
  | unread hmem => exact List.mem_map.mpr ⟨_, hmem, rfl⟩
  | @running call hmem hruns =>
      refine ⟨hlink.not_queued hmem, ?_⟩
      rintro ⟨envelope, other, hother, hwritten⟩
      have hone : ((m.link conn).executions.map Prod.fst).Nodup := hlink.once.of_append_right
      obtain ⟨-, rfl⟩ := Prod.mk.inj (List.inj_on_of_nodup_map hone hother hmem rfl)
      rw [written_of_running hruns] at hwritten
      cases hwritten
  | unanswered hmem =>
      obtain ⟨envelope, hby, -⟩ := hlink.frames _ _ hmem
      have ⟨call, hcall, _⟩ := hby
      refine ⟨hlink.not_queued hcall, ⟨envelope, hby⟩, fun hanswered => ?_⟩
      exact List.disjoint_of_nodup_append hlink.repliesOnce
        (List.mem_filterMap.mpr ⟨_, hmem, rfl⟩) hanswered
  | sending hsession hphase =>
      obtain ⟨hgiven, hempty⟩ := hcarries.completing _ _ _ _ hsession hphase
      obtain ⟨hqueued, hby, hanswered⟩ := hgave _ hgiven
      exact ⟨hqueued, hby, hanswered, hempty⟩
  | @delivered dispatch hdispatch hsome =>
      obtain ⟨delivery, hbuffer⟩ := Option.isSome_iff_exists.mp hsome
      have hgiven := hcarries.deliveries id dispatch delivery hdispatch (.inl hbuffer)
      have hconn := (hcarries.links delivery.conn).sent_of_gave hgiven
      obtain rfl : conn = delivery.conn := Option.some.inj (hsent.symm.trans hconn)
      obtain ⟨hqueued, hby, hanswered⟩ := hgave _ hgiven
      exact ⟨hqueued, hby, hanswered, dispatch, delivery, hdispatch, .inl hbuffer⟩

/-- Nothing is in two places. -/
theorem Deployment.At.unique (h : m.At id conn place) (h' : m.At id conn place')
    (hcarries : m.Carries time float) (hsent : m.sent id = some conn) : place = place' := by
  have hsigns := h.signs hcarries hsent
  have hsigns' := h'.signs hcarries hsent
  have hhas : (∃ dispatch delivery, m.api.network.dispatch id = some dispatch ∧
      dispatch.Has delivery) → ¬ ∀ dispatch delivery, m.api.network.dispatch id = some dispatch →
        ¬ dispatch.Has delivery :=
    fun ⟨dispatch, delivery, hdispatch, hdelivery⟩ hempty =>
      hempty dispatch delivery hdispatch hdelivery
  cases place <;> cases place' <;> unfold Signs at hsigns hsigns' <;> tauto

end Places

end Nuvonode.Fleet
