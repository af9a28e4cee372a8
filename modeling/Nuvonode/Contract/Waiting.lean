/-
  Contract/Waiting.lean --- what a waiting request waits for.

  Where every provider runs the node of this repository, the request of a dispatch that
  waits, or its answer, is in one place between the server and the node, neither lost nor
  doubled.  While its connection is open the dispatch need not time out: whatever else is
  queued there, and whatever Ollama says, it can be brought to its answer.
-/
import Nuvonode.Contract.Nodes
import Nuvonode.Fleet.Draining

set_option autoImplicit false

namespace Nuvonode.Contract

open Nuvonode.Foundation Nuvonode.Database Nuvonode.Repository Nuvonode.Service Nuvonode.Handler
  Nuvonode.Ws Nuvonode.Fleet

variable {Time : Type}

/-- In every run of the server with its nodes, a dispatch that waits for its answer waits on
the connection that its request was written to, and there is exactly one place where the
request or the answer is: unread by the node, run by the node, unread by the server, about
to be sent by the session, or in the channel of the dispatch. -/
theorem requests_are_in_one_place (P : Platform) (cfg : Config) (time : TextForm Time)
    (float : TextForm FiniteFloat) {es : List (FleetEvent Time)} {m : Deployment Time}
    (hreach : (fleetMachine P cfg time float).Reaches Machine.anyStep es m) :
    ∀ id conn, WaitsAt m.api.network id conn → m.sent id = some conn ∧
      ∃! place, m.At id conn place := by
  have hcarries := Deployment.carries_of_reaches hreach
  intro id conn ⟨dispatch, hdispatch, hphase⟩
  obtain ⟨hsent, place, hat⟩ :=
    Deployment.traced_of_reaches hreach id dispatch conn hdispatch hphase
  exact ⟨hsent, place, hat, fun other hother => hother.unique hat hcarries hsent⟩

/-! ## A sample run -/

/-- Whether the sample connection is open and a dispatch waits there. -/
def waitsOpen (m : Deployment Unit) (id : DispatchID) : Bool :=
  (m.api.network.session 0).any (fun session => !session.closed && session.phase = .reading) &&
    (m.api.network.dispatch id).any fun dispatch => dispatch.phase = .waiting 0

theorem open_of_waitsOpen {m : Deployment Unit} {id : DispatchID} (h : waitsOpen m id = true) :
    IsOpen m.api.network 0 ∧ WaitsAt m.api.network id 0 := by
  obtain ⟨hsession, hdispatch⟩ := Bool.and_eq_true_iff.mp h
  obtain ⟨session, hsome, hboth⟩ := (Option.any_eq_true ..).mp hsession
  obtain ⟨dispatch, hdispatch, hphase⟩ := (Option.any_eq_true ..).mp hdispatch
  obtain ⟨hclosed, hreading⟩ := Bool.and_eq_true_iff.mp hboth
  exact ⟨⟨session, hsome, Bool.not_eq_true' _ ▸ hclosed, .inl (of_decide_eq_true hreading)⟩,
    dispatch, hdispatch, of_decide_eq_true hphase⟩

/-- The node runs a request, which is nowhere else. -/
def OnlyRuns (m : Deployment Unit) (id : DispatchID) : Prop :=
  m.At id 0 .running ∧ ∀ place, m.At id 0 place → place = .running

/-- The node runs both sample requests, and they are nowhere else. -/
theorem sample_request_is_run :
    OnlyRuns (fleetAfter readEvents) 0 ∧ OnlyRuns (fleetAfter readEvents) 1 := by
  obtain ⟨hrun, hboth⟩ : (runFleet readEvents).isSome ∧
      ∀ id ∈ ([0, 1] : List DispatchID), waitsOpen (fleetAfter readEvents) id = true ∧
        ((fleetAfter readEvents).link 0).executions.any
          (fun execution => execution.1 = id && execution.2.running) = true := by
    decide +kernel
  have hruns : ∀ id ∈ ([0, 1] : List DispatchID), OnlyRuns (fleetAfter readEvents) id := by
    intro id hid
    obtain ⟨hwaits, hcall⟩ := hboth id hid
    obtain ⟨⟨own, call⟩, hmem, hown⟩ := List.any_eq_true.mp hcall
    obtain ⟨hown, hruns⟩ := Bool.and_eq_true_iff.mp hown
    obtain rfl : own = id := of_decide_eq_true hown
    obtain ⟨-, place, -, hone⟩ := requests_are_in_one_place samplePlatform sampleConfig sampleTime
      sampleNumbers (reaches_fleetAfter hrun) own 0 (open_of_waitsOpen hwaits).2
    have hrunning : (fleetAfter readEvents).At own 0 .running := .running hmem hruns
    refine ⟨hrunning, fun other hother => ?_⟩
    rw [hone other hother, hone .running hrunning]
  exact ⟨hruns 0 (by decide), hruns 1 (by decide)⟩

/-! ## Bringing it to its answer -/

/-- The dispatch takes what is in its channel and returns it: what Ollama said to its node on
the connection. -/
def TakesAnswer (P : Platform) (cfg : Config) (time : TextForm Time)
    (float : TextForm FiniteFloat) (m : Deployment Time) (id : DispatchID) (conn : ConnID) :
    Prop :=
  ∃ m' dispatch outcome latencyMS,
    (fleetMachine P cfg time float).Steps Machine.anyStep m
      [.api (.network (.receive id)), .api (.network (.closeJob id))] m' ∧
    m'.api.network.dispatch id = some dispatch ∧ dispatch.phase = .returned (.ok
      { conn, frame := nodeFrame dispatch.payload.jobID outcome latencyMS })

/-- A dispatch that waits with a full channel returns what is in it. -/
theorem exists_returned {n : Network} {id : DispatchID} {conn : ConnID} {dispatch : Dispatch}
    {delivery : Delivery} (hdispatch : n.dispatch id = some dispatch)
    (hphase : dispatch.phase = .waiting conn) (hbuffer : dispatch.buffer = some delivery) :
    ∃ taken closed, n.next (.receive id) = some taken ∧ taken.next (.closeJob id) = some closed ∧
      closed.dispatch id = some ((dispatch.take delivery).goto (.returned (.ok delivery))) := by
  let taken := n.setDispatch id (dispatch.take delivery)
  have htaken : taken.dispatch id = some (dispatch.take delivery) :=
    Network.dispatch_setDispatch.trans (if_pos rfl)
  refine ⟨taken, (taken.setDispatch id ((dispatch.take delivery).goto (.returned (.ok delivery)))
    ).withHub (taken.hub.closeJob dispatch.payload.jobID), ?_, ?_,
    Network.dispatch_setDispatch.trans (if_pos rfl)⟩
  · simp only [Network.next, hdispatch, hphase, hbuffer, Option.bind_eq_bind, Option.bind_some]
    rfl
  · simp only [Network.next, htaken, Option.bind_eq_bind, Option.bind_some]
    rfl

section Taking

variable {P : Platform} {cfg : Config} {time : TextForm Time} {float : TextForm FiniteFloat}
  {m : Deployment Time} {id : DispatchID} {conn : ConnID}

/-- What the network does by itself is a step of the deployment. -/
theorem next_network {e : NetworkEvent} {network : Network} (hlocal : shared e = false)
    (hcarried : carried (.network e) = false) (hnext : m.api.network.next e = some network) :
    m.next P cfg time float (.api (.network e)) =
      some (m.serve (m.api.connected network)) := by
  simp only [Deployment.next, hcarried, Api.next, hlocal, hnext, Bool.false_eq_true, if_false,
    Option.map_some]

/-- A dispatch that waits with a full channel can take its answer. -/
theorem takesAnswer_of_delivered (hcarries : m.Carries time float) (hsent : m.sent id = some conn)
    (hwaits : WaitsAt m.api.network id conn) (hat : m.At id conn .delivered) :
    TakesAnswer P cfg time float m id conn := by
  obtain ⟨dispatch, hdispatch, hphase⟩ := hwaits
  obtain ⟨delivery, hbuffer⟩ : ∃ delivery, dispatch.buffer = some delivery := by
    cases hat with
    | delivered hdispatch' hsome =>
        obtain rfl := Option.some.inj (hdispatch.symm.trans hdispatch')
        exact Option.isSome_iff_exists.mp hsome
  -- What is in the channel is an answer that came over this connection.
  obtain ⟨-, envelope, hanswered, hframe⟩ :=
    hcarries.deliveries id dispatch delivery hdispatch (.inl hbuffer)
  obtain ⟨hconn, -, asked, call, outcome, latencyMS, hasked, -, -, -, hanswer⟩ :=
    (hcarries.links delivery.conn).answer hanswered
  obtain rfl : conn = delivery.conn := Option.some.inj (hsent.symm.trans hconn)
  obtain rfl := Option.some.inj (hdispatch.symm.trans hasked)
  have hdelivery : delivery =
      ⟨delivery.conn, nodeFrame dispatch.payload.jobID outcome latencyMS⟩ := by
    rw [← Option.some.inj (hframe.symm.trans hanswer)]
  obtain ⟨taken, closed, htake, hclose, hreturned⟩ := exists_returned hdispatch hphase hbuffer
  have hfirst : (fleetMachine P cfg time float).Steps Machine.anyStep m
      ([] ++ [.api (.network (.receive id))]) (m.serve (m.api.connected taken)) :=
    .snoc .refl (next_network rfl rfl htake) trivial
  refine ⟨(m.serve (m.api.connected taken)).serve ((m.api.connected taken).connected closed),
    (dispatch.take delivery).goto (.returned (.ok delivery)), outcome, latencyMS,
    hfirst.snoc (next_network rfl rfl hclose) trivial, hreturned, ?_⟩
  exact congrArg (fun delivery => DispatchPhase.returned (.ok delivery)) hdelivery

end Taking

/-- From every state that the server with its nodes reaches, an open connection can be
worked off by its node and its session alone, within a bound and whatever Ollama answers;
then each dispatch that waited on it can take its answer and return it. -/
theorem open_connections_bring_answers (P : Platform) (cfg : Config) (time : TextForm Time)
    (float : TextForm FiniteFloat) {es : List (FleetEvent Time)} {m : Deployment Time}
    (hreach : (fleetMachine P cfg time float).Reaches Machine.anyStep es m) {conn : ConnID}
    (hopen : IsOpen m.api.network conn) (outcome : Node.OllamaOutcome) (latencyMS : Int64)
    (stamp : Node.Stamp Time) :
    ∃ es' m', (fleetMachine P cfg time float).Steps
        (AtConnection conn outcome latencyMS stamp) m es' m' ∧
      es'.length ≤ m.work conn ∧ Drained m' conn ∧
      ∀ id, WaitsAt m.api.network id conn → TakesAnswer P cfg time float m' id conn := by
  let I : Deployment Time → Prop := fun b =>
    (∃ es, (fleetMachine P cfg time float).Reaches Machine.anyStep es b) ∧
      IsOpen b.api.network conn ∧
        ∀ id, WaitsAt m.api.network id conn → WaitsAt b.api.network id conn
  have hease : ∀ b, I b → ¬ Drained b conn → ∃ e c, (fleetMachine P cfg time float).step b e c ∧
      AtConnection conn outcome latencyMS stamp b e c ∧ I c ∧ c.work conn < b.work conn := by
    intro b ⟨⟨es, hreach⟩, hopen, hwaits⟩ hleft
    obtain ⟨e, c, hnext, hguard, heases⟩ : ∃ e c, b.next P cfg time float e = some c ∧
        AtConnection conn outcome latencyMS stamp b e c ∧ b.Eases conn c :=
      Deployment.exists_ease (Deployment.carries_of_reaches hreach) hopen hleft
    exact ⟨e, c, hnext, hguard, ⟨⟨_, hreach.snoc hnext trivial⟩, heases.stays,
      fun id hbefore => heases.waits id (hwaits id hbefore)⟩, heases.less⟩
  obtain ⟨es', m', hsteps, ⟨⟨es'', hreach'⟩, -, hwaits⟩, hdrained, hlength⟩ :=
    Machine.exists_end I (fun b => Drained b conn) (fun b => b.work conn) hease
      ⟨⟨es, hreach⟩, hopen, fun _ hbefore => hbefore⟩
  refine ⟨es', m', hsteps, by omega, hdrained, fun id hbefore => ?_⟩
  have hcarries := Deployment.carries_of_reaches hreach'
  obtain ⟨dispatch, hdispatch, hphase⟩ := hwaits id hbefore
  obtain ⟨hsent, place, hat⟩ :=
    Deployment.traced_of_reaches hreach' id dispatch conn hdispatch hphase
  -- Nothing is left on the connection but what is in channels.
  cases hat with
  | unread hmem => exact absurd hmem (hdrained.requests ▸ List.not_mem_nil)
  | running hmem hruns => exact absurd hruns (Bool.eq_false_iff.mp (hdrained.calls _ _ hmem))
  | unanswered hmem => exact absurd hmem (hdrained.frames ▸ List.not_mem_nil)
  | sending hsession hsending =>
      obtain ⟨session, hsession', hreading⟩ := hdrained.reading
      obtain rfl := Option.some.inj (hsession.symm.trans hsession')
      rw [hreading] at hsending
      cases hsending
  | delivered hdispatch' hsome =>
      exact takesAnswer_of_delivered hcarries hsent ⟨dispatch, hdispatch, hphase⟩
        (.delivered hdispatch' hsome)

/-- The sample requests, which the node runs, can both be brought to their answers. -/
theorem sample_connection_brings_answer :
    ∃ es m, (fleetMachine samplePlatform sampleConfig sampleTime sampleNumbers).Steps
        (AtConnection 0 (.answered 200 (.ok ⟨"hi there", 2, 2⟩)) 900 ⟨"1", ()⟩)
        (fleetAfter readEvents) es m ∧
      TakesAnswer samplePlatform sampleConfig sampleTime sampleNumbers m 0 0 ∧
      TakesAnswer samplePlatform sampleConfig sampleTime sampleNumbers m 1 0 := by
  obtain ⟨hrun, hfirst, hsecond⟩ : (runFleet readEvents).isSome ∧
      waitsOpen (fleetAfter readEvents) 0 = true ∧
      waitsOpen (fleetAfter readEvents) 1 = true := by
    decide +kernel
  obtain ⟨hopen, hfirst⟩ := open_of_waitsOpen hfirst
  obtain ⟨-, hsecond⟩ := open_of_waitsOpen hsecond
  obtain ⟨es, m, hsteps, -, -, htakes⟩ := open_connections_bring_answers samplePlatform
    sampleConfig sampleTime sampleNumbers (reaches_fleetAfter hrun) hopen
    (.answered 200 (.ok ⟨"hi there", 2, 2⟩)) 900 ⟨"1", ()⟩
  exact ⟨es, m, hsteps, htakes 0 hfirst, htakes 1 hsecond⟩

end Nuvonode.Contract
