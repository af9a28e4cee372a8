/-
  Fleet/Links.lean --- the server with the nodes of its providers.

  Every connection has a node at its other end that runs `provider-node`, and two queues:
  what the server has written and the node has not read, and the other way round.  A
  frame is the JSON that one side writes and the other one decodes.  A frame that is
  never read is one that was lost with its connection.

  Beside each frame stands the dispatch that it is for.  No step reads that.
-/
import Nuvonode.Handler.Api
import Nuvonode.Node.Executions
import Nuvonode.Ws.Wire

set_option autoImplicit false

namespace Nuvonode.Fleet

open Nuvonode.Foundation Nuvonode.Database Nuvonode.Service Nuvonode.Handler Nuvonode.Ws

variable {Time : Type}

/-! ## Connections -/

/-- A connection: its queues, and the calls of `executeJob` for what came over it. -/
structure Link (Time : Type) where
  /-- Written by `Hub.Dispatch`, and not read by the node. -/
  requests : List (DispatchID × Json)
  executions : List (DispatchID × Node.Execution Time FiniteFloat)
  /-- Written by the node, and not read by `ProviderWS`; only answers are for a dispatch. -/
  frames : List (Option DispatchID × Json)
  /-- The dispatches whose answers `ProviderWS` has read. -/
  answered : List DispatchID

namespace Link

/-- A connection over which nothing was written. -/
def fresh : Link Time := ⟨[], [], [], []⟩

/-- The server writes a request. -/
def request (link : Link Time) (id : DispatchID) (data : Json) : Link Time :=
  { link with requests := link.requests ++ [(id, data)] }

/-- The node has read a request, and starts calls. -/
def start (link : Link Time) (rest : List (DispatchID × Json))
    (calls : List (DispatchID × Node.Execution Time FiniteFloat)) : Link Time :=
  { link with requests := rest, executions := link.executions ++ calls }

/-- A call moves. -/
def put (link : Link Time) (call : Nat) (id : DispatchID) (new : Node.Execution Time FiniteFloat) :
    Link Time :=
  { link with executions := link.executions.set call (id, new) }

/-- The node writes frames. -/
def write (link : Link Time) (id : Option DispatchID) (written : List Json) : Link Time :=
  { link with frames := link.frames ++ written.map fun data => (id, data) }

/-- The server has read a frame. -/
def consume (link : Link Time) (id : Option DispatchID)
    (rest : List (Option DispatchID × Json)) : Link Time :=
  { link with frames := rest, answered := link.answered ++ id.toList }

end Link

/-- The server and its connections. -/
structure Deployment (Time : Type) where
  api : Api
  link : ConnID → Link Time
  /-- The connection that the request of a dispatch was written to. -/
  sent : DispatchID → Option ConnID

/-- What a node writes of its own accord. -/
inductive Announcement where
  | hello (instanceKey ollamaURL hostname goos goarch : String)
  /-- What `Tags` returned. -/
  | modelList (tags : Except String (List Node.OllamaModel))
  | heartbeat

inductive FleetEvent (Time : Type) where
  /-- Anything of the server but what the events below do. -/
  | api (e : ApiEvent)
  /-- `Hub.Dispatch` writes its request to the connection. -/
  | write (id : DispatchID) (now : Time)
  | announce (conn : ConnID) (announcement : Announcement) (stamp : Node.Stamp Time)
  /-- The node reads the next frame. -/
  | read (conn : ConnID)
  /-- A call of `executeJob` asks Ollama. -/
  | ask (conn : ConnID) (call : Nat)
  /-- A call of `executeJob` writes what comes of its job. -/
  | finish (conn : ConnID) (call : Nat) (outcome : Node.OllamaOutcome) (latencyMS : Int64)
      (stamp : Node.Stamp Time)
  /-- `ProviderWS` reads the next frame; a hello takes a time and ids. -/
  | receive (conn : ConnID) (now : Nat) (newID : UUID) (publicID : String)

/-- What the server does only with a frame, or to write one. -/
def carried : ApiEvent → Bool
  | .hello .. => true
  | .network (.complete ..) => true
  | .network (.write _ none) => true
  | _ => false

/-! ## Frames -/

/-- The request of a dispatch on the wire. -/
def wirePayload (payload : JobRequestPayload) :
    Wire.JobRequestPayload FiniteFloat :=
  Wire.chatPayload payload.jobID payload.modelSlug payload.runtimeModelName payload.messages
    payload.temperature (Int64.ofInt payload.maxTokens) (Int64.ofInt payload.timeoutSeconds)

/-- The envelopes of an announcement. -/
def Announcement.envelopes (stamp : Node.Stamp Time) :
    Announcement → List (Node.Envelope Time Node.Payload)
  | .hello instanceKey ollamaURL hostname goos goarch =>
      [Node.sendHello stamp instanceKey ollamaURL hostname goos goarch]
  | .modelList tags => Node.sendModelList stamp tags
  | .heartbeat => [Node.sendHeartbeat stamp]

/-- The frame of a result or an error that `ProviderWS` completes a job with. -/
def completionFrame : Wire.Message → Option CompletionFrame
  | .jobResult payload => some (.jobResult payload.jobID payload.content payload.finishReason
      payload.usage payload.latencyMS)
  | .jobError payload => some (.jobError payload.jobID payload.errorCode payload.errorMessage)
  | _ => none

/-- What `ProviderWS` does with a message.  What a heartbeat or a model list changes is
among the changes of the catalog, which may happen at any time. -/
def messageEvent (conn : ConnID) (now : Nat) (newID : UUID) (publicID : String)
    (message : Wire.Message) : Option ApiEvent :=
  match message with
  | .hello payload =>
      if payload.instanceKey = "" then none
      else some (.hello conn now newID publicID payload.toHelloPayload)
  | _ => (completionFrame message).map fun frame => .network (.complete conn frame)

/-- Whether the session of a connection can read. -/
def reads (network : Network) (conn : ConnID) : Bool :=
  (network.session conn).any fun session => session.phase = .reading

section Frames

variable (time : TextForm Time)

/-- What `executeJob` calls a frame starts. -/
def started (id : DispatchID) (data : Json) : List (DispatchID × Node.Execution Time FiniteFloat) :=
  match Node.jobPayload time data with
  | none => []
  | some payload => [(id, { payload, stage := .started })]

/-- What the server does with a frame. -/
def frameEvent (conn : ConnID) (now : Nat) (newID : UUID) (publicID : String) (data : Json) :
    Option ApiEvent :=
  (Wire.receive time data).bind fun received =>
    messageEvent conn now newID publicID received.message

end Frames

namespace Deployment

/-- The deployment with another server. -/
def serve (m : Deployment Time) (api : Api) : Deployment Time := { m with api }

/-- The deployment with another state of a connection. -/
def setLink (m : Deployment Time) (conn : ConnID) (link : Link Time) : Deployment Time :=
  { m with link := Function.update m.link conn link }

theorem link_setLink_self (m : Deployment Time) (conn : ConnID) (link : Link Time) :
    (m.setLink conn link).link conn = link := Function.update_self ..

theorem link_setLink_of_ne (m : Deployment Time) {conn other : ConnID} (link : Link Time)
    (h : other ≠ conn) : (m.setLink conn link).link other = m.link other :=
  Function.update_of_ne h ..

/-- Remember where a request was written. -/
def send (m : Deployment Time) (id : DispatchID) (conn : ConnID) : Deployment Time :=
  { m with sent := Function.update m.sent id (some conn) }

section Next

variable (P : Platform) (cfg : Config) (time : TextForm Time) (float : TextForm FiniteFloat)

/-- What an event does; `none` where it cannot happen. -/
def next (m : Deployment Time) : FleetEvent Time → Option (Deployment Time)
  | .api e => if carried e then none else (m.api.next P cfg e).map m.serve
  | .write id now => do
      let dispatch ← m.api.network.dispatch id
      match dispatch.phase with
      | .opened conn => (m.api.next P cfg (.network (.write id none))).map fun api =>
          ((m.serve api).send id conn).setLink conn ((m.link conn).request id
            (Wire.dispatch time float now (wirePayload dispatch.payload)))
      | _ => none
  | .announce conn announcement stamp =>
      if (m.api.network.session conn).isSome then
        some (m.setLink conn ((m.link conn).write none
          ((announcement.envelopes stamp).map (Node.writeJSON time))))
      else none
  | .read conn =>
      match (m.link conn).requests with
      | [] => none
      | (id, data) :: rest =>
          some (m.setLink conn ((m.link conn).start rest (started time id data)))
  | .ask conn call => do
      let (id, old) ← (m.link conn).executions[call]?
      let new ← old.ask float
      some (m.setLink conn ((m.link conn).put call id new))
  | .finish conn call outcome latencyMS stamp => do
      let (id, old) ← (m.link conn).executions[call]?
      let new ← old.finish float outcome latencyMS stamp
      some (m.setLink conn (((m.link conn).put call id new).write (some id)
        ((new.written.getD []).map (Node.writeJSON time))))
  | .receive conn now newID publicID =>
      match (m.link conn).frames with
      | [] => none
      | (id, data) :: rest =>
          if reads m.api.network conn then
            match frameEvent time conn now newID publicID data with
            | none => some (m.setLink conn ((m.link conn).consume id rest))
            | some e => (m.api.next P cfg e).map fun api =>
                (m.serve api).setLink conn ((m.link conn).consume id rest)
          else none

end Next

end Deployment

/-- The server and its nodes, from a fresh server without a connection. -/
abbrev fleetMachine (P : Platform) (cfg : Config) (time : TextForm Time)
    (float : TextForm FiniteFloat) : Machine (Deployment Time) (FleetEvent Time) :=
  Machine.ofNext (fun m => (apiMachine P cfg).start m.api ∧ (∀ conn, m.link conn = .fresh) ∧
    ∀ id, m.sent id = none) (Deployment.next P cfg time float)

/-! ## What an event can do -/

/-- One step of the deployment. -/
inductive Deployment.Step (P : Platform) (cfg : Config) (time : TextForm Time)
    (float : TextForm FiniteFloat) (m : Deployment Time) :
    FleetEvent Time → Deployment Time → Prop where
  | api {e : ApiEvent} {api : Api} : carried e = false → m.api.next P cfg e = some api →
      m.Step P cfg time float (.api e) (m.serve api)
  | write {id : DispatchID} {now : Time} {dispatch : Dispatch}
      {conn : ConnID} {api : Api} : m.api.network.dispatch id = some dispatch →
      dispatch.phase = .opened conn → m.api.next P cfg (.network (.write id none)) = some api →
      m.Step P cfg time float (.write id now)
        (((m.serve api).send id conn).setLink conn ((m.link conn).request id
          (Wire.dispatch time float now (wirePayload dispatch.payload))))
  | announce {conn : ConnID} {announcement : Announcement} {stamp : Node.Stamp Time} :
      m.Step P cfg time float (.announce conn announcement stamp)
        (m.setLink conn ((m.link conn).write none
          ((announcement.envelopes stamp).map (Node.writeJSON time))))
  | read {conn : ConnID} {id : DispatchID} {data : Json} {rest : List (DispatchID × Json)} :
      (m.link conn).requests = (id, data) :: rest →
      m.Step P cfg time float (.read conn)
        (m.setLink conn ((m.link conn).start rest (started time id data)))
  | ask {conn : ConnID} {call : Nat} {id : DispatchID} {old new : Node.Execution Time FiniteFloat} :
      (m.link conn).executions[call]? = some (id, old) → old.ask float = some new →
      m.Step P cfg time float (.ask conn call) (m.setLink conn ((m.link conn).put call id new))
  | finish {conn : ConnID} {call : Nat} {outcome : Node.OllamaOutcome} {latencyMS : Int64}
      {stamp : Node.Stamp Time} {id : DispatchID} {old new : Node.Execution Time FiniteFloat} :
      (m.link conn).executions[call]? = some (id, old) →
      old.finish float outcome latencyMS stamp = some new →
      m.Step P cfg time float (.finish conn call outcome latencyMS stamp)
        (m.setLink conn (((m.link conn).put call id new).write (some id)
          ((new.written.getD []).map (Node.writeJSON time))))
  | ignore {conn : ConnID} {now : Nat} {newID : UUID} {publicID : String}
      {id : Option DispatchID} {data : Json} {rest : List (Option DispatchID × Json)} :
      (m.link conn).frames = (id, data) :: rest →
      frameEvent time conn now newID publicID data = none →
      m.Step P cfg time float (.receive conn now newID publicID)
        (m.setLink conn ((m.link conn).consume id rest))
  | receive {conn : ConnID} {now : Nat} {newID : UUID} {publicID : String}
      {id : Option DispatchID} {data : Json} {rest : List (Option DispatchID × Json)}
      {e : ApiEvent} {api : Api} : (m.link conn).frames = (id, data) :: rest →
      frameEvent time conn now newID publicID data = some e →
      m.api.next P cfg e = some api →
      m.Step P cfg time float (.receive conn now newID publicID)
        ((m.serve api).setLink conn ((m.link conn).consume id rest))

section Steps

variable {P : Platform} {cfg : Config} {time : TextForm Time} {float : TextForm FiniteFloat}
  {m m' : Deployment Time} {e : FleetEvent Time}

theorem Deployment.step_of_next (h : m.next P cfg time float e = some m') :
    m.Step P cfg time float e m' := by
  cases e with
  | api e =>
      simp only [Deployment.next] at h
      split at h
      · cases h
      · obtain ⟨api, hnext, rfl⟩ := Option.map_eq_some_iff.mp h
        exact .api (Bool.not_eq_true _ ▸ ‹_›) hnext
  | write id now =>
      obtain ⟨dispatch, hdispatch, h⟩ := Option.bind_eq_some_iff.mp h
      split at h
      · obtain ⟨api, hnext, rfl⟩ := Option.map_eq_some_iff.mp h
        exact .write hdispatch ‹_› hnext
      · cases h
  | announce conn announcement stamp =>
      simp only [Deployment.next] at h
      split at h
      · cases h
        exact .announce
      · cases h
  | read conn =>
      simp only [Deployment.next] at h
      split at h
      · cases h
      · cases h
        exact .read ‹_›
  | ask conn call =>
      obtain ⟨⟨id, old⟩, hold, h⟩ := Option.bind_eq_some_iff.mp h
      obtain ⟨new, hnew, h⟩ := Option.bind_eq_some_iff.mp h
      cases h
      exact .ask hold hnew
  | finish conn call outcome latencyMS stamp =>
      obtain ⟨⟨id, old⟩, hold, h⟩ := Option.bind_eq_some_iff.mp h
      obtain ⟨new, hnew, h⟩ := Option.bind_eq_some_iff.mp h
      cases h
      exact .finish hold hnew
  | receive conn now newID publicID =>
      simp only [Deployment.next] at h
      split at h
      · cases h
      · split at h
        · split at h
          · cases h
            exact .ignore ‹_› ‹_›
          · obtain ⟨api, hnext, rfl⟩ := Option.map_eq_some_iff.mp h
            exact .receive ‹_› ‹_› hnext
        · cases h

/-- A step of the deployment is a step of the server, or leaves it alone. -/
theorem Deployment.Step.api_part (h : m.Step P cfg time float e m') :
    m'.api = m.api ∨ ∃ e', m.api.next P cfg e' = some m'.api := by
  cases h with
  | api _ hnext => exact .inr ⟨_, hnext⟩
  | write _ _ hnext => exact .inr ⟨_, hnext⟩
  | receive _ _ hnext => exact .inr ⟨_, hnext⟩
  | _ => exact .inl rfl

/-- The server of a run is one that the server reaches by itself. -/
theorem api_reaches {guard : Deployment Time → FleetEvent Time → Deployment Time → Prop}
    {es : List (FleetEvent Time)} (h : (fleetMachine P cfg time float).Reaches guard es m) :
    ∃ es', (apiMachine P cfg).Reaches Machine.anyStep es' m.api := by
  refine h.project Deployment.api (fun _ hstart => hstart.1) fun a e b hnext _ => ?_
  rcases (Deployment.step_of_next hnext).api_part with hsame | ⟨e', hnext'⟩
  · exact .inl hsame
  · exact .inr ⟨e', hnext', trivial⟩

end Steps

end Nuvonode.Fleet
