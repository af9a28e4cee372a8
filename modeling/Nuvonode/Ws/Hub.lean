/-
  Ws/Hub.lean --- the hub, the sessions of providers and the dispatches of jobs.

  From `ws/hub.go`, and from `Handler.ProviderWS` in `handler/handlers.go` as far as
  it uses the hub.  A session stands for its connection, and a dispatch for the
  channel of capacity one that it makes.  Everything happens at the granularity of
  the hub's lock: one step reads or writes one of its maps, writes a request to a
  connection, or sends to or receives from a channel.

  What a provider sends, when a connection breaks, what a write comes to and when a
  request times out is not restricted.
-/
import Mathlib.Logic.Function.Basic
import Nuvonode.Database.Schema
import Nuvonode.Ws.Protocol

set_option autoImplicit false

namespace Nuvonode.Ws

open Nuvonode.Database

/-- A session of `ProviderWS`, and its connection. -/
abbrev ConnID : Type := Nat

/-- A call of `Dispatch`, and its channel. -/
abbrev DispatchID : Type := Nat

/-! ## The hub -/

structure ProviderConnection where
  providerPublicID : String
  conn : ConnID
  deriving DecidableEq

structure Hub where
  providers : String → Option ProviderConnection
  jobs : String → Option DispatchID

namespace Hub

/-- `NewHub`. -/
def new : Hub where
  providers := fun _ => none
  jobs := fun _ => none

/-- `Hub.Register`. -/
def register (hub : Hub) (providerPublicID : String) (conn : ConnID) : Hub :=
  { hub with providers :=
      Function.update hub.providers providerPublicID (some { providerPublicID, conn }) }

/-- `Hub.Unregister`. -/
def unregister (hub : Hub) (providerPublicID : String) : Hub :=
  { hub with providers := Function.update hub.providers providerPublicID none }

/-- The channel of a job. -/
def openJob (hub : Hub) (jobID : String) (channel : DispatchID) : Hub :=
  { hub with jobs := Function.update hub.jobs jobID (some channel) }

/-- The deferred deletion of `Hub.Dispatch`. -/
def closeJob (hub : Hub) (jobID : String) : Hub :=
  { hub with jobs := Function.update hub.jobs jobID none }

end Hub

/-! ## Sessions and dispatches -/

/-- Where a session is in `ProviderWS`. -/
inductive SessionPhase where
  /-- The token is resolved. -/
  | accepted
  /-- It is registered, and reads. -/
  | reading
  /-- `Complete` has found the channel of the job that a frame names. -/
  | completing (channel : DispatchID) (frame : CompletionFrame)
  /-- The read loop has returned. -/
  | leaving
  /-- The deferred `Unregister` has run. -/
  | ended
  deriving DecidableEq

structure Session where
  providerID : UUID
  providerPublicID : String
  phase : SessionPhase
  /-- The variable `instance`. -/
  instanceID : Option UUID
  /-- The instance of the last hello that succeeded. -/
  hello : Option UUID
  /-- `Disconnect` has called `Close` on the connection. -/
  closed : Bool
  deriving DecidableEq

/-- What a session has sent to a channel. -/
structure Delivery where
  conn : ConnID
  frame : CompletionFrame
  deriving DecidableEq

/-- Where a call is in `Dispatch`. -/
inductive DispatchPhase where
  /-- Look the provider up. -/
  | called
  /-- Make the channel. -/
  | found (conn : ConnID)
  /-- Write the request. -/
  | opened (conn : ConnID)
  /-- Wait for the channel. -/
  | waiting (conn : ConnID)
  /-- Delete the channel. -/
  | finishing (outcome : Except DispatchError Delivery)
  | returned (outcome : Except DispatchError Delivery)
  deriving DecidableEq

structure Dispatch where
  providerPublicID : String
  payload : JobRequestPayload
  phase : DispatchPhase
  /-- What is in the channel. -/
  buffer : Option Delivery
  deriving DecidableEq

/-- A session whose token has just been resolved. -/
def Session.accepted (providerID : UUID) (providerPublicID : String) : Session where
  providerID := providerID
  providerPublicID := providerPublicID
  phase := .accepted
  instanceID := none
  hello := none
  closed := false

/-- A dispatch that has just been called. -/
def Dispatch.called (providerPublicID : String) (payload : JobRequestPayload) : Dispatch where
  providerPublicID := providerPublicID
  payload := payload
  phase := .called
  buffer := none

/-- A session in another phase. -/
def Session.goto (session : Session) (phase : SessionPhase) : Session := { session with phase }

/-- A dispatch in another phase. -/
def Dispatch.goto (dispatch : Dispatch) (phase : DispatchPhase) : Dispatch :=
  { dispatch with phase }

/-- A dispatch whose channel holds a delivery. -/
def Dispatch.fill (dispatch : Dispatch) (delivery : Delivery) : Dispatch :=
  { dispatch with buffer := some delivery }

/-- A dispatch that has taken the delivery from its channel. -/
def Dispatch.take (dispatch : Dispatch) (delivery : Delivery) : Dispatch :=
  { dispatch with phase := .finishing (.ok delivery), buffer := none }

/-- A session that has handled a hello; it has no instance where that failed. -/
def Session.greet (session : Session) (instanceID : Option UUID) : Session :=
  { session with instanceID, hello := instanceID.or session.hello }

/-! ## The network -/

structure Network where
  hub : Hub
  session : ConnID → Option Session
  dispatch : DispatchID → Option Dispatch
  /-- The session of each provider that registered last, unless the provider was
  disconnected since. -/
  latest : String → Option ConnID

inductive NetworkEvent where
  /-- A session whose token is a provider's. -/
  | accept (conn : ConnID) (providerID : UUID) (providerPublicID : String)
  | register (conn : ConnID)
  /-- A `provider.hello`, and the instance it upserts; `none` where that fails. -/
  | hello (conn : ConnID) (instanceID : Option UUID)
  /-- A `provider.job_result` or a `provider.job_error`: `Complete` reads the map. -/
  | complete (conn : ConnID) (frame : CompletionFrame)
  /-- `Complete` sends to the channel. -/
  | send (conn : ConnID)
  /-- The connection cannot be read any more. -/
  | drop (conn : ConnID)
  | unregister (conn : ConnID)
  | disconnect (providerPublicID : String)
  | dispatch (id : DispatchID) (providerPublicID : String) (payload : JobRequestPayload)
  | lookup (id : DispatchID)
  | openJob (id : DispatchID)
  /-- `WriteJSON` returns, with the text of an error where it failed. -/
  | write (id : DispatchID) (refusal : Option String)
  | receive (id : DispatchID)
  | timeout (id : DispatchID)
  | closeJob (id : DispatchID)
  deriving DecidableEq

namespace Network

def start : Network where
  hub := .new
  session := fun _ => none
  dispatch := fun _ => none
  latest := fun _ => none

def setSession (n : Network) (conn : ConnID) (session : Session) : Network :=
  { n with session := Function.update n.session conn (some session) }

def setDispatch (n : Network) (id : DispatchID) (dispatch : Dispatch) : Network :=
  { n with dispatch := Function.update n.dispatch id (some dispatch) }

/-- The network with another hub. -/
def withHub (n : Network) (hub : Hub) : Network := { n with hub }

/-- Remember who registered last. -/
def setLatest (n : Network) (providerPublicID : String) (conn : Option ConnID) : Network :=
  { n with latest := Function.update n.latest providerPublicID conn }

/-- `Hub.Disconnect` calls `Close` on the connection that it has deleted. -/
def closeConnection (n : Network) : Option ProviderConnection → Network
  | none => n
  | some provider =>
      match n.session provider.conn with
      | none => n
      | some session => n.setSession provider.conn { session with closed := true }

/-- The frame that a session reads next: `Complete` looks up the job that it names. -/
def read (n : Network) (conn : ConnID) (session : Session) (frame : CompletionFrame) : Network :=
  match n.hub.jobs frame.jobID with
  | none => n
  | some channel => n.setSession conn (session.goto (.completing channel frame))

/-- What the lookup of `Hub.Dispatch` leads to. -/
def route (n : Network) (providerPublicID : String) : DispatchPhase :=
  match n.hub.providers providerPublicID with
  | none => .returned (.error .providerUnavailable)
  | some provider => .found provider.conn

/-- What an event does; `none` where it cannot happen. -/
def next (n : Network) : NetworkEvent → Option Network
  | .accept conn providerID providerPublicID =>
      match n.session conn with
      | some _ => none
      | none => some (n.setSession conn (.accepted providerID providerPublicID))
  | .register conn => do
      let session ← n.session conn
      match session.phase with
      | .accepted => some (((n.setSession conn (session.goto .reading)).withHub
          (n.hub.register session.providerPublicID conn)).setLatest session.providerPublicID conn)
      | _ => none
  | .hello conn instanceID => do
      let session ← n.session conn
      match session.phase with
      | .reading => some (n.setSession conn (session.greet instanceID))
      | _ => none
  | .complete conn frame => do
      let session ← n.session conn
      match session.phase with
      | .reading => some (n.read conn session frame)
      | _ => none
  | .send conn => do
      let session ← n.session conn
      match session.phase with
      | .completing channel frame => do
          let dispatch ← n.dispatch channel
          match dispatch.buffer with
          | none => some ((n.setSession conn (session.goto .reading)).setDispatch channel
              (dispatch.fill { conn, frame }))
          | some _ => none
      | _ => none
  | .drop conn => do
      let session ← n.session conn
      match session.phase with
      | .reading => some (n.setSession conn (session.goto .leaving))
      | _ => none
  | .unregister conn => do
      let session ← n.session conn
      match session.phase with
      | .leaving => some ((n.setSession conn (session.goto .ended)).withHub
          (n.hub.unregister session.providerPublicID))
      | _ => none
  | .disconnect providerPublicID =>
      some (((n.closeConnection (n.hub.providers providerPublicID)).withHub
        (n.hub.unregister providerPublicID)).setLatest providerPublicID none)
  | .dispatch id providerPublicID payload =>
      match n.dispatch id with
      | some _ => none
      | none => some (n.setDispatch id (.called providerPublicID payload))
  | .lookup id => do
      let dispatch ← n.dispatch id
      match dispatch.phase with
      | .called => some (n.setDispatch id (dispatch.goto (n.route dispatch.providerPublicID)))
      | _ => none
  | .openJob id => do
      let dispatch ← n.dispatch id
      match dispatch.phase with
      | .found conn => some ((n.setDispatch id (dispatch.goto (.opened conn))).withHub
          (n.hub.openJob dispatch.payload.jobID id))
      | _ => none
  | .write id refusal => do
      let dispatch ← n.dispatch id
      match dispatch.phase with
      | .opened conn =>
          match refusal with
          | some text => some (n.setDispatch id
              (dispatch.goto (.finishing (.error (.writeFailed text)))))
          | none => some (n.setDispatch id (dispatch.goto (.waiting conn)))
      | _ => none
  | .receive id => do
      let dispatch ← n.dispatch id
      match dispatch.phase, dispatch.buffer with
      | .waiting _, some delivery => some (n.setDispatch id (dispatch.take delivery))
      | _, _ => none
  | .timeout id => do
      let dispatch ← n.dispatch id
      match dispatch.phase with
      | .waiting _ => some (n.setDispatch id
          (dispatch.goto (.finishing (.error .jobTimeout))))
      | _ => none
  | .closeJob id => do
      let dispatch ← n.dispatch id
      match dispatch.phase with
      | .finishing outcome => some ((n.setDispatch id (dispatch.goto (.returned outcome))).withHub
          (n.hub.closeJob dispatch.payload.jobID))
      | _ => none

end Network

end Nuvonode.Ws
