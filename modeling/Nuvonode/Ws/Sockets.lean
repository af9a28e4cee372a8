/-
  Ws/Sockets.lean --- the connections of the websocket package.

  `Close` and `WriteJSON` are functions of a package that is not in the repository.  They
  are parameters here, relations over any states of a connection, and what a result
  relies on of them is a hypothesis that it names.  A system that makes such calls is put
  together with its connections: a call can return only what the package lets it return,
  and any other connection drifts, as its peer, the network and the reads and replies of
  its session will have it.
-/
import Mathlib.Tactic.Choose
import Nuvonode.Foundation.Machine
import Nuvonode.Ws.Hub

set_option autoImplicit false

namespace Nuvonode.Ws

open Nuvonode.Foundation

/-! ## The package -/

/-- The connections of a websocket package. -/
structure Sockets where
  /-- The states of a connection. -/
  Conn : Type
  /-- Whether the connection to the peer is up. -/
  Connected : Conn → Prop
  drift : Conn → Conn → Prop
  /-- A connection that nobody uses comes to some state. -/
  exists_drift : ∀ c, ∃ c', drift c c'
  /-- `Conn.Close`. -/
  close : Conn → Conn → Prop
  /-- `Conn.WriteJSON` returns, with the text of an error where it fails. -/
  writeJSON : Conn → Option String → Conn → Prop

namespace Sockets

/-- What the hub relies on: `Close` takes a connection down, one that is down stays down,
and a write to one that is down is an error. -/
structure Lawful (S : Sockets) : Prop where
  close : ∀ c c', S.close c c' → ¬ S.Connected c'
  drift : ∀ c c', S.drift c c' → S.Connected c' → S.Connected c
  write : ∀ c refusal c', S.writeJSON c refusal c' → S.Connected c' → S.Connected c
  written : ∀ c c', S.writeJSON c none c' → S.Connected c

/-- Every call of `WriteJSON` returns, with or without an error; no deadline makes it. -/
def Returns (S : Sockets) : Prop := ∀ c, ∃ refusal c', S.writeJSON c refusal c'

end Sockets

/-! ## The calls -/

/-- A call of the package. -/
inductive SocketCall where
  /-- A connection comes to a session. -/
  | upgrade (conn : ConnID)
  | close (conn : ConnID)
  | writeJSON (conn : ConnID) (refusal : Option String)
  deriving DecidableEq

/-- The connection that a call is about. -/
def SocketCall.conn : SocketCall → ConnID
  | .upgrade conn => conn
  | .close conn => conn
  | .writeJSON conn _ => conn

/-- The call that an event of the network makes. -/
def Network.socketCall (n : Network) : NetworkEvent → Option SocketCall
  | .accept conn _ _ => some (.upgrade conn)
  | .disconnect providerPublicID =>
      (n.hub.providers providerPublicID).map fun provider => .close provider.conn
  | .write id refusal => do
      let dispatch ← n.dispatch id
      match dispatch.phase with
      | .opened conn => some (.writeJSON conn refusal)
      | _ => none
  | _ => none

theorem Network.socketCall_write {n : Network} {id : DispatchID} {dispatch : Dispatch}
    {conn : ConnID} {refusal : Option String} (hdispatch : n.dispatch id = some dispatch)
    (hphase : dispatch.phase = .opened conn) :
    n.socketCall (.write id refusal) = some (.writeJSON conn refusal) := by
  simp only [socketCall, hdispatch, hphase, bind, Option.bind_some]

/-! ## A system with its connections -/

namespace Sockets

variable {S : Sockets} {σ ε : Type}

/-- What becomes of a connection while a call is made. -/
inductive Becomes (S : Sockets) (conn : ConnID) : Option SocketCall → S.Conn → S.Conn → Prop where
  | upgrade {c c' : S.Conn} : S.Becomes conn (some (.upgrade conn)) c c'
  | close {c c' : S.Conn} : S.close c c' → S.Becomes conn (some (.close conn)) c c'
  | write {c c' : S.Conn} {refusal : Option String} : S.writeJSON c refusal c' →
      S.Becomes conn (some (.writeJSON conn refusal)) c c'
  | drift {call : Option SocketCall} {c c' : S.Conn} : (∀ own ∈ call, own.conn ≠ conn) →
      S.drift c c' → S.Becomes conn call c c'

/-- A state of a system, and the states of its connections. -/
structure Plugged (S : Sockets) (σ : Type) where
  system : σ
  conns : ConnID → S.Conn

/-- The system with its connections; `call` says what an event calls. -/
def plug (S : Sockets) (M : Machine σ ε) (call : σ → ε → Option SocketCall) :
    Machine (Plugged S σ) ε where
  start a := M.start a.system
  step a e b := M.step a.system e b.system ∧
    ∀ conn, S.Becomes conn (call a.system e) (a.conns conn) (b.conns conn)

variable {M : Machine σ ε} {call : σ → ε → Option SocketCall}
  {guard : Plugged S σ → ε → Plugged S σ → Prop} {a b : Plugged S σ} {es : List ε}

/-- A run with connections is a run of the system. -/
theorem steps_system {guard' : σ → ε → σ → Prop}
    (hguard : ∀ a e b, guard a e b → guard' a.system e b.system)
    (h : (S.plug M call).Steps guard a es b) : M.Steps guard' a.system es b.system := by
  induction h with
  | refl => exact .refl
  | snoc _ hstep hmet ih => exact .snoc ih hstep.1 (hguard _ _ _ hmet)

theorem reaches_system {guard' : σ → ε → σ → Prop}
    (hguard : ∀ a e b, guard a e b → guard' a.system e b.system)
    (h : (S.plug M call).Reaches guard es a) : M.Reaches guard' es a.system := by
  obtain ⟨a₀, hstart, hsteps⟩ := h
  exact ⟨a₀.system, hstart, steps_system hguard hsteps⟩

/-- A connection goes up only where it comes to a session. -/
theorem Lawful.connected_before (hS : S.Lawful) {conn : ConnID} {call : Option SocketCall}
    {c c' : S.Conn} (h : S.Becomes conn call c c') (hconnected : S.Connected c') :
    S.Connected c ∨ call = some (.upgrade conn) := by
  cases h with
  | upgrade => exact .inr rfl
  | close hclose => exact absurd hconnected (hS.close c c' hclose)
  | write hwrite => exact .inl (hS.write c _ c' hwrite hconnected)
  | drift _ hdrift => exact .inl (hS.drift c c' hdrift hconnected)

/-- A connection that is closed is down. -/
theorem Lawful.down_of_close (hS : S.Lawful) {conn : ConnID} {c c' : S.Conn}
    (h : S.Becomes conn (some (.close conn)) c c') : ¬ S.Connected c' := by
  cases h with
  | close hclose => exact hS.close c c' hclose
  | drift hother _ => exact absurd rfl (hother _ rfl)

/-- What is written goes to a connection that is up. -/
theorem Lawful.up_of_written (hS : S.Lawful) {conn : ConnID} {c c' : S.Conn}
    (h : S.Becomes conn (some (.writeJSON conn none)) c c') : S.Connected c := by
  cases h with
  | write hwrite => exact hS.written c c' hwrite
  | drift hother _ => exact absurd rfl (hother _ rfl)

/-- Every connection comes to some state while nothing is called. -/
theorem exists_becomes (S : Sockets) (conns : ConnID → S.Conn) :
    ∃ conns' : ConnID → S.Conn, ∀ conn, S.Becomes conn none (conns conn) (conns' conn) := by
  choose c' hdrift using S.exists_drift
  exact ⟨fun conn => c' (conns conn), fun conn => .drift nofun (hdrift _)⟩

/-- Every connection comes to some state while a write returns. -/
theorem exists_becomes_write {conn : ConnID} {conns : ConnID → S.Conn} {refusal : Option String}
    {written : S.Conn} (hwrite : S.writeJSON (conns conn) refusal written) :
    ∃ conns' : ConnID → S.Conn, ∀ other,
      S.Becomes other (some (.writeJSON conn refusal)) (conns other) (conns' other) := by
  choose c' hdrift using S.exists_drift
  refine ⟨Function.update (fun other => c' (conns other)) conn written, fun other => ?_⟩
  by_cases hother : other = conn
  · subst hother
    rw [Function.update_self]
    exact .write hwrite
  · rw [Function.update_of_ne hother]
    refine .drift (fun own hown => ?_) (hdrift _)
    cases hown
    exact fun heq => hother heq.symm

end Sockets

/-! ## A sample package -/

/-- Connections that are open or not: `Close` closes one, and a write succeeds or fails on an
open one and fails on one that is not. -/
abbrev sampleSockets : Sockets where
  Conn := Bool
  Connected c := c = true
  drift c c' := c' = true → c = true
  exists_drift c := ⟨c, id⟩
  close _ c' := c' = false
  writeJSON c refusal c' := (c' = true → c = true) ∧ (refusal = none → c = true)

theorem lawful_sampleSockets : sampleSockets.Lawful where
  close _ _ hclose := Bool.eq_false_iff.mp hclose
  drift _ _ hdrift := hdrift
  write _ _ _ hwrite := hwrite.1
  written _ _ hwrite := hwrite.2 rfl

theorem returns_sampleSockets : sampleSockets.Returns := fun c =>
  ⟨some "write: broken pipe", c, id, nofun⟩

section Sample

variable {σ ε : Type} {start : σ → Prop} {next : σ → ε → Option σ}
  {call : σ → ε → Option SocketCall}

/-- A system with these connections, where only `Close` closes one. -/
def nextPlugged (next : σ → ε → Option σ) (call : σ → ε → Option SocketCall)
    (a : sampleSockets.Plugged σ) (e : ε) : Option (sampleSockets.Plugged σ) :=
  let after (conns : ConnID → Bool) : Option (sampleSockets.Plugged σ) :=
    (next a.system e).map fun system => { system, conns }
  match call a.system e with
  | some (.close conn) => after (Function.update a.conns conn false)
  | some (.writeJSON conn none) => if a.conns conn = true then after a.conns else none
  | _ => after a.conns

/-- Each of its steps is one that the connections allow. -/
theorem step_of_nextPlugged {a b : sampleSockets.Plugged σ} {e : ε}
    (h : nextPlugged next call a e = some b) :
    (sampleSockets.plug (Machine.ofNext start next) call).step a e b := by
  have hstays : ∀ conn, (∀ own ∈ call a.system e, own.conn ≠ conn) →
      sampleSockets.Becomes conn (call a.system e) (a.conns conn) (a.conns conn) :=
    fun conn hother => .drift hother id
  have hother : ∀ {made : SocketCall} {conn : ConnID}, call a.system e = some made →
      made.conn ≠ conn → ∀ own ∈ call a.system e, own.conn ≠ conn := by
    intro made conn hcall hne own hown
    obtain rfl := Option.some.inj (hcall.symm.trans hown)
    exact hne
  unfold nextPlugged at h
  simp only at h
  split at h
  · rename_i closed hcall
    obtain ⟨s, hnext, rfl⟩ := Option.map_eq_some_iff.mp h
    refine ⟨hnext, fun conn => ?_⟩
    by_cases hconn : closed = conn
    · subst hconn
      rw [hcall]
      have hdown : Function.update a.conns closed false closed = false :=
        Function.update_self _ _ _
      exact .close hdown
    · have hkept : Function.update a.conns closed false conn = a.conns conn :=
        Function.update_of_ne (Ne.symm hconn) _ _
      exact hkept.symm ▸ hstays conn (hother hcall hconn)
  · rename_i written hcall
    split at h
    · rename_i hopen
      obtain ⟨s, hnext, rfl⟩ := Option.map_eq_some_iff.mp h
      refine ⟨hnext, fun conn => ?_⟩
      by_cases hconn : written = conn
      · subst hconn
        rw [hcall]
        exact .write ⟨id, fun _ => hopen⟩
      · exact hstays conn (hother hcall hconn)
    · cases h
  · rename_i hclose hwritten
    obtain ⟨s, hnext, rfl⟩ := Option.map_eq_some_iff.mp h
    refine ⟨hnext, fun conn => ?_⟩
    cases hcall : call a.system e with
    | none => exact .drift nofun id
    | some own =>
        by_cases hconn : own.conn = conn
        · subst hconn
          cases own with
          | upgrade _ => exact .upgrade
          | close other => exact absurd hcall (hclose other)
          | writeJSON other refusal =>
              cases refusal with
              | none => exact absurd hcall (hwritten other)
              | some text => exact .write ⟨id, nofun⟩
        · exact hcall ▸ hstays conn (hother hcall hconn)

/-- A checked run of it is a run with the connections. -/
theorem steps_of_plugged
    {check : sampleSockets.Plugged σ → ε → sampleSockets.Plugged σ → Bool}
    {guard : sampleSockets.Plugged σ → ε → sampleSockets.Plugged σ → Prop}
    (hguard : ∀ a e b, check a e b = true → guard a e b) {a : sampleSockets.Plugged σ}
    {es : List ε} (h : (Machine.exec (nextPlugged next call) check a es).isSome) :
    (sampleSockets.plug (Machine.ofNext start next) call).Steps guard a es
      ((Machine.exec (nextPlugged next call) check a es).getD a) := by
  have hsteps : (Machine.ofNext (fun _ => True) (nextPlugged next call)).Steps guard a es _ :=
    Machine.steps_of_isSome hguard h
  exact hsteps.of_step fun _ _ _ => step_of_nextPlugged

end Sample

end Nuvonode.Ws
