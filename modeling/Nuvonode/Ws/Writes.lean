/-
  Ws/Writes.lean --- who writes to a connection, and when.

  A connection has two kinds of writers.  `Dispatch` holds the connection's `writeMu`
  while it writes a request; the session answers a hello, and every frame it refuses,
  without it.  Each write has a beginning and an end here, so that two of them can
  overlap.  Everything else is the network's.
-/
import Nuvonode.Ws.Network

set_option autoImplicit false

namespace Nuvonode.Ws

open Nuvonode.Foundation Nuvonode.Database

/-- Where a session is with its answer to a frame. -/
inductive Reply where
  /-- It has none to give. -/
  | idle
  /-- It has handled the frame. -/
  | due
  /-- It writes. -/
  | writing
  deriving DecidableEq

structure Wire where
  network : Network
  /-- Whether the `writeMu` of a connection is held. -/
  writeMu : ConnID → Bool
  /-- The connection that a dispatch writes to. -/
  writing : DispatchID → Option ConnID
  reply : ConnID → Reply

inductive WireEvent where
  /-- Anything of the network but a write. -/
  | network (e : NetworkEvent)
  /-- The session refuses a frame. -/
  | refuse (conn : ConnID)
  | beginReply (conn : ConnID)
  | endReply (conn : ConnID)
  /-- `Dispatch` takes `writeMu` and begins to write. -/
  | beginWrite (id : DispatchID)
  /-- It has written, or was refused with a text, and gives `writeMu` back. -/
  | endWrite (id : DispatchID) (refusal : Option String)
  deriving DecidableEq

/-- The session that does this. -/
def NetworkEvent.actor : NetworkEvent → Option ConnID
  | .accept conn _ _ => some conn
  | .register conn => some conn
  | .hello conn _ => some conn
  | .complete conn _ => some conn
  | .send conn => some conn
  | .drop conn => some conn
  | .unregister conn => some conn
  | _ => none

/-- The write of a request. -/
def NetworkEvent.isWrite : NetworkEvent → Bool
  | .write .. => true
  | _ => false

/-- The connection that a dispatch is about to write to. -/
def DispatchPhase.target : DispatchPhase → Option ConnID
  | .opened conn => some conn
  | _ => none

namespace Wire

def start : Wire where
  network := .start
  writeMu := fun _ => false
  writing := fun _ => none
  reply := fun _ => .idle

/-- The session has nothing to answer before it does this. -/
def free (w : Wire) (e : NetworkEvent) : Bool :=
  match e.actor with
  | none => true
  | some conn => w.reply conn == .idle

/-- The session has this to do about its answer. -/
def setReply (w : Wire) (conn : ConnID) (reply : Reply) : Wire :=
  { w with reply := Function.update w.reply conn reply }

/-- The wire after an event of the network: a hello is answered, whatever came of it. -/
def carry (w : Wire) (e : NetworkEvent) (network : Network) : Wire :=
  match e with
  | .hello conn _ => { w with network }.setReply conn .due
  | _ => { w with network }

/-- A dispatch takes `writeMu` to write. -/
def lock (w : Wire) (id : DispatchID) (conn : ConnID) : Wire :=
  { w with
    writeMu := Function.update w.writeMu conn true
    writing := Function.update w.writing id (some conn) }

/-- A dispatch has written, and gives `writeMu` back. -/
def unlock (w : Wire) (id : DispatchID) (conn : ConnID) (network : Network) : Wire :=
  { w with
    network
    writeMu := Function.update w.writeMu conn false
    writing := Function.update w.writing id none }

/-- What an event does; `none` where it cannot happen. -/
def next (w : Wire) : WireEvent → Option Wire
  | .network e =>
      if e.isWrite || !w.free e then none else (w.network.next e).map (w.carry e)
  | .refuse conn => do
      let session ← w.network.session conn
      match session.phase, w.reply conn with
      | .reading, .idle => some (w.setReply conn .due)
      | _, _ => none
  | .beginReply conn =>
      match w.reply conn with
      | .due => some (w.setReply conn .writing)
      | _ => none
  | .endReply conn =>
      match w.reply conn with
      | .writing => some (w.setReply conn .idle)
      | _ => none
  | .beginWrite id => do
      let dispatch ← w.network.dispatch id
      match dispatch.phase, w.writing id with
      | .opened conn, none => if w.writeMu conn then none else some (w.lock id conn)
      | _, _ => none
  | .endWrite id refusal => do
      let conn ← w.writing id
      let network ← w.network.next (.write id refusal)
      return w.unlock id conn network

end Wire

/-- The wire, with nothing written at first. -/
abbrev wireMachine : Machine Wire WireEvent :=
  Machine.ofNext (fun w => w = .start) Wire.next

/-- One step of the wire. -/
inductive Wire.Step (w : Wire) : WireEvent → Wire → Prop where
  | network {e : NetworkEvent} {network : Network} : e.isWrite = false →
      w.network.next e = some network → w.Step (.network e) (w.carry e network)
  | refuse {conn : ConnID} : w.reply conn = .idle → w.Step (.refuse conn) (w.setReply conn .due)
  | beginReply {conn : ConnID} : w.reply conn = .due →
      w.Step (.beginReply conn) (w.setReply conn .writing)
  | endReply {conn : ConnID} : w.reply conn = .writing →
      w.Step (.endReply conn) (w.setReply conn .idle)
  | beginWrite {id : DispatchID} {dispatch : Dispatch} {conn : ConnID} :
      w.network.dispatch id = some dispatch → dispatch.phase = .opened conn →
      w.writing id = none → w.writeMu conn = false → w.Step (.beginWrite id) (w.lock id conn)
  | endWrite {id : DispatchID} {refusal : Option String} {conn : ConnID} {network : Network} :
      w.writing id = some conn → w.network.next (.write id refusal) = some network →
      w.Step (.endWrite id refusal) (w.unlock id conn network)

section Steps

variable {w w' : Wire} {e : WireEvent}

theorem Wire.step_of_next (h : w.next e = some w') : w.Step e w' := by
  cases e with
  | network e =>
      simp only [next] at h
      split at h
      · cases h
      · rename_i hlocal
        obtain ⟨network, hnext, rfl⟩ := Option.map_eq_some_iff.mp h
        have hboth : e.isWrite = false ∧ w.free e = true := by simpa using hlocal
        exact .network hboth.1 hnext
  | refuse conn =>
      obtain ⟨session, -, h⟩ := Option.bind_eq_some_iff.mp h
      split at h
      · cases h
        exact .refuse ‹_›
      · cases h
  | beginReply conn =>
      simp only [next] at h
      split at h <;> cases h
      exact .beginReply ‹_›
  | endReply conn =>
      simp only [next] at h
      split at h <;> cases h
      exact .endReply ‹_›
  | beginWrite id =>
      obtain ⟨dispatch, hdispatch, h⟩ := Option.bind_eq_some_iff.mp h
      split at h
      · rename_i conn hphase hnone
        split at h
        · cases h
        · rename_i hfree
          cases h
          exact .beginWrite hdispatch hphase hnone (Bool.not_eq_true _ ▸ hfree)
      · cases h
  | endWrite id refusal =>
      obtain ⟨conn, hwriting, h⟩ := Option.bind_eq_some_iff.mp h
      obtain ⟨network, hnext, h⟩ := Option.bind_eq_some_iff.mp h
      cases h
      exact .endWrite hwriting hnext

@[simp] theorem Wire.network_carry (e : NetworkEvent) (network : Network) :
    (w.carry e network).network = network := by
  cases e <;> rfl

@[simp] theorem Wire.writeMu_carry (e : NetworkEvent) (network : Network) :
    (w.carry e network).writeMu = w.writeMu := by
  cases e <;> rfl

@[simp] theorem Wire.writing_carry (e : NetworkEvent) (network : Network) :
    (w.carry e network).writing = w.writing := by
  cases e <;> rfl

/-- What a session has to answer; it writes only once it has begun to. -/
theorem Wire.reply_carry {e : NetworkEvent} {network : Network} {conn : ConnID}
    (h : (w.carry e network).reply conn = .writing) : w.reply conn = .writing := by
  cases e with
  | hello other instanceID =>
      simp only [carry, setReply, Function.update_apply] at h
      split at h
      · cases h
      · exact h
  | _ => exact h

@[simp] theorem Wire.reply_setReply (conn other : ConnID) (reply : Reply) :
    (w.setReply conn reply).reply other = if other = conn then reply else w.reply other := by
  simp [setReply, Function.update_apply]

@[simp] theorem Wire.writeMu_lock (id : DispatchID) (conn other : ConnID) :
    (w.lock id conn).writeMu other = if other = conn then true else w.writeMu other := by
  simp [lock, Function.update_apply]

@[simp] theorem Wire.writing_lock (id other : DispatchID) (conn : ConnID) :
    (w.lock id conn).writing other = if other = id then some conn else w.writing other := by
  simp [lock, Function.update_apply]

@[simp] theorem Wire.writeMu_unlock (id : DispatchID) (conn other : ConnID) (network : Network) :
    (w.unlock id conn network).writeMu other =
      if other = conn then false else w.writeMu other := by
  simp [unlock, Function.update_apply]

@[simp] theorem Wire.writing_unlock (id other : DispatchID) (conn : ConnID) (network : Network) :
    (w.unlock id conn network).writing other = if other = id then none else w.writing other := by
  simp [unlock, Function.update_apply]

/-- The network of a wire is one that the network reaches by itself. -/
theorem network_reaches_of_wire {guard : Wire → WireEvent → Wire → Prop} {es : List WireEvent}
    (h : wireMachine.Reaches guard es w) :
    ∃ es', networkMachine.Reaches Machine.anyStep es' w.network := by
  refine h.project Wire.network ?_ fun a e b hwire _ => ?_
  · rintro w rfl
    exact rfl
  · cases Wire.step_of_next hwire with
    | network _ hnetwork =>
        rw [Wire.network_carry]
        exact .inr ⟨_, hnetwork, trivial⟩
    | endWrite _ hnetwork => exact .inr ⟨_, hnetwork, trivial⟩
    | _ => exact .inl rfl

end Steps

/-! ## The lock -/

/-- `writeMu` is held by exactly one dispatch, or free. -/
structure Locked (w : Wire) : Prop where
  held : ∀ id conn, w.writing id = some conn → w.writeMu conn = true
  holder : ∀ conn, w.writeMu conn = true → ∃ id, w.writing id = some conn
  alone : ∀ id id' conn, w.writing id = some conn → w.writing id' = some conn → id = id'

theorem Locked.step {w w' : Wire} {e : WireEvent} (h : Locked w) (hstep : w.Step e w') :
    Locked w' := by
  cases hstep with
  | network _ _ =>
      refine ⟨?_, ?_, ?_⟩
      · rw [Wire.writing_carry, Wire.writeMu_carry]
        exact h.held
      · rw [Wire.writing_carry, Wire.writeMu_carry]
        exact h.holder
      · rw [Wire.writing_carry]
        exact h.alone
  | refuse _ | beginReply _ | endReply _ => exact ⟨h.held, h.holder, h.alone⟩
  | @beginWrite id dispatch conn _ _ hnone hfree =>
      -- No dispatch wrote to the connection, as its lock was free.
      have hother : ∀ other, w.writing other ≠ some conn := by
        intro other hwriting
        rw [h.held other conn hwriting] at hfree
        cases hfree
      refine ⟨fun id' conn' hwriting => ?_, fun conn' hheld => ?_,
        fun id₁ id₂ conn' hwriting₁ hwriting₂ => ?_⟩
      · rw [Wire.writing_lock] at hwriting
        rw [Wire.writeMu_lock]
        split at hwriting
        · cases hwriting
          exact if_pos rfl
        · split
          · rfl
          · exact h.held id' conn' hwriting
      · rw [Wire.writeMu_lock] at hheld
        split at hheld
        · rename_i heq
          exact ⟨id, by rw [Wire.writing_lock, if_pos rfl, heq]⟩
        · obtain ⟨id', hwriting⟩ := h.holder conn' hheld
          refine ⟨id', ?_⟩
          rw [Wire.writing_lock, if_neg, hwriting]
          rintro rfl
          rw [hnone] at hwriting
          cases hwriting
      · rw [Wire.writing_lock] at hwriting₁ hwriting₂
        split at hwriting₁
        · rename_i heq₁
          split at hwriting₂
          · rename_i heq₂
            rw [heq₁, heq₂]
          · cases hwriting₁
            exact absurd hwriting₂ (hother id₂)
        · split at hwriting₂
          · cases hwriting₂
            exact absurd hwriting₁ (hother id₁)
          · exact h.alone id₁ id₂ conn' hwriting₁ hwriting₂
  | @endWrite id refusal conn network hwriting _ =>
      refine ⟨fun id' conn' hwriting' => ?_, fun conn' hheld => ?_,
        fun id₁ id₂ conn' hwriting₁ hwriting₂ => ?_⟩
      · rw [Wire.writing_unlock] at hwriting'
        split at hwriting'
        · cases hwriting'
        · rename_i hne
          rw [Wire.writeMu_unlock, if_neg, h.held id' conn' hwriting']
          rintro rfl
          exact hne (h.alone id' id conn' hwriting' hwriting)
      · rw [Wire.writeMu_unlock] at hheld
        split at hheld
        · cases hheld
        · rename_i hne
          obtain ⟨id', hwriting'⟩ := h.holder conn' hheld
          refine ⟨id', ?_⟩
          rw [Wire.writing_unlock, if_neg, hwriting']
          rintro rfl
          exact hne (Option.some.inj (hwriting'.symm.trans hwriting))
      · rw [Wire.writing_unlock] at hwriting₁ hwriting₂
        split at hwriting₁
        · cases hwriting₁
        · split at hwriting₂
          · cases hwriting₂
          · exact h.alone id₁ id₂ conn' hwriting₁ hwriting₂

theorem locked_of_reaches {guard : Wire → WireEvent → Wire → Prop} {es : List WireEvent}
    {w : Wire} (h : wireMachine.Reaches guard es w) : Locked w := by
  refine h.invariant Locked ?_ fun _ _ _ hlocked hnext _ =>
    hlocked.step (Wire.step_of_next hnext)
  rintro w rfl
  exact ⟨fun _ _ => nofun, fun _ => nofun, fun _ _ _ => nofun⟩

end Nuvonode.Ws
