/-
  Contract/Frames.lean --- when two writes to a connection overlap.

  Two requests never do, as both are written under the connection's `writeMu`.  A reply of
  the session is not, so it overlaps with a request exactly when it begins while the lock
  is held, or a dispatch takes the lock while the reply is being written.
-/
import Nuvonode.Ws.Writes

set_option autoImplicit false

namespace Nuvonode.Contract

open Nuvonode.Foundation Nuvonode.Database Nuvonode.Ws

/-- Who writes to a connection. -/
inductive Writer where
  | session
  | dispatch (id : DispatchID)
  deriving DecidableEq

/-- A write of this writer is in progress. -/
def Writes (w : Wire) (conn : ConnID) : Writer → Prop
  | .session => w.reply conn = .writing
  | .dispatch id => w.writing id = some conn

/-- No two writes are in progress on one connection. -/
def OneWriter (w : Wire) : Prop :=
  ∀ conn a b, Writes w conn a → Writes w conn b → a = b

/-- The guard: a session begins a reply only while the connection's `writeMu` is free, and
a dispatch takes it only while the session does not write. -/
def TakesTurns (w : Wire) (e : WireEvent) (_ : Wire) : Prop :=
  match e with
  | .beginReply conn => w.writeMu conn = false
  | .beginWrite id => ∀ dispatch ∈ w.network.dispatch id, ∀ conn ∈ dispatch.phase.target,
      w.reply conn ≠ .writing
  | _ => True

/-- While a session writes, the lock of its connection is free. -/
def Unlocked (w : Wire) : Prop :=
  ∀ conn, w.reply conn = .writing → w.writeMu conn = false

section Turns

variable {w w' : Wire} {e : WireEvent}

theorem OneWriter.of_unlocked (hlocked : Locked w) (h : Unlocked w) : OneWriter w := by
  -- A dispatch that writes holds the lock, and then the session does not write.
  have hapart : ∀ conn id, w.reply conn = .writing → w.writing id ≠ some conn := by
    intro conn id hreply hwriting
    have hfree := h conn hreply
    rw [hlocked.held id conn hwriting] at hfree
    cases hfree
  intro conn a b ha hb
  cases a with
  | session =>
      cases b with
      | session => rfl
      | dispatch id => exact absurd hb (hapart conn id ha)
  | dispatch id =>
      cases b with
      | session => exact absurd ha (hapart conn id hb)
      | dispatch id' => rw [hlocked.alone id id' conn ha hb]

theorem Unlocked.step (h : Unlocked w) (hstep : w.Step e w') (hguard : TakesTurns w e w') :
    Unlocked w' := by
  intro conn hreply
  cases hstep with
  | network _ _ =>
      rw [Wire.writeMu_carry]
      exact h conn (Wire.reply_carry hreply)
  | refuse _ | endReply _ =>
      rw [Wire.reply_setReply] at hreply
      split at hreply
      · cases hreply
      · exact h conn hreply
  | beginReply _ =>
      rw [Wire.reply_setReply] at hreply
      split at hreply
      · rename_i heq
        rw [heq]
        exact hguard
      · exact h conn hreply
  | @beginWrite id dispatch locked hdispatch hphase _ _ =>
      have hfree : conn ≠ locked := by
        rintro rfl
        exact hguard dispatch hdispatch conn (by rw [hphase]; rfl) hreply
      rw [Wire.writeMu_lock, if_neg hfree]
      exact h conn hreply
  | endWrite _ _ =>
      rw [Wire.writeMu_unlock]
      split
      · rfl
      · exact h conn hreply

/-- A step that does not take its turn makes two writes overlap. -/
theorem overlap_of_not_takesTurns (hlocked : Locked w) (hstep : w.Step e w')
    (hguard : ¬ TakesTurns w e w') : ¬ OneWriter w' := by
  cases hstep with
  | @beginReply conn _ =>
      obtain ⟨id, hwriting⟩ := hlocked.holder conn (by simpa [TakesTurns] using hguard)
      intro hone
      have hsession : Writes (w.setReply conn .writing) conn .session := by
        rw [Writes, Wire.reply_setReply, if_pos rfl]
      cases hone conn .session (.dispatch id) hsession hwriting
  | @beginWrite id dispatch conn hdispatch hphase _ _ =>
      have hreply : w.reply conn = .writing := by
        by_contra hne
        refine hguard fun dispatch' hdispatch' conn' hconn => ?_
        obtain rfl := Option.some.inj (hdispatch.symm.trans hdispatch')
        rw [hphase] at hconn
        obtain rfl := Option.some.inj hconn
        exact hne
      intro hone
      have hwriting : Writes (w.lock id conn) conn (.dispatch id) := by
        rw [Writes, Wire.writing_lock, if_pos rfl]
      cases hone conn .session (.dispatch id) hreply hwriting
  | _ => exact absurd trivial hguard

end Turns

/-- In every run in which sessions begin their replies only while `writeMu` is free, and
dispatches take it only while the session does not write, no two writes are in progress on
one connection; and a step that does not keep to this makes two of them overlap at once. -/
theorem writes_do_not_interleave {es : List WireEvent} {w : Wire}
    (hreach : wireMachine.Reaches TakesTurns es w) :
    OneWriter w ∧ ∀ e w', w.next e = some w' → ¬ TakesTurns w e w' → ¬ OneWriter w' := by
  have hlocked := locked_of_reaches hreach
  have hunlocked : Unlocked w := by
    refine hreach.invariant Unlocked ?_ fun _ _ _ hfree hnext hguard =>
      hfree.step (Wire.step_of_next hnext) hguard
    rintro w rfl
    exact fun _ => nofun
  exact ⟨.of_unlocked hlocked hunlocked, fun e w' hnext hguard =>
    overlap_of_not_takesTurns hlocked (Wire.step_of_next hnext) hguard⟩

/-! ## Sample runs -/

/-- A provider registers and says hello, and a request finds its connection. -/
def greetedEvents : List WireEvent :=
  [.network (.accept 0 5 "prv_b"), .network (.register 0),
    .network (.dispatch 0 "prv_b"
      ⟨"job_a", "llama", "ollama", "llama3:8b", [⟨"user", "hello"⟩], none, 50, 120⟩),
    .network (.lookup 0), .network (.openJob 0), .network (.hello 0 (some 24))]

instance (w : Wire) (e : WireEvent) (w' : Wire) : Decidable (TakesTurns w e w') :=
  match e with
  | .beginReply conn => inferInstanceAs (Decidable (w.writeMu conn = false))
  | .beginWrite id => inferInstanceAs (Decidable (∀ dispatch ∈ w.network.dispatch id,
      ∀ conn ∈ dispatch.phase.target, w.reply conn ≠ .writing))
  | .network _ => isTrue trivial
  | .refuse _ => isTrue trivial
  | .endReply _ => isTrue trivial
  | .endWrite .. => isTrue trivial

/-- The request is written after the acknowledgement of the hello. -/
theorem acknowledgement_then_request :
    ∃ w, wireMachine.Reaches TakesTurns
        (greetedEvents ++ [.beginReply 0, .endReply 0, .beginWrite 0]) w ∧ OneWriter w := by
  have hrun : (Machine.exec Wire.next (fun w e w' => decide (TakesTurns w e w')) .start
      (greetedEvents ++ [.beginReply 0, .endReply 0, .beginWrite 0])).isSome := by
    decide +kernel
  have hstart : wireMachine.start .start := rfl
  have hreach : wireMachine.Reaches TakesTurns _ _ :=
    Machine.reaches_of_exec (fun _ _ _ hcheck => of_decide_eq_true hcheck) hstart hrun
  exact ⟨_, hreach, (writes_do_not_interleave hreach).1⟩

/-- The request is written while the hello is being acknowledged. -/
theorem request_interleaves_acknowledgement :
    ∃ es w, wireMachine.Reaches Machine.anyStep es w ∧ ¬ OneWriter w := by
  have hrun : (Machine.exec Wire.next (fun _ _ _ => true) .start
      (greetedEvents ++ [.beginReply 0, .beginWrite 0])).isSome := by decide +kernel
  have hstart : wireMachine.start .start := rfl
  have hreach : wireMachine.Reaches Machine.anyStep _ _ :=
    Machine.reaches_of_exec (fun _ _ _ _ => trivial) hstart hrun
  refine ⟨_, _, hreach, fun hone => ?_⟩
  have hsame := hone 0 .session (.dispatch 0) (by
    rw [Writes]
    decide +kernel) (by
    rw [Writes]
    decide +kernel)
  cases hsame

end Nuvonode.Contract
