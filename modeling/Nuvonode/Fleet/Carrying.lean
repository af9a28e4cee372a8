/-
  Fleet/Carrying.lean --- requests and answers on their way.

  A dispatch is written to one connection, and there it is in one place: in the queue to
  the node, or a call of the node.  Its answer is in the queue to the server or read, and
  never twice.  What the network has of an answer was read on the connection that the
  dispatch was written to.
-/
import Nuvonode.Contract.Answers
import Nuvonode.Contract.Connections
import Nuvonode.Contract.ReadLoops
import Nuvonode.Fleet.Answers

set_option autoImplicit false

namespace Nuvonode.Fleet

open Nuvonode.Foundation Nuvonode.Database Nuvonode.Service Nuvonode.Handler Nuvonode.Ws
  Nuvonode.Contract

/-! ## Where a dispatch is written to -/

/-- A dispatch aims at a session of the provider that it was called for. -/
def Aimed (n : Network) : Prop :=
  ∀ id dispatch conn, n.dispatch id = some dispatch → dispatch.Aims conn → Owned n conn id

section Aimed

variable {n n' : Network} {e : NetworkEvent}

theorem Aimed.step (h : Aimed n) (htracked : Tracked n) (hstep : n.Step e n') : Aimed n' := by
  intro id dispatch conn hdispatch haims
  rcases hstep.aims_before hdispatch haims with ⟨old, hold, haimed⟩ |
    ⟨-, old, provider, hold, hprovider, rfl⟩
  · exact (h id old conn hold haimed).step hstep
  · obtain ⟨-, hlatest, -⟩ := htracked.entry _ _ hprovider
    obtain ⟨session, hsession, hsame, -⟩ := htracked.latest _ _ hlatest
    exact Owned.step ⟨session, old, hsession, hold, hsame⟩ hstep

theorem aimed_of_reaches {guard : Network → NetworkEvent → Network → Prop}
    {es : List NetworkEvent} (h : networkMachine.Reaches guard es n) : Aimed n := by
  have hboth : Tracked n ∧ Aimed n := by
    refine h.invariant (fun n => Tracked n ∧ Aimed n) ?_ ?_
    · rintro n rfl
      exact ⟨.start, fun _ _ _ => nofun⟩
    · rintro a e b ⟨htracked, haimed⟩ hnext -
      have hstep := Network.step_of_next hnext
      exact ⟨htracked.step hstep, haimed.step htracked hstep⟩
  exact hboth.2

/-- What a dispatch has it had before, or a session sends it. -/
theorem has_of_moves {id : DispatchID} {old new : Dispatch} {delivery : Delivery}
    (h : old.Moves n id e new) (hhas : new.Has delivery) :
    old.Has delivery ∨ ∃ session, e = .send delivery.conn ∧
      n.session delivery.conn = some session ∧
      session.phase = .completing id delivery.frame := by
  cases h with
  | lookup hphase =>
      simp only [Dispatch.Has, Dispatch.goto, Network.route] at hhas
      split at hhas <;> exact .inl (.inl (by simpa using hhas))
  | openJob _ | refuse _ | write _ | timeout _ =>
      exact .inl (.inl (by simpa [Dispatch.Has, Dispatch.goto] using hhas))
  | receive hphase hbuffer =>
      simp only [Dispatch.Has, Dispatch.take, reduceCtorEq, DispatchPhase.finishing.injEq,
        Except.ok.injEq, false_or, or_false] at hhas
      exact .inl (.inl (hbuffer.trans (by rw [hhas])))
  | closeJob hphase =>
      simp only [Dispatch.Has, Dispatch.goto, DispatchPhase.returned.injEq, reduceCtorEq,
        false_or] at hhas
      exact .inl (hhas.imp_right fun hreturned => .inl (by rw [hphase, hreturned]))
  | fill hsession hphase hempty =>
      rcases hhas with hbuffer | hlate
      · cases hbuffer
        exact .inr ⟨_, rfl, hsession, hphase⟩
      · exact .inl (.inr hlate)

end Aimed

/-! ## One connection -/

variable {Time : Type} {time : TextForm Time} {float : TextForm FiniteFloat}

/-- A call for a dispatch that has returned with one envelope. -/
def Link.AnsweredBy (link : Link Time) (id : DispatchID)
    (envelope : Node.Envelope Time Node.Payload) : Prop :=
  ∃ call, (id, call) ∈ link.executions ∧ call.written = some [envelope]

/-- The dispatches that a connection has a request or a call for. -/
def Link.carried (link : Link Time) : List DispatchID :=
  link.requests.map Prod.fst ++ link.executions.map Prod.fst

/-- The dispatches that a connection has an answer for, or had one. -/
def Link.replies (link : Link Time) : List DispatchID :=
  link.frames.filterMap Prod.fst ++ link.answered

/-- The frame is the request of a dispatch. -/
def IsRequest (time : TextForm Time) (float : TextForm FiniteFloat) (n : Network) (id : DispatchID)
    (data : Json) : Prop :=
  ∃ dispatch now, n.dispatch id = some dispatch ∧
    data = Wire.dispatch time float now (wirePayload dispatch.payload)

/-- The call is for the request of a dispatch. -/
def RunsFor (float : TextForm FiniteFloat) (n : Network) (id : DispatchID)
    (call : Node.Execution Time FiniteFloat) : Prop :=
  ∃ dispatch, n.dispatch id = some dispatch ∧
    Follows float (requestData float dispatch.payload) call

/-- What is on a connection and in its node. -/
structure Link.Carries (time : TextForm Time) (float : TextForm FiniteFloat) (n : Network)
    (sent : DispatchID → Option ConnID) (conn : ConnID) (link : Link Time) : Prop where
  sent : ∀ id ∈ link.carried, sent id = some conn
  requests : ∀ id data, (id, data) ∈ link.requests → IsRequest time float n id data
  executions : ∀ id call, (id, call) ∈ link.executions → RunsFor float n id call
  once : link.carried.Nodup
  silent : ∀ data, (none, data) ∈ link.frames → Silent time data
  frames : ∀ id data, (some id, data) ∈ link.frames → ∃ envelope,
    link.AnsweredBy id envelope ∧ data = Node.writeJSON time envelope
  replies : ∀ id ∈ link.replies, ∃ envelope, link.AnsweredBy id envelope
  repliesOnce : link.replies.Nodup

namespace Link.Carries

variable {n n' : Network} {sent sent' : DispatchID → Option ConnID} {conn : ConnID}
  {link : Link Time} {id : DispatchID}

theorem fresh : (Link.fresh : Link Time).Carries time float n sent conn := by
  constructor <;> simp [Link.fresh, Link.carried, Link.replies]

/-- A connection is not affected by what happens elsewhere. -/
theorem mono (h : link.Carries time float n sent conn)
    (hsent : ∀ id ∈ link.carried, sent id = some conn → sent' id = some conn)
    (hdispatch : ∀ id dispatch, n.dispatch id = some dispatch →
      ∃ dispatch', n'.dispatch id = some dispatch' ∧ dispatch'.payload = dispatch.payload) :
    link.Carries time float n' sent' conn where
  sent id hid := hsent id hid (h.sent id hid)
  requests id data hmem := by
    obtain ⟨dispatch, now, hold, rfl⟩ := h.requests id data hmem
    obtain ⟨dispatch', hnew, hpayload⟩ := hdispatch id dispatch hold
    exact ⟨dispatch', now, hnew, by rw [hpayload]⟩
  executions id call hmem := by
    obtain ⟨dispatch, hold, hfollows⟩ := h.executions id call hmem
    obtain ⟨dispatch', hnew, hpayload⟩ := hdispatch id dispatch hold
    exact ⟨dispatch', hnew, by rwa [hpayload]⟩
  once := h.once
  silent := h.silent
  frames := h.frames
  replies := h.replies
  repliesOnce := h.repliesOnce

/-- A request that is not on the connection yet. -/
theorem request (h : link.Carries time float n sent conn) {data : Json}
    (hsent : sent id = some conn) (hnew : id ∉ link.carried)
    (hrequest : IsRequest time float n id data) :
    (link.request id data).Carries time float n sent conn := by
  have hperm : (link.request id data).carried.Perm (id :: link.carried) := by
    simp only [Link.carried, Link.request, List.map_append, List.map_cons, List.map_nil,
      List.append_assoc, List.singleton_append]
    exact List.perm_middle
  refine { h with sent := ?_, requests := ?_, once := ?_ }
  · intro other hother
    rcases List.mem_cons.mp (hperm.mem_iff.mp hother) with rfl | hold
    · exact hsent
    · exact h.sent other hold
  · intro other data' hmem
    rcases List.mem_append.mp hmem with hold | hlast
    · exact h.requests other data' hold
    · obtain ⟨rfl, rfl⟩ := Prod.mk.inj (List.mem_singleton.mp hlast)
      exact hrequest
  · exact hperm.nodup_iff.mpr (List.nodup_cons.mpr ⟨hnew, h.once⟩)

/-- The node reads a request, and starts the call for it. -/
theorem start (h : link.Carries time float n sent conn) {data : Json}
    {rest : List (DispatchID × Json)} (hhead : link.requests = (id, data) :: rest) :
    (link.start rest (started time id data)).Carries time float n sent conn := by
  obtain ⟨dispatch, now, hdispatch, rfl⟩ :=
    h.requests id data (hhead ▸ List.mem_cons_self)
  rw [started_request]
  let call : Node.Execution Time FiniteFloat :=
    { payload := requestData float dispatch.payload, stage := .started }
  have hperm : (link.start rest [(id, call)]).carried.Perm link.carried := by
    simp only [Link.carried, Link.start, hhead, List.map_append, List.map_cons, List.map_nil,
      ← List.append_assoc, List.cons_append]
    exact List.perm_append_singleton _ _
  have hkept : ∀ other envelope, link.AnsweredBy other envelope →
      (link.start rest [(id, call)]).AnsweredBy other envelope := by
    rintro other envelope ⟨returned, hmem, hwritten⟩
    exact ⟨returned, List.mem_append_left _ hmem, hwritten⟩
  refine ⟨?_, ?_, ?_, ?_, h.silent, ?_, ?_, h.repliesOnce⟩
  · exact fun other hother => h.sent other (hperm.mem_iff.mp hother)
  · exact fun other data hmem => h.requests other data (hhead ▸ List.mem_cons_of_mem _ hmem)
  · intro other call hmem
    rcases List.mem_append.mp hmem with hold | hlast
    · exact h.executions other call hold
    · obtain ⟨rfl, rfl⟩ := Prod.mk.inj (List.mem_singleton.mp hlast)
      exact ⟨dispatch, hdispatch, follows_started⟩
  · exact hperm.nodup_iff.mpr h.once
  · intro other data hmem
    obtain ⟨envelope, hanswered, hdata⟩ := h.frames other data hmem
    exact ⟨envelope, hkept other envelope hanswered, hdata⟩
  · intro other hother
    obtain ⟨envelope, hanswered⟩ := h.replies other hother
    exact ⟨envelope, hkept other envelope hanswered⟩

/-- No other call than the one that moves changes. -/
theorem mem_put {call : Nat} {new execution : Node.Execution Time FiniteFloat} {other : DispatchID}
    (hmem : (other, execution) ∈ (link.put call id new).executions) :
    (other, execution) ∈ link.executions ∨ other = id ∧ execution = new := by
  rcases List.mem_or_eq_of_mem_set hmem with hkept | hnew
  · exact .inl hkept
  · exact .inr (Prod.mk.inj hnew)

theorem carried_put {call : Nat} {old new : Node.Execution Time FiniteFloat}
    (hold : link.executions[call]? = some (id, old)) :
    (link.put call id new).carried = link.carried := by
  have hsame : (link.executions.set call (id, new)).map Prod.fst =
      link.executions.map Prod.fst := by
    refine List.ext_getElem? fun i => ?_
    by_cases hi : call = i
    · subst hi
      obtain ⟨hlt, -⟩ := List.getElem?_eq_some_iff.mp hold
      rw [List.getElem?_map, List.getElem?_map, List.getElem?_set_self hlt, hold]
      rfl
    · rw [List.getElem?_map, List.getElem?_map, List.getElem?_set_ne hi]
  simp only [Link.carried, Link.put, hsame]

theorem answeredBy_put {call : Nat} {old new : Node.Execution Time FiniteFloat}
    (hold : link.executions[call]? = some (id, old)) (hsilent : old.written = none)
    {other : DispatchID} {envelope : Node.Envelope Time Node.Payload}
    (h : link.AnsweredBy other envelope) : (link.put call id new).AnsweredBy other envelope := by
  obtain ⟨execution, hmem, hwritten⟩ := h
  refine ⟨execution, ?_, hwritten⟩
  obtain ⟨i, hi⟩ := List.mem_iff_getElem?.mp hmem
  have hne : call ≠ i := by
    rintro rfl
    obtain ⟨-, rfl⟩ := Prod.mk.inj (Option.some.inj (hold.symm.trans hi))
    rw [hsilent] at hwritten
    cases hwritten
  refine List.mem_iff_getElem?.mpr ⟨i, ?_⟩
  rw [Link.put, List.getElem?_set_ne hne]
  exact hi

/-- A call for a request moves. -/
theorem put (h : link.Carries time float n sent conn) {call : Nat}
    {old new : Node.Execution Time FiniteFloat} (hold : link.executions[call]? = some (id, old))
    (hsilent : old.written = none)
    (hfollows : ∀ payload, Follows float payload old → Follows float payload new) :
    (link.put call id new).Carries time float n sent conn := by
  refine ⟨?_, h.requests, ?_, ?_, h.silent, ?_, ?_, h.repliesOnce⟩
  · exact fun other hother => h.sent other (carried_put hold ▸ hother)
  · intro other execution hmem
    rcases mem_put hmem with hkept | ⟨rfl, rfl⟩
    · exact h.executions other execution hkept
    · obtain ⟨dispatch, hdispatch, hruns⟩ :=
        h.executions other old (List.mem_of_getElem? hold)
      exact ⟨dispatch, hdispatch, hfollows _ hruns⟩
  · rw [carried_put hold]
    exact h.once
  · intro other data hmem
    obtain ⟨envelope, hanswered, hdata⟩ := h.frames other data hmem
    exact ⟨envelope, answeredBy_put hold hsilent hanswered, hdata⟩
  · intro other hother
    obtain ⟨envelope, hanswered⟩ := h.replies other hother
    exact ⟨envelope, answeredBy_put hold hsilent hanswered⟩

/-- The node writes of its own accord. -/
theorem announce (h : link.Carries time float n sent conn) {announcement : Announcement}
    {stamp : Node.Stamp Time} :
    (link.write none ((announcement.envelopes stamp).map (Node.writeJSON time))).Carries
      time float n sent conn := by
  have hreplies : (link.write none ((announcement.envelopes stamp).map
      (Node.writeJSON time))).replies = link.replies := by
    simp [Link.replies, Link.write, List.filterMap_append, Function.comp_def]
  refine ⟨h.sent, h.requests, h.executions, h.once, ?_, ?_, ?_, ?_⟩
  · intro data hmem
    rcases List.mem_append.mp hmem with hold | hnew
    · exact h.silent data hold
    · obtain ⟨_, hwritten, ⟨⟩⟩ := List.mem_map.mp hnew
      obtain ⟨envelope, henvelope, rfl⟩ := List.mem_map.mp hwritten
      exact silent_announcement henvelope
  · intro other data hmem
    rcases List.mem_append.mp hmem with hold | hnew
    · exact h.frames other data hold
    · obtain ⟨_, -, ⟨⟩⟩ := List.mem_map.mp hnew
  · exact fun other hother => h.replies other (hreplies ▸ hother)
  · rw [hreplies]
    exact h.repliesOnce

/-- A call writes its answer and returns. -/
theorem finish (h : link.Carries time float n sent conn) {call : Nat}
    {old new : Node.Execution Time FiniteFloat} {envelope : Node.Envelope Time Node.Payload}
    (hold : link.executions[call]? = some (id, old)) (hsilent : old.written = none)
    (hfollows : ∀ payload, Follows float payload old → Follows float payload new)
    (hwritten : new.written = some [envelope]) :
    ((link.put call id new).write (some id) [Node.writeJSON time envelope]).Carries
      time float n sent conn := by
  have hput := h.put hold hsilent hfollows
  have hmem : (id, new) ∈ (link.put call id new).executions :=
    List.mem_iff_getElem?.mpr ⟨call, List.getElem?_set_self (List.getElem?_eq_some_iff.mp hold).1⟩
  have hanswered : (link.put call id new).AnsweredBy id envelope := ⟨new, hmem, hwritten⟩
  -- The call is the only one for its dispatch, and it has not answered before.
  have hfirst : id ∉ link.replies := by
    intro hreply
    obtain ⟨other, execution, hexecution, hother⟩ := h.replies id hreply
    have hone : (link.executions.map Prod.fst).Nodup := h.once.of_append_right
    have hsame : execution = old := by
      obtain ⟨-, heq⟩ := Prod.mk.inj (List.inj_on_of_nodup_map hone hexecution
        (List.mem_of_getElem? hold) rfl)
      exact heq
    rw [hsame, hsilent] at hother
    cases hother
  have hperm : ((link.put call id new).write (some id)
      [Node.writeJSON time envelope]).replies.Perm (id :: link.replies) := by
    simp only [Link.replies, Link.write, Link.put, List.map_cons, List.map_nil,
      List.filterMap_append, List.filterMap_cons, List.filterMap_nil, List.append_assoc,
      List.singleton_append]
    exact List.perm_middle
  refine ⟨hput.sent, hput.requests, hput.executions, hput.once, ?_, ?_, ?_, ?_⟩
  · intro data hdata
    rcases List.mem_append.mp hdata with hkept | hnew
    · exact hput.silent data hkept
    · cases List.mem_singleton.mp hnew
  · intro other data hdata
    rcases List.mem_append.mp hdata with hkept | hnew
    · exact hput.frames other data hkept
    · cases List.mem_singleton.mp hnew
      exact ⟨envelope, hanswered, rfl⟩
  · intro other hother
    rcases List.mem_cons.mp (hperm.mem_iff.mp hother) with rfl | hkept
    · exact ⟨envelope, hanswered⟩
    · exact hput.replies other hkept
  · exact hperm.nodup_iff.mpr (List.nodup_cons.mpr ⟨hfirst, h.repliesOnce⟩)

/-- The server reads a frame. -/
theorem consume (h : link.Carries time float n sent conn) {ticket : Option DispatchID}
    {data : Json} {rest : List (Option DispatchID × Json)}
    (hhead : link.frames = (ticket, data) :: rest) :
    (link.consume ticket rest).Carries time float n sent conn := by
  have hperm : (link.consume ticket rest).replies.Perm link.replies := by
    simp only [Link.replies, Link.consume, hhead]
    cases ticket with
    | none => simp
    | some id =>
        simp only [Option.toList_some, List.filterMap_cons, List.cons_append,
          ← List.append_assoc]
        exact List.perm_append_singleton _ _
  have hrest : ∀ frame ∈ rest, frame ∈ link.frames :=
    fun frame hmem => hhead ▸ List.mem_cons_of_mem _ hmem
  exact ⟨h.sent, h.requests, h.executions, h.once, fun data hmem => h.silent data (hrest _ hmem),
    fun other data hmem => h.frames other data (hrest _ hmem),
    fun other hother => h.replies other (hperm.mem_iff.mp hother),
    hperm.nodup_iff.mpr h.repliesOnce⟩

end Link.Carries

end Nuvonode.Fleet
