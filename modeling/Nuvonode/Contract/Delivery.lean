/-
  Contract/Delivery.lean --- a dispatch returns the first answer that was sent to it.

  The network is run with a log of everything that `Complete` has sent.  Where no two
  dispatches have the same job, what a dispatch takes from its channel is the first entry
  of the log for its job; and as long as it waits, its channel is found.
-/
import Nuvonode.Contract.ReadLoops
import Nuvonode.Foundation.History

set_option autoImplicit false

namespace Nuvonode.Contract

open Nuvonode.Foundation Nuvonode.Database Nuvonode.Ws

/-- What an event sends to a channel. -/
def sends (n : Network) (e : NetworkEvent) (_ : Network) : List Delivery :=
  match e with
  | .send conn =>
      match (n.session conn).map Session.phase with
      | some (.completing _ frame) => [{ conn, frame }]
      | _ => []
  | _ => []

/-- The network with the log of what was sent. -/
abbrev loggedNetwork : Machine (Network × List Delivery) NetworkEvent :=
  networkMachine.recorded sends

/-- The first answer for a job that was sent. -/
def firstSent (log : List Delivery) (jobID : String) : Option Delivery :=
  log.find? fun delivery => delivery.frame.jobID == jobID

/-- What a dispatch has of the log: its channel holds the first answer, until it has taken
that answer out. -/
def Dispatch.Agrees (log : List Delivery) (dispatch : Dispatch) : Prop :=
  (dispatch.phase.Early → dispatch.buffer = firstSent log dispatch.payload.jobID) ∧
    ∀ delivery, dispatch.phase = .finishing (.ok delivery) ∨
        dispatch.phase = .returned (.ok delivery) →
      firstSent log dispatch.payload.jobID = some delivery

/-- What links the sessions, the channels and the log. -/
structure Delivering (n : Network) (log : List Delivery) : Prop where
  registered : Registered n
  distinct : DistinctJobs n
  findable : Findable n
  /-- A session sends to the channel of the job that its frame names. -/
  completing : ∀ conn session channel frame, n.session conn = some session →
    session.phase = .completing channel frame → ∃ dispatch,
      n.dispatch channel = some dispatch ∧ dispatch.payload.jobID = frame.jobID
  /-- Nothing was sent but to a dispatch. -/
  known : ∀ delivery ∈ log, ∃ id dispatch, n.dispatch id = some dispatch ∧
    dispatch.payload.jobID = delivery.frame.jobID
  agrees : ∀ id dispatch, n.dispatch id = some dispatch → Dispatch.Agrees log dispatch

section Log

variable {log : List Delivery} {delivery : Delivery} {jobID : String}

theorem firstSent_append_ne (h : delivery.frame.jobID ≠ jobID) :
    firstSent (log ++ [delivery]) jobID = firstSent log jobID := by
  have hnot : ([delivery].find? fun d => d.frame.jobID == jobID) = none := by simp [h]
  rw [firstSent, List.find?_append, hnot, Option.or_none, firstSent]

theorem firstSent_append_eq (h : delivery.frame.jobID = jobID) :
    firstSent (log ++ [delivery]) jobID = some ((firstSent log jobID).getD delivery) := by
  have hfound : ([delivery].find? fun d => d.frame.jobID == jobID) = some delivery := by simp [h]
  rw [firstSent, List.find?_append, hfound, ← firstSent]
  cases firstSent log jobID <;> rfl

/-- What was sent first for a job names that job. -/
theorem jobID_of_firstSent (h : firstSent log jobID = some delivery) :
    delivery.frame.jobID = jobID ∧ delivery ∈ log := by
  have hname := List.find?_some h
  exact ⟨by simpa using hname, List.mem_of_find?_eq_some h⟩

end Log

section Step

variable {n n' : Network} {e : NetworkEvent} {log : List Delivery}

/-- Only a session that sends adds to the log. -/
theorem sends_eq_nil (h : ∀ conn, e ≠ .send conn) : sends n e n' = [] := by
  cases e with
  | send conn => exact absurd rfl (h conn)
  | _ => rfl

theorem sends_of_completing {conn : ConnID} {session : Session} {channel : DispatchID}
    {frame : CompletionFrame} (hsession : n.session conn = some session)
    (hphase : session.phase = .completing channel frame) :
    sends n (.send conn) n' = [{ conn, frame }] := by
  simp [sends, hsession, hphase]

/-- A dispatch that is not sent to keeps agreeing with the log. -/
theorem Dispatch.Agrees.move {id : DispatchID} {dispatch new : Dispatch}
    (h : Dispatch.Agrees log dispatch) (hmove : dispatch.Moves n id e new)
    (hsend : ∀ conn, e ≠ .send conn) : Dispatch.Agrees log new := by
  cases hmove with
  | lookup hphase =>
      have hearly : dispatch.phase.Early := by
        rw [hphase]
        exact trivial
      refine ⟨fun _ => h.1 hearly, fun delivery hdone => ?_⟩
      simp only [Dispatch.goto, Network.route] at hdone
      split at hdone <;> simp at hdone
  | openJob hphase | write hphase =>
      have hearly : dispatch.phase.Early := by
        rw [hphase]
        exact trivial
      exact ⟨fun _ => h.1 hearly, fun delivery hdone => by simp [Dispatch.goto] at hdone⟩
  | refuse hphase | timeout hphase =>
      exact ⟨fun hearly => hearly.elim, fun delivery hdone => by simp [Dispatch.goto] at hdone⟩
  | receive hphase hbuffer =>
      have hearly : dispatch.phase.Early := by
        rw [hphase]
        exact trivial
      refine ⟨fun hearly => hearly.elim, fun delivery hdone => ?_⟩
      simp only [Dispatch.take, DispatchPhase.finishing.injEq, Except.ok.injEq, reduceCtorEq,
        or_false] at hdone
      subst hdone
      exact (h.1 hearly).symm.trans hbuffer
  | closeJob hphase =>
      refine ⟨fun hearly => hearly.elim, fun delivery hdone => ?_⟩
      simp only [Dispatch.goto, DispatchPhase.returned.injEq, reduceCtorEq, false_or] at hdone
      exact h.2 delivery (.inl (hphase.trans (by rw [hdone])))
  | fill _ _ _ => exact absurd rfl (hsend _)

/-- A dispatch for another job does not notice what is sent. -/
theorem Dispatch.Agrees.other {delivery : Delivery} {dispatch : Dispatch}
    (h : Dispatch.Agrees log dispatch) (hne : delivery.frame.jobID ≠ dispatch.payload.jobID) :
    Dispatch.Agrees (log ++ [delivery]) dispatch := by
  unfold Dispatch.Agrees
  rw [firstSent_append_ne hne]
  exact h

/-- A dispatch that is sent to while its channel is empty agrees with the longer log. -/
theorem Dispatch.Agrees.fill {delivery : Delivery} {dispatch : Dispatch}
    (h : Dispatch.Agrees log dispatch) (hempty : dispatch.buffer = none)
    (hname : delivery.frame.jobID = dispatch.payload.jobID) :
    Dispatch.Agrees (log ++ [delivery]) (dispatch.fill delivery) := by
  refine ⟨fun hearly => ?_, fun taken hdone => ?_⟩
  · have hnone : firstSent log dispatch.payload.jobID = none := (h.1 hearly).symm.trans hempty
    exact ((firstSent_append_eq hname).trans (by rw [hnone]; rfl)).symm
  · exact (firstSent_append_eq hname).trans (by rw [h.2 taken hdone]; rfl)

/-- Every step keeps the log and the channels in agreement. -/
theorem Delivering.step (h : Delivering n log) (hstep : n.Step e n') (hguard : FreshJob n e n') :
    Delivering n' (log ++ sends n e n') := by
  have hdistinct := h.distinct.step hstep hguard
  -- A dispatch stays, under its job.
  have hstays : ∀ {id : DispatchID} {dispatch : Dispatch} {jobID : String},
      n.dispatch id = some dispatch → dispatch.payload.jobID = jobID → ∃ dispatch',
        n'.dispatch id = some dispatch' ∧ dispatch'.payload.jobID = jobID := by
    intro id dispatch jobID hdispatch hname
    obtain ⟨dispatch', hdispatch', hpayload, -⟩ := hstep.payload_after hdispatch
    exact ⟨dispatch', hdispatch', by rw [hpayload, hname]⟩
  have hcompleting : ∀ conn session channel frame, n'.session conn = some session →
      session.phase = .completing channel frame → ∃ dispatch,
        n'.dispatch channel = some dispatch ∧ dispatch.payload.jobID = frame.jobID := by
    intro conn session channel frame hsession hphase
    rcases hstep.completing_before hsession hphase with ⟨old, hold, hsame⟩ | ⟨rfl, -, -, hjob⟩
    · obtain ⟨dispatch, hdispatch, hname⟩ := h.completing conn old channel frame hold hsame
      exact hstays hdispatch hname
    · obtain ⟨dispatch, hdispatch, hname, -⟩ := h.registered _ _ hjob
      exact hstays hdispatch hname
  by_cases hsend : ∃ conn, e = .send conn
  · -- A session sends to a channel, which was empty.
    obtain ⟨conn, rfl⟩ := hsend
    have hlog : ∃ session channel frame dispatch, n.session conn = some session ∧
        session.phase = .completing channel frame ∧ n.dispatch channel = some dispatch ∧
        dispatch.buffer = none ∧ n' = (n.setSession conn (session.goto .reading)).setDispatch
          channel (dispatch.fill { conn, frame }) := by
      cases hstep with
      | send hsession hphase hdispatch hempty =>
          exact ⟨_, _, _, _, hsession, hphase, hdispatch, hempty, rfl⟩
    obtain ⟨session, channel, frame, target, hsession, hphase, htarget, hempty, rfl⟩ := hlog
    obtain ⟨dispatch, hdispatch, hname⟩ := h.completing conn session channel frame hsession hphase
    obtain rfl := Option.some.inj (htarget.symm.trans hdispatch)
    rw [sends_of_completing hsession hphase]
    refine ⟨h.registered.step hstep, hdistinct, h.findable.step hdistinct hstep, hcompleting,
      fun delivery hdelivery => ?_, fun id dispatch hdispatch' => ?_⟩
    · rcases List.mem_append.mp hdelivery with hold | hnew
      · obtain ⟨id, dispatch, hdispatch', hname'⟩ := h.known delivery hold
        exact ⟨id, hstays hdispatch' hname'⟩
      · rw [List.mem_singleton.mp hnew]
        exact ⟨channel, hstays htarget hname⟩
    · rw [Network.dispatch_setDispatch] at hdispatch'
      split at hdispatch'
      · cases hdispatch'
        exact (h.agrees channel target htarget).fill hempty hname.symm
      · rename_i hne
        refine (h.agrees id dispatch hdispatch').other fun hsame => hne ?_
        exact h.distinct id channel dispatch target hdispatch' htarget (by rw [hname, ← hsame])
  · -- Nothing is sent.
    have hsend' : ∀ conn, e ≠ .send conn := fun conn heq => hsend ⟨conn, heq⟩
    rw [sends_eq_nil hsend', List.append_nil]
    refine ⟨h.registered.step hstep, hdistinct, h.findable.step hdistinct hstep, hcompleting,
      fun delivery hdelivery => ?_, fun id dispatch hdispatch => ?_⟩
    · obtain ⟨id, dispatch, hdispatch, hname⟩ := h.known delivery hdelivery
      exact ⟨id, hstays hdispatch hname⟩
    · rcases hstep.moves hdispatch with hsame | ⟨hfree, p, payload, rfl, rfl⟩ | ⟨old, hold, hmove⟩
      · exact h.agrees id dispatch hsame
      · -- Nothing was sent for a job that is new.
        refine ⟨fun _ => ?_, fun delivery hdone => by simp [Dispatch.called] at hdone⟩
        cases hfirst : firstSent log payload.jobID with
        | none => exact hfirst.symm
        | some delivery =>
            obtain ⟨hname, hmem⟩ := jobID_of_firstSent hfirst
            obtain ⟨other, dispatch, hdispatch', hname'⟩ := h.known delivery hmem
            exact absurd (hname'.trans hname) (hguard other dispatch hdispatch')
      · exact (h.agrees id old hold).move hmove hsend'

theorem delivering_of_reaches {es : List NetworkEvent} {s : Network × List Delivery}
    (h : loggedNetwork.Reaches (Machine.onState FreshJob) es s) : Delivering s.1 s.2 := by
  refine h.invariant (fun s => Delivering s.1 s.2) ?_ ?_
  · rintro ⟨n, log⟩ ⟨hstart, hlog⟩
    obtain rfl : n = .start := hstart
    obtain rfl : log = [] := hlog
    exact ⟨fun _ _ => nofun, fun _ _ _ _ => nofun, fun _ _ => nofun, fun _ _ _ _ => nofun,
      fun _ hmem => (List.not_mem_nil hmem).elim, fun _ _ => nofun⟩
  · rintro ⟨n, log⟩ e ⟨n', log'⟩ h ⟨hnext, hlog⟩ hguard
    obtain rfl : log' = log ++ sends n e n' := hlog
    exact h.step (Network.step_of_next hnext) hguard

end Step

/-- In every run whose dispatches have jobs of their own: the hub knows exactly the
channels of the dispatches in flight; a dispatch that returns a result returns the first
answer sent for its job, and no other dispatch returns it; and a frame for the job of a
dispatch whose request may have been written, and that still waits, finds its channel,
which holds the first answer sent. -/
theorem hub_delivery_is_exact {es : List NetworkEvent} {n : Network} {log : List Delivery}
    (hreach : loggedNetwork.Reaches (Machine.onState FreshJob) es (n, log)) :
    (∀ jobID id, n.hub.jobs jobID = some id ↔ ∃ dispatch, n.dispatch id = some dispatch ∧
        dispatch.payload.jobID = jobID ∧ dispatch.phase.InFlight) ∧
      (∀ id dispatch delivery, n.dispatch id = some dispatch →
        dispatch.phase = .returned (.ok delivery) →
          firstSent log dispatch.payload.jobID = some delivery ∧
          delivery.frame.jobID = dispatch.payload.jobID ∧
          ∀ id' dispatch', n.dispatch id' = some dispatch' →
            dispatch'.phase = .returned (.ok delivery) → id' = id) ∧
      ∀ id dispatch found conn session frame n', n.dispatch id = some dispatch →
        dispatch.phase = .opened found ∨ dispatch.phase = .waiting found →
        n.session conn = some session → frame.jobID = dispatch.payload.jobID →
        n.next (.complete conn frame) = some n' →
          n'.session conn = some (session.goto (.completing id frame)) ∧
          dispatch.buffer = firstSent log dispatch.payload.jobID := by
  have h := delivering_of_reaches hreach
  refine ⟨fun jobID id => ⟨h.registered jobID id, ?_⟩,
    fun id dispatch delivery hdispatch hphase => ?_,
    fun id dispatch found conn session frame n' hdispatch hphase hsession hname hnext => ?_⟩
  · rintro ⟨dispatch, hdispatch, rfl, hflight⟩
    exact h.findable id dispatch hdispatch hflight
  · have hfirst := (h.agrees id dispatch hdispatch).2 delivery (.inr hphase)
    refine ⟨hfirst, (jobID_of_firstSent hfirst).1, fun id' dispatch' hdispatch' hphase' => ?_⟩
    have hfirst' := (h.agrees id' dispatch' hdispatch').2 delivery (.inr hphase')
    exact h.distinct id' id dispatch' dispatch hdispatch' hdispatch
      ((jobID_of_firstSent hfirst').1.symm.trans (jobID_of_firstSent hfirst).1)
  · obtain ⟨hflight, hearly⟩ : dispatch.phase.InFlight ∧ dispatch.phase.Early := by
      rcases hphase with hopened | hwaiting
      · rw [hopened]
        exact ⟨trivial, trivial⟩
      · rw [hwaiting]
        exact ⟨trivial, trivial⟩
    have hjob : n.hub.jobs frame.jobID = some id := by
      rw [hname]
      exact h.findable id dispatch hdispatch hflight
    refine ⟨?_, (h.agrees id dispatch hdispatch).1 hearly⟩
    cases Network.step_of_next hnext with
    | ignore _ _ hnone =>
        rw [hjob] at hnone
        cases hnone
    | complete hold _ hjob' =>
        obtain rfl := Option.some.inj (hsession.symm.trans hold)
        obtain rfl := Option.some.inj (hjob.symm.trans hjob')
        rw [Network.session_setSession, if_pos rfl]

/-! ## A sample run -/

/-- A job is called for. -/
def sampleCall : NetworkEvent :=
  .dispatch 0 "prv_b" ⟨"job_a", "llama", "ollama", "llama3:8b", [⟨"user", "hello"⟩], none, 50,
      120⟩

/-- The network where the job was called for. -/
def calledNetwork : Network := (Network.start.next sampleCall).getD .start

/-- Its provider connects, gets the request and answers twice. -/
def twoAnswers : List NetworkEvent :=
  [.accept 0 5 "prv_b", .register 0, .lookup 0, .openJob 0, .write 0 none,
    .complete 0 (replyFrame "one"), .send 0, .receive 0,
    .complete 0 (replyFrame "two"), .send 0, .closeJob 0]

/-- The calls of `Dispatch`. -/
def isCall : NetworkEvent → Bool
  | .dispatch .. => true
  | _ => false

/-- The first of two answers is returned, and it is the first in the log. -/
theorem first_of_two_answers_is_returned :
    ∃ n log, loggedNetwork.Reaches (Machine.onState FreshJob) ([sampleCall] ++ twoAnswers)
        (n, log) ∧
      (n.dispatch 0).map Dispatch.phase = some (.returned (.ok ⟨0, replyFrame "one"⟩)) ∧
      firstSent log "job_a" = some ⟨0, replyFrame "one"⟩ := by
  have hcalled : networkMachine.Reaches FreshJob ([] ++ [sampleCall]) calledNetwork := by
    have hstart : networkMachine.start .start := rfl
    have hfirst : Network.start.next sampleCall = some calledNetwork := rfl
    exact (Machine.Reaches.start hstart).snoc hfirst fun _ _ => nofun
  have hfresh : ∀ a e b, (!isCall e) = true → FreshJob a e b := by
    intro a e b hcheck
    cases e <;> first | exact trivial | cases hcheck
  obtain ⟨n, hrun⟩ : ∃ n, Machine.exec Network.next (fun _ e _ => !isCall e) calledNetwork
      twoAnswers = some n := by
    rw [← Option.isSome_iff_exists]
    decide +kernel
  have hrest : networkMachine.Steps FreshJob calledNetwork twoAnswers n :=
    Machine.steps_of_exec hfresh hrun
  obtain ⟨log, hlogged⟩ := (hcalled.steps hrest).record sends
  have hphase : (n.dispatch 0).map (fun dispatch => (dispatch.payload.jobID, dispatch.phase)) =
      some ("job_a", .returned (.ok ⟨0, replyFrame "one"⟩)) := by
    have hval : ((Machine.exec Network.next (fun _ e _ => !isCall e) calledNetwork
        twoAnswers).bind fun n => (n.dispatch 0).map fun dispatch =>
          (dispatch.payload.jobID, dispatch.phase)) =
        some ("job_a", .returned (.ok ⟨0, replyFrame "one"⟩)) := by
      decide +kernel
    rwa [hrun] at hval
  obtain ⟨dispatch, hdispatch, hfields⟩ := Option.map_eq_some_iff.mp hphase
  obtain ⟨hname, hreturned⟩ := Prod.mk.inj hfields
  refine ⟨n, log, hlogged, ?_, ?_⟩
  · rw [hdispatch, Option.map_some, hreturned]
  · rw [← hname]
    exact ((hub_delivery_is_exact hlogged).2.1 0 dispatch _ hdispatch hreturned).1

end Nuvonode.Contract
