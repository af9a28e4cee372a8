/-
  Contract/ReadLoops.lean --- when result frames wedge a provider's read loop.

  `Complete` sends to a channel of capacity one that `Dispatch` receives from once.  A
  session whose frame finds the channel full, or about to be filled by another session,
  may wait for ever; where no frame does, no session waits at all.
-/
import Nuvonode.Ws.Channels

set_option autoImplicit false

namespace Nuvonode.Contract

open Nuvonode.Foundation Nuvonode.Database Nuvonode.Ws

/-- `Complete` waits to send on a full channel, and its `Dispatch` has left its select. -/
def Wedged (n : Network) (conn : ConnID) : Prop :=
  ∃ session channel frame dispatch delivery, n.session conn = some session ∧
    session.phase = .completing channel frame ∧ n.dispatch channel = some dispatch ∧
    dispatch.buffer = some delivery ∧ ¬ dispatch.phase.Early

/-- The guard: a frame finds the channel of its job empty, and no session about to send
to it. -/
def FindsRoom (n : Network) (e : NetworkEvent) (_ : Network) : Prop :=
  match e with
  | .complete _ frame => ∀ channel, n.hub.jobs frame.jobID = some channel →
      (∀ dispatch, n.dispatch channel = some dispatch → dispatch.buffer = none) ∧
      ∀ other session sent, n.session other = some session →
        session.phase ≠ .completing channel sent
  | _ => True

/-- A session that sends to a channel is the only one, and finds it empty. -/
def Roomy (n : Network) : Prop :=
  ∀ conn session channel frame, n.session conn = some session →
    session.phase = .completing channel frame →
    (∀ dispatch, n.dispatch channel = some dispatch → dispatch.buffer = none) ∧
    ∀ other session' sent, n.session other = some session' →
      session'.phase = .completing channel sent → other = conn

section Wedge

variable {n n' : Network} {e : NetworkEvent} {conn : ConnID}

theorem Roomy.not_wedged (h : Roomy n) : ¬ Wedged n conn := by
  rintro ⟨session, channel, frame, dispatch, delivery, hsession, hphase, hdispatch, hbuffer, -⟩
  have hempty := (h conn session channel frame hsession hphase).1 dispatch hdispatch
  rw [hbuffer] at hempty
  cases hempty

/-- A session that has sent reads again. -/
theorem reading_of_send (h : n.Step (.send conn) n') {session : Session}
    (hsession : n'.session conn = some session) : session.phase = .reading := by
  cases h with
  | send _ _ _ _ =>
      rw [Network.session_setDispatch, Network.session_setSession, if_pos rfl] at hsession
      cases hsession
      rfl

theorem Roomy.step (h : Roomy n) (hstep : n.Step e n') (hguard : FindsRoom n e n') :
    Roomy n' := by
  intro conn session channel frame hsession hphase
  -- The channel was empty, and no other session was to send to it.
  obtain ⟨hempty, halone⟩ : (∀ dispatch, n.dispatch channel = some dispatch →
      dispatch.buffer = none) ∧ ∀ other session' sent, n.session other = some session' →
        session'.phase = .completing channel sent → other = conn := by
    rcases hstep.completing_before hsession hphase with ⟨old, hold, hsame⟩ | ⟨rfl, -, -, hjob⟩
    · exact h conn old channel frame hold hsame
    · obtain ⟨hempty, hnone⟩ := hguard channel hjob
      exact ⟨hempty, fun other session' sent hother hsent =>
        absurd hsent (hnone other session' sent hother)⟩
  refine ⟨fun dispatch hdispatch => ?_, fun other session' sent hother hsent => ?_⟩
  · rcases hstep.moves hdispatch with hsame | ⟨-, p, payload, -, rfl⟩ | ⟨old, hold, hmove⟩
    · exact hempty dispatch hsame
    · rfl
    · rcases hmove.buffer with hkept | hnone | ⟨sender, session', sent, rfl, hsender, hsent⟩
      · rw [hkept]
        exact hempty old hold
      · exact hnone
      · -- The one session that could send reads now.
        obtain rfl := halone sender session' sent hsender hsent
        rw [reading_of_send hstep hsession] at hphase
        cases hphase
  · rcases hstep.completing_before hother hsent with ⟨old, hold, hsame⟩ | ⟨rfl, -, -, hjob⟩
    · exact halone other old sent hold hsame
    · rcases hstep.completing_before hsession hphase with ⟨old, hold, hsame⟩ | ⟨hevent, -⟩
      · exact absurd hsame ((hguard channel hjob).2 conn old frame hold)
      · cases hevent
        rfl

theorem roomy_of_reaches {es : List NetworkEvent} (h : networkMachine.Reaches FindsRoom es n) :
    Roomy n := by
  refine h.invariant Roomy ?_ fun _ _ _ hroomy hnext hguard =>
    hroomy.step (Network.step_of_next hnext) hguard
  rintro n rfl
  exact fun _ _ _ _ => nofun

/-- A session that waits in vain waits for ever. -/
theorem Wedged.step (h : Wedged n conn) (hstep : n.Step e n') : Wedged n' conn := by
  obtain ⟨session, channel, frame, dispatch, delivery, hsession, hphase, hdispatch, hbuffer,
    hlate⟩ := h
  obtain ⟨session', hsession', hphase'⟩ : ∃ session', n'.session conn = some session' ∧
      session'.phase = .completing channel frame := by
    -- No other step than its own would change the phase of the session.
    have hother : ∀ {set : ConnID} {old new : Session}, n.session set = some old →
        (∀ f c, old.phase ≠ .completing c f) →
        (n.setSession set new).session conn = some session := by
      intro set old new hold hne
      rw [Network.session_setSession, if_neg, hsession]
      rintro rfl
      obtain rfl := Option.some.inj (hsession.symm.trans hold)
      exact hne _ _ hphase
    cases hstep with
    | accept hfree =>
        refine ⟨session, ?_, hphase⟩
        rw [Network.session_setSession, if_neg, hsession]
        rintro rfl
        rw [hsession] at hfree
        cases hfree
    | register hold hne | hello hold hne | complete hold hne _ | drop hold hne
    | unregister hold hne => exact ⟨session, hother hold (by simp [hne]), hphase⟩
    | @send sender old sent other target hold hsent htarget hempty =>
        refine ⟨session, ?_, hphase⟩
        rw [Network.session_setDispatch, Network.session_setSession, if_neg, hsession]
        rintro rfl
        obtain rfl := Option.some.inj (hsession.symm.trans hold)
        obtain ⟨rfl, -⟩ := SessionPhase.completing.inj (hphase.symm.trans hsent)
        obtain rfl := Option.some.inj (hdispatch.symm.trans htarget)
        rw [hbuffer] at hempty
        cases hempty
    | disconnect =>
        rw [Network.session_setLatest, Network.session_withHub, Network.session_closeConnection,
          hsession]
        exact ⟨_, rfl, hphase⟩
    | _ => exact ⟨session, hsession, hphase⟩
  obtain ⟨dispatch', hdispatch', -, rfl | hmove⟩ := hstep.payload_after hdispatch
  · exact ⟨session', channel, frame, dispatch', delivery, hsession', hphase', hdispatch', hbuffer,
      hlate⟩
  · cases hmove with
    | @closeJob outcome hfinishing =>
        exact ⟨session', channel, frame, _, delivery, hsession', hphase', hdispatch', hbuffer,
          fun hearly => hearly⟩
    | fill _ _ hempty =>
        rw [hbuffer] at hempty
        cases hempty
    | lookup hearly | openJob hearly | refuse hearly | write hearly | receive hearly _
    | timeout hearly =>
        rw [hearly] at hlate
        exact absurd trivial hlate

/-- A session that waits on a full channel may come to wait in vain. -/
theorem wedge_of_full {session : Session} {channel : DispatchID} {frame : CompletionFrame}
    {dispatch : Dispatch} {delivery : Delivery} (hsession : n.session conn = some session)
    (hphase : session.phase = .completing channel frame)
    (hdispatch : n.dispatch channel = some dispatch) (hbuffer : dispatch.buffer = some delivery)
    (hflight : dispatch.phase.InFlight) :
    ∃ es n'', networkMachine.Steps Machine.anyStep n es n'' ∧ Wedged n'' conn := by
  cases hcase : dispatch.phase with
  | called | found _ | returned _ =>
      rw [hcase] at hflight
      exact hflight.elim
  | opened found =>
      have hnext : n.next (.write channel (some "")) = some (n.setDispatch channel
          (dispatch.goto (.finishing (.error (.writeFailed ""))))) := by
        simp [Network.next, hdispatch, hcase]
      refine ⟨[] ++ [_], _, .snoc .refl hnext trivial, session, channel, frame,
        dispatch.goto (.finishing (.error (.writeFailed ""))), delivery, hsession, hphase, ?_,
        hbuffer, fun hearly => hearly⟩
      rw [Network.dispatch_setDispatch, if_pos rfl]
  | waiting found =>
      have hnext : n.next (.timeout channel) = some (n.setDispatch channel
          (dispatch.goto (.finishing (.error .jobTimeout)))) := by
        simp [Network.next, hdispatch, hcase]
      refine ⟨[] ++ [_], _, .snoc .refl hnext trivial, session, channel, frame,
        dispatch.goto (.finishing (.error .jobTimeout)), delivery, hsession, hphase, ?_,
        hbuffer, fun hearly => hearly⟩
      rw [Network.dispatch_setDispatch, if_pos rfl]
  | finishing outcome =>
      refine ⟨[], n, .refl, session, channel, frame, dispatch, delivery, hsession, hphase,
        hdispatch, hbuffer, ?_⟩
      rw [hcase]
      exact fun hearly => hearly

/-- A frame that does not find room may wedge its session. -/
theorem wedge_of_no_room (hreg : Registered n) (hnext : n.next e = some n')
    (hguard : ¬ FindsRoom n e n') : ∃ conn frame es n'', e = .complete conn frame ∧
      networkMachine.Steps Machine.anyStep n' es n'' ∧ Wedged n'' conn := by
  cases e with
  | complete conn frame =>
      obtain ⟨channel, hjob, hroom⟩ : ∃ channel, n.hub.jobs frame.jobID = some channel ∧
          ¬ ((∀ dispatch, n.dispatch channel = some dispatch → dispatch.buffer = none) ∧
            ∀ other session sent, n.session other = some session →
              session.phase ≠ .completing channel sent) := by
        simpa only [FindsRoom, not_forall, exists_prop] using hguard
      obtain ⟨dispatch, hdispatch, -, hflight⟩ := hreg _ _ hjob
      have hstep := Network.step_of_next hnext
      cases hstep with
      | ignore _ _ hnone =>
          rw [hnone] at hjob
          cases hjob
      | @complete _ session _ channel' hsession hreading hjob' =>
          obtain rfl := Option.some.inj (hjob.symm.trans hjob')
          have hconn : (n.setSession conn (session.goto (.completing channel frame))).session conn =
              some (session.goto (.completing channel frame)) := by
            rw [Network.session_setSession, if_pos rfl]
          cases hbuffer : dispatch.buffer with
          | some delivery =>
              obtain ⟨es, n'', hsteps, hwedged⟩ := wedge_of_full hconn rfl hdispatch hbuffer hflight
              exact ⟨conn, frame, es, n'', rfl, hsteps, hwedged⟩
          | none =>
              -- Another session is about to send, and does so first.
              obtain ⟨other, rival, sent, hrival, hsent⟩ : ∃ other rival sent,
                  n.session other = some rival ∧ rival.phase = .completing channel sent := by
                by_contra hnone
                refine hroom ⟨fun dispatch' hdispatch' => ?_, fun other rival sent hrival hsent =>
                  hnone ⟨other, rival, sent, hrival, hsent⟩⟩
                obtain rfl := Option.some.inj (hdispatch.symm.trans hdispatch')
                exact hbuffer
              have hne : other ≠ conn := by
                rintro rfl
                obtain rfl := Option.some.inj (hsession.symm.trans hrival)
                rw [hreading] at hsent
                cases hsent
              obtain ⟨sentOn, hsentOn⟩ : ∃ sentOn, sentOn =
                  ((n.setSession conn (session.goto (.completing channel frame))).setSession other
                    (rival.goto .reading)).setDispatch channel (dispatch.fill ⟨other, sent⟩) :=
                ⟨_, rfl⟩
              have hfirst : (n.setSession conn (session.goto (.completing channel frame))).next
                  (.send other) = some sentOn := by
                simp only [Network.next, Network.session_setSession, if_neg hne, hrival,
                  Option.bind_eq_bind, Option.bind_some, hsent, Network.dispatch_setSession,
                  hdispatch, hbuffer, hsentOn]
              have hsession' : sentOn.session conn =
                  some (session.goto (.completing channel frame)) := by
                rw [hsentOn, Network.session_setDispatch, Network.session_setSession,
                  if_neg hne.symm]
                exact hconn
              have hdispatch' : sentOn.dispatch channel = some (dispatch.fill ⟨other, sent⟩) := by
                rw [hsentOn, Network.dispatch_setDispatch, if_pos rfl]
              obtain ⟨es, n'', hsteps, hwedged⟩ :=
                wedge_of_full hsession' rfl hdispatch' rfl hflight
              exact ⟨conn, frame, _, n'', rfl,
                (Machine.Steps.snoc .refl hfirst trivial).trans hsteps, hwedged⟩
  | _ => exact absurd trivial hguard

end Wedge

/-- In every run in which each result frame finds the channel of its job empty and no
other session about to send to it, no session is wedged; a wedged session stays so; and
the first frame of a run that does not find room may wedge the session that read it. -/
theorem result_frames_do_not_wedge {es : List NetworkEvent} {n : Network}
    (hreach : networkMachine.Reaches FindsRoom es n) :
    (∀ conn, ¬ Wedged n conn) ∧
      (∀ m conn e m', Wedged m conn → m.next e = some m' → Wedged m' conn) ∧
      ∀ e n', n.next e = some n' → ¬ FindsRoom n e n' →
        ∃ conn frame es' n'', e = .complete conn frame ∧
          networkMachine.Steps Machine.anyStep n' es' n'' ∧ Wedged n'' conn :=
  ⟨fun _ => (roomy_of_reaches hreach).not_wedged,
    fun _ _ _ _ hwedged hnext => hwedged.step (Network.step_of_next hnext),
    fun _ _ hnext hguard => wedge_of_no_room (registered_of_reaches hreach) hnext hguard⟩

/-! ## Sample runs -/

/-- A provider answers a job. -/
def replyFrame (content : String) : CompletionFrame :=
  .jobResult "job_a" content "stop" none 900

/-- A provider is connected, and a job is written to it. -/
def writtenEvents : List NetworkEvent :=
  [.accept 0 5 "prv_b", .register 0,
    .dispatch 0 "prv_b" ⟨"job_a", "llama", "ollama", "llama3:8b", [⟨"user", "hello"⟩], none, 50,
      120⟩,
    .lookup 0, .openJob 0, .write 0 none]

/-- The network after some events. -/
def networkAfter (es : List NetworkEvent) : Network :=
  (Machine.exec Network.next (fun _ _ _ => true) .start es).getD .start

theorem reaches_networkAfter {es : List NetworkEvent}
    (h : (Machine.exec Network.next (fun _ _ _ => true) .start es).isSome) :
    networkMachine.Reaches Machine.anyStep es (networkAfter es) := by
  have hstart : networkMachine.start .start := rfl
  exact Machine.reaches_of_exec (fun _ _ _ _ => trivial) hstart h

/-- The provider answers three times, and the third answer finds the channel full of the
second, after `Dispatch` has received the first. -/
def tripleEvents : List NetworkEvent :=
  writtenEvents ++ [.complete 0 (replyFrame "one"), .send 0, .receive 0,
    .complete 0 (replyFrame "two"), .send 0, .complete 0 (replyFrame "three")]

theorem third_answer_wedges :
    ∃ es n, networkMachine.Reaches Machine.anyStep es n ∧ Wedged n 0 := by
  have hrun : (Machine.exec Network.next (fun _ _ _ => true) .start tripleEvents).isSome := by
    decide +kernel
  have hsession : ((networkAfter tripleEvents).session 0).map Session.phase =
      some (.completing 0 (replyFrame "three")) := by decide +kernel
  have hdispatch : ((networkAfter tripleEvents).dispatch 0).map
      (fun dispatch => (dispatch.phase, dispatch.buffer)) =
        some (.finishing (.ok ⟨0, replyFrame "one"⟩), some ⟨0, replyFrame "two"⟩) := by
    decide +kernel
  obtain ⟨session, hselect, hphase⟩ := Option.map_eq_some_iff.mp hsession
  obtain ⟨dispatch, hfound, hfields⟩ := Option.map_eq_some_iff.mp hdispatch
  obtain ⟨hfinishing, hbuffer⟩ := Prod.mk.inj hfields
  refine ⟨_, _, reaches_networkAfter hrun, session, 0, _, dispatch, _, hselect, hphase, hfound,
    hbuffer, ?_⟩
  rw [hfinishing]
  exact fun hearly => hearly

/-- A check of runs of one session, whose frames find room. -/
def findsRoomAlone (n : Network) (e : NetworkEvent) (_ : Network) : Bool :=
  match e with
  | .accept conn _ _ => conn = 0
  | .complete _ frame => (n.hub.jobs frame.jobID).all fun channel =>
      (n.dispatch channel).all (fun dispatch => dispatch.buffer.isNone) &&
        (n.session 0).all fun session => session.phase = .reading
  | _ => true

/-- In such runs there is no other session, which could be about to send. -/
theorem reaches_of_findsRoomAlone {es : List NetworkEvent} {n : Network}
    (h : networkMachine.Reaches (fun n e n' => findsRoomAlone n e n' = true) es n) :
    networkMachine.Reaches FindsRoom es n := by
  have hboth : networkMachine.Reaches FindsRoom es n ∧
      ∀ conn session, n.session conn = some session → conn = 0 := by
    refine h.invariant_trace (fun es n => networkMachine.Reaches FindsRoom es n ∧
      ∀ conn session, n.session conn = some session → conn = 0) ?_ ?_
    · rintro n rfl
      exact ⟨.start rfl, fun _ _ => nofun⟩
    · rintro es n e n' ⟨hreach, halone⟩ hnext hcheck
      refine ⟨hreach.snoc hnext ?_, fun conn session hsession => ?_⟩
      · cases e with
        | complete conn frame =>
            intro channel hjob
            simp only [findsRoomAlone, hjob, Option.all_some, Bool.and_eq_true] at hcheck
            obtain ⟨hbuffer, hreading⟩ := hcheck
            refine ⟨fun dispatch hdispatch => ?_, fun other session sent hother hphase => ?_⟩
            · rw [hdispatch, Option.all_some, Option.isNone_iff_eq_none] at hbuffer
              exact hbuffer
            · rw [← halone other session hother, hother, Option.all_some, hphase] at hreading
              simp at hreading
        | _ => exact trivial
      · rcases (Network.step_of_next hnext).session_before hsession with ⟨rfl, -⟩ | ⟨old, hold, -⟩
        · simpa [findsRoomAlone] using hcheck
        · exact halone conn old hold
  exact hboth.1

/-- The provider answers three times, each time after `Dispatch` has taken what was in the
channel or has closed the job. -/
def lateAnswerEvents : List NetworkEvent :=
  writtenEvents ++ [.complete 0 (replyFrame "one"), .send 0, .receive 0,
    .complete 0 (replyFrame "two"), .send 0, .closeJob 0, .complete 0 (replyFrame "three")]

theorem late_answers_do_not_wedge :
    ∃ n, networkMachine.Reaches FindsRoom lateAnswerEvents n ∧
      (n.session 0).map Session.phase = some .reading ∧ ∀ conn, ¬ Wedged n conn := by
  have hrun : (Machine.exec Network.next findsRoomAlone .start lateAnswerEvents).isSome := by
    decide +kernel
  have hstart : networkMachine.start .start := rfl
  have hreading : (((Machine.exec Network.next findsRoomAlone .start lateAnswerEvents).getD
      .start).session 0).map Session.phase = some .reading := by decide +kernel
  have hreach : networkMachine.Reaches FindsRoom lateAnswerEvents _ :=
    reaches_of_findsRoomAlone (Machine.reaches_of_exec (fun _ _ _ h => h) hstart hrun)
  exact ⟨_, hreach, hreading, (result_frames_do_not_wedge hreach).1⟩

end Nuvonode.Contract
