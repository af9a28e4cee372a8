/-
  Contract/Connections.lean --- when the hub remembers a live connection.

  The hub has one entry for each provider, and the session that ends deletes the
  entry of its provider, whose ever it is.  So a session that ends after its provider
  has reconnected takes the new connection out of the hub; in every run without such
  a step the hub knows every live connection.
-/
import Nuvonode.Ws.Network

set_option autoImplicit false

namespace Nuvonode.Contract

open Nuvonode.Foundation Nuvonode.Database Nuvonode.Ws

/-- The session that registered last for a provider, not ended and not disconnected. -/
def Live (n : Network) (p : String) (conn : ConnID) : Prop :=
  n.latest p = some conn ∧ ∃ session, n.session conn = some session ∧ session.phase ≠ .ended

/-- The hub has the connection of every live session. -/
def Remembered (n : Network) : Prop :=
  ∀ p conn, Live n p conn → n.hub.providers p = some { providerPublicID := p, conn }

/-- The guard: where the hub has an entry for the provider of a session that
unregisters, it is the session's own. -/
def OwnUnregister (n : Network) (e : NetworkEvent) (_ : Network) : Prop :=
  match e with
  | .unregister conn => ∀ session ∈ n.session conn,
      ∀ provider ∈ n.hub.providers session.providerPublicID, provider.conn = conn
  | _ => True

/-! ## What changes the registrations -/

/-- A step that neither registers nor ends a session. -/
structure Quiet (n n' : Network) : Prop where
  providers : n'.hub.providers = n.hub.providers
  latest : n'.latest = n.latest
  session : ∀ conn session, n.session conn = some session → ∃ session',
    n'.session conn = some session' ∧ session'.providerPublicID = session.providerPublicID ∧
      (session'.phase = .ended ↔ session.phase = .ended) ∧
      (session'.phase = .accepted → session.phase = .accepted)

/-- The steps that change the registrations, and all others. -/
inductive Registration (n : Network) : NetworkEvent → Network → Prop where
  | register {conn : ConnID} {session : Session} : n.session conn = some session →
      session.phase = .accepted →
      Registration n (.register conn) (((n.setSession conn (session.goto .reading)).withHub
        (n.hub.register session.providerPublicID conn)).setLatest session.providerPublicID conn)
  | unregister {conn : ConnID} {session : Session} : n.session conn = some session →
      session.phase = .leaving →
      Registration n (.unregister conn) ((n.setSession conn (session.goto .ended)).withHub
        (n.hub.unregister session.providerPublicID))
  | disconnect {p : String} : Registration n (.disconnect p)
      (((n.closeConnection (n.hub.providers p)).withHub (n.hub.unregister p)).setLatest p none)
  | quiet {e : NetworkEvent} {n' : Network} : Quiet n n' → Registration n e n'

section Steps

variable {n n' : Network} {e : NetworkEvent} {conn : ConnID}

theorem quiet_of_sessions (hsession : n'.session = n.session)
    (hproviders : n'.hub.providers = n.hub.providers) (hlatest : n'.latest = n.latest) :
    Quiet n n' where
  providers := hproviders
  latest := hlatest
  session := fun conn session hs => ⟨session, by rw [hsession, hs], rfl, Iff.rfl, id⟩

theorem quiet_setSession {old new : Session} (hold : n.session conn = some old)
    (hprovider : new.providerPublicID = old.providerPublicID)
    (hended : new.phase = .ended ↔ old.phase = .ended) (haccepted : new.phase ≠ .accepted) :
    Quiet n (n.setSession conn new) where
  providers := rfl
  latest := rfl
  session := by
    intro other session hsession
    rw [Network.session_setSession]
    split
    · rename_i heq
      rw [heq, hold, Option.some.injEq] at hsession
      subst hsession
      exact ⟨new, rfl, hprovider, hended, fun h => absurd h haccepted⟩
    · exact ⟨session, hsession, rfl, Iff.rfl, id⟩

theorem registration_of_step (h : n.Step e n') : Registration n e n' := by
  -- A session that reads goes on reading, completes or leaves.
  have hmove : ∀ {conn : ConnID} {session new : Session}, n.session conn = some session →
      session.phase ≠ .ended → new.providerPublicID = session.providerPublicID →
      new.phase ≠ .ended → new.phase ≠ .accepted → Quiet n (n.setSession conn new) :=
    fun hsession hold hprovider hended haccepted =>
      quiet_setSession hsession hprovider (iff_of_false hended hold) haccepted
  cases h with
  | register hsession hphase => exact .register hsession hphase
  | unregister hsession hphase => exact .unregister hsession hphase
  | disconnect => exact .disconnect
  | accept hfree =>
      refine .quiet ⟨rfl, rfl, fun other session hsession => ⟨session, ?_, rfl, Iff.rfl, id⟩⟩
      rw [Network.session_setSession, if_neg, hsession]
      rintro rfl
      rw [hfree] at hsession
      cases hsession
  | hello hsession hphase =>
      refine .quiet (hmove hsession ?_ rfl ?_ ?_) <;> simp [Session.greet, hphase]
  | complete hsession hphase _ =>
      refine .quiet (hmove hsession ?_ rfl ?_ ?_) <;> simp [Session.goto, hphase]
  | drop hsession hphase =>
      refine .quiet (hmove hsession ?_ rfl ?_ ?_) <;> simp [Session.goto, hphase]
  | @send conn session frame channel dispatch hsession hphase _ _ =>
      have hquiet : Quiet n (n.setSession conn (session.goto .reading)) := by
        refine hmove hsession ?_ rfl ?_ ?_ <;> simp [Session.goto, hphase]
      exact .quiet ⟨rfl, rfl, hquiet.session⟩
  | _ => exact .quiet (quiet_of_sessions rfl rfl rfl)

/-! ## The invariants -/

/-- An entry of the hub is the last registration of its provider, and live. -/
structure Tracked (n : Network) : Prop where
  entry : ∀ p provider, n.hub.providers p = some provider →
    provider.providerPublicID = p ∧ Live n p provider.conn
  latest : ∀ p conn, n.latest p = some conn → ∃ session, n.session conn = some session ∧
    session.providerPublicID = p ∧ session.phase ≠ .accepted

theorem Quiet.live (h : Quiet n n') {p : String} (hlive : Live n p conn) : Live n' p conn := by
  obtain ⟨hlatest, session, hsession, hphase⟩ := hlive
  obtain ⟨session', hsession', -, hended, -⟩ := h.session conn session hsession
  exact ⟨h.latest ▸ hlatest, session', hsession', fun heq => hphase (hended.mp heq)⟩

theorem Quiet.live_before (h : Quiet n n') (htracked : Tracked n) {p : String}
    (hlive : Live n' p conn) : Live n p conn := by
  obtain ⟨hlatest, session', hsession', hphase⟩ := hlive
  rw [h.latest] at hlatest
  obtain ⟨session, hsession, -⟩ := htracked.latest p conn hlatest
  obtain ⟨other, hother, -, hended, -⟩ := h.session conn session hsession
  obtain rfl := Option.some.inj (hother.symm.trans hsession')
  exact ⟨hlatest, session, hsession, fun heq => hphase (hended.mpr heq)⟩

/-- Two sessions of different providers are not the same. -/
theorem Tracked.latest_ne (h : Tracked n) {session : Session} {other : ConnID} {q : String}
    (hsession : n.session conn = some session) (hother : n.latest q = some other)
    (hne : q ≠ session.providerPublicID) : other ≠ conn := by
  rintro rfl
  obtain ⟨session', hsession', hprovider, -⟩ := h.latest q other hother
  obtain rfl := Option.some.inj (hsession.symm.trans hsession')
  exact hne hprovider.symm

theorem Tracked.start : Tracked .start := ⟨fun _ _ => nofun, fun _ _ => nofun⟩

theorem Tracked.step (h : Tracked n) (hstep : n.Step e n') : Tracked n' := by
  cases registration_of_step hstep with
  | quiet hquiet =>
      refine ⟨fun p provider hentry => ?_, fun p conn hlatest => ?_⟩
      · rw [hquiet.providers] at hentry
        obtain ⟨hprovider, hlive⟩ := h.entry p provider hentry
        exact ⟨hprovider, hquiet.live hlive⟩
      · rw [hquiet.latest] at hlatest
        obtain ⟨session, hsession, hprovider, haccepted⟩ := h.latest p conn hlatest
        obtain ⟨session', hsession', hsame, -, haccepted'⟩ := hquiet.session conn session hsession
        exact ⟨session', hsession', hsame.trans hprovider,
          fun heq => haccepted (haccepted' heq)⟩
  | @register conn session hsession haccepted =>
      refine ⟨fun q provider hentry => ?_, fun q other hlatest => ?_⟩
      · simp only [Network.hub_setLatest, Network.hub_withHub, Hub.providers_register] at hentry
        split at hentry
        · rename_i hq
          cases hentry
          refine ⟨hq.symm, ?_, session.goto .reading, ?_, by simp [Session.goto]⟩ <;> simp [hq]
        · rename_i hq
          obtain ⟨hprovider, hlatest, other, hother, hphase⟩ := h.entry q provider hentry
          have hne := h.latest_ne hsession hlatest hq
          exact ⟨hprovider, by simpa [hq] using hlatest, other, by simpa [hne] using hother, hphase⟩
      · simp only [Network.latest_setLatest] at hlatest
        split at hlatest
        · rename_i hq
          cases hlatest
          exact ⟨session.goto .reading, by simp, hq.symm, by simp [Session.goto]⟩
        · rename_i hq
          have hne := h.latest_ne hsession hlatest hq
          obtain ⟨other', hother, hrest⟩ := h.latest q other hlatest
          exact ⟨other', by simpa [hne] using hother, hrest⟩
  | @unregister conn session hsession hleaving =>
      refine ⟨fun q provider hentry => ?_, fun q other hlatest => ?_⟩
      · simp only [Network.hub_withHub, Hub.providers_unregister] at hentry
        split at hentry
        · cases hentry
        · rename_i hq
          obtain ⟨hprovider, hlatest, other, hother, hphase⟩ := h.entry q provider hentry
          have hne := h.latest_ne hsession hlatest hq
          exact ⟨hprovider, hlatest, other, by simpa [hne] using hother, hphase⟩
      · obtain ⟨old, hold, hprovider, haccepted⟩ := h.latest q other hlatest
        by_cases hsame : other = conn
        · subst hsame
          obtain rfl := Option.some.inj (hsession.symm.trans hold)
          exact ⟨session.goto .ended, by simp, hprovider, by simp [Session.goto]⟩
        · exact ⟨old, by simpa [hsame] using hold, hprovider, haccepted⟩
  | @disconnect p =>
      refine ⟨fun q provider hentry => ?_, fun q other hlatest => ?_⟩
      · simp only [Network.hub_setLatest, Network.hub_withHub, Hub.providers_unregister] at hentry
        split at hentry
        · cases hentry
        · rename_i hq
          obtain ⟨hprovider, hlatest, other, hother, hphase⟩ := h.entry q provider hentry
          have hclosed : (n.closeConnection (n.hub.providers p)).session provider.conn = _ :=
            Network.session_closeConnection _
          rw [hother, Option.map_some] at hclosed
          exact ⟨hprovider, by simpa [hq] using hlatest, _, hclosed, hphase⟩
      · simp only [Network.latest_setLatest] at hlatest
        split at hlatest
        · cases hlatest
        · obtain ⟨old, hold, hrest⟩ := h.latest q other (by simpa using hlatest)
          have hclosed : (n.closeConnection (n.hub.providers p)).session other = _ :=
            Network.session_closeConnection _
          rw [hold, Option.map_some] at hclosed
          exact ⟨_, hclosed, hrest⟩

/-- A step that deletes no entry of another session forgets no live connection. -/
theorem Remembered.step (h : Remembered n) (htracked : Tracked n) (hstep : n.Step e n')
    (hguard : OwnUnregister n e n') : Remembered n' := by
  intro q other hlive
  cases registration_of_step hstep with
  | quiet hquiet =>
      rw [hquiet.providers]
      exact h q other (hquiet.live_before htracked hlive)
  | @register conn session hsession haccepted =>
      obtain ⟨hlatest, session', hsession', hphase⟩ := hlive
      simp only [Network.latest_setLatest] at hlatest
      simp only [Network.hub_setLatest, Network.hub_withHub, Hub.providers_register]
      split at hlatest
      · rename_i hq
        cases hlatest
        rw [if_pos hq, hq]
      · rename_i hq
        have hne := htracked.latest_ne hsession hlatest hq
        rw [if_neg hq]
        exact h q other ⟨hlatest, session', by simpa [hne] using hsession', hphase⟩
  | @unregister conn session hsession hleaving =>
      obtain ⟨hlatest, session', hsession', hphase⟩ := hlive
      simp only [Network.session_withHub, Network.session_setSession] at hsession'
      split at hsession'
      · cases hsession'
        exact absurd rfl hphase
      · rename_i hne
        have hentry := h q other ⟨hlatest, session', hsession', hphase⟩
        simp only [Network.hub_withHub, Hub.providers_unregister]
        split
        · rename_i hq
          rw [hq] at hentry
          exact absurd (hguard session hsession _ hentry) hne
        · exact hentry
  | @disconnect p =>
      obtain ⟨hlatest, session', hsession', hphase⟩ := hlive
      simp only [Network.latest_setLatest] at hlatest
      simp only [Network.hub_setLatest, Network.hub_withHub, Hub.providers_unregister]
      split at hlatest
      · cases hlatest
      · rename_i hq
        rw [if_neg hq]
        rw [Network.session_setLatest, Network.session_withHub,
          Network.session_closeConnection] at hsession'
        obtain ⟨session, hsession, rfl⟩ := Option.map_eq_some_iff.mp hsession'
        exact h q other ⟨by simpa using hlatest, session, hsession, hphase⟩

/-- A session that deletes the entry of another one takes a live connection out. -/
theorem forgets_of_unregister (htracked : Tracked n)
    (hnext : n.next (.unregister conn) = some n')
    (hforeign : ¬ OwnUnregister n (.unregister conn) n') : ¬ Remembered n' := by
  intro hremembered
  simp only [OwnUnregister, not_forall] at hforeign
  obtain ⟨session, hsession, provider, hentry, hne⟩ := hforeign
  obtain ⟨-, hlatest, other, hother, hphase⟩ := htracked.entry _ provider hentry
  cases Network.step_of_next hnext with
  | @unregister _ session' hsession' _ =>
      obtain rfl := Option.some.inj (hsession'.symm.trans hsession)
      have hlive := hremembered session'.providerPublicID provider.conn
        ⟨hlatest, other, by simpa [hne] using hother, hphase⟩
      simp at hlive

end Steps

theorem tracked_of_reaches {guard : Network → NetworkEvent → Network → Prop}
    {es : List NetworkEvent} {n : Network} (h : networkMachine.Reaches guard es n) : Tracked n := by
  refine h.invariant Tracked ?_ fun _ _ _ htracked hnext _ => htracked.step
    (Network.step_of_next hnext)
  rintro n rfl
  exact .start

/-- In a run in which every session that unregisters finds its own entry or none, the hub
has the connection of every live session, so a dispatch for its provider finds it.  A
session that finds another session's entry makes the hub forget a live connection. -/
theorem hub_remembers_live_connections {es : List NetworkEvent} {n : Network}
    (hreach : networkMachine.Reaches OwnUnregister es n) :
    (∀ p conn, Live n p conn → n.hub.providers p = some { providerPublicID := p, conn } ∧
      ∀ id dispatch, n.dispatch id = some dispatch → dispatch.phase = .called →
        dispatch.providerPublicID = p → ∃ n', n.next (.lookup id) = some n' ∧
          (n'.dispatch id).map Dispatch.phase = some (.found conn)) ∧
      ∀ conn n', n.next (.unregister conn) = some n' →
        ¬ OwnUnregister n (.unregister conn) n' → ¬ Remembered n' := by
  have htracked := tracked_of_reaches hreach
  have hremembered : Remembered n := by
    refine (hreach.invariant (fun n => Tracked n ∧ Remembered n) ?_ ?_).2
    · rintro n rfl
      exact ⟨.start, fun _ _ h => nomatch h.1⟩
    · rintro n e n' ⟨htracked, hremembered⟩ hnext hguard
      have hstep := Network.step_of_next hnext
      exact ⟨htracked.step hstep, hremembered.step htracked hstep hguard⟩
  refine ⟨fun p conn hlive => ⟨hremembered p conn hlive, ?_⟩,
    fun conn n' => forgets_of_unregister htracked⟩
  rintro id dispatch hdispatch hcalled rfl
  refine ⟨n.setDispatch id (dispatch.goto (n.route dispatch.providerPublicID)), ?_, ?_⟩
  · simp [Network.next, hdispatch, hcalled]
  · rw [Network.dispatch_setDispatch, if_pos rfl, Option.map_some]
    simp only [Dispatch.goto, Network.route, hremembered _ conn hlive]

/-! ## Sample runs -/

instance (n : Network) (e : NetworkEvent) (n' : Network) : Decidable (OwnUnregister n e n') :=
  match e with
  | .unregister conn => inferInstanceAs (Decidable (∀ session ∈ n.session conn,
      ∀ provider ∈ n.hub.providers session.providerPublicID, provider.conn = conn))
  | .accept .. => isTrue trivial
  | .register _ => isTrue trivial
  | .hello .. => isTrue trivial
  | .complete .. => isTrue trivial
  | .send _ => isTrue trivial
  | .drop _ => isTrue trivial
  | .disconnect _ => isTrue trivial
  | .dispatch .. => isTrue trivial
  | .lookup _ => isTrue trivial
  | .openJob _ => isTrue trivial
  | .write .. => isTrue trivial
  | .receive _ => isTrue trivial
  | .timeout _ => isTrue trivial
  | .closeJob _ => isTrue trivial

/-- Run the sample network, with a check of every step. -/
def runNetwork (check : Network → NetworkEvent → Network → Bool) (es : List NetworkEvent) :
    Option Network :=
  Machine.exec Network.next check .start es

/-- A provider connects, loses its connection and connects again. -/
def reconnectEvents : List NetworkEvent :=
  [.accept 0 5 "prv_b", .register 0, .drop 0, .unregister 0, .accept 1 5 "prv_b", .register 1]

/-- The same, with the old session ending last. -/
def overlapEvents : List NetworkEvent :=
  [.accept 0 5 "prv_b", .register 0, .accept 1 5 "prv_b", .register 1, .drop 0, .unregister 0]

/-- Once its old session has ended, the hub has the new connection of the provider. -/
theorem sample_connection_is_remembered :
    ∃ n, networkMachine.Reaches OwnUnregister reconnectEvents n ∧
      n.hub.providers "prv_b" = some { providerPublicID := "prv_b", conn := 1 } := by
  have hrun :
      (runNetwork (fun n e n' => decide (OwnUnregister n e n')) reconnectEvents).isSome := by
    decide +kernel
  have hstart : networkMachine.start .start := rfl
  have hreach : networkMachine.Reaches OwnUnregister reconnectEvents _ :=
    Machine.reaches_of_exec (fun _ _ _ hcheck => of_decide_eq_true hcheck) hstart hrun
  refine ⟨_, hreach, ((hub_remembers_live_connections hreach).1 "prv_b" 1 ⟨?_, ?_⟩).1⟩
  · decide +kernel
  · refine ⟨{ Session.accepted 5 "prv_b" with phase := .reading }, ?_, by simp⟩
    decide +kernel

/-- The new session is live, but the old one has taken its entry out of the hub, and a
dispatch finds no provider. -/
theorem old_session_unregisters_new_connection :
    ∃ n, networkMachine.Reaches Machine.anyStep overlapEvents n ∧ Live n "prv_b" 1 ∧
      n.hub.providers "prv_b" = none ∧
      n.route "prv_b" = .returned (.error .providerUnavailable) := by
  have hrun : (runNetwork (fun _ _ _ => true) overlapEvents).isSome := by decide +kernel
  have hstart : networkMachine.start .start := rfl
  have hreach : networkMachine.Reaches Machine.anyStep overlapEvents _ :=
    Machine.reaches_of_exec (fun _ _ _ _ => trivial) hstart hrun
  refine ⟨_, hreach, ⟨?_, ?_⟩, ?_, ?_⟩
  · decide +kernel
  · refine ⟨{ Session.accepted 5 "prv_b" with phase := .reading }, ?_, by simp⟩
    decide +kernel
  · decide +kernel
  · decide +kernel

end Nuvonode.Contract
