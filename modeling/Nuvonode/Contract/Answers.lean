/-
  Contract/Answers.lean --- when only the chosen provider answers.

  The hub finds the channel of a job by the name that a frame gives, and does not ask
  whose session the frame was read on.  So any provider can answer for any job whose
  name it knows; in every run in which no provider names another one's job, whatever
  `Dispatch` returns was read on a session of the provider it was called for.
-/
import Nuvonode.Contract.Failures
import Nuvonode.Handler.Api

set_option autoImplicit false

namespace Nuvonode.Contract

open Nuvonode.Foundation Nuvonode.Database Nuvonode.Repository Nuvonode.Service Nuvonode.Handler
  Nuvonode.Ws

/-- The session is authenticated as the provider that the dispatch was called for. -/
def Owned (n : Network) (conn : ConnID) (id : DispatchID) : Prop :=
  ∃ session dispatch, n.session conn = some session ∧ n.dispatch id = some dispatch ∧
    session.providerPublicID = dispatch.providerPublicID

/-- The guard: a frame that names a job in flight is read on a session of the provider
that the job was dispatched to. -/
def OwnFrames (n : Network) (e : NetworkEvent) (_ : Network) : Prop :=
  match e with
  | .complete conn frame => ∀ session ∈ n.session conn, ∀ channel ∈ n.hub.jobs frame.jobID,
      ∀ dispatch ∈ n.dispatch channel, session.providerPublicID = dispatch.providerPublicID
  | _ => True

/-- Everything on its way to a dispatch comes from a session of its provider. -/
structure Sound (n : Network) : Prop where
  jobs : ∀ jobID id, n.hub.jobs jobID = some id → (n.dispatch id).isSome
  completing : ∀ conn session channel frame, n.session conn = some session →
    session.phase = .completing channel frame → Owned n conn channel
  deliveries : ∀ id dispatch delivery, n.dispatch id = some dispatch →
    dispatch.Has delivery → Owned n delivery.conn id

section Sound

variable {n n' : Network} {e : NetworkEvent}

theorem Owned.step {conn : ConnID} {id : DispatchID} (h : Owned n conn id)
    (hstep : n.Step e n') : Owned n' conn id := by
  obtain ⟨session, dispatch, hsession, hdispatch, hsame⟩ := h
  obtain ⟨session', hsession', hprovider, -⟩ := hstep.session_after hsession
  obtain ⟨dispatch', hdispatch', hprovider'⟩ := hstep.dispatch_after hdispatch
  exact ⟨session', dispatch', hsession', hdispatch', by rw [hprovider, hprovider', hsame]⟩

theorem Sound.step (h : Sound n) (hstep : n.Step e n') (hguard : OwnFrames n e n') :
    Sound n' := by
  refine ⟨hstep.jobs_isSome h.jobs, fun conn session channel frame hsession hphase => ?_,
    fun id dispatch delivery hdispatch hhas => ?_⟩
  · rcases hstep.completing_before hsession hphase with ⟨old, hold, hsame⟩ | ⟨rfl, old, hold, hjob⟩
    · exact (h.completing conn old channel frame hold hsame).step hstep
    · obtain ⟨dispatch, hdispatch⟩ := Option.isSome_iff_exists.mp (h.jobs _ _ hjob)
      have hsame := hguard old hold channel hjob dispatch hdispatch
      exact Owned.step ⟨old, dispatch, hold, hdispatch, hsame⟩ hstep
  · rcases hstep.delivery_before hdispatch hhas with ⟨old, hold, hhad⟩ | ⟨session, hsession, hphase⟩
    · exact (h.deliveries id old delivery hold hhad).step hstep
    · exact (h.completing _ session id _ hsession hphase).step hstep

theorem sound_of_reaches {es : List NetworkEvent} (h : networkMachine.Reaches OwnFrames es n) :
    Sound n := by
  refine h.invariant Sound ?_ fun _ _ _ hsound hnext hguard =>
    hsound.step (Network.step_of_next hnext) hguard
  rintro n rfl
  exact ⟨fun _ _ => nofun, fun _ _ _ _ => nofun, fun _ _ _ => nofun⟩

end Sound

/-- Every result of `Dispatch` was read on a session of the provider it was called for. -/
def OwnAnswers (n : Network) : Prop :=
  ∀ id dispatch delivery, n.dispatch id = some dispatch →
    dispatch.phase = .returned (.ok delivery) →
    ∃ session, n.session delivery.conn = some session ∧
      session.providerPublicID = dispatch.providerPublicID

/-- In a run in which every frame that names a job in flight is read on a session of the
provider that the job was dispatched to, every result of `Dispatch` was read on a session
of the provider it was called for; every frame a request was given is the result of its
own dispatch; and a request is dispatched to the provider of its route. -/
theorem only_chosen_provider_answers (P : Platform) (cfg : Config) {es : List ApiEvent} {s : Api}
    (hreach : (apiMachine P cfg).Reaches (OnNetwork OwnFrames) es s) :
    OwnAnswers s.network ∧
      (∀ call ∈ s.service.calls, ∀ frame, call.outcome = some (.ok frame) →
        ∃ dispatch delivery session, s.network.dispatch call.id = some dispatch ∧
          dispatch.phase = .returned (.ok delivery) ∧ delivery.frame = frame ∧
          s.network.session delivery.conn = some session ∧
          session.providerPublicID = dispatch.providerPublicID) ∧
      ∀ call ∈ s.service.calls, ∀ job jobID walletID dispatch,
        call.phase = .dispatched job jobID walletID →
        s.network.dispatch call.id = some dispatch →
        dispatch.providerPublicID = job.route.providerPublicID ∧
          dispatch.payload = job.payload cfg := by
  have hshared : ∀ n e n', shared e = true → OwnFrames n e n' := by
    intro n e n' hevent
    cases e <;> first | exact trivial | cases hevent
  obtain ⟨es', hnetwork⟩ := network_reaches hshared hreach
  have hsound := sound_of_reaches hnetwork
  obtain ⟨hinv, htied⟩ := tied_of_reaches hreach
  have hresult : OwnAnswers s.network := by
    intro id dispatch delivery hdispatch hphase
    obtain ⟨session, dispatch', hsession, hdispatch', hsame⟩ :=
      hsound.deliveries id dispatch delivery hdispatch (.inr (.inr hphase))
    obtain rfl := Option.some.inj (hdispatch.symm.trans hdispatch')
    exact ⟨session, hsession, hsame⟩
  refine ⟨hresult, fun call hcall frame houtcome => ?_,
    fun call hcall job jobID walletID dispatch hphase hdispatch => ?_⟩
  · have hselect : s.service.call call.id = some call := Table.select_of_mem hinv.ids hcall
    obtain ⟨dispatch, result, hdispatch, hphase, heq⟩ := htied.outcome _ _ _ hselect houtcome
    cases result with
    | error e => cases heq
    | ok delivery =>
        obtain ⟨session, hsession, hsame⟩ := hresult call.id dispatch delivery hdispatch hphase
        exact ⟨dispatch, delivery, session, hdispatch, hphase, (Except.ok.inj heq).symm, hsession,
          hsame⟩
  · have hselect : s.service.call call.id = some call := Table.select_of_mem hinv.ids hcall
    obtain ⟨call', hcall', hpast | ⟨job', jobID', walletID', hphase', hroute⟩⟩ :=
      htied.route call.id dispatch hdispatch
    · obtain rfl := Option.some.inj (hselect.symm.trans hcall')
      rw [hphase] at hpast
      exact hpast.1.elim
    · obtain rfl := Option.some.inj (hselect.symm.trans hcall')
      rw [hphase] at hphase'
      cases hphase'
      exact hroute

/-! ## Sample runs -/

instance (n : Network) (e : NetworkEvent) (n' : Network) : Decidable (OwnFrames n e n') :=
  match e with
  | .complete conn frame => inferInstanceAs (Decidable (∀ session ∈ n.session conn,
      ∀ channel ∈ n.hub.jobs frame.jobID, ∀ dispatch ∈ n.dispatch channel,
        session.providerPublicID = dispatch.providerPublicID))
  | .accept .. => isTrue trivial
  | .register _ => isTrue trivial
  | .hello .. => isTrue trivial
  | .send _ => isTrue trivial
  | .drop _ => isTrue trivial
  | .unregister _ => isTrue trivial
  | .disconnect _ => isTrue trivial
  | .dispatch .. => isTrue trivial
  | .lookup _ => isTrue trivial
  | .openJob _ => isTrue trivial
  | .write .. => isTrue trivial
  | .receive _ => isTrue trivial
  | .timeout _ => isTrue trivial
  | .closeJob _ => isTrue trivial

instance (guard : Network → NetworkEvent → Network → Prop)
    [∀ n e n', Decidable (guard n e n')] (s : Api) (e : ApiEvent) (s' : Api) :
    Decidable (OnNetwork guard s e s') :=
  match e with
  | .network e => inferInstanceAs (Decidable (guard s.network e s'.network))
  | .service _ => isTrue trivial
  | .connect .. => isTrue trivial
  | .hello .. => isTrue trivial
  | .dispatch _ => isTrue trivial
  | .deliver _ => isTrue trivial

/-- The server with the fresh service of the sample runs. -/
def freshApi : Api where
  service := freshService
  network := .start

theorem start_freshApi : (apiMachine samplePlatform sampleConfig).start freshApi :=
  ⟨⟨⟨_, rfl⟩, rfl⟩, rfl⟩

/-- Run the sample server, with a check of every step. -/
def runApi (check : Api → ApiEvent → Api → Bool) (es : List ApiEvent) : Option Api :=
  Machine.exec (Api.next samplePlatform sampleConfig) check freshApi es

/-- The sample server after some events. -/
def apiAfter (es : List ApiEvent) : Api := (runApi (fun _ _ _ => true) es).getD freshApi

theorem reaches_apiAfter {es : List ApiEvent} (h : (runApi (fun _ _ _ => true) es).isSome) :
    (apiMachine samplePlatform sampleConfig).Reaches Machine.anyStep es (apiAfter es) :=
  Machine.reaches_of_exec (fun _ _ _ _ => trivial) start_freshApi h

/-- The sample request waits for the provider `prv_b`, which is connected, and so is
`prv_c`. -/
def waitingEvents : List ApiEvent :=
  dispatchEvents.map .service ++
    [.service (.createProvider 8 9 "prv_c" "pvn_provider_c" 3 "other"),
      .connect 0 "pvn_provider_b", .network (.register 0),
      .connect 1 "pvn_provider_c", .network (.register 1),
      .dispatch 0, .network (.lookup 0), .network (.openJob 0), .network (.write 0 none)]

/-- A session names the job of the sample request in a result. -/
def answerFrame : CompletionFrame :=
  .jobResult "job_20250101000000.000000000" "hi there" "stop" none 900

/-- The result of a session is delivered, and the request settles. -/
def answerEvents (conn : ConnID) : List ApiEvent :=
  [.network (.complete conn answerFrame), .network (.send conn), .network (.receive 0),
    .network (.closeJob 0), .deliver 0, .service (.advance 0 sampleEnv)]

/-- When `prv_b` answers, the sample request is answered by the provider it chose. -/
theorem sample_provider_answers :
    ∃ s, (apiMachine samplePlatform sampleConfig).Reaches (OnNetwork OwnFrames)
        (waitingEvents ++ answerEvents 0) s ∧ OwnAnswers s.network ∧
      (s.network.dispatch 0).map Dispatch.phase =
        some (.returned (.ok { conn := 0, frame := answerFrame })) := by
  obtain ⟨s, hreach, hphase⟩ : ∃ s,
      (apiMachine samplePlatform sampleConfig).Reaches (OnNetwork OwnFrames)
        (waitingEvents ++ answerEvents 0) s ∧ (s.network.dispatch 0).map Dispatch.phase =
          some (.returned (.ok { conn := 0, frame := answerFrame })) :=
    Machine.exists_of_exec start_freshApi (by decide +kernel)
  exact ⟨s, hreach, (only_chosen_provider_answers samplePlatform sampleConfig hreach).1, hphase⟩

/-- When `prv_c` names the job instead, its content is returned and billed as that of
`prv_b`. -/
theorem other_provider_answers :
    ∃ s, (apiMachine samplePlatform sampleConfig).Reaches Machine.anyStep
        (waitingEvents ++ answerEvents 1) s ∧ ¬ OwnAnswers s.network ∧
      s.service.calls.map Call.phase = [.done (.completion "job_20250101000000.000000000"
        "prv_b" "llama" "hi there" "stop" 2 2 4)] := by
  obtain ⟨hrun, hdispatch, hsession, hcalls⟩ :
      (runApi (fun _ _ _ => true) (waitingEvents ++ answerEvents 1)).isSome ∧
        ((apiAfter (waitingEvents ++ answerEvents 1)).network.dispatch 0).map
          (fun dispatch => (dispatch.providerPublicID, dispatch.phase)) =
            some ("prv_b", .returned (.ok { conn := 1, frame := answerFrame })) ∧
        ((apiAfter (waitingEvents ++ answerEvents 1)).network.session 1).map
          Session.providerPublicID = some "prv_c" ∧
        (apiAfter (waitingEvents ++ answerEvents 1)).service.calls.map Call.phase =
          [.done (.completion "job_20250101000000.000000000" "prv_b" "llama" "hi there" "stop"
            2 2 4)] := by
    decide +kernel
  refine ⟨_, reaches_apiAfter hrun, fun hown => ?_, hcalls⟩
  obtain ⟨dispatch, hselect, hfields⟩ := Option.map_eq_some_iff.mp hdispatch
  obtain ⟨hprovider, hphase⟩ := Prod.mk.inj hfields
  obtain ⟨session, hsession', hsame⟩ : ∃ session,
      (apiAfter (waitingEvents ++ answerEvents 1)).network.session 1 = some session ∧
        session.providerPublicID = dispatch.providerPublicID := hown 0 dispatch _ hselect hphase
  rw [hsession', Option.map_some, Option.some.injEq, hsame, hprovider] at hsession
  revert hsession
  decide

end Nuvonode.Contract
