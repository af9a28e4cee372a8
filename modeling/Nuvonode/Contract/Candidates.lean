/-
  Contract/Candidates.lean --- one candidate for a request.

  A request asks the database for the candidate with the most recent heartbeat, and the
  hub for that candidate's connection.  Other candidates have no part in the answer: one
  that is connected does not help, and one that is not does not harm.
-/
import Nuvonode.Contract.Answers
import Nuvonode.Ws.Channels

set_option autoImplicit false

namespace Nuvonode.Contract

open Nuvonode.Foundation Nuvonode.Database Nuvonode.Repository Nuvonode.Service Nuvonode.Handler
  Nuvonode.Ws

/-- The guard: the provider of a dispatch is registered when it is looked up, and its
connection takes the request. -/
def Serves (id : DispatchID) (n : Network) (e : NetworkEvent) (_ : Network) : Prop :=
  match e with
  | .lookup looked => looked = id → ∀ dispatch ∈ n.dispatch id,
      (n.hub.providers dispatch.providerPublicID).isSome
  | .write written refusal => written = id → refusal = none
  | _ => True

/-- What a dispatch failed with. -/
def DispatchPhase.Failed (phase : DispatchPhase) (e : DispatchError) : Prop :=
  phase = .finishing (.error e) ∨ phase = .returned (.error e)

/-- A dispatch that is served fails by a timeout only. -/
def TimesOutOnly (id : DispatchID) (n : Network) : Prop :=
  ∀ dispatch e, n.dispatch id = some dispatch → DispatchPhase.Failed dispatch.phase e →
    e = .jobTimeout

theorem TimesOutOnly.step {id : DispatchID} {n n' : Network} {e : NetworkEvent}
    (h : TimesOutOnly id n) (hstep : n.Step e n') (hguard : Serves id n e n') :
    TimesOutOnly id n' := by
  intro dispatch failure hdispatch hfailed
  rcases hstep.moves hdispatch with hsame | ⟨-, p, payload, -, rfl⟩ | ⟨old, hold, hmove⟩
  · exact h dispatch failure hsame hfailed
  · simp [DispatchPhase.Failed, Dispatch.called] at hfailed
  · cases hmove with
    | lookup _ =>
        obtain ⟨provider, hprovider⟩ := Option.isSome_iff_exists.mp (hguard rfl old hold)
        simp [DispatchPhase.Failed, Dispatch.goto, Network.route, hprovider] at hfailed
    | refuse _ => cases hguard rfl
    | timeout _ =>
        simp only [DispatchPhase.Failed, Dispatch.goto, DispatchPhase.finishing.injEq,
          Except.error.injEq, reduceCtorEq, or_false] at hfailed
        exact hfailed.symm
    | closeJob hphase =>
        simp only [DispatchPhase.Failed, Dispatch.goto, DispatchPhase.returned.injEq, reduceCtorEq,
          false_or] at hfailed
        exact h old failure hold (.inl (hphase.trans (by rw [hfailed])))
    | fill _ _ _ => exact h old failure hold hfailed
    | openJob _ | write _ => simp [DispatchPhase.Failed, Dispatch.goto] at hfailed
    | receive _ _ => simp [DispatchPhase.Failed, Dispatch.take] at hfailed

theorem timesOutOnly_of_reaches {id : DispatchID} {es : List NetworkEvent} {n : Network}
    (h : networkMachine.Reaches (Serves id) es n) : TimesOutOnly id n := by
  refine h.invariant (TimesOutOnly id) ?_ fun _ _ _ honly hnext hguard =>
    honly.step (Network.step_of_next hnext) hguard
  rintro n rfl
  exact fun _ _ => nofun

/-! ## What a request is told -/

/-- One of the two answers that there is no provider. -/
def Unavailable (response : Response) : Prop :=
  response.code = some "provider_unavailable" ∨ response.code = some "model_unavailable"

/-- A request that failed after its dispatch is told that its provider is unavailable only
if `Dispatch` failed. -/
def Told (call : Call) (response : Response) : Prop :=
  Unavailable response → response.code = some "provider_unavailable" ∧
    ∃ e, call.outcome = some (.error e)

/-- What a request is told, and why. -/
def ToldWhy (call : Call) : Prop :=
  match call.phase with
  | .failing _ _ _ failure | .released _ _ _ failure => Told call failure.response
  | .done response => response.code = some "provider_unavailable" →
      ∃ e, call.outcome = some (.error e)
  | _ => True

section Told

variable {P : Platform} {cfg : Config} {env : Env} {db db' : DB} {call call' : Call}

theorem handle_available (e : Err) : ¬ Unavailable (handle e) := by
  unfold Unavailable
  cases e <;> decide

theorem validate_available {body : Option ChatRequest} {response : Response}
    (h : validate body = .error response) : ¬ Unavailable response := by
  unfold Unavailable
  unfold validate at h
  split at h
  · cases h
    decide
  · split at h
    · cases h
      decide
    · split at h
      · cases h
        decide
      · split at h
        · cases h
          decide
        · cases h

/-- A request that ends before it has a job is told that there is no provider only where
no candidate was found. -/
theorem unavailable_of_search (h : call.advance P cfg env db = some (db', call'))
    (hsearching : call.phase.Searching) {response : Response} (hdone : call'.phase = .done response)
    (htold : Unavailable response) : response.code = some "model_unavailable" ∧
      ∃ auth request model, call.phase = .modelFound auth request model ∧
        routeRows model.id db = [] := by
  unfold Call.advance at h
  split at h
  · split at h
    · cases h
      cases hdone
      exact absurd htold (handle_available _)
    · split at h
      · cases h
        cases hdone
        exact absurd htold (validate_available ‹_›)
      · cases h
        cases hdone
  · split at h
    · cases h
      cases hdone
      split at htold
      · exact absurd htold (by unfold Unavailable; decide)
      · exact absurd htold (handle_available _)
    · split at h
      · cases h
        cases hdone
        exact absurd htold (by unfold Unavailable; decide)
      · cases h
        cases hdone
  · rename_i hphase
    split at h
    · rename_i hfinds
      split at h
      · rename_i hnone
        rw [hnone] at hfinds
        cases h
        cases hdone
        exact ⟨rfl, _, _, _, hphase, List.isEmpty_iff.mp hfinds⟩
      · cases h
        cases hdone
    · cases h
  · split at h
    · cases h
      cases hdone
      exact absurd htold (handle_available _)
    · cases h
      cases hdone
  all_goals
    rename_i hphase
    rw [hphase] at hsearching
    exact hsearching.elim

/-- A route is looked for once: among the candidates the one returned has the most recent
heartbeat, and the request ends only where there is none. -/
theorem route_or_unavailable (h : call.advance P cfg env db = some (db', call'))
    {auth : APIKeyAuth} {request : ChatRequest} {model : ModelRow}
    (hphase : call.phase = .modelFound auth request model) :
    (routeRows model.id db = [] ∧ call'.phase = .done (.error 503 "model_unavailable"
        "No approved online provider is currently available for this model.")) ∨
      ∃ job, call'.phase = .routed job ∧ job.model = model ∧
        isRoute model.id db job.route = true := by
  unfold Call.advance at h
  rw [hphase] at h
  simp only at h
  split at h
  · rename_i hfinds
    split at h
    · rename_i hnone
      rw [hnone] at hfinds
      cases h
      exact .inl ⟨List.isEmpty_iff.mp hfinds, rfl⟩
    · rename_i route hroute
      rw [hroute] at hfinds
      cases h
      exact .inr ⟨_, rfl, rfl, hfinds⟩
  · cases h

/-- The return of `Dispatch` goes to a call that waits for it. -/
theorem waiting_of_deliver {outcome : Except DispatchError CompletionFrame}
    (h : call.deliver outcome = some call') : ¬ call.phase.Searching := by
  unfold Call.deliver at h
  split at h
  · rename_i hphase
    rw [hphase]
    exact id
  · cases h

theorem ToldWhy.step {s : ChatService} {e : ServiceEvent} (h : ToldWhy call)
    (hstep : Stepped P cfg s call e db call') : ToldWhy call' := by
  have htransition := hstep.transition
  cases htransition with
  | search hsearching hnext =>
      rcases hnext with hlater | ⟨response, rfl, -⟩
      · unfold ToldWhy
        rename_i phase
        cases hphase : phase <;> simp [hphase, Phase.Searching] at hlater <;>
          simp [Call.goto]
      · cases hstep with
        | advance hadvance =>
            intro hcode
            have hmodel := (unavailable_of_search hadvance hsearching rfl (.inl hcode)).1
            rw [hcode] at hmodel
            exact absurd hmodel (by decide)
        | deliver hdeliver => exact absurd hsearching (waiting_of_deliver hdeliver)
  | recordRefusal _ => exact fun hcode => absurd (.inl hcode) (handle_available _)
  | fail _ hfailure =>
      rcases hfailure with ⟨failure, rfl, rfl⟩ | ⟨frame, rfl, -, rfl⟩
      · exact fun _ => ⟨rfl, failure, rfl⟩
      · exact fun htold => absurd htold (by simp [Unavailable, providerFailure, Response.code])
  | release hphase _ | keep hphase _ =>
      simp only [ToldWhy, hphase] at h
      exact h
  | recordFailure hphase =>
      simp only [ToldWhy, hphase] at h
      exact fun hcode => (h (.inl hcode)).2
  | settle _ _ => exact fun hcode => by cases hcode
  | returnCredits _ _ | keepCredits _ _ =>
      exact fun hcode => absurd (.inl hcode) (handle_available _)
  | create _ _ _ | refuse _ | reserve _ _ _ _ | dispatch _ | answer _ _ | unsettle _ _ =>
      exact trivial

/-- A request is told that its model is unavailable only where no candidate was found. -/
theorem no_candidate_of_told (h : ToldWhy call) (hadvance : call.advance P cfg env db =
    some (db', call')) {response : Response} (hdone : call'.phase = .done response)
    (hcode : response.code = some "model_unavailable") :
    ∃ auth request model, call.phase = .modelFound auth request model ∧
      routeRows model.id db = [] := by
  have htransition := transition_of_advance hadvance
  cases htransition with
  | search hsearching _ => exact (unavailable_of_search hadvance hsearching hdone (.inr hcode)).2
  | recordRefusal _ | returnCredits _ _ | keepCredits _ _ =>
      cases hdone
      exact absurd (.inr hcode) (handle_available _)
  | recordFailure hphase =>
      cases hdone
      simp only [ToldWhy, hphase] at h
      have hother := (h (.inr hcode)).1
      rw [hcode] at hother
      exact absurd hother (by decide)
  | settle _ _ =>
      cases hdone
      cases hcode
  | _ => cases hdone

theorem toldWhy_of_reaches {guard : ChatService → ServiceEvent → ChatService → Prop}
    {es : List ServiceEvent} {s : ChatService} (h : (chatMachine P cfg).Reaches guard es s) :
    ∀ call ∈ s.calls, ToldWhy call := by
  refine h.invariant (fun s => ∀ call ∈ s.calls, ToldWhy call) ?_ ?_
  · rintro s ⟨-, hcalls⟩ call hcall
    rw [hcalls] at hcall
    cases hcall
  · intro s e s' htold hnext _
    cases kind_of_next hnext with
    | background _ => exact htold
    | arrive _ =>
        intro call hcall
        rcases List.mem_append.mp hcall with hold | hnew
        · exact htold call hold
        · rw [List.mem_singleton.mp hnew]
          exact trivial
    | call hselect hstepped =>
        intro new hnew
        rcases ChatService.mem_put hnew with rfl | ⟨hold, -⟩
        · exact (htold _ (Table.mem_of_select hselect).1).step hstepped
        · exact htold new hold

end Told

/-- In every run a request is told that its model is unavailable only where there is no
candidate at all, and otherwise goes to the candidate with the most recent heartbeat; and it
is dispatched to that candidate's provider.  In every run in which that provider is registered
when it is looked up and its connection takes the request, the request is told that its
provider is unavailable only if that provider did not answer in time. -/
theorem only_chosen_candidate_counts (P : Platform) (cfg : Config) {id : Nat}
    {es : List ApiEvent} {s : Api} (hreach : (apiMachine P cfg).Reaches Machine.anyStep es s)
    {call : Call} (hcall : s.service.call id = some call) :
    (∀ env db' call' response, call.advance P cfg env s.service.db = some (db', call') →
        call'.phase = .done response → response.code = some "model_unavailable" →
          ∃ auth request model, call.phase = .modelFound auth request model ∧
            routeRows model.id s.service.db = []) ∧
      (∀ auth request model env db' call', call.phase = .modelFound auth request model →
        call.advance P cfg env s.service.db = some (db', call') →
        routeRows model.id s.service.db ≠ [] → ∃ job, call'.phase = .routed job ∧
          job.model = model ∧ isRoute model.id s.service.db job.route = true) ∧
      (∀ job jobID walletID dispatch, call.phase = .dispatched job jobID walletID →
        s.network.dispatch id = some dispatch →
          dispatch.providerPublicID = job.route.providerPublicID) ∧
      ((apiMachine P cfg).Reaches (OnNetwork (Serves id)) es s →
        ∀ response, call.phase = .done response →
          response.code = some "provider_unavailable" →
            call.outcome = some (.error .jobTimeout)) := by
  obtain ⟨hinv, htied⟩ := tied_of_reaches hreach
  obtain ⟨esService, hservice⟩ := service_reaches hreach
  have hmem := (Table.mem_of_select hcall).1
  have htold := toldWhy_of_reaches hservice call hmem
  have hshared : ∀ n e n', shared e = true → Serves id n e n' := by
    intro n e n' hevent
    cases e <;> first | exact trivial | cases hevent
  refine ⟨fun env db' call' response hadvance hdone hcode =>
    no_candidate_of_told htold hadvance hdone hcode,
    fun auth request model env db' call' hphase hadvance hsome => ?_,
    fun job jobID walletID dispatch hphase hdispatch => ?_,
    fun hserved response hdone hcode => ?_⟩
  · exact (route_or_unavailable hadvance hphase).resolve_left fun hnone => hsome hnone.1
  · obtain ⟨call', hcall', hpast | ⟨job', jobID', walletID', hphase', hprovider, -⟩⟩ :=
      htied.route id dispatch hdispatch
    · obtain rfl := Option.some.inj (hcall.symm.trans hcall')
      rw [hphase] at hpast
      exact hpast.1.elim
    · obtain rfl := Option.some.inj (hcall.symm.trans hcall')
      rw [hphase] at hphase'
      cases hphase'
      exact hprovider
  · obtain ⟨esNetwork, hnetwork⟩ := network_reaches hshared hserved
    simp only [ToldWhy, hdone] at htold
    obtain ⟨e, houtcome⟩ := htold hcode
    obtain ⟨dispatch, result, hdispatch, hphase, heq⟩ := htied.outcome id call _ hcall houtcome
    cases result with
    | ok delivery => cases heq
    | error e' =>
        cases heq
        have htimeout := timesOutOnly_of_reaches hnetwork dispatch e hdispatch (.inr hphase)
        rw [houtcome, htimeout]

/-! ## Sample runs -/

instance (id : DispatchID) (n : Network) (e : NetworkEvent) (n' : Network) :
    Decidable (Serves id n e n') :=
  match e with
  | .lookup looked => inferInstanceAs (Decidable (looked = id → ∀ dispatch ∈ n.dispatch id,
      (n.hub.providers dispatch.providerPublicID).isSome))
  | .write written refusal => inferInstanceAs (Decidable (written = id → refusal = none))
  | .accept .. => isTrue trivial
  | .register _ => isTrue trivial
  | .hello .. => isTrue trivial
  | .complete .. => isTrue trivial
  | .send _ => isTrue trivial
  | .drop _ => isTrue trivial
  | .unregister _ => isTrue trivial
  | .disconnect _ => isTrue trivial
  | .dispatch .. => isTrue trivial
  | .openJob _ => isTrue trivial
  | .receive _ => isTrue trivial
  | .timeout _ => isTrue trivial
  | .closeJob _ => isTrue trivial

/-- The provider has a candidate for the model in the database, and a connection in the
hub that its session reads and that was not closed. -/
def liveCandidate (modelID : UUID) (providerPublicID : String) (s : Api) : Bool :=
  (routeRows modelID s.service.db).any (fun row => row.2.providerPublicID == providerPublicID) &&
    (s.network.hub.providers providerPublicID).any fun provider =>
      (s.network.session provider.conn).any fun session =>
        session.phase == .reading && !session.closed

/-- The catalog with a candidate of a second provider, whose heartbeat is more recent. -/
def twoCandidates : Catalog :=
  { chatCatalog with
    instances := chatCatalog.instances ++
      [⟨34, "pin_z", 8, "key-z", "host", "linux", "amd64", "1", .online, some 9, none⟩]
    advertisements := chatCatalog.advertisements ++
      [⟨35, "pma_z", 8, 34, some 22, some 23, "ollama", "llama3:8b", "sha256:z", .approved⟩] }

/-- Two providers are candidates for the model; only `prv_b` is connected. -/
def candidateEvents : List ApiEvent :=
  ([.register 1 2 "usr_a" ⟨"a@example.com", "password", "Ada"⟩,
    .register 3 4 "usr_b" ⟨"b@example.com", "password", "Bob"⟩,
    .createProvider 5 6 "prv_b" "pvn_provider_b" 3 "box",
    .createProvider 8 9 "prv_z" "pvn_provider_z" 3 "other",
    .changeCatalog twoCandidates] : List ServiceEvent).map .service ++
  [.connect 0 "pvn_provider_b", .network (.register 0)]

/-- A request is sent on the most recent heartbeat to the other provider. -/
def staleEvents : List ApiEvent :=
  [.service (.arrive 0 "pvn_live_a_b" "req_a"
    (some ⟨"llama", [⟨"user", "hello"⟩], 50, none, false⟩))] ++
  List.replicate 6 (.service (.advance 0
    { sampleEnv with route := some ⟨8, "prv_z", 34, 23, "llama3:8b"⟩ })) ++
  [.dispatch 0, .network (.lookup 0), .deliver 0] ++
  List.replicate 2 (.service (.advance 0 sampleEnv))

/-- A connected provider is a candidate for the model from before the request arrives to
its end, and the request is told that no provider is connected. -/
theorem live_candidate_is_passed_over :
    ∃ s, (apiMachine samplePlatform sampleConfig).Reaches
        (fun _ _ s' => (s'.service.call 0).isSome = true → liveCandidate 22 "prv_b" s' = true)
        (candidateEvents ++ staleEvents) s ∧
      s.service.calls.map Call.phase = [.done (.error 503 "provider_unavailable"
        "No connected provider is currently available for this model.")] ∧
      (s.network.dispatch 0).map Dispatch.providerPublicID = some "prv_z" ∧
      s.network.hub.providers "prv_z" = none := by
  exact Machine.exists_of_exec start_freshApi (by decide +kernel)

/-- The provider of the request is connected and answers too late. -/
def timedOutEvents : List ApiEvent :=
  dispatchEvents.map .service ++
    [.connect 0 "pvn_provider_b", .network (.register 0), .dispatch 0, .network (.lookup 0),
      .network (.openJob 0), .network (.write 0 none), .network (.timeout 0),
      .network (.closeJob 0), .deliver 0, .service (.advance 0 sampleEnv),
      .service (.advance 0 sampleEnv)]

/-- With one candidate, which is connected and answers too late, the request is told that
its provider is unavailable, because of the timeout. -/
theorem late_candidate_is_unavailable :
    ∃ s call, (apiMachine samplePlatform sampleConfig).Reaches (OnNetwork (Serves 0))
        timedOutEvents s ∧
      s.service.call 0 = some call ∧ call.outcome = some (.error .jobTimeout) := by
  obtain ⟨s, hreach, hphase⟩ : ∃ s,
      (apiMachine samplePlatform sampleConfig).Reaches (OnNetwork (Serves 0)) timedOutEvents s ∧
        (s.service.call 0).map Call.phase = some (.done (.error 503 "provider_unavailable"
          "No connected provider is currently available for this model.")) :=
    Machine.exists_of_exec start_freshApi (by decide +kernel)
  obtain ⟨call, hcall, hdone⟩ := Option.map_eq_some_iff.mp hphase
  exact ⟨s, call, hreach, hcall,
    (only_chosen_candidate_counts samplePlatform sampleConfig
      (hreach.mono fun _ _ _ _ => trivial) hcall).2.2.2 hreach _ hdone rfl⟩

end Nuvonode.Contract
