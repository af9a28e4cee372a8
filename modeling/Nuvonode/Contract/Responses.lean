/-
  Contract/Responses.lean --- every request comes to an end.

  A request waits for the hub and for an answer, but for neither of them without a bound:
  it has at most fifteen steps, and as long as it has no response one of them can be
  taken, whatever the providers and the other requests do or do not do.
-/
import Nuvonode.Contract.Answers
import Nuvonode.Handler.Endings

set_option autoImplicit false

namespace Nuvonode.Contract

open Nuvonode.Foundation Nuvonode.Database Nuvonode.Repository Nuvonode.Service Nuvonode.Handler
  Nuvonode.Ws

/-- From every state that the server reaches, no request takes more than fifteen steps in
any run; and where every `WriteJSON` of the websocket package returns, all requests can be
brought to their responses by their own steps alone.  No session has to move for that, and
none of them times out that has its answer. -/
theorem requests_come_to_their_ends (P : Platform) (cfg : Config) {S : Sockets}
    {es : List ApiEvent} {t : S.Plugged Api}
    (hreach : (pluggedMachine P cfg S).Reaches Machine.anyStep es t) (hreturns : S.Returns) :
    (∀ id es' t', (pluggedMachine P cfg S).Steps Machine.anyStep t es' t' →
      es'.countP (ApiEvent.isOf id) ≤ 15) ∧
      ∃ es' t', (pluggedMachine P cfg S).Steps ByRequests t es' t' ∧
        es'.length ≤ 15 * t.system.service.calls.length ∧
        t'.system.service.calls.map Call.id = t.system.service.calls.map Call.id ∧
        ∀ call ∈ t'.system.service.calls, ∃ response, call.phase = .done response := by
  have hsystem : (apiMachine P cfg).Reaches Machine.anyStep es t.system :=
    Sockets.reaches_system (fun _ _ _ _ => trivial) hreach
  obtain ⟨hinv, -⟩ := tied_of_reaches hsystem
  constructor
  · intro id es' t' hsteps
    obtain ⟨-, hcount⟩ := hsteps.countP_add_le (fun _ => True) (fun u => u.system.remaining id)
      (ApiEvent.isOf id) trivial fun u e v _ hnext _ => by
        obtain ⟨hle, hlt⟩ := (Api.step_of_next hnext.1).remaining id
        exact ⟨trivial, hle, hlt⟩
    have hbound := t.system.remaining_le id
    omega
  · obtain ⟨es', t', hsteps, ⟨hinv', hids⟩, hended, -, hlength⟩ :=
      Machine.exists_all_end
        (fun u : S.Plugged Api => Invariant P u.system.service ∧ u.system.ids = t.system.ids)
        (fun id u => u.system.Ended id) 15
        (fun id u hu => by
          obtain ⟨es', t', hsteps, ⟨hinv', hids⟩, hended, hkeeps, hlength⟩ :=
            exists_response cfg id hreturns hu.1
          exact ⟨es', t', hsteps, ⟨hinv', hids.trans hu.2⟩, hended, hkeeps, hlength⟩)
        t.system.ids ⟨hinv, rfl⟩
    rw [Api.ids, List.length_map] at hlength
    refine ⟨es', t', hsteps, hlength, hids, fun call hcall => ?_⟩
    refine hended call.id ?_ call (Table.select_of_mem hinv'.ids hcall)
    rw [← hids]
    exact List.mem_map_of_mem hcall

/-- The sample request is about to be written to its provider, which is connected. -/
def openedEvents : List ApiEvent :=
  dispatchEvents.map .service ++
    [.connect 0 "pvn_provider_b", .network (.register 0), .dispatch 0, .network (.lookup 0),
      .network (.openJob 0)]

/-- The sample server with its connections, before anybody is connected. -/
def freshPluggedApi : sampleSockets.Plugged Api := { system := freshApi, conns := fun _ => true }

/-- Whether the sample request is about to be written. -/
def aboutToWrite (t : sampleSockets.Plugged Api) : Bool :=
  decide ((t.system.network.dispatch 0).map Dispatch.phase = some (.opened 0)) &&
    decide (t.system.service.calls.map Call.id = [0])

/-- The sample request gets a response though no provider answers it. -/
theorem sample_request_comes_to_its_end :
    ∃ t es' t' call response,
      (pluggedMachine samplePlatform sampleConfig sampleSockets).Reaches Machine.anyStep
        openedEvents t ∧ aboutToWrite t = true ∧
      (pluggedMachine samplePlatform sampleConfig sampleSockets).Steps ByRequests t es' t' ∧
      t'.system.service.calls = [call] ∧ call.id = 0 ∧ call.phase = .done response := by
  let next := nextPlugged (Api.next samplePlatform sampleConfig) Api.socketCall
  let before := (Machine.exec next (fun _ _ _ => true) freshPluggedApi openedEvents).getD
    freshPluggedApi
  obtain ⟨hrun, habout⟩ :
      (Machine.exec next (fun _ _ _ => true) freshPluggedApi openedEvents).isSome ∧
        aboutToWrite before = true := by
    decide +kernel
  have hreach : (pluggedMachine samplePlatform sampleConfig sampleSockets).Reaches Machine.anyStep
      openedEvents before :=
    ⟨freshPluggedApi, start_freshApi, steps_of_plugged (fun _ _ _ _ => trivial) hrun⟩
  obtain ⟨-, es', t', hsteps, -, hkept, hdone⟩ :=
    requests_come_to_their_ends samplePlatform sampleConfig hreach returns_sampleSockets
  have hids : before.system.service.calls.map Call.id = [0] :=
    of_decide_eq_true (Bool.and_eq_true_iff.mp habout).2
  obtain ⟨call, hcalls, hid⟩ : ∃ call, t'.system.service.calls = [call] ∧ call.id = 0 := by
    rw [hids] at hkept
    exact List.map_eq_singleton_iff.mp hkept
  obtain ⟨response, hphase⟩ := hdone call (hcalls ▸ List.mem_singleton.mpr rfl)
  exact ⟨before, es', t', call, response, hreach, habout, hsteps, hcalls, hid, hphase⟩

end Nuvonode.Contract
