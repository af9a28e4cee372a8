/-
  Contract/Administration.lean --- nobody is served until there is an administrator.

  Every route of a request leads over an approved advertisement, and only an administrator
  approves one.  Administrators come from registrations, where the settings ask for it.
-/
import Nuvonode.Contract.Spending
import Nuvonode.Handler.Authority

set_option autoImplicit false

namespace Nuvonode.Contract

open Nuvonode.Foundation Nuvonode.Database Nuvonode.Repository Nuvonode.Service Nuvonode.Handler
  Nuvonode.Ws

/-- In every run of the server that has no administrator yet, providers have the approval
they were created with, advertisements wait for a decision, requests are still looking or
were refused, there is no job and no usage, and the next step changes no model.  There is
none ever where the settings do not bootstrap one. -/
theorem nobody_is_served_without_administrator (P : Platform) (cfg : Config)
    {es : List MarketEvent} {m : Market}
    (hreach : (marketMachine P cfg).Reaches Machine.anyStep es m) :
    (NoAdmin m.db → Unattended cfg m ∧
      ∀ e m', m.next P cfg e = some m' → m'.db.catalog.models = m.db.catalog.models) ∧
      (cfg.bootstrapFirstUserAdmin = false → NoAdmin m.db) := by
  refine ⟨fun hnone => ⟨unattended_of_reaches hreach hnone, fun e m' hnext => ?_⟩,
    noAdmin_of_reaches hreach⟩
  exact models_of_noAdmin hnone (Market.step_of_next hnext)

/-- The sample deployment, which bootstraps no administrator. -/
def leaderlessConfig : Config := { sampleConfig with bootstrapFirstUserAdmin := false }

/-- Two users register, one brings a machine, and the other asks for what it advertises. -/
def leaderlessEvents : List MarketEvent :=
  openingEvents.dropLast ++ (requestEvents none).take 5 ++
    [.api (.service (.advance 0 { sampleEnv with route := none }))]

/-- The sample deployment after these events. -/
def leaderlessMarket : Market :=
  (Machine.exec (Market.next samplePlatform leaderlessConfig) (fun _ _ _ => true) freshMarket
    leaderlessEvents).getD freshMarket

/-- The request is turned away, with a machine online that has what it asks for. -/
theorem sample_request_is_turned_away :
    Unattended leaderlessConfig leaderlessMarket ∧
      leaderlessMarket.api.service.calls.map (fun call => call.phase) =
        [.done (.error 503 "model_unavailable"
          "No approved online provider is currently available for this model.")] := by
  have hrun : (Machine.exec (Market.next samplePlatform leaderlessConfig) (fun _ _ _ => true)
      freshMarket leaderlessEvents).isSome := by
    decide +kernel
  have hreach : (marketMachine samplePlatform leaderlessConfig).Reaches Machine.anyStep
      leaderlessEvents leaderlessMarket :=
    Machine.reaches_of_exec (fun _ _ _ _ => trivial) start_freshMarket hrun
  obtain ⟨hunattended, hnone⟩ := nobody_is_served_without_administrator samplePlatform
    leaderlessConfig hreach
  refine ⟨(hunattended (hnone rfl)).1, ?_⟩
  decide +kernel

end Nuvonode.Contract
