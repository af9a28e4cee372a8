/-
  Handler/Market.lean --- the server with its dashboard, its sweep and its clock.

  The server of `Handler/Api`, where the statements that change providers and catalog
  are those of the dashboard, of the sessions and of the sweep.  A statement happens at
  one time, and the clock never goes back.  A request that disables a provider has two
  steps: its statement, and then `Hub.Disconnect`.  That a key was used is written by a
  statement of its own, after the one that found the key.
-/
import Nuvonode.Handler.Api
import Nuvonode.Repository.Registry
import Nuvonode.Service.Management

set_option autoImplicit false

namespace Nuvonode.Handler

open Nuvonode.Foundation Nuvonode.Database Nuvonode.Repository Nuvonode.Service Nuvonode.Ws

/-! ## Requests of the dashboard -/

/-- What a user or an administrator sends; generated ids and keys are in it. -/
inductive DashboardRequest where
  | createProject (id : UUID) (publicID name : String) (limit : Option Int64)
  | createAPIKey (id : UUID) (publicID plaintext keyPrefix projectPublicID name : String)
  | revokeAPIKey (projectPublicID keyPublicID : String)
  | createModel (id : UUID) (publicID : String) (input : ModelInput)
  | updateModel (modelPublicID : String) (patch : ModelPatch)
  | pauseModel (modelPublicID : String)
  | setApproval (providerPublicID status : String)
  | disableProvider (providerPublicID : String)
  | setAdvertisementStatus (publicID status : String)
  deriving DecidableEq

/-- What a request of a user does to the database. -/
def DashboardRequest.run (P : Platform) (cfg : Config) (now : Nat) (user : UserRow) (db : DB) :
    DashboardRequest → Except Err DB
  | .createProject id publicID name limit =>
      (projectCreate now id publicID user name limit db).map Prod.snd
  | .createAPIKey id publicID plaintext keyPrefix projectPublicID name =>
      (projectCreateAPIKey P cfg id publicID plaintext keyPrefix user projectPublicID name db).map
        Prod.snd
  | .revokeAPIKey projectPublicID keyPublicID =>
      projectRevokeAPIKey now user projectPublicID keyPublicID db
  | .createModel id publicID input => (adminCreateModel id publicID user input db).map Prod.snd
  | .updateModel modelPublicID patch => (adminUpdateModel user modelPublicID patch db).map Prod.snd
  | .pauseModel modelPublicID => adminPauseModel user modelPublicID db
  | .setApproval providerPublicID status => adminSetProviderApproval user providerPublicID status db
  | .disableProvider providerPublicID => adminDisableProvider user providerPublicID db
  | .setAdvertisementStatus publicID status => adminSetAdvertisementStatus user publicID status db

/-- What a request shows where it succeeds. -/
def DashboardRequest.facts (db : DB) : DashboardRequest → List Fact
  | .createProject id _ _ limit => [.opened id limit]
  | .setApproval providerPublicID status =>
      match Table.select ProviderRow.publicID db.providers providerPublicID, decisionOf status with
      | some row, some approval => [.decided row.id approval]
      | _, _ => []
  | .disableProvider providerPublicID =>
      ((Table.select ProviderRow.publicID db.providers providerPublicID).map fun row =>
        Fact.disabled row.id).toList
  | .setAdvertisementStatus publicID status =>
      ((advertisementStatusOf status).map (Fact.judged publicID)).toList
  | _ => []

/-! ## Frames of a session -/

/-- What a session reads when it has an instance; a `provider.model_list` is one for each
of its models. -/
inductive ProviderFrame where
  | heartbeat (status : String) (currentJobID : Option String)
  | hardwareReport (cpuModel : String) (ramMB : Int64) (gpuName : String) (gpuVRAMMB : Int64)
      (gpuDriver : String)
  | modelList (id : UUID) (publicID : String) (unseen : List String)
      (matched : Option ModelVersionRow) (runtime runtimeModelName digest : String)
  deriving DecidableEq

/-- What a frame does to the database. -/
def ProviderFrame.run (now : Nat) (providerID instanceID : UUID) (db : DB) :
    ProviderFrame → Except Err DB
  | .heartbeat status currentJobID => providerHeartbeat now instanceID status currentJobID db
  | .hardwareReport cpuModel ramMB gpuName gpuVRAMMB gpuDriver =>
      insertHardwareReport instanceID cpuModel ramMB gpuName gpuVRAMMB gpuDriver db
  | .modelList id publicID unseen matched runtime runtimeModelName digest =>
      providerModelListEntry id publicID unseen matched providerID instanceID runtime
        runtimeModelName digest db

/-- Whether the version that a frame comes with is one its statement may match. -/
def ProviderFrame.possible (db : DB) : ProviderFrame → Bool
  | .modelList _ _ _ matched runtime runtimeModelName _ =>
      isMatch (listRuntime runtime) runtimeModelName db matched
  | _ => true

/-- What a frame shows where it succeeds. -/
def ProviderFrame.facts (providerID instanceID : UUID) (db : DB) : ProviderFrame → List Fact
  | .heartbeat status _ =>
      ((instanceStatusOf status).map (Fact.reported instanceID)).toList
  | .hardwareReport .. => []
  | .modelList _ publicID unseen _ runtime runtimeModelName _ =>
      if trimSpace runtimeModelName = "" then []
      else advertisedFacts publicID unseen providerID instanceID (listRuntime runtime)
        runtimeModelName db

/-! ## The market -/

structure Market where
  api : Api
  /-- The time in microseconds. -/
  clock : Nat
  /-- The providers whose request to be disabled has run its statement. -/
  disabling : List String
  /-- The providers whose request to be disabled has returned. -/
  disabled : List String

inductive MarketEvent where
  /-- Anything of the server but what the events below do. -/
  | api (e : ApiEvent)
  | hello (conn : ConnID) (id : UUID) (publicID : String) (payload : HelloPayload)
  | frame (conn : ConnID) (f : ProviderFrame)
  | request (userPublicID : String) (r : DashboardRequest)
  /-- `Handler.DisableProvider` closes the connection, and returns. -/
  | disconnect (providerPublicID : String)
  /-- The second statement of `Store.ResolveAPIKey`, for a request of whatever kind. -/
  | useKey (apiKeyID : UUID)
  /-- `sweepProviderTimeouts`, of a tick at the time `now`; its statement succeeds. -/
  | sweep (now : Nat)
  | tick (elapsed : Nat)
  deriving DecidableEq

/-- The events of the server that the events of the market stand for. -/
def elsewhere : ApiEvent → Bool
  | .service (.setApproval ..) => true
  | .service (.disableProvider ..) => true
  | .service (.changeCatalog _) => true
  | .network (.disconnect _) => true
  | .hello .. => true
  | _ => false

namespace Market

/-- The database. -/
def db (m : Market) : DB := m.api.service.db

/-- The market with another server. -/
def serving (m : Market) (api : Api) : Market := { m with api }

/-- The market on another database. -/
def on (m : Market) (db : DB) : Market := m.serving (m.api.serve (m.api.service.on db))

/-- A request that disables a provider goes on after its statement. -/
def pursue (m : Market) : DashboardRequest → Market
  | .disableProvider providerPublicID => { m with disabling := providerPublicID :: m.disabling }
  | _ => m

/-- A request that disables a provider returns. -/
def conclude (m : Market) (providerPublicID : String) : Market :=
  { m with
    disabling := m.disabling.erase providerPublicID
    disabled := providerPublicID :: m.disabled }

section Next

variable (P : Platform) (cfg : Config)

/-- What an event does; `none` where it cannot happen. -/
def next (m : Market) : MarketEvent → Option Market
  | .api e => if elsewhere e then none else (m.api.next P cfg e).map m.serving
  | .hello conn id publicID payload =>
      (m.api.next P cfg (.hello conn m.clock id publicID payload)).map m.serving
  | .frame conn f => do
      let session ← m.api.network.session conn
      if session.phase = .reading ∧ f.possible m.db then
        match session.instanceID with
        | none => some m
        | some instanceID =>
            some (m.on (orSame m.db (f.run m.clock session.providerID instanceID m.db)))
      else none
  | .request userPublicID r =>
      match userFromJWT userPublicID m.db with
      | .error _ => some m
      | .ok user =>
          match r.run P cfg m.clock user m.db with
          | .error _ => some m
          | .ok db => some ((m.on db).pursue r)
  | .disconnect providerPublicID =>
      if providerPublicID ∈ m.disabling then
        (m.api.next P cfg (.network (.disconnect providerPublicID))).map fun api =>
          (m.serving api).conclude providerPublicID
      else none
  | .useKey apiKeyID => some (m.on (useAPIKey m.clock apiKeyID m.db))
  | .sweep now => if now ≤ m.clock then some (m.on (markOfflineTimedOut cfg now m.db)) else none
  | .tick elapsed => some { m with clock := m.clock + elapsed }

end Next

/-- The call of the websocket package that an event makes. -/
def socketCall (m : Market) : MarketEvent → Option SocketCall
  | .api e => m.api.socketCall e
  | .disconnect providerPublicID => m.api.network.socketCall (.disconnect providerPublicID)
  | _ => none

end Market

/-- A database with models and their versions in it, and nothing else. -/
def Opening (db : DB) : Prop := ∃ models modelVersions,
  Table.Unique ModelVersionRow.id modelVersions ∧
    db = DB.seeded ⟨[], [], models, modelVersions, [], [], []⟩

/-- The market, without a user, a session or a request at first. -/
abbrev marketMachine (P : Platform) (cfg : Config) : Machine Market MarketEvent :=
  Machine.ofNext (fun m => (Opening m.db ∧ m.api.service.calls = []) ∧ m.api.network = .start ∧
    m.disabling = [] ∧ m.disabled = []) (Market.next P cfg)

/-! ## What an event can do -/

/-- One step of the market. -/
inductive Market.Step (P : Platform) (cfg : Config) (m : Market) : MarketEvent → Market → Prop where
  | api {e : ApiEvent} {api : Api} : elsewhere e = false → m.api.Step P cfg e api →
      m.Step P cfg (.api e) (m.serving api)
  | hello {conn : ConnID} {id : UUID} {publicID : String} {payload : HelloPayload} {api : Api} :
      m.api.Step P cfg (.hello conn m.clock id publicID payload) api →
      m.Step P cfg (.hello conn id publicID payload) (m.serving api)
  | frame {conn : ConnID} {f : ProviderFrame} {session : Session} {instanceID : UUID} {db : DB} :
      m.api.network.session conn = some session → session.phase = .reading →
      session.instanceID = some instanceID → f.possible m.db = true →
      f.run m.clock session.providerID instanceID m.db = .ok db →
      m.Step P cfg (.frame conn f) (m.on db)
  | ignore {conn : ConnID} {f : ProviderFrame} {session : Session} :
      m.api.network.session conn = some session →
      (∀ instanceID ∈ session.instanceID,
        ∃ e, f.run m.clock session.providerID instanceID m.db = .error e) →
      m.Step P cfg (.frame conn f) m
  | request {userPublicID : String} {user : UserRow} {r : DashboardRequest} {db : DB} :
      userFromJWT userPublicID m.db = .ok user → r.run P cfg m.clock user m.db = .ok db →
      m.Step P cfg (.request userPublicID r) ((m.on db).pursue r)
  | refuse {userPublicID : String} {r : DashboardRequest} :
      (∀ user, userFromJWT userPublicID m.db = .ok user →
        ∃ e, r.run P cfg m.clock user m.db = .error e) →
      m.Step P cfg (.request userPublicID r) m
  | disconnect {providerPublicID : String} {network : Network} : providerPublicID ∈ m.disabling →
      m.api.network.next (.disconnect providerPublicID) = some network →
      m.Step P cfg (.disconnect providerPublicID)
        ((m.serving (m.api.connected network)).conclude providerPublicID)
  | useKey {apiKeyID : UUID} :
      m.Step P cfg (.useKey apiKeyID) (m.on (useAPIKey m.clock apiKeyID m.db))
  | sweep {now : Nat} : now ≤ m.clock →
      m.Step P cfg (.sweep now) (m.on (markOfflineTimedOut cfg now m.db))
  | tick {elapsed : Nat} : m.Step P cfg (.tick elapsed) { m with clock := m.clock + elapsed }

section Steps

variable {P : Platform} {cfg : Config} {m m' : Market} {e : MarketEvent}

theorem Market.step_of_next (h : m.next P cfg e = some m') : m.Step P cfg e m' := by
  cases e with
  | api e =>
      simp only [Market.next] at h
      split at h
      · cases h
      · obtain ⟨api, hnext, rfl⟩ := Option.map_eq_some_iff.mp h
        exact .api (Bool.not_eq_true _ ▸ ‹_›) (Api.step_of_next hnext)
  | hello conn id publicID payload =>
      obtain ⟨api, hnext, rfl⟩ := Option.map_eq_some_iff.mp h
      exact .hello (Api.step_of_next hnext)
  | frame conn f =>
      obtain ⟨session, hsession, h⟩ := Option.bind_eq_some_iff.mp h
      split at h
      · rename_i hboth
        split at h
        · rename_i hnone
          cases h
          refine .ignore hsession fun instanceID hinstance => ?_
          rw [hnone] at hinstance
          cases hinstance
        · rename_i instanceID hinstance
          cases h
          cases hrun : f.run m.clock session.providerID instanceID m.db with
          | ok db => exact .frame hsession hboth.1 hinstance hboth.2 hrun
          | error err =>
              refine .ignore hsession fun other hother => ?_
              obtain rfl := Option.some.inj (hinstance.symm.trans hother)
              exact ⟨err, hrun⟩
      · cases h
  | request userPublicID r =>
      simp only [Market.next] at h
      split at h
      · rename_i err huser
        cases h
        refine .refuse fun user hother => ?_
        rw [huser] at hother
        cases hother
      · rename_i user huser
        split at h
        · rename_i err hrun
          cases h
          refine .refuse fun other hother => ?_
          rw [huser] at hother
          cases hother
          exact ⟨err, hrun⟩
        · rename_i db hrun
          cases h
          exact .request huser hrun
  | disconnect providerPublicID =>
      simp only [Market.next] at h
      split at h
      · obtain ⟨api, hnext, rfl⟩ := Option.map_eq_some_iff.mp h
        cases Api.step_of_next hnext with
        | network _ hnetwork => exact .disconnect ‹_› hnetwork
      · cases h
  | useKey apiKeyID =>
      cases h
      exact .useKey
  | sweep now =>
      simp only [Market.next] at h
      split at h
      · cases h
        exact .sweep ‹_›
      · cases h
  | tick elapsed =>
      cases h
      exact .tick

end Steps

end Nuvonode.Handler
