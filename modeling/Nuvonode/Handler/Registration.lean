/-
  Handler/Registration.lean --- what a step of the market does to providers and catalog.

  A chat request leaves the registry alone.  Every other step changes it by one
  statement, and shows what that statement shows; the requests and the hub take a step
  of their own, or none.
-/
import Nuvonode.Handler.Market

set_option autoImplicit false

namespace Nuvonode.Handler

open Nuvonode.Foundation Nuvonode.Database Nuvonode.Repository Nuvonode.Service Nuvonode.Ws

/-! ## Statements that leave the registry alone -/

section Alone

variable {P : Platform} {cfg : Config} {db db' : DB} {walletID : UUID} {entryType : EntryType}
  {amount reservedDelta : Int64} {reason : String} {createdBy : Option UUID}

theorem registry_posted
    (h : Posted walletID entryType amount reservedDelta reason createdBy db db') :
    registry db' = registry db := by
  rw [h.frame]
  rfl

theorem registry_postedIf {c : Prop}
    (h : PostedIf c walletID entryType amount reservedDelta reason db db') :
    registry db' = registry db := by
  rw [h.frame]
  rfl

theorem registry_settled {input : UsageSettlement} (h : Settled input db db') :
    registry db' = registry db := by
  obtain ⟨db₁, db₂, db₃, source, stats, h₁, h₂, h₃, -, -, rfl⟩ := h.effect
  calc registry (settle input source stats db₃) = registry db₃ := rfl
    _ = registry db₂ := registry_postedIf h₃
    _ = registry db₁ := registry_postedIf h₂
    _ = registry db := registry_postedIf h₁

theorem registry_markJobFailed (db : DB) (jobID : UUID) {status : JobStatus}
    {code message : String} :
    registry (afterwards (markJobFailed jobID status code message) db) = registry db := by
  rcases afterwards_markJobFailed db jobID with hsame | ⟨-, stats, hfailed⟩
  · rw [hsame]
  · rw [hfailed]
    rfl

/-- No step of a chat request writes a provider or the catalog. -/
theorem registry_of_transition {call call' : Call} (h : Transition P db call db' call') :
    registry db' = registry db := by
  cases h with
  | reserve _ _ _ hposted => exact registry_posted hposted
  | recordRefusal _ => exact registry_markJobFailed db _
  | release _ hposted => exact registry_posted hposted
  | recordFailure _ => exact registry_markJobFailed db _
  | settle _ hsettled => exact registry_settled hsettled
  | returnCredits _ hposted => exact registry_posted hposted
  | _ => rfl

theorem registry_register {userID walletID : UUID} {publicID : String} {input : RegisterInput} :
    registry (afterwards (register P cfg userID walletID publicID input) db) = registry db := by
  unfold afterwards
  split
  · rename_i hexec
    obtain ⟨ws, hyields, rfl⟩ := yields_of_exec hexec
    obtain ⟨-, -, hposted⟩ := yields_register hyields
    rw [registry_posted hposted]
    rfl
  · rfl

theorem registry_adminAdjust {actorUserID : UUID} {target : String} :
    registry (afterwards (adminAdjust actorUserID target amount reason) db) = registry db := by
  obtain ⟨wallets, walletLedger, auditLog, hdb⟩ := afterwards_adminAdjust db actorUserID target
    reason amount
  rw [hdb]
  rfl

end Alone

/-! ## New providers -/

/-- What the creation of a provider shows. -/
def createdFacts (providerID : UUID) (db db' : DB) : List Fact :=
  match db.provider providerID, db'.provider providerID with
  | none, some row => [.created providerID row.approvalStatus]
  | _, _ => []

theorem createdFacts_self (providerID : UUID) (db : DB) : createdFacts providerID db db = [] := by
  unfold createdFacts
  cases db.provider providerID <;> rfl

/-- A provider is created with its wallet, or nothing happens. -/
theorem change_createProvider {P : Platform} {cfg : Config} {now : Nat} {db db' : DB}
    {providerID walletID ownerUserID : UUID} {publicID token name : String}
    (h : afterwards (createProviderAccount P cfg providerID walletID publicID token ownerUserID
      name) db = db') :
    (registry db).Change now (createdFacts providerID db db') (registry db') ∧
      ∀ id approval, .created id approval ∈ createdFacts providerID db db' →
        approval = initialApproval cfg := by
  unfold afterwards at h
  split at h
  · rename_i r db₁ hexec
    subst h
    obtain ⟨ws, hyields, rfl⟩ := yields_of_exec hexec
    obtain ⟨hnew, -, hresult⟩ := yields_createProviderAccount hyields
    have hfree : Table.select ProviderRow.id db.providers r.id = none := hnew.id_eq ▸ hnew.freshID
    have hpublicID : Table.select ProviderRow.publicID db.providers r.publicID = none :=
      hnew.publicID_eq ▸ hnew.freshPublicID
    -- The row that is inserted is the one that is given its wallet.
    have hinsert : registry (store.applyAll db ws) = (registry db).withProviders
        (Table.insert db.providers (r.setWallet walletID)) := by
      rw [hresult]
      have hupdate : Table.update ProviderRow.id (Table.insert db.providers r) r.id
          (ProviderRow.setWallet walletID) = _ := Table.update_insert_self hfree
      rw [hnew.id_eq] at hupdate
      exact congrArg (registry db).withProviders hupdate
    have hselect : (store.applyAll db ws).provider providerID = some (r.setWallet walletID) := by
      have hproviders : (store.applyAll db ws).providers =
          Table.insert db.providers (r.setWallet walletID) := congrArg Registry.providers hinsert
      have hself : Table.select ProviderRow.id (Table.insert db.providers (r.setWallet walletID))
          (r.setWallet walletID).id = _ := Table.select_insert_self hfree
      have hid : (r.setWallet walletID).id = providerID := hnew.id_eq
      rw [DB.provider, hproviders, ← hid, hself]
    have hfacts : createdFacts providerID db (store.applyAll db ws) =
        [.created (r.setWallet walletID).id (r.setWallet walletID).approvalStatus] := by
      have hnone : db.provider providerID = none := hnew.freshID
      have hid : (r.setWallet walletID).id = providerID := hnew.id_eq
      rw [createdFacts, hnone, hselect, hid]
    rw [hfacts, hinsert]
    refine ⟨.create hfree hpublicID hnew.active, fun id approval hmem => ?_⟩
    cases List.mem_singleton.mp hmem
    exact hnew.approval_eq
  · subst h
    rw [createdFacts_self]
    exact ⟨.same, fun _ _ hmem => absurd hmem List.not_mem_nil⟩

/-! ## Requests and frames -/

section Statements

variable {P : Platform} {cfg : Config} {now : Nat} {db db' : DB}

/-- A request changes the registry as its statement does. -/
theorem registers_request {user : UserRow} {r : DashboardRequest}
    (h : r.run P cfg now user db = .ok db') : Registers now db (r.facts db) db' := by
  cases r with
  | createProject id publicID name limit =>
      obtain ⟨⟨row, db₁⟩, hcreate, rfl⟩ := eq_ok_of_map h
      obtain ⟨hregisters, hid, hlimit⟩ := registers_createProject (projectCreate_eq_ok hcreate)
      rw [hid, hlimit] at hregisters
      exact hregisters
  | createAPIKey id publicID plaintext keyPrefix projectPublicID name =>
      obtain ⟨⟨row, db₁⟩, hcreate, rfl⟩ := eq_ok_of_map h
      obtain ⟨project, -, hkey⟩ := projectCreateAPIKey_eq_ok hcreate
      exact registers_createAPIKey hkey
  | revokeAPIKey projectPublicID keyPublicID =>
      obtain ⟨project, -, hrevoke⟩ := projectRevokeAPIKey_eq_ok h
      exact registers_revokeAPIKey hrevoke
  | createModel id publicID input =>
      obtain ⟨⟨row, db₁⟩, hcreate, rfl⟩ := eq_ok_of_map h
      obtain ⟨-, hcreate⟩ := eq_ok_of_adminOnly hcreate
      split at hcreate
      · exact registers_createModel hcreate
      · cases hcreate
  | updateModel modelPublicID patch =>
      obtain ⟨⟨row, db₁⟩, hupdate, rfl⟩ := eq_ok_of_map h
      obtain ⟨-, hupdate⟩ := eq_ok_of_adminOnly hupdate
      split at hupdate
      · exact registers_updateModel hupdate
      · cases hupdate
  | pauseModel modelPublicID => exact registers_pauseModel (eq_ok_of_adminOnly h).2
  | setApproval providerPublicID status =>
      obtain ⟨-, h⟩ := eq_ok_of_adminOnly h
      simp only [DashboardRequest.facts]
      split at h
      · rename_i approval hdecision
        obtain ⟨row, hselect, hregisters⟩ := registers_updateProviderApproval h
        simp only [hselect, hdecision]
        exact hregisters
      · cases h
  | disableProvider providerPublicID =>
      obtain ⟨-, h⟩ := eq_ok_of_adminOnly h
      obtain ⟨row, hselect, hregisters⟩ := registers_disableProvider h
      rw [DashboardRequest.facts, hselect]
      exact hregisters
  | setAdvertisementStatus publicID status =>
      obtain ⟨-, h⟩ := eq_ok_of_adminOnly h
      split at h
      · obtain ⟨parsed, hparsed, hregisters⟩ := registers_updateAdvertisementStatus h
        rw [DashboardRequest.facts, hparsed]
        exact hregisters
      · cases h

/-- A frame changes the registry as its statement does. -/
theorem registers_frame {providerID instanceID : UUID} {f : ProviderFrame}
    (hpossible : f.possible db = true) (h : f.run now providerID instanceID db = .ok db') :
    Registers now db (f.facts providerID instanceID db) db' := by
  cases f with
  | heartbeat status currentJobID =>
      simp only [ProviderFrame.run, providerHeartbeat] at h
      split at h
      · cases h
      · rename_i hvalid
        -- The three statuses that pass the check are stored as they are.
        have hcases : status = "online" ∨ status = "busy" ∨ status = "draining" := by
          by_contra hnot
          exact hvalid ⟨fun heq => hnot (.inl heq), fun heq => hnot (.inr (.inl heq)),
            fun heq => hnot (.inr (.inr heq))⟩
        rcases hcases with rfl | rfl | rfl
        · exact registers_updateProviderHeartbeat (by decide) (by decide) h
        · exact registers_updateProviderHeartbeat (by decide) (by decide) h
        · exact registers_updateProviderHeartbeat (by decide) (by decide) h
  | hardwareReport cpuModel ramMB gpuName gpuVRAMMB gpuDriver =>
      exact registers_insertHardwareReport h
  | modelList id publicID unseen matched runtime runtimeModelName digest =>
      simp only [ProviderFrame.run, providerModelListEntry] at h
      simp only [ProviderFrame.facts]
      split at h
      · rename_i hblank
        cases h
        rw [if_pos hblank]
        exact .refl now db
      · rename_i hname
        rw [if_neg hname]
        exact registers_upsertProviderModelAdvertisement hpossible h

/-- A frame writes the instances, the hardware reports and the advertisements. -/
theorem writes_frame {providerID instanceID : UUID} {f : ProviderFrame}
    (h : f.run now providerID instanceID db = .ok db') :
    ∃ instances advertisements hardwareReports,
      db' = { db with
        catalog := { db.catalog with instances, advertisements, hardwareReports } } := by
  cases f with
  | heartbeat status currentJobID =>
      simp only [ProviderFrame.run, providerHeartbeat] at h
      split at h
      · cases h
      · obtain ⟨parsed, job, -, rfl⟩ := updateProviderHeartbeat_eq_ok h
        exact ⟨_, _, _, rfl⟩
  | hardwareReport cpuModel ramMB gpuName gpuVRAMMB gpuDriver =>
      obtain ⟨row, -, rfl⟩ := insertHardwareReport_eq_ok h
      exact ⟨_, _, _, rfl⟩
  | modelList id publicID unseen matched runtime runtimeModelName digest =>
      simp only [ProviderFrame.run, providerModelListEntry] at h
      split at h
      · cases h
        exact ⟨_, _, _, rfl⟩
      · obtain ⟨advertisements, rfl⟩ := upsertProviderModelAdvertisement_eq_ok h
        exact ⟨_, _, _, rfl⟩

/-- A hello reports an instance of the session's provider. -/
theorem registers_upsertInstance {id providerID : UUID} {publicID : String}
    {payload : HelloPayload} {row : InstanceRow}
    (h : upsertInstance now id providerID publicID payload db = .ok (row, db')) :
    Registers now db [.reported row.id .online] db' ∧ row.providerID = providerID ∧
      row ∈ db'.catalog.instances := by
  unfold upsertInstance at h
  split at h
  · cases h
  · exact registers_upsertProviderInstance h

end Statements

/-! ## The steps of the market -/

/-- What a step of the server shows. -/
def createdBy (e : ApiEvent) (db db' : DB) : List Fact :=
  match e with
  | .service (.createProvider providerID ..) => createdFacts providerID db db'
  | _ => []

/-- What a step shows. -/
def Market.shows (P : Platform) (cfg : Config) (m : Market) (e : MarketEvent) (m' : Market) :
    List Fact :=
  match e with
  | .api e => createdBy e m.db m'.db
  | .hello conn .. =>
      (((m'.api.network.session conn).bind Session.instanceID).map fun instanceID =>
        Fact.reported instanceID .online).toList
  | .frame conn f =>
      match m.api.network.session conn with
      | none => []
      | some session =>
          match session.instanceID with
          | none => []
          | some instanceID =>
              match f.run m.clock session.providerID instanceID m.db with
              | .ok _ => f.facts session.providerID instanceID m.db
              | .error _ => []
  | .request userPublicID r =>
      match userFromJWT userPublicID m.db with
      | .error _ => []
      | .ok user =>
          match r.run P cfg m.clock user m.db with
          | .ok _ => r.facts m.db
          | .error _ => []
  | _ => []

section Steps

variable {P : Platform} {cfg : Config} {now : Nat}

theorem db_of_createProvider {s s' : ChatService} {providerID walletID ownerUserID : UUID}
    {publicID token name : String}
    (h : Handler.next P cfg s
      (.createProvider providerID walletID publicID token ownerUserID name) =
      some s') :
    afterwards (createProviderAccount P cfg providerID walletID publicID token ownerUserID name)
      s.db = s'.db := by
  have hdb : ∀ db, (s.on db).db = db := fun _ => rfl
  rw [← Option.some.inj h, hdb]

/-- A step of the requests leaves the registry alone, or is the creation of a provider. -/
theorem registry_of_next {s s' : ChatService} {e : ServiceEvent}
    (hlocal : elsewhere (.service e) = false) (h : Handler.next P cfg s e = some s') :
    registry s'.db = registry s.db ∨ ∃ providerID walletID publicID token ownerUserID name,
      e = .createProvider providerID walletID publicID token ownerUserID name := by
  cases e with
  | register userID walletID publicID input =>
      rw [← Option.some.inj h]
      exact .inl registry_register
  | createProvider providerID walletID publicID token ownerUserID name =>
      exact .inr ⟨providerID, walletID, publicID, token, ownerUserID, name, rfl⟩
  | adminAdjust actorUserID target amount reason =>
      rw [← Option.some.inj h]
      exact .inl registry_adminAdjust
  | setApproval _ _ _ | disableProvider _ _ | changeCatalog _ => cases hlocal
  | arrive id bearer requestID body =>
      simp only [Handler.next] at h
      split at h
      · rw [← Option.some.inj h]
        exact .inl rfl
      · cases h
  | advance id env =>
      obtain ⟨call, -, h⟩ := Option.bind_eq_some_iff.mp h
      obtain ⟨⟨db, call'⟩, hadvance, h⟩ := Option.bind_eq_some_iff.mp h
      rw [← Option.some.inj h]
      exact .inl (registry_of_transition (transition_of_advance hadvance))
  | deliver id outcome =>
      obtain ⟨call, -, h⟩ := Option.bind_eq_some_iff.mp h
      obtain ⟨call', -, h⟩ := Option.bind_eq_some_iff.mp h
      rw [← Option.some.inj h]
      exact .inl rfl

/-- A step of the requests creates a provider, or leaves the registry alone. -/
theorem change_of_next {s s' : ChatService} {e : ServiceEvent}
    (hlocal : elsewhere (.service e) = false) (h : Handler.next P cfg s e = some s') :
    (registry s.db).Change now (createdBy (.service e) s.db s'.db) (registry s'.db) := by
  cases e with
  | createProvider providerID walletID publicID token ownerUserID name =>
      exact (change_createProvider (db_of_createProvider h)).1
  | _ =>
      rcases registry_of_next hlocal h with hsame | ⟨_, _, _, _, _, _, heq⟩
      · exact .of_eq hsame
      · cases heq

/-- A step of the server changes the registry as the creation of a provider does, or not. -/
theorem change_of_api {s s' : Api} {e : ApiEvent} (hlocal : elsewhere e = false)
    (h : s.Step P cfg e s') :
    (registry s.service.db).Change now (createdBy e s.service.db s'.service.db)
      (registry s'.service.db) := by
  cases h with
  | service _ hnext => exact change_of_next hlocal hnext
  | deliver _ _ hnext => exact change_of_next rfl hnext
  | hello _ _ _ _ | refuseHello _ => cases hlocal
  | _ => exact .same

/-- The session after a hello. -/
theorem session_of_hello {n n' : Network} {conn : ConnID} {instanceID : Option UUID}
    (h : n.next (.hello conn instanceID) = some n') :
    (n'.session conn).bind Session.instanceID = instanceID := by
  cases Network.step_of_next h with
  | hello _ _ =>
      rw [Network.session_setSession, if_pos rfl]
      rfl

variable {m m' : Market} {e : MarketEvent}

/-- Every step changes the registry as its statement does. -/
theorem Market.Step.change (h : m.Step P cfg e m') :
    (registry m.db).Change m.clock (m.shows P cfg e m') (registry m'.db) := by
  cases h with
  | api hlocal hstep => exact change_of_api hlocal hstep
  | hello hstep =>
      simp only [Market.shows]
      cases hstep with
      | @refuseHello _ _ _ _ _ network hnext =>
          have hnone : ((m.serving (m.api.connected network)).api.network.session _).bind
            Session.instanceID = _ := session_of_hello hnext
          rw [hnone]
          exact .same
      | hello hsession hupsert _ hnext =>
          have hsome := session_of_hello hnext
          simp only [Market.serving, Api.connected, hsome]
          exact (registers_upsertInstance hupsert).1.change
  | frame hsession hphase hinstance hpossible hrun =>
      simp only [Market.shows, hsession, hinstance, hrun]
      exact (registers_frame hpossible hrun).change
  | @ignore conn f session hsession hrefused =>
      have hshows : m.shows P cfg (.frame conn f) m = [] := by
        simp only [Market.shows, hsession]
        cases hinstance : session.instanceID with
        | none => rfl
        | some instanceID =>
            obtain ⟨err, hrun⟩ := hrefused instanceID hinstance
            simp only [hrun]
      rw [hshows]
      exact .same
  | request huser hrun =>
      simp only [Market.shows, huser, hrun]
      have hdb : ∀ (n : Market) (r : DashboardRequest), (n.pursue r).db = n.db := by
        intro n r
        cases r <;> rfl
      rw [hdb]
      exact (registers_request hrun).change
  | @refuse userPublicID r hrefused =>
      have hshows : m.shows P cfg (.request userPublicID r) m = [] := by
        simp only [Market.shows]
        split
        · rfl
        · rename_i user huser
          obtain ⟨err, hrun⟩ := hrefused user huser
          simp only [hrun]
      rw [hshows]
      exact .same
  | disconnect _ _ => exact .same
  | useKey => exact (registers_useAPIKey _).change
  | sweep _ => exact .expire
  | tick => exact .same

end Steps

/-! ## Who shows what -/

section Shows

variable {P : Platform} {cfg : Config} {m m' : Market} {e : MarketEvent} {db db' : DB} {fact : Fact}

/-- Whether an event is one of a provider's connection. -/
def ofProvider : MarketEvent → Bool
  | .hello .. | .frame .. | .api (.connect ..) | .api (.network _) => true
  | _ => false

theorem sent_of_frame {f : ProviderFrame} {providerID instanceID : UUID}
    (h : fact ∈ f.facts providerID instanceID db) : fact.sent = true := by
  cases f with
  | heartbeat status currentJobID =>
      obtain ⟨reported, -, rfl⟩ := Option.map_eq_some_iff.mp (Option.mem_toList.mp h)
      rfl
  | hardwareReport => cases h
  | modelList =>
      simp only [ProviderFrame.facts] at h
      split at h
      · cases h
      · unfold advertisedFacts at h
        rcases List.mem_cons.mp h with rfl | h
        · rfl
        · split at h
          · cases h
          · obtain rfl := List.mem_singleton.mp h
            rfl

theorem asked_of_request {r : DashboardRequest} (h : fact ∈ r.facts db) : fact.asked = true := by
  cases r with
  | createProject =>
      obtain rfl := List.mem_singleton.mp h
      rfl
  | setApproval providerPublicID status =>
      simp only [DashboardRequest.facts] at h
      split at h
      · obtain rfl := List.mem_singleton.mp h
        rfl
      · cases h
  | disableProvider providerPublicID =>
      obtain ⟨row, -, rfl⟩ := Option.map_eq_some_iff.mp (Option.mem_toList.mp h)
      rfl
  | setAdvertisementStatus publicID status =>
      obtain ⟨parsed, -, rfl⟩ := Option.map_eq_some_iff.mp (Option.mem_toList.mp h)
      rfl
  | _ => cases h

theorem created_of_service {providerID : UUID} (h : fact ∈ createdFacts providerID db db') :
    ∃ approval, fact = .created providerID approval := by
  unfold createdFacts at h
  split at h
  · exact ⟨_, List.mem_singleton.mp h⟩
  · cases h

/-- A fact is the creation of a provider, or is sent by a session, or is asked for. -/
theorem shows_cases (h : fact ∈ m.shows P cfg e m') :
    (∃ a, e = .api a ∧ fact ∈ createdBy a m.db m'.db) ∨
      ofProvider e = true ∧ fact.sent = true ∨
      ∃ userPublicID r, e = .request userPublicID r ∧ fact ∈ r.facts m.db := by
  cases e with
  | api a => exact .inl ⟨a, rfl, h⟩
  | hello conn newID publicID payload =>
      obtain ⟨instanceID, -, rfl⟩ := Option.map_eq_some_iff.mp (Option.mem_toList.mp h)
      exact .inr (.inl ⟨rfl, rfl⟩)
  | frame conn f =>
      refine .inr (.inl ⟨rfl, ?_⟩)
      simp only [Market.shows] at h
      split at h
      · cases h
      · split at h
        · cases h
        · split at h
          · exact sent_of_frame h
          · cases h
  | request userPublicID r =>
      refine .inr (.inr ⟨userPublicID, r, rfl, ?_⟩)
      simp only [Market.shows] at h
      split at h
      · cases h
      · split at h
        · exact h
        · cases h
  | _ => cases h

theorem created_of_api {a : ApiEvent} (h : fact ∈ createdBy a db db') :
    ∃ providerID walletID publicID token ownerUserID name,
      a = .service (.createProvider providerID walletID publicID token ownerUserID name) ∧
        fact ∈ createdFacts providerID db db' := by
  unfold createdBy at h
  split at h
  · exact ⟨_, _, _, _, _, _, rfl, h⟩
  · cases h

/-- What a provider's connection shows is sent. -/
theorem sent_of_shows (hprovider : ofProvider e = true) (h : fact ∈ m.shows P cfg e m') :
    fact.sent = true := by
  rcases shows_cases h with ⟨a, rfl, hcreated⟩ | ⟨-, hsent⟩ | ⟨userPublicID, r, rfl, -⟩
  · obtain ⟨providerID, walletID, publicID, token, ownerUserID, name, rfl, -⟩ :=
      created_of_api hcreated
    cases hprovider
  · exact hsent
  · cases hprovider

/-- Only its creation shows that a project is new. -/
theorem opened_of_shows {id : UUID} {limit : Option Int64}
    (h : .opened id limit ∈ m.shows P cfg e m') :
    ∃ userPublicID publicID name,
      e = .request userPublicID (.createProject id publicID name limit) := by
  rcases shows_cases h with ⟨a, -, hcreated⟩ | ⟨-, hsent⟩ | ⟨userPublicID, r, rfl, hfact⟩
  · obtain ⟨providerID, walletID, publicID, token, ownerUserID, name, -, hcreated⟩ :=
      created_of_api hcreated
    obtain ⟨approval, heq⟩ := created_of_service hcreated
    cases heq
  · cases hsent
  · cases r with
    | createProject newID publicID name newLimit =>
        cases List.mem_singleton.mp hfact
        exact ⟨userPublicID, publicID, name, rfl⟩
    | setApproval providerPublicID status =>
        simp only [DashboardRequest.facts] at hfact
        split at hfact
        · cases List.mem_singleton.mp hfact
        · cases hfact
    | disableProvider providerPublicID =>
        obtain ⟨row, -, heq⟩ := Option.map_eq_some_iff.mp (Option.mem_toList.mp hfact)
        cases heq
    | setAdvertisementStatus publicID status =>
        obtain ⟨parsed, -, heq⟩ := Option.map_eq_some_iff.mp (Option.mem_toList.mp hfact)
        cases heq
    | _ => cases hfact

/-- What a frame shows that is not ignored. -/
theorem shows_frame {conn : ConnID} {f : ProviderFrame} {session : Session} {instanceID : UUID}
    (hsession : m.api.network.session conn = some session)
    (hinstance : session.instanceID = some instanceID)
    (hrun : f.run m.clock session.providerID instanceID m.db = .ok db) :
    m.shows P cfg (.frame conn f) m' = f.facts session.providerID instanceID m.db := by
  simp only [Market.shows, hsession, hinstance, hrun]

/-- What is sent is sent by a hello, or by a frame that is not ignored. -/
theorem sent_cases (h : fact ∈ m.shows P cfg e m') (hsent : fact.sent = true) :
    (∃ conn id publicID payload instanceID, e = .hello conn id publicID payload ∧
        fact = .reported instanceID .online ∧
        (m'.api.network.session conn).bind Session.instanceID = some instanceID) ∨
      ∃ conn f session instanceID db, e = .frame conn f ∧
        m.api.network.session conn = some session ∧ session.instanceID = some instanceID ∧
        f.run m.clock session.providerID instanceID m.db = .ok db ∧
        fact ∈ f.facts session.providerID instanceID m.db := by
  cases e with
  | api a =>
      obtain ⟨providerID, walletID, publicID, token, ownerUserID, name, -, hcreated⟩ :=
        created_of_api h
      obtain ⟨approval, rfl⟩ := created_of_service hcreated
      cases hsent
  | hello conn id publicID payload =>
      obtain ⟨instanceID, hgreeted, rfl⟩ := Option.map_eq_some_iff.mp (Option.mem_toList.mp h)
      exact .inl ⟨conn, id, publicID, payload, instanceID, rfl, rfl, hgreeted⟩
  | frame conn f =>
      simp only [Market.shows] at h
      split at h
      · cases h
      · rename_i session hsession
        split at h
        · cases h
        · rename_i instanceID hinstance
          split at h
          · rename_i db hrun
            exact .inr ⟨conn, f, session, instanceID, db, rfl, hsession, hinstance, hrun, h⟩
          · cases h
  | request userPublicID r =>
      rcases shows_cases h with ⟨a, heq, -⟩ | ⟨hprovider, -⟩ | ⟨user, asked, -, hfact⟩
      · cases heq
      · cases hprovider
      · have hasked := asked_of_request hfact
        cases fact with
        | reported | advertised | listed => cases hasked
        | _ => cases hsent
  | _ => cases h

/-- An instance is reported by a hello of its session, or by a heartbeat. -/
theorem reported_of_shows {instanceID : UUID} {status : InstanceStatus}
    (h : .reported instanceID status ∈ m.shows P cfg e m') :
    (∃ conn id publicID payload, e = .hello conn id publicID payload ∧ status = .online ∧
        (m'.api.network.session conn).bind Session.instanceID = some instanceID) ∨
      ∃ conn session text job db, e = .frame conn (.heartbeat text job) ∧
        m.api.network.session conn = some session ∧ session.instanceID = some instanceID ∧
        instanceStatusOf text = some status ∧
        providerHeartbeat m.clock instanceID text job m.db = .ok db := by
  rcases sent_cases h rfl with ⟨conn, id, publicID, payload, greetedID, rfl, heq, hgreeted⟩ |
    ⟨conn, f, session, own, db, rfl, hsession, hinstance, hrun, hfact⟩
  · cases heq
    exact .inl ⟨conn, id, publicID, payload, rfl, rfl, hgreeted⟩
  · cases f with
    | heartbeat text job =>
        obtain ⟨parsed, hparsed, heq⟩ := Option.map_eq_some_iff.mp (Option.mem_toList.mp hfact)
        cases heq
        exact .inr ⟨conn, session, text, job, db, rfl, hsession, hinstance, hparsed, hrun⟩
    | hardwareReport => cases hfact
    | modelList =>
        simp only [ProviderFrame.facts] at hfact
        split at hfact
        · cases hfact
        · unfold advertisedFacts at hfact
          split at hfact <;> simp at hfact

/-- A provider is created with the approval of the settings. -/
theorem approval_of_created (hnext : m.next P cfg e = some m') {id : UUID}
    {approval : ApprovalStatus} (h : .created id approval ∈ m.shows P cfg e m') :
    approval = initialApproval cfg := by
  rcases shows_cases h with ⟨a, rfl, hcreated⟩ | ⟨-, hsent⟩ | ⟨userPublicID, r, rfl, hfact⟩
  · obtain ⟨providerID, walletID, publicID, token, ownerUserID, name, rfl, hcreated⟩ :=
      created_of_api hcreated
    cases Market.step_of_next hnext with
    | api _ hstep =>
        cases hstep with
        | service _ hservice =>
            obtain ⟨-, happroval⟩ : (registry m.db).Change m.clock _ _ ∧ _ :=
              change_createProvider (db_of_createProvider hservice)
            exact happroval id approval hcreated
  · cases hsent
  · cases asked_of_request hfact

end Shows

/-! ## The two parts -/

section Parts

variable {P : Platform} {cfg : Config} {m m' : Market} {e : MarketEvent}

/-- A statement on the registry is a background change. -/
theorem background_of_registers {now : Nat} {db db' : DB} {facts : List Fact}
    (h : Registers now db facts db') : Background db db' := by
  have hproviders : ∀ id, (db.provider id).isSome → (db'.provider id).isSome := by
    intro id hsome
    obtain ⟨provider, hmem, hid⟩ := Table.select_isSome_iff.mp hsome
    obtain ⟨provider', hmem', hid', -⟩ := h.change.provider_after hmem
    exact Table.select_isSome_iff.mpr ⟨provider', hmem', hid'.trans hid⟩
  have hothers := h.others
  refine .of_tables (.of_follows h.change.follows ?_ hproviders ?_) ?_ ?_ ?_ ?_ ?_
  · intro id hsome
    rw [hothers]
    exact hsome
  · intro owner id howner
    rw [hothers]
    exact howner
  all_goals rw [hothers]

/-- A step of the market is a step of the requests, or a change that no request makes. -/
theorem Market.Step.service_part (h : m.Step P cfg e m') :
    (∃ e', Handler.next P cfg m.api.service e' = some m'.api.service) ∨
      ∃ db, Background m.db db ∧ m'.api.service = m.api.service.on db := by
  have hsame : ∃ db, Background m.db db ∧ m.api.service = m.api.service.on db :=
    ⟨m.db, .refl m.db, rfl⟩
  have hapi : ∀ {e : ApiEvent} {api : Api}, m.api.Step P cfg e api →
      (∃ e', Handler.next P cfg m.api.service e' = some api.service) ∨
        ∃ db, Background m.db db ∧ api.service = m.api.service.on db := by
    intro e api hstep
    rcases hstep.service_part with heq | hnext
    · exact .inr (heq ▸ hsame)
    · exact .inl hnext
  cases h with
  | api _ hstep => exact hapi hstep
  | hello hstep => exact hapi hstep
  | frame _ _ _ hpossible hrun =>
      exact .inr ⟨_, background_of_registers (registers_frame hpossible hrun), rfl⟩
  | @request _ _ r _ _ hrun =>
      refine .inr ⟨_, background_of_registers (registers_request hrun), ?_⟩
      cases r <;> rfl
  | @useKey apiKeyID =>
      have hregisters : Registers m.clock m.db [] (useAPIKey m.clock apiKeyID m.db) :=
        registers_useAPIKey apiKeyID
      exact .inr ⟨_, background_of_registers hregisters, rfl⟩
  | @sweep now _ =>
      have hregisters : Registers m.clock m.db [] (markOfflineTimedOut cfg now m.db) :=
        registers_markStale _
      exact .inr ⟨_, background_of_registers hregisters, rfl⟩
  | _ => exact .inr hsame

/-- Every step keeps the invariant of the requests. -/
theorem Market.Step.invariant (h : m.Step P cfg e m') (hinv : Invariant P m.api.service) :
    Invariant P m'.api.service := by
  rcases h.service_part with ⟨e', hnext⟩ | ⟨db, hbackground, hsame⟩
  · exact hinv.step hnext
  · exact hsame ▸ hinv.background hbackground

end Parts

/-! ## The rows behind a session -/

/-- Keys are unique, and a session is that of a provider and has an instance of it. -/
structure Linked (r : Registry) (n : Network) : Prop where
  ids : Table.Unique ProviderRow.id r.providers
  publicIDs : Table.Unique ProviderRow.publicID r.providers
  instanceIDs : Table.Unique InstanceRow.id r.catalog.instances
  provider : ∀ conn session, n.session conn = some session → ∃ provider ∈ r.providers,
    provider.id = session.providerID ∧ provider.publicID = session.providerPublicID
  inst : ∀ conn session instanceID, n.session conn = some session →
    session.instanceID = some instanceID → ∃ inst ∈ r.catalog.instances,
      inst.id = instanceID ∧ inst.providerID = session.providerID

section Linked

variable {P : Platform} {cfg : Config} {m m' : Market} {e : MarketEvent}

/-- Two rows of providers with one public id are the same. -/
theorem Linked.same_provider {r : Registry} {n : Network} (h : Linked r n)
    {provider other : ProviderRow} (hprovider : provider ∈ r.providers)
    (hother : other ∈ r.providers) (hpublicID : provider.publicID = other.publicID) :
    provider = other :=
  List.inj_on_of_nodup_map h.publicIDs hprovider hother hpublicID

theorem Linked.change {now : Nat} {r r' : Registry} {n : Network} {facts : List Fact}
    (h : Linked r n) (hchange : r.Change now facts r') : Linked r' n where
  ids := (hchange.unique_providers h.ids h.publicIDs).1
  publicIDs := (hchange.unique_providers h.ids h.publicIDs).2
  instanceIDs := hchange.unique_instances h.instanceIDs
  provider := by
    intro conn session hsession
    obtain ⟨provider, hprovider, hid, hpublicID⟩ := h.provider conn session hsession
    obtain ⟨provider', hprovider', hid', hpublicID', -⟩ := hchange.provider_after hprovider
    exact ⟨provider', hprovider', hid'.trans hid, hpublicID'.trans hpublicID⟩
  inst := by
    intro conn session instanceID hsession hinstance
    obtain ⟨inst, hinst, hid, howner⟩ := h.inst conn session instanceID hsession hinstance
    obtain ⟨inst', hinst', hid', howner'⟩ := hchange.instance_after hinst
    exact ⟨inst', hinst', hid'.trans hid, howner'.trans howner⟩

/-- A step of the network keeps the links, when a session is accepted for a provider and a
hello names an instance of its own. -/
theorem Linked.network {r : Registry} {n n' : Network} {e : NetworkEvent} (h : Linked r n)
    (hstep : n.Step e n')
    (haccept : ∀ conn providerID providerPublicID, e = .accept conn providerID providerPublicID →
      ∃ provider ∈ r.providers, provider.id = providerID ∧ provider.publicID = providerPublicID)
    (hhello : ∀ conn instanceID session, e = .hello conn (some instanceID) →
      n.session conn = some session → ∃ inst ∈ r.catalog.instances,
        inst.id = instanceID ∧ inst.providerID = session.providerID) : Linked r n' where
  ids := h.ids
  publicIDs := h.publicIDs
  instanceIDs := h.instanceIDs
  provider := by
    intro conn session hsession
    rcases hstep.session_before hsession with ⟨hevent, -⟩ | ⟨old, hold, hkeeps, -⟩
    · exact haccept _ _ _ hevent
    · rw [hkeeps.providerID, hkeeps.providerPublicID]
      exact h.provider conn old hold
  inst := by
    intro conn session instanceID hsession hinstance
    rcases hstep.session_before hsession with
      ⟨-, hnone⟩ | ⟨old, hold, hkeeps, hsame | ⟨i, hevent, hi⟩⟩
    · rw [hnone] at hinstance
      cases hinstance
    · rw [hkeeps.providerID]
      exact h.inst conn old instanceID hold (hsame ▸ hinstance)
    · rw [hkeeps.providerID]
      exact hhello conn instanceID old (by rw [hevent, ← hi, hinstance]) hold

/-- A session is accepted for a provider that its token names. -/
theorem mem_of_resolveToken {token : String} {db : DB} {provider : ProviderRow}
    (h : resolveToken P cfg token db = .ok provider) :
    provider ∈ db.providers ∧ provider.status = .active := by
  unfold resolveToken at h
  split at h
  · unfold resolveProviderToken at h
    split at h
    · rename_i row hfound
      cases h
      have hfields := List.find?_some hfound
      simp only [decide_eq_true_eq] at hfields
      exact ⟨List.mem_of_find?_eq_some hfound, hfields.2.1⟩
    · cases h
  · cases h

/-- What a step of the market does to the network: a session is accepted for an active
provider, and a hello names an instance of the session's provider. -/
structure Connects (m : Market) (e : MarketEvent) (m' : Market) (e' : NetworkEvent) : Prop where
  step : m.api.network.Step e' m'.api.network
  accept : ∀ conn providerID providerPublicID, e' = .accept conn providerID providerPublicID →
    (∃ token, e = .api (.connect conn token)) ∧ ∃ provider ∈ m.db.providers,
      provider.status = .active ∧ provider.id = providerID ∧ provider.publicID = providerPublicID
  hello : ∀ conn instanceID session, e' = .hello conn (some instanceID) →
    m.api.network.session conn = some session → ∃ inst ∈ m'.db.catalog.instances,
      inst.id = instanceID ∧ inst.providerID = session.providerID

/-- A step of the market is a step of the network, or leaves it alone. -/
theorem Market.Step.network_part (h : m.Step P cfg e m') :
    m'.api.network = m.api.network ∨ ∃ e', Connects m e m' e' := by
  -- The events that are neither an `accept` nor a hello with an instance.
  have hother : ∀ {e' : NetworkEvent}, m.api.network.next e' = some m'.api.network →
      (∀ conn providerID providerPublicID, e' ≠ .accept conn providerID providerPublicID) →
      (∀ conn instanceID, e' ≠ .hello conn (some instanceID)) → ∃ e', Connects m e m' e' :=
    fun hnext haccept hhello => ⟨_, Network.step_of_next hnext,
      fun _ _ _ heq => absurd heq (haccept _ _ _), fun _ _ _ heq => absurd heq (hhello _ _)⟩
  cases h with
  | @api e api hlocal hstep =>
      cases hstep with
      | @network e network hshared hnext =>
          refine .inr (hother hnext ?_ ?_)
          · rintro _ _ _ rfl
            cases hshared
          · rintro _ _ rfl
            cases hshared
      | @connect conn token provider network hresolve hnext =>
          refine .inr ⟨_, Network.step_of_next hnext, ?_, fun _ _ _ => nofun⟩
          rintro _ _ _ ⟨⟩
          obtain ⟨hmem, hactive⟩ := mem_of_resolveToken hresolve
          exact ⟨⟨token, rfl⟩, provider, hmem, hactive, rfl, rfl⟩
      | dispatch _ _ hnext => exact .inr (hother hnext (fun _ _ _ => nofun) fun _ _ => nofun)
      | hello _ _ _ _ | refuseHello _ => cases hlocal
      | service _ _ | deliver _ _ _ => exact .inl rfl
  | hello hstep =>
      cases hstep with
      | refuseHello hnext => exact .inr (hother hnext (fun _ _ _ => nofun) fun _ _ => nofun)
      | @hello conn now id publicID payload session row catalog network hsession hupsert _ hnext =>
          refine .inr ⟨_, Network.step_of_next hnext, fun _ _ _ => nofun, ?_⟩
          rintro _ _ session' ⟨⟩ hsession'
          obtain rfl := Option.some.inj (hsession.symm.trans hsession')
          obtain ⟨-, howner, hmem⟩ := registers_upsertInstance hupsert
          exact ⟨row, hmem, rfl, howner⟩
  | @request _ _ r _ _ _ => cases r <;> exact .inl rfl
  | disconnect _ hnext => exact .inr (hother hnext (fun _ _ _ => nofun) fun _ _ => nofun)
  | _ => exact .inl rfl

/-- A connection comes to a session that is new. -/
theorem Market.Step.session_of_upgrade (h : m.Step P cfg e m') {conn : ConnID}
    (hcall : m.socketCall e = some (.upgrade conn)) : m.api.network.session conn = none := by
  cases h with
  | @api e api hlocal hstep =>
      cases hstep with
      | @network e network hshared _ =>
          cases e with
          | accept _ _ _ => cases hshared
          | disconnect p =>
              obtain ⟨provider, -, hclose⟩ := Option.map_eq_some_iff.mp hcall
              cases hclose
          | write id refusal =>
              obtain ⟨dispatch, -, hwrite⟩ := Option.bind_eq_some_iff.mp hcall
              split at hwrite <;> cases hwrite
          | _ => cases hcall
      | connect _ hnext =>
          cases hcall
          cases Network.step_of_next hnext with
          | accept hfree => exact hfree
      | _ => cases hcall
  | disconnect _ _ =>
      obtain ⟨provider, -, hclose⟩ := Option.map_eq_some_iff.mp hcall
      cases hclose
  | _ => cases hcall

theorem Linked.step (h : Linked (registry m.db) m.api.network) (hstep : m.Step P cfg e m') :
    Linked (registry m'.db) m'.api.network := by
  have hlinked := h.change hstep.change
  rcases hstep.network_part with hsame | ⟨e', hconnects⟩
  · rw [hsame]
    exact hlinked
  · refine hlinked.network hconnects.step ?_ hconnects.hello
    intro conn providerID providerPublicID hevent
    obtain ⟨-, provider, hmem, -, hid, hpublicID⟩ := hconnects.accept _ _ _ hevent
    obtain ⟨provider', hmem', hid', hpublicID', -⟩ := hstep.change.provider_after hmem
    exact ⟨provider', hmem', hid'.trans hid, hpublicID'.trans hpublicID⟩

/-- In every run the service keeps its invariant, and the sessions are linked. -/
theorem linked_of_reaches {guard : Market → MarketEvent → Market → Prop} {es : List MarketEvent}
    (h : (marketMachine P cfg).Reaches guard es m) :
    Invariant P m.api.service ∧ Linked (registry m.db) m.api.network := by
  refine h.invariant
    (fun m => Invariant P m.api.service ∧ Linked (registry m.db) m.api.network) ?_ ?_
  · intro m hstart
    obtain ⟨⟨⟨models, modelVersions, -, hdb⟩, hcalls⟩, hnetwork, -⟩ := hstart
    refine ⟨.start ⟨_, hdb⟩ hcalls, ?_⟩
    rw [hdb, hnetwork]
    exact ⟨List.nodup_nil, List.nodup_nil, List.nodup_nil, fun _ _ => nofun, fun _ _ _ => nofun⟩
  · intro m e m' hboth hnext _
    obtain ⟨hinv, hlinked⟩ := hboth
    have hstep := Market.step_of_next hnext
    exact ⟨hstep.invariant hinv, hlinked.step hstep⟩

end Linked

end Nuvonode.Handler
