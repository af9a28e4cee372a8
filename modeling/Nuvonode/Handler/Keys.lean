/-
  Handler/Keys.lean --- what a step of the market does to users, projects and keys.

  Users and projects are only ever added.  A key is added under a free hash, by a request
  of the owner of its project.  Such a request takes its status from active to revoked, and
  the time of its last use is written when it was used: nothing else of it changes.
-/
import Nuvonode.Handler.Registration
import Nuvonode.Service.Bootstrap

set_option autoImplicit false

namespace Nuvonode.Handler

open Nuvonode.Foundation Nuvonode.Database Nuvonode.Repository Nuvonode.Service Nuvonode.Ws

/-! ## Users -/

section Users

variable {P : Platform} {cfg : Config} {db db' : DB}

/-- A registration adds one user, whose role it decides from the users that it counts. -/
theorem users_of_register (P : Platform) (cfg : Config) (db : DB) (userID walletID : UUID)
    (publicID : String) (input : RegisterInput) :
    (afterwards (register P cfg userID walletID publicID input) db).users = db.users ∨
      ∃ row, row.role = roleAfter cfg (countUsers db) ∧
        (afterwards (register P cfg userID walletID publicID input) db).users =
          db.users ++ [row] := by
  unfold afterwards
  split
  · rename_i r db' hexec
    obtain ⟨ws, hyields, rfl⟩ := yields_of_exec hexec
    obtain ⟨-, -, hposted⟩ := yields_register hyields
    refine .inr ⟨r, ?_, by rw [hposted.frame]; rfl⟩
    unfold register at hyields
    simp only at hyields
    split at hyields
    · simp at hyields
    · simp only [Tx.yields_bind, yields_orFail, Tx.yields_query, Tx.yields_pure] at hyields
      obtain ⟨_, _, ⟨-, rfl⟩, count, _, ⟨_, rfl, rfl, rfl⟩, _, _, huser, -, -, -, -, -, -, rfl,
        -⟩ := hyields
      exact (yields_createUser huser).2.1
  · exact .inl rfl

/-- No statement of a chat request writes the table of users. -/
theorem users_of_transition {call call' : Call} (h : Transition P db call db' call') :
    db'.users = db.users := by
  have hfailed : ∀ {jobID : UUID} {code message : String},
      (afterwards (markJobFailed jobID .failed code message) db).users = db.users := by
    intro jobID code message
    rcases afterwards_markJobFailed db jobID with hsame | ⟨-, stats, hfailed⟩
    · rw [hsame]
    · rw [hfailed]
      rfl
  cases h with
  | reserve _ _ _ hposted => rw [hposted.frame]
  | recordRefusal _ => exact hfailed
  | release _ hposted => rw [hposted.frame]
  | recordFailure _ => exact hfailed
  | settle _ hsettled =>
      obtain ⟨db₁, db₂, db₃, source, stats, h₁, h₂, h₃, -, -, rfl⟩ := hsettled.effect
      rw [settle, h₃.frame, h₂.frame, h₁.frame]
  | returnCredits _ hposted => rw [hposted.frame]
  | _ => rfl

/-- Only a registration writes the table of users. -/
theorem users_of_next {s s' : ChatService} {e : ServiceEvent}
    (hlocal : elsewhere (.service e) = false) (h : Handler.next P cfg s e = some s') :
    s'.db.users = s.db.users ∨ ∃ userID walletID publicID input,
      e = .register userID walletID publicID input ∧
        s'.db = afterwards (register P cfg userID walletID publicID input) s.db := by
  cases e with
  | register userID walletID publicID input =>
      rw [← Option.some.inj h]
      exact .inr ⟨userID, walletID, publicID, input, rfl, rfl⟩
  | createProvider providerID walletID publicID token ownerUserID name =>
      rw [← Option.some.inj h]
      obtain ⟨providers, wallets, hdb⟩ := afterwards_createProviderAccount P cfg s.db providerID
        walletID ownerUserID publicID token name
      have husers := congrArg DB.users hdb
      exact .inl husers
  | adminAdjust actorUserID target amount reason =>
      rw [← Option.some.inj h]
      obtain ⟨wallets, walletLedger, auditLog, hdb⟩ := afterwards_adminAdjust s.db actorUserID
        target reason amount
      have husers := congrArg DB.users hdb
      exact .inl husers
  | setApproval _ _ _ | disableProvider _ _ | changeCatalog _ => cases hlocal
  | arrive id bearer requestID body =>
      simp only [Handler.next] at h
      split at h
      · rw [← Option.some.inj h]
        exact .inl rfl
      · cases h
  | advance id env =>
      obtain ⟨call, -, h⟩ := Option.bind_eq_some_iff.mp h
      obtain ⟨⟨db, call'⟩, hadvance, h⟩ := Option.bind_eq_some_iff.mp h
      rw [← Option.some.inj h]
      exact .inl (users_of_transition (transition_of_advance hadvance))
  | deliver id outcome =>
      obtain ⟨call, -, h⟩ := Option.bind_eq_some_iff.mp h
      obtain ⟨call', -, h⟩ := Option.bind_eq_some_iff.mp h
      rw [← Option.some.inj h]
      exact .inl rfl

theorem users_of_registers {now : Nat} {facts : List Fact} (h : Registers now db facts db') :
    db'.users = db.users := by
  rw [h.others]

variable {m m' : Market} {e : MarketEvent}

/-- The database after a request is the one that its statement leaves. -/
theorem Market.db_pursue (m : Market) (r : DashboardRequest) : (m.pursue r).db = m.db := by
  cases r <;> rfl

/-- Only a registration writes the table of users. -/
theorem Market.Step.users_origin (h : m.Step P cfg e m') :
    m'.db.users = m.db.users ∨ ∃ userID walletID publicID input,
      e = .api (.service (.register userID walletID publicID input)) ∧
        m'.db = afterwards (register P cfg userID walletID publicID input) m.db := by
  cases h with
  | api hlocal hstep =>
      cases hstep with
      | service _ hnext =>
          rcases users_of_next hlocal hnext with
            hsame | ⟨userID, walletID, publicID, input, rfl, hdb⟩
          · exact .inl hsame
          · exact .inr ⟨userID, walletID, publicID, input, rfl, hdb⟩
      | deliver _ _ hnext =>
          rcases users_of_next rfl hnext with hsame | ⟨_, _, _, _, heq, -⟩
          · exact .inl hsame
          · cases heq
      | hello _ _ _ _ | refuseHello _ => cases hlocal
      | _ => exact .inl rfl
  | hello hstep =>
      cases hstep with
      | refuseHello _ => exact .inl rfl
      | hello _ hupsert _ _ =>
          have hregisters : Registers m.clock m.db [_] _ := (registers_upsertInstance hupsert).1
          exact .inl (users_of_registers hregisters)
  | frame _ _ _ hpossible hrun => exact .inl (users_of_registers (registers_frame hpossible hrun))
  | request _ hrun =>
      rw [Market.db_pursue]
      exact .inl (users_of_registers (registers_request hrun))
  | _ => exact .inl rfl

/-- A step of the market only adds users. -/
theorem Market.Step.users (h : m.Step P cfg e m') : m.db.users <+: m'.db.users := by
  rcases h.users_origin with hsame | ⟨userID, walletID, publicID, input, -, hdb⟩
  · exact hsame ▸ List.prefix_refl _
  · rw [hdb]
    rcases users_of_register P cfg m.db userID walletID publicID input with
      hsame | ⟨row, -, hadded⟩
    · exact hsame ▸ List.prefix_refl _
    · exact hadded ▸ List.prefix_append _ _

end Users

/-! ## Keys -/

/-- A request of the owner of the project of a key. -/
structure OwnsKey (db : DB) (userPublicID projectPublicID : String) (projectID : UUID) :
    Prop where
  rows : ∃ project ∈ db.catalog.projects, ∃ user ∈ db.users,
    project.id = projectID ∧ project.publicID = projectPublicID ∧
      user.id = project.ownerUserID ∧ user.publicID = userPublicID

/-- What a step can do to the table of keys. -/
inductive KeysStep (P : Platform) (cfg : Config) (now : Nat) (db : DB) (e : MarketEvent) :
    List APIKeyRow → Prop where
  | same {keys : List APIKeyRow} : keys = db.catalog.apiKeys → KeysStep P cfg now db e keys
  | create {userPublicID projectPublicID plaintext name : String} {row : APIKeyRow} :
      e = .request userPublicID
        (.createAPIKey row.id row.publicID plaintext row.keyPrefix projectPublicID name) →
      OwnsKey db userPublicID projectPublicID row.projectID →
      row.keyHash = P.hashToken cfg.apiKeyPepper plaintext → row.status = .active →
      Table.select APIKeyRow.id db.catalog.apiKeys row.id = none →
      Table.select APIKeyRow.keyHash db.catalog.apiKeys row.keyHash = none →
      KeysStep P cfg now db e (Table.insert db.catalog.apiKeys row)
  | revoke {userPublicID projectPublicID keyPublicID : String} {projectID : UUID} :
      e = .request userPublicID (.revokeAPIKey projectPublicID keyPublicID) →
      OwnsKey db userPublicID projectPublicID projectID →
      KeysStep P cfg now db e (db.catalog.apiKeys.map (APIKeyRow.revoke now projectID keyPublicID))
  | use {apiKeyID : UUID} : e = .useKey apiKeyID →
      KeysStep P cfg now db e
        (Table.update APIKeyRow.id db.catalog.apiKeys apiKeyID (APIKeyRow.use now))

/-- A statement that shows something writes another table. -/
theorem keys_of_facts {now : Nat} {r r' : Registry} {facts : List Fact}
    (h : r.Change now facts r') (hfacts : facts ≠ []) :
    r'.catalog.apiKeys = r.catalog.apiKeys := by
  cases h with
  | keys _ => exact absurd rfl hfacts
  | _ => rfl

section Statements

variable {P : Platform} {cfg : Config} {now : Nat} {db db' : DB}

/-- The user that a token names. -/
theorem mem_of_userFromJWT {userPublicID : String} {user : UserRow}
    (h : userFromJWT userPublicID db = .ok user) :
    user ∈ db.users ∧ user.publicID = userPublicID := by
  unfold userFromJWT at h
  split at h
  · split at h
    · rename_i row hselect
      split at h
      · cases h
      · obtain rfl := Except.ok.inj h
        exact Table.mem_of_select hselect
    · cases h
  · cases h

theorem ownsKey_of_found {userPublicID projectPublicID : String} {user : UserRow}
    {project : ProjectRow} (huser : userFromJWT userPublicID db = .ok user)
    (hproject : projectByPublicIDForOwner user.id projectPublicID db = .ok project) :
    OwnsKey db userPublicID projectPublicID project.id := by
  obtain ⟨huserMem, hname⟩ := mem_of_userFromJWT huser
  obtain ⟨hmem, howner, hpublicID⟩ := projectByPublicIDForOwner_eq_ok hproject
  exact ⟨project, hmem, user, huserMem, rfl, hpublicID, howner.symm, hname⟩

/-- What a request of the dashboard does to the table of keys. -/
theorem keys_request {userPublicID : String} {user : UserRow} {r : DashboardRequest}
    (huser : userFromJWT userPublicID db = .ok user) (h : r.run P cfg now user db = .ok db') :
    KeysStep P cfg now db (.request userPublicID r) db'.catalog.apiKeys := by
  cases r with
  | createProject id publicID name limit =>
      have hchange := (registers_request h).change
      exact .same (keys_of_facts hchange (List.cons_ne_nil _ _))
  | createAPIKey id publicID plaintext keyPrefix projectPublicID name =>
      obtain ⟨⟨row, db₁⟩, hcreate, rfl⟩ := eq_ok_of_map h
      obtain ⟨project, hproject, hkey⟩ := projectCreateAPIKey_eq_ok hcreate
      obtain ⟨rfl, hid, hhash, rfl⟩ := createAPIKey_eq_ok hkey
      exact .create rfl (ownsKey_of_found huser hproject) rfl rfl hid hhash
  | revokeAPIKey projectPublicID keyPublicID =>
      obtain ⟨project, hproject, hrevoke⟩ := projectRevokeAPIKey_eq_ok h
      obtain rfl := revokeAPIKey_eq_ok hrevoke
      exact .revoke rfl (ownsKey_of_found huser hproject)
  | createModel id publicID input =>
      obtain ⟨⟨row, db₁⟩, hcreate, rfl⟩ := eq_ok_of_map h
      obtain ⟨-, hcreate⟩ := eq_ok_of_adminOnly hcreate
      split at hcreate
      · obtain ⟨row', -, hcreate⟩ := eq_ok_of_bind hcreate
        split at hcreate
        · cases hcreate
        · obtain ⟨audited, -, hcreate⟩ := eq_ok_of_bind hcreate
          cases hcreate
          exact .same rfl
      · cases hcreate
  | updateModel modelPublicID patch =>
      obtain ⟨⟨row, db₁⟩, hupdate, rfl⟩ := eq_ok_of_map h
      obtain ⟨-, hupdate⟩ := eq_ok_of_adminOnly hupdate
      split at hupdate
      · obtain ⟨old, -, hupdate⟩ := eq_ok_of_bind hupdate
        obtain ⟨row', -, hupdate⟩ := eq_ok_of_bind hupdate
        split at hupdate
        · cases hupdate
        · obtain ⟨audited, -, hupdate⟩ := eq_ok_of_bind hupdate
          cases hupdate
          exact .same rfl
      · cases hupdate
  | pauseModel modelPublicID =>
      obtain ⟨-, hpause⟩ := eq_ok_of_adminOnly h
      obtain ⟨old, -, hpause⟩ := eq_ok_of_bind hpause
      obtain ⟨audited, -, hpause⟩ := eq_ok_of_bind hpause
      cases hpause
      exact .same rfl
  | setApproval providerPublicID status =>
      obtain ⟨-, h⟩ := eq_ok_of_adminOnly h
      split at h
      · obtain ⟨row, -, hregisters⟩ :
            ∃ row : ProviderRow, _ ∧ Registers now db [.decided row.id _] db' :=
          registers_updateProviderApproval h
        exact .same (keys_of_facts hregisters.change (List.cons_ne_nil _ _))
      · cases h
  | disableProvider providerPublicID =>
      obtain ⟨-, h⟩ := eq_ok_of_adminOnly h
      obtain ⟨row, -, hregisters⟩ :
          ∃ row : ProviderRow, _ ∧ Registers now db [.disabled row.id] db' :=
        registers_disableProvider h
      exact .same (keys_of_facts hregisters.change (List.cons_ne_nil _ _))
  | setAdvertisementStatus publicID status =>
      obtain ⟨-, h⟩ := eq_ok_of_adminOnly h
      split at h
      · obtain ⟨parsed, -, hregisters⟩ : ∃ parsed, _ ∧ Registers now db [.judged _ parsed] db' :=
          registers_updateAdvertisementStatus h
        exact .same (keys_of_facts hregisters.change (List.cons_ne_nil _ _))
      · cases h

/-- No step of the requests writes the table of keys. -/
theorem keys_next {s s' : ChatService} {e : ServiceEvent}
    (hlocal : elsewhere (.service e) = false) (h : Handler.next P cfg s e = some s') :
    s'.db.catalog.apiKeys = s.db.catalog.apiKeys := by
  rcases registry_of_next hlocal h with
    hsame | ⟨providerID, walletID, publicID, token, ownerUserID, name, rfl⟩
  · exact congrArg (fun r => r.catalog.apiKeys) hsame
  · rw [← db_of_createProvider h]
    obtain ⟨providers, wallets, hdb⟩ := afterwards_createProviderAccount P cfg s.db providerID
      walletID ownerUserID publicID token name
    rw [hdb]

end Statements

section Steps

variable {P : Platform} {cfg : Config} {m m' : Market} {e : MarketEvent}

/-- A step of the market creates a key, revokes one, writes that one was used or leaves the
keys alone. -/
theorem Market.Step.keys (h : m.Step P cfg e m') :
    KeysStep P cfg m.clock m.db e m'.db.catalog.apiKeys := by
  cases h with
  | api hlocal hstep =>
      cases hstep with
      | service _ hnext => exact .same (keys_next hlocal hnext)
      | deliver _ _ hnext => exact .same (keys_next rfl hnext)
      | hello _ _ _ _ | refuseHello _ => cases hlocal
      | _ => exact .same rfl
  | hello hstep =>
      cases hstep with
      | refuseHello _ => exact .same rfl
      | hello _ hupsert _ _ =>
          have hregisters : Registers m.clock m.db [_] _ := (registers_upsertInstance hupsert).1
          exact .same (keys_of_facts hregisters.change (List.cons_ne_nil _ _))
  | frame _ _ _ _ hrun =>
      obtain ⟨instances, advertisements, hardwareReports, rfl⟩ := writes_frame hrun
      exact .same rfl
  | request huser hrun =>
      rw [Market.db_pursue]
      exact keys_request huser hrun
  | useKey => exact .use rfl
  | _ => exact .same rfl

end Steps

/-! ## A key through a step -/

/-- What may become of a key: one that is revoked stays so, since the same time. -/
structure KeyBecomes (row row' : APIKeyRow) : Prop where
  same : row' = { row with
    status := row'.status, lastUsedAt := row'.lastUsedAt, revokedAt := row'.revokedAt }
  revoked : row.status = .revoked → row'.status = .revoked ∧ row'.revokedAt = row.revokedAt

theorem KeyBecomes.refl (row : APIKeyRow) : KeyBecomes row row := ⟨rfl, fun h => ⟨h, rfl⟩⟩

theorem KeyBecomes.trans {row row' row'' : APIKeyRow} (h : KeyBecomes row row')
    (h' : KeyBecomes row' row'') : KeyBecomes row row'' := by
  refine ⟨?_, fun hrevoked => ?_⟩
  · rw [h'.same, h.same]
  · obtain ⟨hstatus, htime⟩ := h.revoked hrevoked
    obtain ⟨hstatus', htime'⟩ := h'.revoked hstatus
    exact ⟨hstatus', htime'.trans htime⟩

theorem keyBecomes_revoke (now : Nat) (projectID : UUID) (keyPublicID : String)
    (row : APIKeyRow) : KeyBecomes row (APIKeyRow.revoke now projectID keyPublicID row) := by
  unfold APIKeyRow.revoke
  split
  · rename_i hfields
    exact ⟨rfl, fun hrevoked => absurd (hfields.2.2.symm.trans hrevoked) APIKeyStatus.noConfusion⟩
  · exact .refl row

theorem keyBecomes_use (now : Nat) (apiKeyID : UUID) (row : APIKeyRow) :
    KeyBecomes row (if row.id = apiKeyID then APIKeyRow.use now row else row) := by
  split
  · exact ⟨rfl, fun hrevoked => ⟨hrevoked, rfl⟩⟩
  · exact .refl row

/-- Someone who owns the project of the key revoked it. -/
def RevokedBy (db : DB) (key : APIKeyRow) (e : MarketEvent) : Prop :=
  ∃ userPublicID projectPublicID, e = .request userPublicID
    (.revokeAPIKey projectPublicID key.publicID) ∧
      OwnsKey db userPublicID projectPublicID key.projectID

/-- Someone who owns the project of the key created it. -/
def CreatedBy (P : Platform) (cfg : Config) (db : DB) (key : APIKeyRow) (e : MarketEvent) : Prop :=
  ∃ userPublicID projectPublicID plaintext name, e = .request userPublicID
    (.createAPIKey key.id key.publicID plaintext key.keyPrefix projectPublicID name) ∧
      OwnsKey db userPublicID projectPublicID key.projectID ∧
      key.keyHash = P.hashToken cfg.apiKeyPepper plaintext

section Through

variable {P : Platform} {cfg : Config} {now : Nat} {db db' : DB} {e : MarketEvent}
  {keys : List APIKeyRow}

theorem OwnsKey.mono {userPublicID projectPublicID : String} {projectID : UUID}
    (h : OwnsKey db userPublicID projectPublicID projectID) (husers : db.users <+: db'.users)
    (hprojects : db.catalog.projects <+: db'.catalog.projects) :
    OwnsKey db' userPublicID projectPublicID projectID := by
  obtain ⟨project, hproject, user, huser, hrest⟩ := h.rows
  exact ⟨project, hprojects.subset hproject, user, husers.subset huser, hrest⟩

/-- What a key keeps through an event: it is revoked by the owner's request only, and what it
says of its use is written by a use only. -/
structure KeptBut (db : DB) (e : MarketEvent) (key key' : APIKeyRow) : Prop where
  becomes : KeyBecomes key key'
  status : key'.status = key.status ∧ key'.revokedAt = key.revokedAt ∨ RevokedBy db key e
  use : key'.lastUsedAt = key.lastUsedAt ∨ e = .useKey key.id

/-- A key stays. -/
theorem KeysStep.key_after (h : KeysStep P cfg now db e keys) {key : APIKeyRow}
    (hkey : key ∈ db.catalog.apiKeys) : ∃ key' ∈ keys, KeptBut db e key key' := by
  have hkept : KeptBut db e key key := ⟨.refl key, .inl ⟨rfl, rfl⟩, .inl rfl⟩
  cases h with
  | same hsame => exact ⟨key, hsame ▸ hkey, hkept⟩
  | create _ _ _ _ _ _ => exact ⟨key, List.mem_append_left _ hkey, hkept⟩
  | @revoke userPublicID projectPublicID keyPublicID projectID hevent howns =>
      refine ⟨_, List.mem_map_of_mem hkey, keyBecomes_revoke now projectID keyPublicID key, ?_, ?_⟩
      all_goals
        unfold APIKeyRow.revoke
        split
      · rename_i hfields
        obtain ⟨rfl, rfl, -⟩ := hfields
        exact .inr ⟨userPublicID, projectPublicID, hevent, howns⟩
      · exact .inl ⟨rfl, rfl⟩
      · exact .inl rfl
      · exact .inl rfl
  | @use apiKeyID hevent =>
      refine ⟨_, List.mem_map_of_mem hkey, keyBecomes_use now apiKeyID key, ?_, ?_⟩
      all_goals split
      · exact .inl ⟨rfl, rfl⟩
      · exact .inl ⟨rfl, rfl⟩
      · rename_i hid
        exact .inr (hid ▸ hevent)
      · exact .inl rfl

/-- A key is an old one, or was created by the owner's request. -/
theorem KeysStep.key_before (h : KeysStep P cfg now db e keys) {key' : APIKeyRow}
    (hkey : key' ∈ keys) :
    (∃ key ∈ db.catalog.apiKeys, KeyBecomes key key') ∨ CreatedBy P cfg db key' e := by
  cases h with
  | same hsame => exact .inl ⟨key', hsame ▸ hkey, .refl key'⟩
  | @create userPublicID projectPublicID plaintext name row hevent howns hhash _ _ _ =>
      rcases List.mem_append.mp hkey with hold | hnew
      · exact .inl ⟨key', hold, .refl key'⟩
      · obtain rfl := List.mem_singleton.mp hnew
        exact .inr ⟨userPublicID, projectPublicID, plaintext, name, hevent, howns, hhash⟩
  | @revoke _ _ keyPublicID projectID _ _ =>
      obtain ⟨key, hold, rfl⟩ := List.mem_map.mp hkey
      exact .inl ⟨key, hold, keyBecomes_revoke now projectID keyPublicID key⟩
  | @use apiKeyID _ =>
      obtain ⟨key, hold, rfl⟩ := List.mem_map.mp hkey
      exact .inl ⟨key, hold, keyBecomes_use now apiKeyID key⟩

/-- No two keys have the same id or the same hash. -/
structure KeysDistinct (keys : List APIKeyRow) : Prop where
  ids : Table.Unique APIKeyRow.id keys
  hashes : Table.Unique APIKeyRow.keyHash keys

/-- Keys that each become one stay distinct: neither column is written. -/
theorem KeysDistinct.map (h : KeysDistinct keys) {change : APIKeyRow → APIKeyRow}
    (hchange : ∀ row, KeyBecomes row (change row)) : KeysDistinct (keys.map change) := by
  have hkept : ∀ {κ : Type} (column : APIKeyRow → κ),
      (∀ (row : APIKeyRow) (status : APIKeyStatus) (lastUsedAt revokedAt : Option Nat),
        column { row with status, lastUsedAt, revokedAt } = column row) →
      (keys.map change).map column = keys.map column := by
    intro κ column hcolumn
    rw [List.map_map]
    refine List.map_congr_left fun row _ => ?_
    rw [Function.comp_apply, (hchange row).same]
    exact hcolumn row _ _ _
  refine ⟨?_, ?_⟩
  · unfold Table.Unique
    exact (hkept APIKeyRow.id fun _ _ _ _ => rfl).symm ▸ h.ids
  · unfold Table.Unique
    exact (hkept APIKeyRow.keyHash fun _ _ _ _ => rfl).symm ▸ h.hashes

theorem KeysDistinct.step (h : KeysDistinct db.catalog.apiKeys)
    (hstep : KeysStep P cfg now db e keys) : KeysDistinct keys := by
  cases hstep with
  | same hsame => exact hsame ▸ h
  | create _ _ _ _ hid hhash =>
      exact ⟨Table.unique_insert h.ids hid, Table.unique_insert h.hashes hhash⟩
  | revoke _ _ => exact h.map (keyBecomes_revoke now _ _)
  | use _ => exact h.map (keyBecomes_use now _)

/-- Nobody is let in with a revoked key. -/
theorem resolveAPIKey_of_revoked {key : APIKeyRow} (hdistinct : KeysDistinct db.catalog.apiKeys)
    (hkey : key ∈ db.catalog.apiKeys) (hrevoked : key.status = .revoked) {token : String}
    (htoken : P.hashToken cfg.apiKeyPepper token = key.keyHash) :
    resolveAPIKey P cfg token db = .error .notFound ∨
      resolveAPIKey P cfg token db = .error .invalidCredentials := by
  unfold resolveAPIKey
  split
  · refine .inl ?_
    have hselect : Table.select APIKeyRow.keyHash db.catalog.apiKeys key.keyHash = some key :=
      Table.select_of_mem hdistinct.hashes hkey
    have hstatus : ¬ key.status = .active := by
      rw [hrevoked]
      exact APIKeyStatus.noConfusion
    simp only [resolveKeyHash, htoken, hselect, bind, Option.bind_some, hstatus, false_and,
      if_false, Option.bind_fun_none, Option.elim_none]
  · exact .inr rfl

end Through

/-! ## Requests with a key -/

/-- A request that has asked for nothing, or that was turned away for its key. -/
structure Call.TurnedAway (call : Call) : Prop where
  phase : call.phase = .received ∨ call.phase = .done (handle .notFound) ∨
    call.phase = .done (handle .invalidCredentials)
  unpaid : call.jobID = none ∧ call.commits = []

section Calls

variable {P : Platform} {cfg : Config}

theorem Transition.bearer_eq {db db' : DB} {call call' : Call}
    (h : Transition P db call db' call') : call'.bearer = call.bearer := by
  cases h <;> rfl

/-- A request that was turned away takes no further step, and one that asks now is turned
away. -/
theorem Call.TurnedAway.step {s : ChatService} {e : ServiceEvent} {db : DB} {call call' : Call}
    (h : call.TurnedAway) (hstep : Stepped P cfg s call e db call')
    (hkey : resolveAPIKey P cfg call.bearer s.db = .error .notFound ∨
      resolveAPIKey P cfg call.bearer s.db = .error .invalidCredentials) : call'.TurnedAway := by
  cases hstep with
  | @advance env db call' hadvance =>
      rcases h.phase with hreceived | hdone | hdone
      · simp only [Call.advance, hreceived] at hadvance
        rcases hkey with herror | herror
        all_goals
          rw [herror] at hadvance
          cases hadvance
        · exact ⟨.inr (.inl rfl), h.unpaid⟩
        · exact ⟨.inr (.inr rfl), h.unpaid⟩
      all_goals
        simp only [Call.advance, hdone] at hadvance
        cases hadvance
  | deliver hdeliver =>
      rcases h.phase with hphase | hphase | hphase
      all_goals
        simp only [Call.deliver, hphase] at hdeliver
        cases hdeliver

variable {m m' : Market} {e : MarketEvent}

/-- A request is the one it was, has just arrived or was stepped. -/
theorem Market.Step.call_origin (h : m.Step P cfg e m') {call' : Call}
    (hcall : call' ∈ m'.api.service.calls) :
    call' ∈ m.api.service.calls ∨
      (∃ id bearer requestID body, call' = .arrived id bearer requestID body) ∨
      ∃ call ∈ m.api.service.calls, ∃ e' db, Stepped P cfg m.api.service call e' db call' := by
  rcases h.service_part with ⟨e', hnext⟩ | ⟨db, -, hsame⟩
  · generalize m'.api.service = service at hnext hcall
    cases kind_of_next hnext with
    | background _ => exact .inl hcall
    | @arrive id bearer requestID body _ =>
        rcases List.mem_append.mp hcall with hold | hnew
        · exact .inl hold
        · exact .inr (.inl ⟨id, bearer, requestID, body, List.mem_singleton.mp hnew⟩)
    | call hold hstep =>
        rcases ChatService.mem_put hcall with rfl | ⟨hkept, -⟩
        · exact .inr (.inr ⟨_, (Table.mem_of_select hold).1, _, _, hstep⟩)
        · exact .inl hkept
  · rw [hsame] at hcall
    exact .inl hcall

end Calls

end Nuvonode.Handler
