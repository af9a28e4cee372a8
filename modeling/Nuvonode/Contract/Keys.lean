/-
  Contract/Keys.lean --- the life of an API key.

  A key is created by the owner of its project and revoked by the owner of its project, and
  by nobody else.  Once it is revoked it stays so, and every request that has not been let
  in by then is turned away: it gets no job and reserves nothing.
-/
import Nuvonode.Contract.Spending
import Nuvonode.Handler.Keys

set_option autoImplicit false

namespace Nuvonode.Contract

open Nuvonode.Foundation Nuvonode.Database Nuvonode.Repository Nuvonode.Service Nuvonode.Handler
  Nuvonode.Ws

section Keys

variable {P : Platform} {cfg : Config} {m m' : Market} {e : MarketEvent}
  {es es' : List MarketEvent} {key : APIKeyRow}

/-! ## Where keys come from -/

theorem createdBy_of_step {old : APIKeyRow} (hstep : m.Step P cfg e m') (hkey : KeyBecomes old key)
    {e' : MarketEvent} (h : CreatedBy P cfg m.db old e') : CreatedBy P cfg m'.db key e' := by
  obtain ⟨userPublicID, projectPublicID, plaintext, name, hevent, howns, hhash⟩ := h
  rw [hkey.same]
  exact ⟨userPublicID, projectPublicID, plaintext, name, hevent,
    howns.mono hstep.users hstep.change.projects.1, hhash⟩

/-- The keys of a reachable state. -/
structure KeyTable (P : Platform) (cfg : Config) (es : List MarketEvent) (db : DB) : Prop where
  distinct : KeysDistinct db.catalog.apiKeys
  created : ∀ key ∈ db.catalog.apiKeys, ∃ e ∈ es, CreatedBy P cfg db key e

theorem KeyTable.step (h : KeyTable P cfg es m.db) (hstep : m.Step P cfg e m') :
    KeyTable P cfg (es ++ [e]) m'.db where
  distinct := h.distinct.step hstep.keys
  created := by
    intro key hkey
    rcases hstep.keys.key_before hkey with ⟨old, hold, hbecomes⟩ | hcreated
    · obtain ⟨e', he', hcreated⟩ := h.created old hold
      exact ⟨e', List.mem_append_left _ he', createdBy_of_step hstep hbecomes hcreated⟩
    · exact ⟨e, List.mem_append_right _ (List.mem_singleton_self e),
        createdBy_of_step hstep (.refl key) hcreated⟩

theorem keyTable_of_reaches (hreach : (marketMachine P cfg).Reaches Machine.anyStep es m) :
    KeyTable P cfg es m.db := by
  refine hreach.invariant_trace (fun es m => KeyTable P cfg es m.db) ?_ ?_
  · intro m hstart
    obtain ⟨⟨⟨models, modelVersions, -, hdb⟩, -⟩, -⟩ := hstart
    rw [hdb]
    refine ⟨⟨List.nodup_nil, List.nodup_nil⟩, fun key hkey => ?_⟩
    cases hkey
  · intro es m e m' htable hnext _
    exact htable.step (Market.step_of_next hnext)

/-! ## What becomes of a key -/

/-- A key after a run: its status has changed only where its owner revoked it, and what it
says of its last use only where it was used. -/
structure KeyAfter (es : List MarketEvent) (db : DB) (key key' : APIKeyRow) : Prop where
  stored : key' ∈ db.catalog.apiKeys
  becomes : KeyBecomes key key'
  status : key'.status = key.status ∧ key'.revokedAt = key.revokedAt ∨ ∃ e ∈ es, RevokedBy db key e
  use : key'.lastUsedAt = key.lastUsedAt ∨ MarketEvent.useKey key.id ∈ es

theorem revokedBy_of_step {old : APIKeyRow} (hstep : m.Step P cfg e m')
    (hkey : KeyBecomes old key) {e' : MarketEvent} (h : RevokedBy m.db key e') :
    RevokedBy m'.db old e' := by
  obtain ⟨userPublicID, projectPublicID, hevent, howns⟩ := h
  rw [hkey.same] at hevent howns
  exact ⟨userPublicID, projectPublicID, hevent, howns.mono hstep.users hstep.change.projects.1⟩

theorem keyAfter_step {key' : APIKeyRow} (h : KeyAfter es m.db key key')
    (hstep : m.Step P cfg e m') : ∃ key'', KeyAfter (es ++ [e]) m'.db key key'' := by
  obtain ⟨key'', hkey', hkept⟩ := hstep.keys.key_after h.stored
  have hlast : e ∈ es ++ [e] := List.mem_append_right _ (List.mem_singleton_self e)
  refine ⟨key'', hkey', h.becomes.trans hkept.becomes, ?_, ?_⟩
  · rcases h.status with ⟨hstatus, htime⟩ | ⟨e', he', hrevoked⟩
    · rcases hkept.status with ⟨hstatus', htime'⟩ | hrevoked
      · exact .inl ⟨hstatus'.trans hstatus, htime'.trans htime⟩
      · exact .inr ⟨e, hlast, revokedBy_of_step hstep h.becomes hrevoked⟩
    · exact .inr ⟨e', List.mem_append_left _ he', revokedBy_of_step hstep (.refl key) hrevoked⟩
  · rcases h.use with huse | hused
    · rcases hkept.use with huse' | rfl
      · exact .inl (huse'.trans huse)
      · have hid : key'.id = key.id := by rw [h.becomes.same]
        exact .inr (hid ▸ hlast)
    · exact .inr (List.mem_append_left _ hused)

/-- What holds while a revoked key is tried: who came with it after it was revoked has been
turned away. -/
structure Barred (P : Platform) (cfg : Config) (key : APIKeyRow) (calls : List Call)
    (m : Market) : Prop where
  invariant : Invariant P m.api.service
  distinct : KeysDistinct m.db.catalog.apiKeys
  stored : ∃ key' ∈ m.db.catalog.apiKeys, KeyBecomes key key'
  away : ∀ call ∈ m.api.service.calls, P.hashToken cfg.apiKeyPepper call.bearer = key.keyHash →
    (∀ old ∈ calls, old.id = call.id → old.phase = .received) → call.TurnedAway

/-- Nobody is let in with the key. -/
theorem Barred.refuses {calls : List Call} (h : Barred P cfg key calls m)
    (hrevoked : key.status = .revoked) {token : String}
    (htoken : P.hashToken cfg.apiKeyPepper token = key.keyHash) :
    resolveAPIKey P cfg token m.db = .error .notFound ∨
      resolveAPIKey P cfg token m.db = .error .invalidCredentials := by
  obtain ⟨key', hkey', hbecomes⟩ := h.stored
  refine resolveAPIKey_of_revoked h.distinct hkey' (hbecomes.revoked hrevoked).1 ?_
  rw [htoken, hbecomes.same]

theorem Barred.step {calls : List Call} (h : Barred P cfg key calls m)
    (hrevoked : key.status = .revoked) (hstep : m.Step P cfg e m') :
    Barred P cfg key calls m' where
  invariant := hstep.invariant h.invariant
  distinct := h.distinct.step hstep.keys
  stored := by
    obtain ⟨key', hkey', hbecomes⟩ := h.stored
    obtain ⟨key'', hkey'', hkept⟩ := hstep.keys.key_after hkey'
    exact ⟨key'', hkey'', hbecomes.trans hkept.becomes⟩
  away := by
    intro call hcall hhash hfresh
    rcases hstep.call_origin hcall with hold | ⟨id, bearer, requestID, body, rfl⟩ |
      ⟨old, hold, e', db, hstepped⟩
    · exact h.away call hold hhash hfresh
    · exact ⟨.inl rfl, rfl, rfl⟩
    · have htransition := hstepped.transition
      have hbearer := htransition.bearer_eq
      have hid := htransition.id_eq
      rw [hbearer] at hhash
      have haway := h.away old hold hhash fun first hfirst hsame =>
        hfresh first hfirst (hsame.trans hid.symm)
      exact haway.step hstepped (h.refuses hrevoked hhash)

/-- A request that has not been let in has asked for nothing. -/
theorem turnedAway_of_received {db : DB} {call : Call} (h : CallInv P db call)
    (hphase : call.phase = .received) : call.TurnedAway := by
  refine ⟨.inl hphase, ?_⟩
  simpa only [CallInv, hphase] using h

/-- In every run every key was created by a request of the owner of its project.  However
the run goes on, the key stays as it is but for the time of its last use, which is written
when it was used, and for its status, which is only ever changed from active to revoked, with
the time of that, by a request of the owner of its project.  After it is revoked no token
with its hash is let in, and every request with one that had not been let in before gets no
job, reserves nothing and is turned away. -/
theorem keys_are_their_owners (P : Platform) (cfg : Config)
    (hreach : (marketMachine P cfg).Reaches Machine.anyStep es m)
    (hsteps : (marketMachine P cfg).Steps Machine.anyStep m es' m')
    (hkey : key ∈ m.db.catalog.apiKeys) :
    (∃ e ∈ es, CreatedBy P cfg m.db key e) ∧ (∃ key', KeyAfter es' m'.db key key') ∧
      (key.status = .revoked →
        (∀ token, P.hashToken cfg.apiKeyPepper token = key.keyHash →
          ∃ e, resolveAPIKey P cfg token m'.db = .error e) ∧
        ∀ call ∈ m'.api.service.calls, P.hashToken cfg.apiKeyPepper call.bearer = key.keyHash →
          (∀ old ∈ m.api.service.calls, old.id = call.id → old.phase = .received) →
          call.TurnedAway) := by
  have htable := keyTable_of_reaches hreach
  have hinv := (linked_of_reaches hreach).1
  refine ⟨htable.created key hkey, ?_, fun hrevoked => ?_⟩
  · refine hsteps.preserves (fun es m => ∃ key', KeyAfter es m.db key key')
      ⟨key, hkey, .refl key, .inl ⟨rfl, rfl⟩, .inl rfl⟩ ?_
    intro es a e b ⟨key', hafter⟩ hnext _
    exact keyAfter_step hafter (Market.step_of_next hnext)
  · have hbarred : Barred P cfg key m.api.service.calls m' := by
      refine hsteps.preserves (fun _ b => Barred P cfg key m.api.service.calls b) ?_ ?_
      · exact ⟨hinv, htable.distinct, ⟨key, hkey, .refl key⟩, fun call hcall _ hfresh =>
          turnedAway_of_received (hinv.calls call hcall) (hfresh call hcall rfl)⟩
      · intro _ a e b hbarred hnext _
        exact hbarred.step hrevoked (Market.step_of_next hnext)
    refine ⟨fun token htoken => ?_, hbarred.away⟩
    rcases hbarred.refuses hrevoked htoken with herror | herror
    · exact ⟨_, herror⟩
    · exact ⟨_, herror⟩

end Keys

/-! ## A sample run -/

/-- A key is created, used and revoked, and then a request comes with it. -/
def revokedEvents : List MarketEvent :=
  [.api (.service (.register 1 2 "usr_a" ⟨"a@example.com", "password", "Ada"⟩)),
    .request "usr_a" (.createProject 20 "prj_a" "chat" none),
    .request "usr_a" (.createAPIKey 21 "key_a" "pvn_live_a_b" "pvn_live_a" "prj_a" "laptop"),
    .tick 1735689600000000,
    .useKey 21,
    .tick 5000000,
    .request "usr_a" (.revokeAPIKey "prj_a" "key_a")]

/-- A request with the revoked key. -/
def lateKeyEvents : List MarketEvent :=
  [.api (.service (.arrive 0 "pvn_live_a_b" "req_a"
      (some ⟨"llama", [⟨"user", "hello"⟩], 50, none, false⟩))),
    .api (.service (.advance 0 sampleEnv))]

/-- The sample market after that request. -/
def lateKeyMarket : Market :=
  (Machine.exec (Market.next samplePlatform sampleConfig) (fun _ _ _ => true)
    (marketAfter revokedEvents) lateKeyEvents).getD (marketAfter revokedEvents)

/-- The row of that key. -/
def revokedKey : APIKeyRow :=
  ⟨21, "key_a", 20, "laptop", "pvn_live_a",
    samplePlatform.hashToken sampleConfig.apiKeyPepper "pvn_live_a_b", .revoked,
    some 1735689600000000, some 1735689605000000⟩

/-- The request with the revoked key is turned away. -/
theorem sample_key_is_revoked :
    (∃ e ∈ revokedEvents, CreatedBy samplePlatform sampleConfig (marketAfter revokedEvents).db
      revokedKey e) ∧
    lateKeyMarket.api.service.calls.map (fun call => (call.bearer, call.phase)) =
      [("pvn_live_a_b", .done (.error 404 "not_found" "Resource not found."))] ∧
    ∀ call ∈ lateKeyMarket.api.service.calls, call.TurnedAway := by
  obtain ⟨hbefore, hafter, hkey, hcalls, hnone⟩ :
      (runMarket (fun _ _ _ => true) revokedEvents).isSome ∧
        (Machine.exec (Market.next samplePlatform sampleConfig) (fun _ _ _ => true)
          (marketAfter revokedEvents) lateKeyEvents).isSome ∧
        revokedKey ∈ (marketAfter revokedEvents).db.catalog.apiKeys ∧
        lateKeyMarket.api.service.calls.map (fun call => (call.bearer, call.phase)) =
          [("pvn_live_a_b", .done (.error 404 "not_found" "Resource not found."))] ∧
        (marketAfter revokedEvents).api.service.calls = [] := by
    decide +kernel
  have hsteps : (marketMachine samplePlatform sampleConfig).Steps Machine.anyStep
      (marketAfter revokedEvents) lateKeyEvents lateKeyMarket :=
    Machine.steps_of_isSome (fun _ _ _ _ => trivial) hafter
  obtain ⟨hcreated, -, haway⟩ := keys_are_their_owners samplePlatform sampleConfig
    (reaches_marketAfter hbefore) hsteps hkey
  refine ⟨hcreated, hcalls, fun call hcall => (haway rfl).2 call hcall ?_ fun old hold => ?_⟩
  · have hpair : (call.bearer, call.phase) ∈
        lateKeyMarket.api.service.calls.map fun call => (call.bearer, call.phase) :=
      List.mem_map_of_mem hcall
    rw [hcalls] at hpair
    rw [(Prod.mk.inj (List.mem_singleton.mp hpair)).1]
    rfl
  · rw [hnone] at hold
    cases hold

end Nuvonode.Contract
