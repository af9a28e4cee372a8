/-
  Contract/Advertising.lean --- one advertisement for each model of an instance.

  An upsert of advertisements is an `UPDATE`, and an `INSERT` where the update has found no
  row; no index is behind it.  A statement whose snapshot misses the row of another one
  inserts a second row, which an administrator approves or rejects by itself.
-/
import Nuvonode.Contract.Moderation

set_option autoImplicit false

namespace Nuvonode.Contract

open Nuvonode.Foundation Nuvonode.Database Nuvonode.Repository Nuvonode.Service Nuvonode.Handler
  Nuvonode.Ws

/-! ## The rows of an advertisement -/

/-- The columns that an upsert looks for. -/
def advertises (ad : AdvertisementRow) : UUID × UUID × String × String :=
  (ad.providerID, ad.providerInstanceID, ad.runtime, ad.runtimeModelName)

theorem names_iff {ad : AdvertisementRow} {providerID instanceID : UUID}
    {runtime runtimeModelName : String} :
    AdvertisementRow.names providerID instanceID runtime runtimeModelName ad = true ↔
      advertises ad = (providerID, instanceID, runtime, runtimeModelName) := by
  simp [AdvertisementRow.names, advertises]

/-- The guard: the snapshot of a statement misses no row of what it advertises. -/
def SeesOwnRows (m : Market) (e : MarketEvent) (_ : Market) : Prop :=
  match e with
  | .frame conn (.modelList _ _ unseen _ runtime runtimeModelName _) =>
      ∀ session ∈ m.api.network.session conn, ∀ instanceID ∈ session.instanceID,
        ∀ ad ∈ m.db.catalog.advertisements, advertises ad =
          (session.providerID, instanceID, listRuntime runtime, runtimeModelName) →
            ad.publicID ∉ unseen
  | _ => True

section Change

variable {now : Nat} {r r' : Registry} {facts : List Fact}

/-- A statement keeps the columns of every advertisement, or inserts one more. -/
theorem advertises_of_change (h : r.Change now facts r') :
    r'.catalog.advertisements.map advertises = r.catalog.advertisements.map advertises ∨
      ∃ providerID instanceID runtime runtimeModelName publicID,
        facts = [.advertised providerID instanceID runtime runtimeModelName, .listed publicID] ∧
        r'.catalog.advertisements.map advertises = r.catalog.advertisements.map advertises ++
          [(providerID, instanceID, runtime, runtimeModelName)] := by
  cases h with
  | readvertise _ =>
      refine .inl ?_
      simp only [Registry.withAdvertisements, List.map_map]
      refine List.map_congr_left fun row _ => ?_
      simp only [Function.comp_apply]
      split <;> rfl
  | advertise _ =>
      refine .inr ⟨_, _, _, _, _, rfl, ?_⟩
      simp [Registry.withAdvertisements, Table.insert, advertises, AdvertisementRow.pending]
  | judge => exact .inl (Table.map_update fun _ => rfl)
  | _ => exact .inl rfl

end Change

section Steps

variable {P : Platform} {cfg : Config} {m m' : Market} {e : MarketEvent}

/-- A new advertisement is one that the statement of a model list has not found. -/
theorem listed_of_shows {publicID : String} (h : .listed publicID ∈ m.shows P cfg e m') :
    ∃ conn session instanceID id unseen matched runtime runtimeModelName digest,
      e = .frame conn (.modelList id publicID unseen matched runtime runtimeModelName digest) ∧
      m.api.network.session conn = some session ∧ session.instanceID = some instanceID ∧
      m.shows P cfg e m' =
        [.advertised session.providerID instanceID (listRuntime runtime) runtimeModelName,
          .listed publicID] ∧
      ∀ ad ∈ m.db.catalog.advertisements, advertises ad =
        (session.providerID, instanceID, listRuntime runtime, runtimeModelName) →
          ad.publicID ∈ unseen := by
  rcases sent_cases h rfl with ⟨_, _, _, _, _, -, heq, -⟩ |
    ⟨conn, f, session, instanceID, db, rfl, hsession, hinstance, hrun, hfact⟩
  · cases heq
  · cases f with
    | heartbeat text job =>
        obtain ⟨parsed, -, heq⟩ := Option.map_eq_some_iff.mp (Option.mem_toList.mp hfact)
        cases heq
    | hardwareReport => cases hfact
    | modelList id newPublicID unseen matched runtime runtimeModelName digest =>
        have hshows : m.shows P cfg _ m' = _ := shows_frame hsession hinstance hrun
        simp only [ProviderFrame.facts, advertisedFacts] at hfact hshows
        split at hfact
        · cases hfact
        · rename_i hname
          split at hfact
          · simp at hfact
          · rename_i hfound
            obtain rfl : publicID = newPublicID := by simpa using hfact
            rw [if_neg hname, if_neg hfound] at hshows
            refine ⟨conn, session, instanceID, id, unseen, matched, runtime, runtimeModelName,
              digest, rfl, hsession, hinstance, hshows, fun ad had hnames => ?_⟩
            by_contra hunseen
            refine hfound (List.any_eq_true.mpr ⟨ad, had, ?_⟩)
            rw [names_iff.mpr hnames]
            simpa using hunseen

end Steps

/-! ## Runs -/

section Runs

variable {P : Platform} {cfg : Config} {m m' : Market} {e : MarketEvent} {log : List Fact}
  {es : List MarketEvent}

/-- A statement that sees the rows of what it advertises inserts no second one. -/
theorem unique_step (h : Table.Unique advertises m.db.catalog.advertisements)
    (hstep : m.Step P cfg e m') (hguard : SeesOwnRows m e m') :
    Table.Unique advertises m'.db.catalog.advertisements := by
  unfold Table.Unique at h ⊢
  have hcolumns := advertises_of_change hstep.change
  simp only [registry] at hcolumns
  rcases hcolumns with hsame | ⟨providerID, instanceID, runtime, name, publicID, hfacts, hnew⟩
  · rw [hsame]
    exact h
  · have hlisted : Fact.listed publicID ∈ m.shows P cfg e m' := by
      rw [hfacts]
      exact List.mem_cons_of_mem _ (List.mem_singleton_self _)
    obtain ⟨conn, session, own, id, unseen, matched, listed, listedName, digest, rfl, hsession,
      hinstance, hshows, hmissed⟩ := listed_of_shows hlisted
    obtain ⟨rfl, rfl, rfl, rfl⟩ : session.providerID = providerID ∧ own = instanceID ∧
        listRuntime listed = runtime ∧ listedName = name := by
      simpa using hshows.symm.trans hfacts
    rw [hnew]
    refine List.Nodup.append h (List.nodup_singleton _) ?_
    intro columns hold hcolumns
    obtain ⟨ad, had, hadvertises⟩ := List.mem_map.mp hold
    rw [List.mem_singleton.mp hcolumns] at hadvertises
    exact hguard session hsession own hinstance ad had hadvertises (hmissed ad had hadvertises)

/-- In every run whose statements see the rows of what they advertise, there is at most one
advertisement for each provider, instance, runtime and name of a model; and while the
latest decision on it is to reject it, no route comes from a row with these columns. -/
theorem one_advertisement_per_model (P : Platform) (cfg : Config)
    (hreach : ((marketMachine P cfg).recorded (Market.shows P cfg)).Reaches
      (Machine.onState SeesOwnRows) es (m, log)) :
    Table.Unique advertises m.db.catalog.advertisements ∧
      ∀ ad ∈ m.db.catalog.advertisements, latest (verdictOn ad.publicID) log = some .rejected →
        ∀ modelID route provider inst other version,
          RouteRows modelID m.db route provider inst other version →
            advertises other ≠ advertises ad := by
  obtain ⟨hunique, hmoderated⟩ : Table.Unique advertises m.db.catalog.advertisements ∧
      Moderated log (registry m.db) := by
    refine hreach.invariant (fun s => Table.Unique advertises s.1.db.catalog.advertisements ∧
      Moderated s.2 (registry s.1.db)) ?_ ?_
    · rintro ⟨m, log⟩ ⟨⟨⟨⟨models, modelVersions, hversions, hdb⟩, -⟩, -⟩, rfl⟩
      rw [hdb]
      exact ⟨List.nodup_nil, .start ⟨rfl, rfl, rfl, hversions⟩⟩
    · intro s e s' hboth hstep hguard
      obtain ⟨hunique, hmoderated⟩ := hboth
      obtain ⟨hnext, hlog⟩ := hstep
      have hstep := Market.step_of_next hnext
      rw [hlog]
      exact ⟨unique_step hunique hstep hguard, hmoderated.change hstep.change⟩
  refine ⟨hunique, fun ad had hrejected modelID route provider inst other version hrows hsame => ?_⟩
  obtain rfl : other = ad := List.inj_on_of_nodup_map hunique hrows.ad_mem had hsame
  obtain ⟨-, -, -, -, -, -, -, happroved, -⟩ := hrows.conditions
  have hlatest := hmoderated.verdict other had happroved
  rw [hrejected] at hlatest
  cases hlatest

end Runs

/-! ## Sample runs -/

/-- A check of runs whose statements miss nothing. -/
def missesNothing (_ : Market) (e : MarketEvent) (_ : Market) : Bool :=
  match e with
  | .frame _ (.modelList _ _ unseen _ _ _ _) => unseen.isEmpty
  | _ => true

theorem seesOwnRows_of_missesNothing {m m' : Market} {e : MarketEvent}
    (h : missesNothing m e m' = true) : SeesOwnRows m e m' := by
  unfold missesNothing at h
  split at h
  · rw [List.isEmpty_iff.mp h]
    exact fun _ _ _ _ _ _ _ => List.not_mem_nil
  · rename_i hother
    unfold SeesOwnRows
    split
    · exact (hother _ _ _ _ _ _ _ _ rfl).elim
    · trivial

/-- Another session of the sample machine sends the same model list, and then that of another
model.  The administrator rejects the first advertisement after all, and it is sent once more. -/
def rejectEvents : List MarketEvent :=
  openingEvents ++
  [.api (.connect 1 "pvn_provider_b"), .api (.network (.register 1)),
    .hello 1 26 "pin_c" (sampleHello "key-a"),
    .frame 1 (.modelList 27 "pma_b" [] (some ⟨23, 22, "ollama", "llama3:8b", .active⟩) ""
      "llama3:8b" "sha256:b"),
    .frame 1 (.modelList 28 "pma_c" [] none "" "qwen:7b" "sha256:c"),
    .request "usr_a" (.setAdvertisementStatus "pma_a" "rejected"),
    .frame 0 (.modelList 29 "pma_d" [] (some ⟨23, 22, "ollama", "llama3:8b", .active⟩) ""
      "llama3:8b" "sha256:a")]

/-- Of four model lists the machine has one advertisement for each model, and no route by the one
that is rejected. -/
theorem sample_advertisement_is_rejected :
    ∃ m log, ((marketMachine samplePlatform sampleConfig).recorded
        (Market.shows samplePlatform sampleConfig)).Reaches (Machine.onState SeesOwnRows)
          rejectEvents (m, log) ∧
      Table.Unique advertises m.db.catalog.advertisements ∧
      m.db.catalog.advertisements.map AdvertisementRow.status = [.rejected, .pending] ∧
      ∀ ad ∈ m.db.catalog.advertisements, latest (verdictOn ad.publicID) log = some .rejected →
        ∀ modelID route provider inst other version,
          RouteRows modelID m.db route provider inst other version →
            advertises other ≠ advertises ad := by
  let rejected := (runMarket missesNothing rejectEvents).getD freshMarket
  obtain ⟨hrun, hstatus⟩ : (runMarket missesNothing rejectEvents).isSome ∧
      rejected.db.catalog.advertisements.map AdvertisementRow.status = [.rejected, .pending] := by
    decide +kernel
  have hreach : (marketMachine samplePlatform sampleConfig).Reaches SeesOwnRows rejectEvents
      rejected :=
    Machine.reaches_of_exec (fun _ _ _ => seesOwnRows_of_missesNothing) start_freshMarket hrun
  obtain ⟨log, hrecorded⟩ := hreach.record (Market.shows samplePlatform sampleConfig)
  obtain ⟨hunique, hroutes⟩ := one_advertisement_per_model samplePlatform sampleConfig hrecorded
  exact ⟨rejected, log, hrecorded, hunique, hstatus, hroutes⟩

/-- Two sessions of one instance send the same model list, and neither statement sees the
row of the other one.  The administrator approves both rows, and then rejects the first. -/
def twoListEvents : List MarketEvent :=
  openingEvents.take 6 ++
  [.api (.connect 1 "pvn_provider_b"), .api (.network (.register 1)),
    .hello 1 26 "pin_c" (sampleHello "key-a"),
    .frame 0 (.modelList 25 "pma_a" [] (some ⟨23, 22, "ollama", "llama3:8b", .active⟩) ""
      "llama3:8b" "sha256:a"),
    .frame 1 (.modelList 27 "pma_b" ["pma_a"] (some ⟨23, 22, "ollama", "llama3:8b", .active⟩) ""
      "llama3:8b" "sha256:a"),
    .request "usr_a" (.setAdvertisementStatus "pma_a" "approved"),
    .request "usr_a" (.setAdvertisementStatus "pma_b" "approved"),
    .request "usr_a" (.setAdvertisementStatus "pma_a" "rejected")]

/-- The instance has two advertisements of one model, and is routed to by the second when
the first one is rejected. -/
theorem rejected_model_is_routed :
    ∃ m, (marketMachine samplePlatform sampleConfig).Reaches Machine.anyStep twoListEvents m ∧
      ¬ Table.Unique advertises m.db.catalog.advertisements ∧
      m.db.catalog.advertisements.map AdvertisementRow.status = [.rejected, .approved] ∧
      findsRoute 22 m.db (some sampleRoute) = true := by
  obtain ⟨hrun, hcolumns, hstatus, hroute⟩ :
      (runMarket (fun _ _ _ => true) twoListEvents).isSome ∧
        (marketAfter twoListEvents).db.catalog.advertisements.map advertises =
          [(5, 24, "ollama", "llama3:8b"), (5, 24, "ollama", "llama3:8b")] ∧
        (marketAfter twoListEvents).db.catalog.advertisements.map AdvertisementRow.status =
          [.rejected, .approved] ∧
        findsRoute 22 (marketAfter twoListEvents).db (some sampleRoute) = true := by
    decide +kernel
  refine ⟨_, reaches_marketAfter hrun, fun hunique => ?_, hstatus, hroute⟩
  unfold Table.Unique at hunique
  rw [hcolumns] at hunique
  exact absurd hunique (by decide)

end Nuvonode.Contract
