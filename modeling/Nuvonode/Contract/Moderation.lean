/-
  Contract/Moderation.lean --- no job without moderation.

  The log of a run holds what every statement has shown: the decisions of the
  administrators, and what the machines reported and advertised.  The rows that routing
  joins agree with the latest entries on them.  What a provider's session sends is never
  a decision, and what it brings into the catalog is pending.
-/
import Nuvonode.Contract.Spending
import Nuvonode.Foundation.History

set_option autoImplicit false

namespace Nuvonode.Contract

open Nuvonode.Foundation Nuvonode.Database Nuvonode.Repository Nuvonode.Service Nuvonode.Handler
  Nuvonode.Ws

/-! ## The rows and the log -/

/-- The rows agree with the latest entries of the log. -/
structure Moderated (log : List Fact) (r : Registry) : Prop where
  known : ∀ fact ∈ log, ∀ id ∈ subjectOf fact, ∃ provider ∈ r.providers, provider.id = id
  approval : ∀ provider ∈ r.providers,
    latest (decisionOn provider.id) log = some provider.approvalStatus ∨
      latest (decisionOn provider.id) log = none ∧
        .created provider.id provider.approvalStatus ∈ log
  enabled : ∀ provider ∈ r.providers, provider.status = .active → .disabled provider.id ∉ log
  report : ∀ inst ∈ r.catalog.instances,
    inst.status = .offline ∨ latest (reportOf inst.id) log = some inst.status
  verdict : ∀ ad ∈ r.catalog.advertisements, ad.status = .approved →
    latest (verdictOn ad.publicID) log = some .approved
  advertised : ∀ ad ∈ r.catalog.advertisements,
    .advertised ad.providerID ad.providerInstanceID ad.runtime ad.runtimeModelName ∈ log
  linked : ∀ ad ∈ r.catalog.advertisements, ∀ versionID ∈ ad.modelVersionID,
    ∃ version ∈ r.catalog.modelVersions, version.id = versionID ∧
      ad.modelID = some version.modelID ∧ version.runtimeModelName = ad.runtimeModelName
  versions : Table.Unique ModelVersionRow.id r.catalog.modelVersions

section Change

variable {now : Nat} {r r' : Registry} {facts log : List Fact}

/-- Nothing is decided of a provider that there is not. -/
theorem Moderated.silent (h : Moderated log r) {id : UUID}
    (hid : Table.select ProviderRow.id r.providers id = none) :
    latest (decisionOn id) log = none ∧ .disabled id ∉ log := by
  have hunknown : ∀ fact ∈ log, subjectOf fact ≠ some id := by
    intro fact hfact hsubject
    obtain ⟨provider, hprovider, heq⟩ := h.known fact hfact id hsubject
    exact Table.select_eq_none_iff.mp hid provider hprovider heq
  refine ⟨latest_eq_none fun fact hfact => ?_, fun hfact => hunknown _ hfact rfl⟩
  cases fact with
  | decided other approval =>
      refine if_neg fun heq => hunknown _ hfact ?_
      rw [subjectOf, heq]
  | _ => rfl

/-- The rows of providers agree with the log after a statement. -/
theorem Moderated.providers (h : Moderated log r) (hchange : r.Change now facts r')
    {provider : ProviderRow} (hprovider : provider ∈ r'.providers) :
    (latest (decisionOn provider.id) (log ++ facts) = some provider.approvalStatus ∨
      latest (decisionOn provider.id) (log ++ facts) = none ∧
        .created provider.id provider.approvalStatus ∈ log ++ facts) ∧
      (provider.status = .active → .disabled provider.id ∉ log ++ facts) := by
  cases hchange.provider_origin hprovider with
  | kept hold hsilent hdisabled =>
      rw [latest_append_of_silent hsilent]
      refine ⟨?_, fun hactive hmem => ?_⟩
      · rcases h.approval provider hold with hlatest | ⟨hnone, hcreated⟩
        · exact .inl hlatest
        · exact .inr ⟨hnone, List.mem_append_left _ hcreated⟩
      · rcases List.mem_append.mp hmem with hmem | hmem
        · exact h.enabled provider hold hactive hmem
        · exact hdisabled hmem
  | @decided old approval hold hrow hfacts =>
      subst hrow hfacts
      refine ⟨.inl (latest_append_of_some ?_), fun hactive hmem => ?_⟩
      · simp [latest, decisionOn, ProviderRow.decide]
      · rcases List.mem_append.mp hmem with hmem | hmem
        · exact h.enabled old hold hactive hmem
        · cases List.mem_singleton.mp hmem
  | @disabled old hold hrow hfacts =>
      subst hrow hfacts
      refine ⟨?_, fun hactive => AccountStatus.noConfusion hactive⟩
      rw [latest_append_of_silent (by simp [decisionOn])]
      rcases h.approval old hold with hlatest | ⟨hnone, hcreated⟩
      · exact .inl hlatest
      · exact .inr ⟨hnone, List.mem_append_left _ hcreated⟩
  | created hfree hactive hfacts =>
      obtain ⟨hnone, hdisabled⟩ := h.silent hfree
      subst hfacts
      refine ⟨.inr ⟨?_, List.mem_append_right _ List.mem_cons_self⟩, fun _ hmem => ?_⟩
      · rw [latest_append_of_silent (by simp [decisionOn]), hnone]
      · rcases List.mem_append.mp hmem with hmem | hmem
        · exact hdisabled hmem
        · cases List.mem_singleton.mp hmem

/-- The rows of advertisements agree with the log after a statement. -/
theorem Moderated.advertisements (h : Moderated log r) (hchange : r.Change now facts r')
    {ad : AdvertisementRow} (had : ad ∈ r'.catalog.advertisements) :
    (ad.status = .approved → latest (verdictOn ad.publicID) (log ++ facts) = some .approved) ∧
      .advertised ad.providerID ad.providerInstanceID ad.runtime ad.runtimeModelName ∈
        log ++ facts ∧
      ∀ versionID ∈ ad.modelVersionID, ∃ version ∈ r.catalog.modelVersions,
        version.id = versionID ∧ ad.modelID = some version.modelID ∧
          version.runtimeModelName = ad.runtimeModelName := by
  cases hchange.advertisement_origin had with
  | @kept old digest hold hrow hsilent =>
      subst hrow
      refine ⟨fun happroved => ?_, List.mem_append_left _ (h.advertised old hold),
        h.linked old hold⟩
      rw [latest_append_of_silent hsilent]
      exact h.verdict old hold happroved
  | @judged old status hold hrow hfacts =>
      subst hrow hfacts
      refine ⟨fun happroved => latest_append_of_some ?_,
        List.mem_append_left _ (h.advertised old hold), h.linked old hold⟩
      have hstatus : status = .approved := happroved
      simp [latest, verdictOn, AdvertisementRow.judge, hstatus]
  | listed hpending hadvertised hlinked =>
      refine ⟨fun happroved => ?_, List.mem_append_right _ hadvertised, hlinked⟩
      rw [hpending] at happroved
      cases happroved

/-- Every statement keeps the agreement. -/
theorem Moderated.change (h : Moderated log r) (hchange : r.Change now facts r') :
    Moderated (log ++ facts) r' where
  known := by
    intro fact hfact id hid
    have hbefore : ∃ provider ∈ r.providers, provider.id = id := by
      rcases List.mem_append.mp hfact with hfact | hfact
      · exact h.known fact hfact id hid
      · exact hchange.subject hfact hid
    obtain ⟨provider, hprovider, rfl⟩ := hbefore
    obtain ⟨provider', hprovider', hid', -⟩ := hchange.provider_after hprovider
    exact ⟨provider', hprovider', hid'⟩
  approval := fun _ hprovider => (h.providers hchange hprovider).1
  enabled := fun _ hprovider => (h.providers hchange hprovider).2
  report := by
    intro inst hinst
    cases hchange.instance_origin hinst with
    | kept hold hsilent =>
        rw [latest_append_of_silent hsilent]
        exact h.report inst hold
    | retired hoffline => exact .inl hoffline
    | reported hfacts =>
        refine .inr (latest_append_of_some ?_)
        simp [hfacts, latest, reportOf]
  verdict := fun _ had => (h.advertisements hchange had).1
  advertised := fun _ had => (h.advertisements hchange had).2.1
  linked := by
    rw [hchange.modelVersions]
    exact fun _ had => (h.advertisements hchange had).2.2
  versions := by
    rw [hchange.modelVersions]
    exact h.versions

end Change

/-! ## Runs -/

/-- A database with model versions, and nothing to moderate. -/
def Unmoderated (db : DB) : Prop :=
  db.providers = [] ∧ db.catalog.instances = [] ∧ db.catalog.advertisements = [] ∧
    Table.Unique ModelVersionRow.id db.catalog.modelVersions

/-- The market from such a database, with the log of its statements. -/
abbrev moderationMachine (P : Platform) (cfg : Config) : Machine (Market × List Fact) MarketEvent :=
  (Machine.ofNext (fun m => Unmoderated m.db) (Market.next P cfg)).recorded (Market.shows P cfg)

section Runs

variable {P : Platform} {cfg : Config} {es : List MarketEvent} {s : Market × List Fact}

/-- At first nothing was shown, and there is nothing to agree with it. -/
theorem Moderated.start {db : DB} (h : Unmoderated db) : Moderated [] (registry db) := by
  obtain ⟨hproviders, hinstances, hads, hversions⟩ := h
  refine ⟨by simp, ?_, ?_, ?_, ?_, ?_, ?_, hversions⟩
  all_goals simp [registry, hproviders, hinstances, hads]

/-- In every run the rows agree with the log, and providers begin as the settings say. -/
theorem moderated_of_reaches (h : (moderationMachine P cfg).Reaches Machine.anyStep es s) :
    Moderated s.2 (registry s.1.db) ∧
      ∀ id approval, .created id approval ∈ s.2 → approval = initialApproval cfg := by
  refine h.invariant (fun s => Moderated s.2 (registry s.1.db) ∧
    ∀ id approval, .created id approval ∈ s.2 → approval = initialApproval cfg) ?_ ?_
  · intro s hstart
    obtain ⟨hunmoderated, hlog⟩ := hstart
    rw [hlog]
    exact ⟨.start hunmoderated, by simp⟩
  · intro s e s' hboth hstep _
    obtain ⟨hmoderated, hcreated⟩ := hboth
    obtain ⟨hnext, hlog⟩ := hstep
    rw [hlog]
    refine ⟨hmoderated.change (Market.step_of_next hnext).change, fun id approval hmem => ?_⟩
    rcases List.mem_append.mp hmem with hmem | hmem
    · exact hcreated id approval hmem
    · exact approval_of_created hnext hmem

end Runs

/-! ## The contract -/

/-- What the log of a run says of a route of a model, and what the rows say. -/
structure RouteModerated (cfg : Config) (log : List Fact) (db : DB) (modelID : UUID)
    (route : RoutableProvider) : Prop where
  /-- The latest decision on the provider is to approve it, or there is none and it was
  approved when it was created. -/
  approved : latest (decisionOn route.providerID) log = some .approved ∨
    latest (decisionOn route.providerID) log = none ∧ .created route.providerID .approved ∈ log ∧
      cfg.appEnv = "development" ∧ cfg.allowDevAutoApproveProvider = true
  enabled : .disabled route.providerID ∉ log
  belongs : ∃ inst ∈ db.catalog.instances,
    inst.id = route.providerInstanceID ∧ inst.providerID = route.providerID
  online : latest (reportOf route.providerInstanceID) log = some .online
  /-- The instance advertised the model by its name, and the latest decision on the
  advertisement is to approve it. -/
  advertised : ∃ ad ∈ db.catalog.advertisements,
    ad.providerInstanceID = route.providerInstanceID ∧
      ad.modelVersionID = some route.modelVersionID ∧
      .advertised route.providerID route.providerInstanceID ad.runtime route.runtimeModelName ∈
        log ∧
      latest (verdictOn ad.publicID) log = some .approved
  version : ∃ version ∈ db.catalog.modelVersions, version.id = route.modelVersionID ∧
    version.modelID = modelID ∧ version.status = .active

section Contract

variable {cfg : Config} {log : List Fact} {db : DB} {modelID : UUID} {route : RoutableProvider}

/-- Where rows and log agree, every route is moderated. -/
theorem routeModerated_of_findsRoute (h : Moderated log (registry db))
    (hcreated : ∀ id approval, .created id approval ∈ log → approval = initialApproval cfg)
    (hroute : findsRoute modelID db (some route) = true) :
    RouteModerated cfg log db modelID route := by
  obtain ⟨provider, inst, ad, version, hrows⟩ := rows_of_findsRoute hroute
  obtain ⟨howner, hprovider, hinstance, hversion, happroval, hactive, honline, hstatus, hmodel,
    hversionActive⟩ := hrows.conditions
  -- The version that the advertisement was linked to is the one of the join.
  obtain ⟨linked, hlinked, hid, hlinkedModel, hname⟩ :=
    h.linked ad hrows.ad_mem version.id hversion
  have hsame : linked = version :=
    List.inj_on_of_nodup_map h.versions hlinked hrows.version_mem hid
  subst hsame
  rw [hrows.route_eq]
  refine ⟨?_, h.enabled provider hrows.provider_mem hactive, ⟨inst, hrows.inst_mem, rfl, howner⟩,
    ?_, ⟨ad, hrows.ad_mem, hinstance, hversion, ?_, h.verdict ad hrows.ad_mem hstatus⟩,
    ⟨linked, hrows.version_mem, rfl, ?_, hversionActive⟩⟩
  · have hlatest := h.approval provider hrows.provider_mem
    rw [happroval] at hlatest
    rcases hlatest with hlatest | ⟨hnone, hmem⟩
    · exact .inl hlatest
    · have hinitial := hcreated provider.id .approved hmem
      unfold initialApproval at hinitial
      split at hinitial
      · rename_i hsettings
        exact .inr ⟨hnone, hmem, hsettings.2, hsettings.1⟩
      · cases hinitial
  · have hreport := h.report inst hrows.inst_mem
    rw [honline] at hreport
    exact hreport.resolve_left InstanceStatus.noConfusion
  · have hadvertised := h.advertised ad hrows.ad_mem
    rw [hprovider, hinstance, ← hname] at hadvertised
    exact hadvertised
  · exact Option.some.inj (hlinkedModel.symm.trans hmodel)

/-- What is approved after a provider's frame was approved before it. -/
theorem approved_before {P : Platform} {m m' : Market} {e : MarketEvent}
    (hprovider : ofProvider e = true) (hnext : m.next P cfg e = some m') :
    (∀ provider ∈ m'.db.providers, provider ∈ m.db.providers) ∧
      ∀ ad ∈ m'.db.catalog.advertisements, ad.status = .approved →
        ∃ old ∈ m.db.catalog.advertisements, old.status = .approved ∧
          ∃ digest, ad = { old with localDigest := digest } := by
  have hchange := (Market.step_of_next hnext).change
  have hsent : ∀ fact ∈ m.shows P cfg e m', fact.sent = true := fun _ => sent_of_shows hprovider
  refine ⟨fun provider hmem => ?_, fun ad had happroved => ?_⟩
  · cases hchange.provider_origin hmem with
    | kept hold _ _ => exact hold
    | decided _ _ hfacts | disabled _ _ hfacts | created _ _ hfacts =>
        rw [hfacts] at hsent
        cases hsent _ List.mem_cons_self
  · cases hchange.advertisement_origin had with
    | kept hold hrow _ =>
        rw [hrow] at happroved
        exact ⟨_, hold, happroved, _, hrow⟩
    | judged _ _ hfacts =>
        rw [hfacts] at hsent
        cases hsent _ List.mem_cons_self
    | listed hpending _ _ =>
        rw [hpending] at happroved
        cases happroved

/-- In every run from a database without providers, every route that is found for a model
is moderated: its provider stands approved and was never disabled, its instance is the
provider's and last reported that it is online, this instance advertised the model by the
name that is returned, the advertisement stands approved, and the version is an active one
of the model.  No frame of a provider's connection changes a provider, and an
advertisement that is approved after it was approved before it. -/
theorem routes_are_moderated (P : Platform) (cfg : Config) {es : List MarketEvent} {m : Market}
    (hreach : (moderationMachine P cfg).Reaches Machine.anyStep es (m, log)) :
    (∀ modelID route, findsRoute modelID m.db (some route) = true →
      RouteModerated cfg log m.db modelID route) ∧
      ∀ e m', ofProvider e = true → m.next P cfg e = some m' →
        (∀ provider ∈ m'.db.providers, provider ∈ m.db.providers) ∧
          ∀ ad ∈ m'.db.catalog.advertisements, ad.status = .approved →
            ∃ old ∈ m.db.catalog.advertisements, old.status = .approved ∧
              ∃ digest, ad = { old with localDigest := digest } := by
  obtain ⟨hmoderated, hcreated⟩ := moderated_of_reaches hreach
  exact ⟨fun modelID route hroute => routeModerated_of_findsRoute hmoderated hcreated hroute,
    fun e m' hprovider hnext => approved_before hprovider hnext⟩

end Contract

/-! ## A sample run -/

/-- The sample route after the administrator's approval of the advertisement. -/
theorem sample_route_is_moderated :
    ∃ log, (moderationMachine samplePlatform sampleConfig).Reaches Machine.anyStep openingEvents
        (marketAfter openingEvents, log) ∧
      findsRoute 22 (marketAfter openingEvents).db (some sampleRoute) = true ∧
      RouteModerated sampleConfig log (marketAfter openingEvents).db 22 sampleRoute := by
  obtain ⟨hrun, hroute⟩ : (runMarket (fun _ _ _ => true) openingEvents).isSome ∧
      findsRoute 22 (marketAfter openingEvents).db (some sampleRoute) = true := by
    decide +kernel
  have hunique : Table.Unique ModelVersionRow.id sampleCatalog.modelVersions := by
    unfold Table.Unique
    decide
  have hreach : (Machine.ofNext (fun m => Unmoderated m.db)
      (Market.next samplePlatform sampleConfig)).Reaches Machine.anyStep openingEvents
        (marketAfter openingEvents) :=
    Machine.reaches_of_exec (fun _ _ _ _ => trivial) ⟨rfl, rfl, rfl, hunique⟩ hrun
  obtain ⟨log, hrecorded⟩ := hreach.record (Market.shows samplePlatform sampleConfig)
  have hlogged : (moderationMachine samplePlatform sampleConfig).Reaches Machine.anyStep
      openingEvents (marketAfter openingEvents, log) := hrecorded.mono fun _ _ _ _ => trivial
  exact ⟨log, hlogged, hroute,
    (routes_are_moderated samplePlatform sampleConfig hlogged).1 22 sampleRoute hroute⟩

end Nuvonode.Contract
