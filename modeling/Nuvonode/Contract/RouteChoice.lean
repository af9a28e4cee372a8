/-
  Contract/RouteChoice.lean --- the route that is chosen and the documented score.

  `FindRoutableProvider` orders the routes by the last heartbeat alone.  A route with the
  latest heartbeat has the best score exactly when no other one has the points of its
  provider's record and of its own heartbeat to outweigh it.
-/
import Nuvonode.Contract.Ledger
import Nuvonode.Repository.Routing
import Nuvonode.Service.Points

set_option autoImplicit false

namespace Nuvonode.Contract

open Nuvonode.Foundation Nuvonode.Database Nuvonode.Repository Nuvonode.Service

/-! ## Candidates -/

/-- The eligible routes to a model. -/
def eligibleRoutes (modelID : UUID) (db : DB) : List RoutableProvider :=
  (routeRows modelID db).map Prod.snd

/-- The last heartbeat of the instance of a route. -/
def heartbeatOf (db : DB) (route : RoutableProvider) : Option Nat :=
  (Table.select InstanceRow.id db.catalog.instances route.providerInstanceID).bind
    InstanceRow.lastHeartbeatAt

/-- The whole seconds since a heartbeat at a time in microseconds; an instance that was
never heard of is as old as the clock. -/
def heartbeatAge (now : Nat) (heartbeat : Option Nat) : ℤ :=
  ((now : ℤ) - (heartbeat.getD 0 : ℤ)) / 1000000

/-- What the score looks at in a route. -/
def candidate (now : Nat) (queueDepth : ℤ) (db : DB) (route : RoutableProvider) : RouteCandidate :=
  let stats := db.stats route.providerID
  { trustScore := stats.map fun row => .value (binary64 row.trustScore)
    successRate := stats.map fun row => .value (binary64 row.successRate)
    averageLatencyMS := (stats.bind StatsRow.avgLatencyMS).map fun ms => .value (binary64 ms)
    queueDepth := queueDepth
    heartbeatAgeSeconds := heartbeatAge now (heartbeatOf db route)
    totalJobs := (stats.map fun row => (row.totalJobs : ℤ)).getD 0 }

/-- Every route that `FindRoutableProvider` may return is one that no eligible route is
preferred to. -/
def ChoiceRefinesScore (now : Nat) (queueDepth : ℤ) (modelID : UUID) (db : DB) : Prop :=
  ∀ route, isRoute modelID db route = true → ∀ other ∈ eligibleRoutes modelID db,
    preferRoute (candidate now queueDepth db other) (candidate now queueDepth db route) = false

/-- The points of a route: those for the record of its provider, and those for its heartbeat. -/
def routePoints (now : Nat) (db : DB) (route : RoutableProvider) : ℚ :=
  recordPoints (db.stats route.providerID) +
    freshnessPoints (heartbeatAge now (heartbeatOf db route))

/-- What a rounded score has over the points, the share for capacity included. -/
def roundingExcess (now : Nat) (queueDepth : ℤ) (db : DB) (route : RoutableProvider) : ℚ :=
  routingScore (candidate now queueDepth db route) - routePoints now db route

/-- Every eligible route with the latest heartbeat has the most points.  Only where another
one has exactly as many, rounding must not put that one ahead, nor, where rounding leaves the
tie, fewer jobs of its provider. -/
def LatestIsBest (now : Nat) (queueDepth : ℤ) (modelID : UUID) (db : DB) : Prop :=
  ∀ route ∈ eligibleRoutes modelID db,
    (∀ other ∈ eligibleRoutes modelID db,
      heartbeatPrecedes (heartbeatOf db route) (heartbeatOf db other) = true) →
    ∀ other ∈ eligibleRoutes modelID db,
      routePoints now db other < routePoints now db route ∨
        routePoints now db other = routePoints now db route ∧
          (roundingExcess now queueDepth db other < roundingExcess now queueDepth db route ∨
            roundingExcess now queueDepth db other = roundingExcess now queueDepth db route ∧
              (candidate now queueDepth db route).totalJobs ≤
                (candidate now queueDepth db other).totalJobs)

instance (now : Nat) (queueDepth : ℤ) (modelID : UUID) (db : DB) :
    Decidable (LatestIsBest now queueDepth modelID db) :=
  inferInstanceAs (Decidable (∀ _ ∈ _, _ → ∀ _ ∈ _, _))

/-! ## The order and the latest heartbeat -/

section Order

variable {modelID : UUID} {db : DB}

/-- A row that is ordered has the heartbeat of its route's instance. -/
theorem heartbeatOf_of_mem (hids : Table.Unique InstanceRow.id db.catalog.instances)
    {row : Option Nat × RoutableProvider} (hrow : row ∈ routeRows modelID db) :
    heartbeatOf db row.2 = row.1 := by
  obtain ⟨provider, -, hrow⟩ := List.mem_flatMap.mp hrow
  obtain ⟨inst, hinst, hrow⟩ := List.mem_flatMap.mp hrow
  obtain ⟨ad, -, hrow⟩ := List.mem_flatMap.mp hrow
  obtain ⟨version, -, hjoin⟩ := List.mem_filterMap.mp hrow
  unfold joinRoute at hjoin
  split at hjoin
  · cases hjoin
    rw [heartbeatOf, Table.select_of_mem hids hinst, Option.bind_some]
  · cases hjoin

/-- A route may be returned exactly when it is eligible and has the latest heartbeat. -/
theorem isRoute_iff (hids : Table.Unique InstanceRow.id db.catalog.instances)
    {route : RoutableProvider} : isRoute modelID db route = true ↔
      route ∈ eligibleRoutes modelID db ∧ ∀ other ∈ eligibleRoutes modelID db,
        heartbeatPrecedes (heartbeatOf db route) (heartbeatOf db other) = true := by
  constructor
  · intro hroute
    obtain ⟨row, hrow, hboth⟩ := List.any_eq_true.mp hroute
    obtain ⟨hsame, hlatest⟩ := Bool.and_eq_true_iff.mp hboth
    obtain rfl := eq_of_beq hsame
    refine ⟨List.mem_map_of_mem hrow, fun other hother => ?_⟩
    obtain ⟨otherRow, hotherRow, rfl⟩ := List.mem_map.mp hother
    rw [heartbeatOf_of_mem hids hrow, heartbeatOf_of_mem hids hotherRow]
    exact List.all_eq_true.mp hlatest otherRow hotherRow
  · rintro ⟨hroute, hlatest⟩
    obtain ⟨row, hrow, rfl⟩ := List.mem_map.mp hroute
    refine List.any_eq_true.mpr ⟨row, hrow, Bool.and_eq_true_iff.mpr ⟨beq_self_eq_true _, ?_⟩⟩
    refine List.all_eq_true.mpr fun otherRow hotherRow => ?_
    have hprecedes := hlatest otherRow.2 (List.mem_map_of_mem hotherRow)
    rwa [heartbeatOf_of_mem hids hrow, heartbeatOf_of_mem hids hotherRow] at hprecedes

end Order

/-! ## Points and scores -/

section Points

variable {now : Nat} {queueDepth : ℤ} {db : DB} {route other : RoutableProvider}

/-- A candidate is read from the row of its provider. -/
theorem readsStats_candidate :
    ReadsStats (candidate now queueDepth db route) (db.stats route.providerID) := by
  have htrust : binary64 20 = 20 := binary64_intCast (n := 20) (by norm_num) (by norm_num)
  have hlatency : binary64 2500 = 2500 := binary64_intCast (n := 2500) (by norm_num) (by norm_num)
  have hsuccess : binary64 (1 / 2) = 1 / 2 := by decide +kernel
  unfold candidate
  constructor
  · rw [trustColumn]
    cases db.stats route.providerID with
    | none => exact htrust.symm
    | some row => rfl
  · rw [successColumn]
    cases db.stats route.providerID with
    | none => exact hsuccess.symm
    | some row => rfl
  · rw [latencyColumn]
    dsimp only
    cases (db.stats route.providerID).bind StatsRow.avgLatencyMS with
    | none => exact hlatency.symm
    | some avg => rfl

theorem storedStats_of_stats (hstored : ∀ row ∈ db.providerStats, StoredStats row) :
    ∀ row ∈ db.stats route.providerID, StoredStats row :=
  fun row hrow => hstored row (Table.mem_of_select hrow).1

/-- More points make a higher score. -/
theorem score_lt_of_points (hstored : ∀ row ∈ db.providerStats, StoredStats row)
    (hless : routePoints now db other < routePoints now db route) :
    routingScore (candidate now queueDepth db other) <
      routingScore (candidate now queueDepth db route) :=
  routingScore_lt readsStats_candidate readsStats_candidate (storedStats_of_stats hstored)
    (storedStats_of_stats hstored) rfl hless

theorem preferRoute_eq_false_iff {a b : RouteCandidate} : preferRoute a b = false ↔
    routingScore a < routingScore b ∨
      routingScore a = routingScore b ∧ b.totalJobs ≤ a.totalJobs := by
  unfold preferRoute
  split
  · rename_i hsame
    rw [decide_eq_false_iff_not, not_lt, hsame]
    exact ⟨fun h => .inr ⟨rfl, h⟩, fun h => (h.resolve_left (lt_irrefl _)).2⟩
  · rename_i hne
    rw [decide_eq_false_iff_not, not_lt]
    exact ⟨fun h => .inl (lt_of_le_of_ne h hne), fun h => (h.resolve_right fun h => hne h.1).le⟩

/-- A route is not preferred to another one exactly when that has more points, or as many and
rounding and jobs do not decide against it. -/
theorem not_preferred_iff (hstored : ∀ row ∈ db.providerStats, StoredStats row) :
    preferRoute (candidate now queueDepth db other) (candidate now queueDepth db route) = false ↔
      routePoints now db other < routePoints now db route ∨
        routePoints now db other = routePoints now db route ∧
          (roundingExcess now queueDepth db other < roundingExcess now queueDepth db route ∨
            roundingExcess now queueDepth db other = roundingExcess now queueDepth db route ∧
              (candidate now queueDepth db route).totalJobs ≤
                (candidate now queueDepth db other).totalJobs) := by
  rw [preferRoute_eq_false_iff, roundingExcess, roundingExcess]
  rcases lt_trichotomy (routePoints now db other) (routePoints now db route) with
    hless | hsame | hmore
  · exact iff_of_true (.inl (score_lt_of_points hstored hless)) (.inl hless)
  · rw [hsame]
    simp only [lt_self_iff_false, true_and, false_or, sub_lt_sub_iff_right, sub_left_inj]
  · have hscore : routingScore (candidate now queueDepth db route) <
        routingScore (candidate now queueDepth db other) := score_lt_of_points hstored hmore
    refine iff_of_false ?_ ?_
    · rintro (hless | ⟨hsame, -⟩)
      · exact lt_asymm hscore hless
      · exact hscore.ne' hsame
    · rintro (hless | ⟨hsame, -⟩)
      · exact lt_asymm hmore hless
      · exact hmore.ne' hsame

end Points

/-- The route that is chosen refines the score exactly when the routes with the latest
heartbeat have the most points. -/
theorem choice_refines_score_iff (now : Nat) (queueDepth : ℤ) (modelID : UUID) (db : DB)
    (hids : Table.Unique InstanceRow.id db.catalog.instances)
    (hstored : ∀ row ∈ db.providerStats, StoredStats row) :
    ChoiceRefinesScore now queueDepth modelID db ↔ LatestIsBest now queueDepth modelID db := by
  constructor
  · intro hrefines route hroute hlatest other hother
    have hchosen := (isRoute_iff hids).mpr ⟨hroute, hlatest⟩
    exact (not_preferred_iff hstored).mp (hrefines route hchosen other hother)
  · intro hbest route hchosen other hother
    obtain ⟨hroute, hlatest⟩ := (isRoute_iff hids).mp hchosen
    exact (not_preferred_iff hstored).mpr (hbest route hroute hlatest other hother)

/-! ## One provider -/

/-- Another instance of the same provider has nothing over one with a later heartbeat. -/
theorem no_advantage_of_same_provider {now : Nat} {queueDepth : ℤ} {db : DB}
    {route other : RoutableProvider} (hsame : other.providerID = route.providerID)
    (hheard : (heartbeatOf db route).isSome)
    (hlatest : heartbeatPrecedes (heartbeatOf db route) (heartbeatOf db other) = true) :
    ¬ Advantage (candidate now queueDepth db other) (candidate now queueDepth db route) := by
  have hage :
      heartbeatAge now (heartbeatOf db route) ≤ heartbeatAge now (heartbeatOf db other) := by
    obtain ⟨last, hlast⟩ := Option.isSome_iff_exists.mp hheard
    rw [hlast] at hlatest ⊢
    cases hother : heartbeatOf db other with
    | none =>
        rw [hother] at hlatest
        exact absurd hlatest Bool.false_ne_true
    | some earlier =>
        rw [hother] at hlatest
        have hle : earlier ≤ last := of_decide_eq_true hlatest
        simp only [heartbeatAge, Option.getD_some]
        omega
  unfold Advantage candidate
  simp only [hsame, lt_self_iff_false, false_or, or_false, not_lt]
  exact hage

/-- Where every eligible instance is of one provider and has been heard of, the choice
refines the score. -/
theorem choice_refines_score_of_one_provider (now : Nat) (queueDepth : ℤ) (modelID : UUID)
    (db : DB) (hids : Table.Unique InstanceRow.id db.catalog.instances)
    (hone : ∀ route ∈ eligibleRoutes modelID db, ∀ other ∈ eligibleRoutes modelID db,
      other.providerID = route.providerID)
    (hheard : ∀ route ∈ eligibleRoutes modelID db, (heartbeatOf db route).isSome) :
    ChoiceRefinesScore now queueDepth modelID db := by
  intro route hchosen other hother
  obtain ⟨hroute, hlatest⟩ := (isRoute_iff hids).mp hchosen
  exact preferRoute_of_no_advantage rfl (no_advantage_of_same_provider
    (hone route hroute other hother) (hheard route hroute) (hlatest other hother))

/-! ## Two providers -/

/-- The route to a provider without statistics. -/
def newRoute : RoutableProvider := ⟨1, "prv_a", 11, 6, "llama3:8b"⟩

/-- The route to a trusted provider. -/
def trustedRoute : RoutableProvider := ⟨2, "prv_b", 12, 6, "llama3:8b"⟩

/-- Two approved providers with an online instance each, by when they were heard of. -/
def scoredDB (newHeard trustedHeard : Nat) : DB :=
  { DB.seeded ⟨[], [], [], [⟨6, 5, "ollama", "llama3:8b", .active⟩],
      [⟨11, "pin_a", 1, "node-a", "", "", "", "", .online, some newHeard, none⟩,
        ⟨12, "pin_b", 2, "node-b", "", "", "", "", .online, some trustedHeard, none⟩],
      [⟨21, "pma_a", 1, 11, some 5, some 6, "ollama", "llama3:8b", "", .approved⟩,
        ⟨22, "pma_b", 2, 12, some 5, some 6, "ollama", "llama3:8b", "", .approved⟩], []⟩ with
    providers := [⟨1, "prv_a", 7, none, "a", .approved, .active, "hash a", false⟩,
      ⟨2, "prv_b", 8, none, "b", .approved, .active, "hash b", false⟩]
    providerStats := [⟨2, 100, 90, 10, 0, some 500, 9 / 10, 80⟩] }

theorem unique_scoredDB (newHeard trustedHeard : Nat) :
    Table.Unique InstanceRow.id (scoredDB newHeard trustedHeard).catalog.instances := by
  have hids : ([11, 12] : List UUID).Nodup := by decide
  exact hids

theorem stored_scoredDB (newHeard trustedHeard : Nat) :
    ∀ row ∈ (scoredDB newHeard trustedHeard).providerStats, StoredStats row := by
  intro row hrow
  rw [List.mem_singleton.mp hrow]
  refine ⟨by decide +kernel, by decide +kernel, fun avg havg => ?_⟩
  rw [← Option.some.inj havg]
  decide +kernel

/-- The route with the latest heartbeat is chosen, though `PreferRoute` prefers the other. -/
theorem fresher_route_is_chosen :
    isRoute 5 (scoredDB 1000000000 999000000) newRoute = true ∧
      trustedRoute ∈ eligibleRoutes 5 (scoredDB 1000000000 999000000) ∧
      preferRoute (candidate 1001000000 0 (scoredDB 1000000000 999000000) trustedRoute)
        (candidate 1001000000 0 (scoredDB 1000000000 999000000) newRoute) = true ∧
      ¬ ChoiceRefinesScore 1001000000 0 5 (scoredDB 1000000000 999000000) := by
  obtain ⟨hroute, hother, hprefers⟩ :
      isRoute 5 (scoredDB 1000000000 999000000) newRoute = true ∧
        trustedRoute ∈ eligibleRoutes 5 (scoredDB 1000000000 999000000) ∧
        preferRoute (candidate 1001000000 0 (scoredDB 1000000000 999000000) trustedRoute)
          (candidate 1001000000 0 (scoredDB 1000000000 999000000) newRoute) = true := by
    decide +kernel
  refine ⟨hroute, hother, hprefers, fun hrefines => ?_⟩
  rw [hrefines newRoute hroute trustedRoute hother] at hprefers
  cases hprefers

/-- The trusted provider has the most points.  The choice refines the score where it was heard
of last, and not where the other one was. -/
theorem choice_refines_score_iff_scoredDB :
    eligibleRoutes 5 (scoredDB 999000000 1000000000) = [newRoute, trustedRoute] ∧
      ChoiceRefinesScore 1001000000 0 5 (scoredDB 999000000 1000000000) ∧
      ¬ ChoiceRefinesScore 1001000000 0 5 (scoredDB 1000000000 999000000) := by
  obtain ⟨hroutes, hbest, hworse⟩ :
      eligibleRoutes 5 (scoredDB 999000000 1000000000) = [newRoute, trustedRoute] ∧
        LatestIsBest 1001000000 0 5 (scoredDB 999000000 1000000000) ∧
        ¬ LatestIsBest 1001000000 0 5 (scoredDB 1000000000 999000000) := by
    decide +kernel
  exact ⟨hroutes, (choice_refines_score_iff 1001000000 0 5 _ (unique_scoredDB _ _)
      (stored_scoredDB _ _)).mpr hbest,
    fun hrefines => hworse ((choice_refines_score_iff 1001000000 0 5 _ (unique_scoredDB _ _)
      (stored_scoredDB _ _)).mp hrefines)⟩

end Nuvonode.Contract
