/-
  Contract/Freshness.lean --- how old the machine behind a route may be.

  `FindRoutableProvider` looks at the status of an instance, and not at its heartbeat or
  its hardware.  A sweep retires the instances whose heartbeat is older than the timeout,
  and from then on every heartbeat is newer than the sweep: so a route is as fresh as the
  last sweep that succeeded has made it.
-/
import Nuvonode.Contract.Spending

set_option autoImplicit false

namespace Nuvonode.Contract

open Nuvonode.Foundation Nuvonode.Database Nuvonode.Repository Nuvonode.Service Nuvonode.Handler
  Nuvonode.Ws

/-! ## Instances that are not offline -/

/-- Every instance that is not offline has a heartbeat that is no older than a time. -/
def FreshSince (bound : Int) (r : Registry) : Prop :=
  ∀ inst ∈ r.catalog.instances, inst.status ≠ .offline →
    ∃ beat ∈ inst.lastHeartbeatAt, bound ≤ (beat : Int)

section Change

variable {now : Nat} {r r' : Registry} {facts : List Fact} {bound cutoff : Int}

/-- An update keeps the heartbeats of the rows of some kind from being old, where it makes
no row of that kind from one of another, or gives it a heartbeat. -/
theorem beats_update {κ : Type} [DecidableEq κ] {key : InstanceRow → κ} {k : κ}
    {change : InstanceRow → InstanceRow} {kind : InstanceRow → Prop} {rows : List InstanceRow}
    (hbeats : ∀ inst ∈ rows, kind inst → ∃ beat ∈ inst.lastHeartbeatAt, bound ≤ (beat : Int))
    (hchange : ∀ row, kind (change row) →
      (kind row ∧ (change row).lastHeartbeatAt = row.lastHeartbeatAt) ∨
        ∃ beat ∈ (change row).lastHeartbeatAt, bound ≤ (beat : Int)) :
    ∀ inst ∈ Table.update key rows k change, kind inst →
      ∃ beat ∈ inst.lastHeartbeatAt, bound ≤ (beat : Int) := by
  intro inst hinst hkind
  obtain ⟨old, hold, rfl⟩ := Table.mem_update.mp hinst
  split at hkind
  · rename_i hkey
    rw [if_pos hkey]
    rcases hchange old hkind with ⟨hbefore, hsame⟩ | hbeat
    · rw [hsame]
      exact hbeats old hold hbefore
    · exact hbeat
  · rename_i hkey
    rw [if_neg hkey]
    exact hbeats old hold hkind

/-- A row that is written is offline, or has a heartbeat of its own time. -/
theorem freshSince_update {κ : Type} [DecidableEq κ] {key : InstanceRow → κ} {k : κ}
    {change : InstanceRow → InstanceRow} (hbound : bound ≤ now) (hfresh : FreshSince bound r)
    (hchange : ∀ row, (change row).status = .offline ∨ (change row).lastHeartbeatAt = some now) :
    FreshSince bound (r.withInstances (Table.update key r.catalog.instances k change)) := by
  refine beats_update hfresh fun row halive => .inr ?_
  exact ⟨now, (hchange row).resolve_left halive, hbound⟩

/-- A sweep leaves no instance with a heartbeat before its cutoff. -/
theorem freshSince_expire (hfresh : FreshSince bound r) :
    FreshSince (max bound cutoff)
      (r.withInstances (r.catalog.instances.map (InstanceRow.expire cutoff))) := by
  intro inst hinst hstatus
  obtain ⟨old, hold, rfl⟩ := List.mem_map.mp hinst
  unfold InstanceRow.expire at hstatus ⊢
  split at hstatus
  · exact absurd rfl hstatus
  · rename_i hkept
    rw [if_neg hkept]
    obtain ⟨beat, hbeat, hle⟩ := hfresh old hold hstatus
    refine ⟨beat, hbeat, max_le hle (not_lt.mp fun hlt => hkept ⟨?_, beat, hbeat, hlt⟩)⟩
    cases hold : old.status with
    | online => exact .inl rfl
    | busy => exact .inr (.inl rfl)
    | draining => exact .inr (.inr rfl)
    | offline => exact absurd hold hstatus

theorem FreshSince.mono {bound' : Int} (hle : bound' ≤ bound) (hfresh : FreshSince bound r) :
    FreshSince bound' r := by
  intro inst hinst hstatus
  obtain ⟨beat, hbeat, hbound⟩ := hfresh inst hinst hstatus
  exact ⟨beat, hbeat, hle.trans hbound⟩

/-- No statement brings an instance back with an old heartbeat. -/
theorem FreshSince.change (hfresh : FreshSince bound r) (hbound : bound ≤ now)
    (h : r.Change now facts r') : FreshSince bound r' := by
  cases h with
  | @disable row _ => exact freshSince_update hbound hfresh fun _ => .inl rfl
  | connect _ => exact freshSince_update hbound hfresh fun _ => .inr rfl
  | beat _ => exact freshSince_update hbound hfresh fun _ => .inr rfl
  | join _ _ hbeat =>
      intro inst hinst hstatus
      rcases List.mem_append.mp hinst with hold | hnew
      · exact hfresh inst hold hstatus
      · obtain rfl := List.mem_singleton.mp hnew
        exact ⟨now, hbeat, hbound⟩
  | expire => exact (freshSince_expire hfresh).mono (le_max_left _ _)
  | _ => exact hfresh

end Change

/-! ## Runs -/

section Runs

variable {P : Platform} {cfg : Config} {m m' : Market} {es es' : List MarketEvent} {now : Nat}
  {bound : Int}

/-- Heartbeats are kept from the start. -/
theorem freshSince_of_reaches (hreach : (marketMachine P cfg).Reaches Machine.anyStep es m) :
    FreshSince 0 (registry m.db) := by
  refine hreach.invariant (fun m => FreshSince 0 (registry m.db)) ?_ ?_
  · intro m hstart inst hinst
    obtain ⟨⟨⟨models, modelVersions, -, hdb⟩, -⟩, -⟩ := hstart
    rw [hdb] at hinst
    cases hinst
  · intro m e m' hfresh hnext _
    exact hfresh.change (Int.natCast_nonneg _) (Market.step_of_next hnext).change

/-- The clock does not go back. -/
theorem Market.Step.clock_le {e : MarketEvent} (h : m.Step P cfg e m') : m.clock ≤ m'.clock := by
  cases h with
  | @request _ _ r _ _ _ => cases r <;> exact le_refl _
  | tick => exact Nat.le_add_right _ _
  | _ => exact le_refl _

/-- What no statement after a time undoes holds later, where it held at that time. -/
theorem registry_of_steps {kept : Registry → Prop}
    (hkept : ∀ (now : Nat) r facts r', bound ≤ now → kept r → r.Change now facts r' → kept r')
    (hlater : (marketMachine P cfg).Steps Machine.anyStep m es m')
    (h : kept (registry m.db)) (hbound : bound ≤ m.clock) :
    kept (registry m'.db) ∧ m.clock ≤ m'.clock := by
  refine hlater.preserves (fun _ m' => kept (registry m'.db) ∧ m.clock ≤ m'.clock)
    ⟨h, le_refl _⟩ ?_
  intro es a e b hboth hnext _
  obtain ⟨h, hclock⟩ := hboth
  have hstep := Market.step_of_next hnext
  have hle : bound ≤ a.clock := hbound.trans (by exact_mod_cast hclock)
  exact ⟨hkept _ _ _ _ hle h hstep.change, hclock.trans (Market.Step.clock_le hstep)⟩

/-- Nothing that happens later makes an instance older. -/
theorem freshSince_of_steps (hlater : (marketMachine P cfg).Steps Machine.anyStep m es m')
    (hfresh : FreshSince bound (registry m.db)) (hbound : bound ≤ m.clock) :
    FreshSince bound (registry m'.db) ∧ m.clock ≤ m'.clock :=
  registry_of_steps (fun _ _ _ _ hle hfresh hchange => hfresh.change hle hchange) hlater hfresh
    hbound

/-- What a sweep leaves. -/
theorem freshSince_of_sweep
    (hreach : (marketMachine P cfg).Reaches Machine.anyStep (es ++ [.sweep now]) m) :
    FreshSince (offlineCutoff cfg now) (registry m.db) ∧ now ≤ m.clock := by
  obtain ⟨s₀, hstart, hsteps⟩ := hreach
  generalize hes : es ++ [MarketEvent.sweep now] = all at hsteps
  cases hsteps with
  | refl => exact absurd hes (by simp)
  | @snoc es' before _ e hbefore hnext _ =>
      obtain ⟨rfl, heq⟩ := List.append_inj' hes rfl
      obtain rfl := (List.singleton_inj.mp heq)
      have hfresh := freshSince_of_reaches ⟨s₀, hstart, hbefore⟩
      cases Market.step_of_next hnext with
      | sweep hnow =>
          exact ⟨(freshSince_expire hfresh).mono (le_max_right _ _), hnow⟩

end Runs

/-! ## The contract -/

/-- The machine of a route had a heartbeat within the timeout. -/
def FreshRoute (cfg : Config) (now : Nat) (db : DB) (route : RoutableProvider) : Prop :=
  ∃ inst ∈ db.catalog.instances, inst.id = route.providerInstanceID ∧
    ∃ beat ∈ inst.lastHeartbeatAt, offlineCutoff cfg now ≤ (beat : Int)

/-- The machine of a route has the memory that the model asks for, where it is known. -/
def FittingRoute (modelID : UUID) (db : DB) (route : RoutableProvider) : Prop :=
  ∀ report ∈ db.catalog.hardwareReports,
    report.providerInstanceID = route.providerInstanceID → 0 < report.gpuVRAMMB →
      ∀ model ∈ db.catalog.models, model.id = modelID → model.minVRAMMB ≤ report.gpuVRAMMB

section Contract

variable {P : Platform} {cfg : Config} {m m' : Market} {es es' : List MarketEvent} {now : Nat}

/-- Right after a sweep, a route has no heartbeat before the cutoff. -/
theorem route_after_sweep {db : DB} {modelID : UUID} {route : RoutableProvider}
    (h : findsRoute modelID (markOfflineTimedOut cfg now db) (some route) = true) :
    ∃ inst ∈ (markOfflineTimedOut cfg now db).catalog.instances,
      inst.id = route.providerInstanceID ∧
        ∀ beat ∈ inst.lastHeartbeatAt, offlineCutoff cfg now ≤ (beat : Int) := by
  obtain ⟨provider, inst, ad, version, hrows⟩ := rows_of_findsRoute h
  refine ⟨inst, hrows.inst_mem, by rw [hrows.route_eq], fun beat hbeat => ?_⟩
  obtain ⟨-, -, -, -, -, -, honline, -⟩ := hrows.conditions
  obtain ⟨old, -, rfl⟩ := List.mem_map.mp hrows.inst_mem
  unfold InstanceRow.expire at honline hbeat
  split at honline
  · cases honline
  · rename_i hkept
    rw [if_neg hkept] at hbeat
    exact not_lt.mp fun hlt => hkept ⟨.inl honline, beat, hbeat, hlt⟩

/-- Once the sweep of a tick at the time `now` has succeeded, the machine of every route
that is found later had a heartbeat since then, or within the timeout before it: its
heartbeat is no older than the time since that sweep and the timeout together.  From any
database, no route has a heartbeat before the cutoff right after a sweep.  What a model
asks for and what the machines report of their hardware makes no difference. -/
theorem sweep_keeps_routes_fresh (P : Platform) (cfg : Config)
    (hreach : (marketMachine P cfg).Reaches Machine.anyStep (es ++ [.sweep now]) m)
    (hlater : (marketMachine P cfg).Steps Machine.anyStep m es' m') :
    (∀ modelID route, findsRoute modelID m'.db (some route) = true →
      ∃ inst ∈ m'.db.catalog.instances, inst.id = route.providerInstanceID ∧
        inst.status = .online ∧ ∃ beat ∈ inst.lastHeartbeatAt, (m'.clock : Int) - beat ≤
          (m'.clock - now) + max 0 (cfg.providerHeartbeatTimeoutSeconds * 1000000)) ∧
      (∀ db now' modelID route,
        findsRoute modelID (markOfflineTimedOut cfg now' db) (some route) = true →
        ∃ inst ∈ (markOfflineTimedOut cfg now' db).catalog.instances,
          inst.id = route.providerInstanceID ∧
            ∀ beat ∈ inst.lastHeartbeatAt, offlineCutoff cfg now' ≤ (beat : Int)) ∧
      ∀ (db : DB) models hardwareReports modelID route,
        findsRoute modelID { db with catalog := { db.catalog with models, hardwareReports } }
          route = findsRoute modelID db route := by
  refine ⟨fun modelID route hroute => ?_, fun _ _ _ _ => route_after_sweep,
    fun db _ _ _ route => ?_⟩
  · obtain ⟨hswept, hnow⟩ := freshSince_of_sweep hreach
    have hbound : min (now : Int) (offlineCutoff cfg now) ≤ m.clock :=
      (min_le_left _ _).trans (by exact_mod_cast hnow)
    obtain ⟨hfresh, -⟩ := freshSince_of_steps hlater (hswept.mono (min_le_right _ _)) hbound
    obtain ⟨provider, inst, ad, version, hrows⟩ := rows_of_findsRoute hroute
    obtain ⟨-, -, -, -, -, -, honline, -⟩ := hrows.conditions
    have halive : inst.status ≠ .offline := by
      rw [honline]
      exact InstanceStatus.noConfusion
    obtain ⟨beat, hbeat, hle⟩ := hfresh inst hrows.inst_mem halive
    refine ⟨inst, hrows.inst_mem, by rw [hrows.route_eq], honline, beat, hbeat, ?_⟩
    unfold offlineCutoff at hle
    omega
  · cases route <;> rfl

end Contract

/-! ## Sample runs -/

/-- The heartbeat of the sample machine is forty seconds old, five less than the bound. -/
theorem sample_route_is_fresh :
    ∃ m m', (marketMachine samplePlatform sampleConfig).Reaches Machine.anyStep
        (openingEvents ++ [.tick 10000000] ++ [.sweep 10000000]) m ∧
      (marketMachine samplePlatform sampleConfig).Steps Machine.anyStep m [.tick 30000000] m' ∧
      findsRoute 22 m'.db (some sampleRoute) = true ∧
      ∃ inst ∈ m'.db.catalog.instances, inst.id = 24 ∧ inst.status = .online ∧
        ∃ beat ∈ inst.lastHeartbeatAt,
          (m'.clock : Int) - beat ≤ (m'.clock - 10000000) + max 0 (45 * 1000000) := by
  let m := marketAfter (openingEvents ++ [.tick 10000000] ++ [.sweep 10000000])
  let m' : Market := { m with clock := m.clock + 30000000 }
  have hrun : (runMarket (fun _ _ _ => true)
        (openingEvents ++ [.tick 10000000] ++ [.sweep 10000000])).isSome ∧
      findsRoute 22 m'.db (some sampleRoute) = true := by
    decide +kernel
  have hreach := reaches_marketAfter hrun.1
  have hlater : (marketMachine samplePlatform sampleConfig).Steps Machine.anyStep m
      ([] ++ [.tick 30000000]) m' := .snoc .refl rfl trivial
  have hfresh := (sweep_keeps_routes_fresh samplePlatform sampleConfig hreach hlater).1
  exact ⟨m, m', hreach, hlater, hrun.2, hfresh 22 sampleRoute hrun.2⟩

instance (cfg : Config) (now : Nat) (db : DB) (route : RoutableProvider) :
    Decidable (FreshRoute cfg now db route) :=
  inferInstanceAs (Decidable (∃ inst ∈ db.catalog.instances, inst.id = route.providerInstanceID ∧
    ∃ beat ∈ inst.lastHeartbeatAt, offlineCutoff cfg now ≤ (beat : Int)))

instance (modelID : UUID) (db : DB) (route : RoutableProvider) :
    Decidable (FittingRoute modelID db route) :=
  inferInstanceAs (Decidable (∀ report ∈ db.catalog.hardwareReports,
    report.providerInstanceID = route.providerInstanceID → 0 < report.gpuVRAMMB →
      ∀ model ∈ db.catalog.models, model.id = modelID → model.minVRAMMB ≤ report.gpuVRAMMB))

/-- The sample machine reports a megabyte of memory, and is silent for a minute while no
sweep succeeds. -/
def silentEvents : List MarketEvent :=
  openingEvents ++ [.frame 0 (.hardwareReport "cpu" 16384 "gpu" 1 "1"), .tick 60000000]

/-- A route is found that is neither fresh nor fitting. -/
theorem silent_machine_is_routed :
    ∃ m, (marketMachine samplePlatform sampleConfig).Reaches Machine.anyStep silentEvents m ∧
      findsRoute 22 m.db (some sampleRoute) = true ∧
      ¬ FreshRoute sampleConfig m.clock m.db sampleRoute ∧ ¬ FittingRoute 22 m.db sampleRoute := by
  have hrun : (runMarket (fun _ _ _ => true) silentEvents).isSome ∧
      findsRoute 22 (marketAfter silentEvents).db (some sampleRoute) = true ∧
      ¬ FreshRoute sampleConfig (marketAfter silentEvents).clock (marketAfter silentEvents).db
        sampleRoute ∧ ¬ FittingRoute 22 (marketAfter silentEvents).db sampleRoute := by
    decide +kernel
  exact ⟨_, reaches_marketAfter hrun.1, hrun.2⟩

end Nuvonode.Contract
