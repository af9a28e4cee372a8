/-
  Handler/Parties.lean --- the rows behind a job.

  A job names a key, its project and the user who owns it, and a version of a model on an
  instance of a provider.  Foreign keys say that each of these rows exists; that they
  belong together is what the lookups of a request find out, one after the other, while
  other statements run in between.
-/
import Nuvonode.Handler.JobRows
import Nuvonode.Handler.Keys

set_option autoImplicit false

namespace Nuvonode.Handler

open Nuvonode.Foundation Nuvonode.Database Nuvonode.Repository Nuvonode.Service Nuvonode.Ws

/-! ## Rows that belong together -/

/-- The key is one of the project, and the user is its owner. -/
structure AskedWith (db : DB) (auth : APIKeyAuth) : Prop where
  key : ∃ key ∈ db.catalog.apiKeys, key.id = auth.apiKeyID ∧ key.projectID = auth.projectID
  project : ∃ project ∈ db.catalog.projects,
    project.id = auth.projectID ∧ project.ownerUserID = auth.userID
  user : ∃ user ∈ db.users, user.id = auth.userID

/-- The version is one of the model, and the instance is one of the provider. -/
structure RoutedTo (db : DB) (modelID modelVersionID providerID providerInstanceID : UUID) :
    Prop where
  model : ∃ model ∈ db.catalog.models, model.id = modelID
  version : ∃ version ∈ db.catalog.modelVersions,
    version.id = modelVersionID ∧ version.modelID = modelID
  provider : ∃ provider ∈ db.providers, provider.id = providerID
  inst : ∃ inst ∈ db.catalog.instances,
    inst.id = providerInstanceID ∧ inst.providerID = providerID

/-- An advertisement that is linked to a version is for the model of that version. -/
def AdsLinked (db : DB) : Prop :=
  ∀ ad ∈ db.catalog.advertisements, ∀ versionID ∈ ad.modelVersionID,
    ∃ version ∈ db.catalog.modelVersions, version.id = versionID ∧
      ad.modelID = some version.modelID

/-- The rows that a job names belong together. -/
structure JobLinked (db : DB) (row : JobRow) : Prop where
  asked : AskedWith db ⟨row.userID, row.projectID, row.apiKeyID⟩
  routed : ∃ providerID providerInstanceID, row.providerID = some providerID ∧
    row.providerInstanceID = some providerInstanceID ∧
      RoutedTo db row.modelID row.modelVersionID providerID providerInstanceID

/-- A usage record names what its job names, and its job was charged what it says. -/
structure UsageMatches (db : DB) (usage : UsageRow) (row : JobRow) : Prop where
  job : db.job usage.jobID = some row
  succeeded : row.status = .succeeded
  parties : usage.projectID = row.projectID ∧ usage.userID = row.userID ∧
    usage.modelID = row.modelID ∧ some usage.providerID = row.providerID ∧
    some usage.providerInstanceID = row.providerInstanceID
  amounts : usage.costCredits = row.actualCostCredits ∧
    usage.providerRewardCredits = row.providerRewardCredits

/-! ## Later databases -/

/-- What a later database still has of an earlier one. -/
structure Survives (db db' : DB) : Prop where
  users : db.users <+: db'.users
  projects : db.catalog.projects <+: db'.catalog.projects
  keys : ∀ key ∈ db.catalog.apiKeys, ∃ key' ∈ db'.catalog.apiKeys, KeyBecomes key key'
  providers : ∀ provider ∈ db.providers, ∃ provider' ∈ db'.providers, provider'.id = provider.id
  instances : ∀ inst ∈ db.catalog.instances, ∃ inst' ∈ db'.catalog.instances,
    inst'.id = inst.id ∧ inst'.providerID = inst.providerID
  models : ∀ model ∈ db.catalog.models, ∃ model' ∈ db'.catalog.models, model'.id = model.id
  versions : db'.catalog.modelVersions = db.catalog.modelVersions

section Survives

variable {db db' : DB}

theorem AskedWith.mono {auth : APIKeyAuth} (h : AskedWith db auth) (hsurvives : Survives db db') :
    AskedWith db' auth where
  key := by
    obtain ⟨key, hkey, hid, hproject⟩ := h.key
    obtain ⟨key', hkey', hbecomes⟩ := hsurvives.keys key hkey
    refine ⟨key', hkey', ?_, ?_⟩
    · rw [hbecomes.same]
      exact hid
    · rw [hbecomes.same]
      exact hproject
  project := by
    obtain ⟨project, hproject, hfields⟩ := h.project
    exact ⟨project, hsurvives.projects.subset hproject, hfields⟩
  user := by
    obtain ⟨user, huser, hid⟩ := h.user
    exact ⟨user, hsurvives.users.subset huser, hid⟩

theorem RoutedTo.mono {modelID modelVersionID providerID providerInstanceID : UUID}
    (h : RoutedTo db modelID modelVersionID providerID providerInstanceID)
    (hsurvives : Survives db db') :
    RoutedTo db' modelID modelVersionID providerID providerInstanceID where
  model := by
    obtain ⟨model, hmodel, hid⟩ := h.model
    obtain ⟨model', hmodel', hid'⟩ := hsurvives.models model hmodel
    exact ⟨model', hmodel', hid'.trans hid⟩
  version := by
    rw [hsurvives.versions]
    exact h.version
  provider := by
    obtain ⟨provider, hprovider, hid⟩ := h.provider
    obtain ⟨provider', hprovider', hid'⟩ := hsurvives.providers provider hprovider
    exact ⟨provider', hprovider', hid'.trans hid⟩
  inst := by
    obtain ⟨inst, hinst, hid, howner⟩ := h.inst
    obtain ⟨inst', hinst', hid', howner'⟩ := hsurvives.instances inst hinst
    exact ⟨inst', hinst', hid'.trans hid, howner'.trans howner⟩

theorem JobLinked.mono {row : JobRow} (h : JobLinked db row) (hsurvives : Survives db db') :
    JobLinked db' row := by
  obtain ⟨providerID, providerInstanceID, hprovider, hinst, hrouted⟩ := h.routed
  exact ⟨h.asked.mono hsurvives, providerID, providerInstanceID, hprovider, hinst,
    hrouted.mono hsurvives⟩

/-- A row that has moved names what it named. -/
theorem JobLinked.moved {row row' : JobRow} (h : JobLinked db row) (hmoves : JobMoves row row') :
    JobLinked db row' := by
  cases hmoves with
  | dispatch _ | fail _ _ _ | settle _ _ _ _ _ _ => exact ⟨h.asked, h.routed⟩

variable {P : Platform} {cfg : Config} {m m' : Market} {e : MarketEvent}

/-- A step of the market deletes no row and keeps the columns that link one to another. -/
theorem Market.Step.survives (h : m.Step P cfg e m') : Survives m.db m'.db where
  users := h.users
  projects := h.change.projects.1
  keys := by
    intro key hkey
    obtain ⟨key', hkey', hbecomes, -⟩ := h.keys.key_after hkey
    exact ⟨key', hkey', hbecomes⟩
  providers := by
    intro provider hprovider
    obtain ⟨provider', hprovider', hid, -⟩ := h.change.provider_after hprovider
    exact ⟨provider', hprovider', hid⟩
  instances := fun _ => h.change.instance_after
  models := by
    intro model hmodel
    have hfollows := h.change.follows
    simp only [catalogFollows, Bool.and_eq_true] at hfollows
    obtain ⟨model', hmodel', hid⟩ :=
      List.any_eq_true.mp (List.all_eq_true.mp hfollows.1.1.2 model hmodel)
    exact ⟨model', hmodel', beq_iff_eq.mp hid⟩
  versions := h.change.modelVersions

/-- The advertisements stay linked. -/
theorem AdsLinked.step (h : AdsLinked m.db) (hstep : m.Step P cfg e m') : AdsLinked m'.db := by
  have hversions : m'.db.catalog.modelVersions = m.db.catalog.modelVersions :=
    hstep.change.modelVersions
  intro ad had versionID hversionID
  rw [hversions]
  cases hstep.change.advertisement_origin had with
  | kept hold hrow _ =>
      rw [hrow] at hversionID ⊢
      exact h _ hold versionID hversionID
  | judged hold hrow _ =>
      rw [hrow] at hversionID ⊢
      exact h _ hold versionID hversionID
  | listed _ _ hmatched =>
      obtain ⟨version, hversion, hid, hmodel, -⟩ := hmatched versionID hversionID
      exact ⟨version, hversion, hid, hmodel⟩

end Survives

/-! ## What the lookups find -/

section Lookups

variable {P : Platform} {cfg : Config} {db : DB}

/-- What a key resolves to belongs together. -/
theorem askedWith_of_resolve {token : String} {auth : APIKeyAuth}
    (h : resolveAPIKey P cfg token db = .ok auth) : AskedWith db auth := by
  unfold resolveAPIKey at h
  split at h
  · unfold resolveKeyHash at h
    cases hkey : Table.select APIKeyRow.keyHash db.catalog.apiKeys
        (P.hashToken cfg.apiKeyPepper token) with
    | none =>
        simp only [hkey] at h
        cases h
    | some key =>
        cases hproject : Table.select ProjectRow.id db.catalog.projects key.projectID with
        | none =>
            simp only [hkey, hproject, bind, Option.bind_some, Option.bind_none] at h
            cases h
        | some project =>
            cases huser : db.user project.ownerUserID with
            | none =>
                simp only [hkey, hproject, huser, bind, Option.bind_some, Option.bind_none] at h
                cases h
            | some user =>
                simp only [hkey, hproject, huser, bind, Option.bind_some] at h
                split at h
                · obtain rfl := Except.ok.inj h
                  obtain ⟨hprojectMem, hprojectID⟩ := Table.mem_of_select hproject
                  obtain ⟨huserMem, huserID⟩ := Table.mem_of_select huser
                  exact
                    { key := ⟨key, (Table.mem_of_select hkey).1, rfl, hprojectID.symm⟩
                      project := ⟨project, hprojectMem, rfl, huserID.symm⟩
                      user := ⟨user, huserMem, rfl⟩ }
                · cases h
  · cases h

/-- A model that is found by its slug is in the table. -/
theorem model_mem_of_active {slug : String} {model : ModelRow}
    (h : activeModelBySlug slug db = .ok model) : model ∈ db.catalog.models := by
  unfold activeModelBySlug at h
  split at h
  · split at h
    · rename_i row hselect
      split at h
      · obtain rfl := Except.ok.inj h
        exact (Table.mem_of_select hselect).1
      · cases h
    · cases h
  · cases h

/-- A route leads to a version of the model, on an instance of the provider. -/
theorem routedTo_of_findsRoute {modelID : UUID} {route : RoutableProvider}
    (hlinked : AdsLinked db) (hversions : Table.Unique ModelVersionRow.id db.catalog.modelVersions)
    (hmodel : ∃ model ∈ db.catalog.models, model.id = modelID)
    (h : findsRoute modelID db (some route) = true) :
    RoutedTo db modelID route.modelVersionID route.providerID route.providerInstanceID := by
  obtain ⟨provider, inst, ad, version, hrows⟩ := rows_of_findsRoute h
  obtain ⟨howner, -, -, hversion, -, -, -, -, hadModel, -⟩ := hrows.conditions
  -- The version that the advertisement was linked to is the one of the join.
  obtain ⟨linked, hlinkedMem, hid, hlinkedModel⟩ := hlinked ad hrows.ad_mem version.id hversion
  obtain rfl : linked = version :=
    List.inj_on_of_nodup_map hversions hlinkedMem hrows.version_mem hid
  have hsame : linked.modelID = modelID := Option.some.inj (hlinkedModel.symm.trans hadModel)
  rw [hrows.route_eq]
  exact
    { model := hmodel
      version := ⟨linked, hrows.version_mem, rfl, hsame⟩
      provider := ⟨provider, hrows.provider_mem, rfl⟩
      inst := ⟨inst, hrows.inst_mem, rfl, howner⟩ }

end Lookups

/-! ## Requests -/

/-- What a request has found so far belongs together. -/
def Call.Linked (db : DB) (call : Call) : Prop :=
  match call.phase with
  | .authenticated auth _ => AskedWith db auth
  | .modelFound auth _ model =>
      AskedWith db auth ∧ ∃ row ∈ db.catalog.models, row.id = model.id
  | .routed job => AskedWith db job.auth ∧ RoutedTo db job.model.id job.route.modelVersionID
      job.route.providerID job.route.providerInstanceID
  | _ => True

section Requests

variable {P : Platform} {cfg : Config} {db db' : DB} {call call' : Call}

theorem Call.Linked.mono (h : Call.Linked db call) (hsurvives : Survives db db') :
    Call.Linked db' call := by
  unfold Call.Linked at h ⊢
  cases hphase : call.phase with
  | authenticated auth request =>
      rw [hphase] at h
      exact AskedWith.mono h hsurvives
  | modelFound auth request model =>
      rw [hphase] at h
      obtain ⟨hasked, row, hrow, hid⟩ := h
      obtain ⟨row', hrow', hid'⟩ := hsurvives.models row hrow
      exact ⟨hasked.mono hsurvives, row', hrow', hid'.trans hid⟩
  | routed job =>
      rw [hphase] at h
      exact ⟨h.1.mono hsurvives, h.2.mono hsurvives⟩
  | _ => exact trivial

/-- Every statement of a request finds rows that belong to those it has found. -/
theorem linked_of_advance {env : Env} (hads : AdsLinked db)
    (hversions : Table.Unique ModelVersionRow.id db.catalog.modelVersions)
    (hlinked : Call.Linked db call) (h : call.advance P cfg env db = some (db', call')) :
    Call.Linked db call' := by
  cases transition_of_advance h with
  | search hsearching _ =>
      cases hphase : call.phase with
      | received =>
          simp only [Call.advance, hphase] at h
          split at h
          · cases h
            exact trivial
          · rename_i auth hresolve
            split at h
            · cases h
              exact trivial
            · cases h
              exact askedWith_of_resolve hresolve
      | authenticated auth request =>
          simp only [Call.Linked, hphase] at hlinked
          simp only [Call.advance, hphase] at h
          split at h
          · cases h
            exact trivial
          · rename_i model hmodel
            split at h
            · cases h
              exact trivial
            · cases h
              exact ⟨hlinked, model, model_mem_of_active hmodel, rfl⟩
      | modelFound auth request model =>
          simp only [Call.Linked, hphase] at hlinked
          simp only [Call.advance, hphase] at h
          split at h
          · rename_i hfinds
            split at h
            · cases h
              exact trivial
            · rename_i route hroute
              cases h
              rw [hroute] at hfinds
              exact ⟨hlinked.1, routedTo_of_findsRoute hads hversions hlinked.2 hfinds⟩
          · cases h
      | routed job =>
          simp only [Call.advance, hphase] at h
          split at h
          · cases h
            exact trivial
          · rw [← (Prod.mk.inj (Option.some.inj h)).2]
            exact trivial
      | _ => simp [hphase, Phase.Searching] at hsearching
  | _ => exact trivial

theorem linked_of_deliver {outcome : Except DispatchError CompletionFrame}
    (h : call.deliver outcome = some call') : Call.Linked db call' := by
  unfold Call.deliver at h
  split at h
  · cases h
    cases outcome with
    | error e => exact trivial
    | ok frame =>
        simp only [Call.goto, Call.Linked]
        split_ifs
        · exact trivial
        · exact trivial
  · cases h

end Requests

/-! ## Where rows come from -/

section Rows

variable {P : Platform} {cfg : Config} {s s' : ChatService} {e : ServiceEvent}

/-- A job is an old one, moved at most once, or was inserted for a request that has found
a route. -/
theorem job_origin (hinv : Invariant P s) (hnext : next P cfg s e = some s') {id : UUID}
    {row : JobRow} (hrow : s'.db.job id = some row) :
    (∃ old, s.db.job id = some old ∧ (row = old ∨ JobMoves old row)) ∨
      ∃ call ∈ s.calls, ∃ job : ChatJob, call.phase = .routed job ∧ row = (job.spec P).row id := by
  cases hold : s.db.job id with
  | some old =>
      obtain ⟨row', hrow', hmoved⟩ := (jobsStep_of_next hinv hnext).job_after hold
      obtain rfl := Option.some.inj (hrow.symm.trans hrow')
      exact .inl ⟨old, rfl, hmoved⟩
  | none =>
      refine .inr ?_
      cases kind_of_next hnext with
      | @background db hstep =>
          have hrow : db.job id = some row := hrow
          rw [DB.job, hstep.jobs] at hrow
          rw [DB.job, hrow] at hold
          cases hold
      | arrive _ =>
          have hsame : s.db.job id = some row := hrow
          rw [hold] at hsame
          cases hsame
      | @call call call' db hcall hstepped =>
          have hmem := (Table.mem_of_select hcall).1
          have htransition := hstepped.transition
          have hcallInv := hinv.calls call hmem
          have hrow : db.job id = some row := hrow
          by_cases hid : call'.jobID = some id
          · rcases htransition.jobID_cases hcallInv with hsame | ⟨hnone, -⟩
            · have hsome := hcallInv.job_isSome (hsame.symm.trans hid)
              rw [hold] at hsome
              cases hsome
            · -- A request that had no job and has one now has just created it.
              cases htransition with
              | @create job jobID hphase hfree _ =>
                  obtain rfl : jobID = id := Option.some.inj hid
                  have hnew : (s.db.apply (.insertJob ((job.spec P).row jobID))).job jobID =
                      some ((job.spec P).row jobID) := Table.select_insert_self hold
                  exact ⟨call, hmem, job, hphase, Option.some.inj (hrow.symm.trans hnew)⟩
              | _ =>
                  have hsome : call.jobID = some id := hid
                  rw [hnone] at hsome
                  cases hsome
          · rw [(htransition.keeps hcallInv).job id hid, hold] at hrow
            cases hrow

/-- A usage record is an old one, or that of a request that has just settled. -/
theorem usage_origin (hinv : Invariant P s) (hnext : next P cfg s e = some s') {usage : UsageRow}
    (husage : usage ∈ s'.db.usageRecords) :
    usage ∈ s.db.usageRecords ∨ ∃ row, UsageMatches s'.db usage row := by
  cases kind_of_next hnext with
  | @background db hstep =>
      have hsame : db.usageRecords = s.db.usageRecords := hstep.usage
      exact .inl (hsame ▸ husage)
  | arrive _ => exact .inl husage
  | @call call call' db hcall hstepped =>
      have hcallInv := hinv.calls call (Table.mem_of_select hcall).1
      have hposted : ∀ {walletID : UUID} {entryType : EntryType} {amount reservedDelta : Int64}
          {reason : String} {createdBy : Option UUID}, Posted walletID entryType amount
            reservedDelta reason createdBy s.db db → db.usageRecords = s.db.usageRecords := by
        intro walletID entryType amount reservedDelta reason createdBy hposted
        rw [hposted.frame]
      have hfailed : ∀ {jobID : UUID} {code message : String},
          (afterwards (markJobFailed jobID .failed code message) s.db).usageRecords =
            s.db.usageRecords := by
        intro jobID code message
        rcases afterwards_markJobFailed s.db jobID with hsame | ⟨-, stats, hfailed⟩
        · rw [hsame]
        · rw [hfailed]
          rfl
      have hmem : usage ∈ db.usageRecords := husage
      cases hstepped.transition with
      | reserve _ _ _ hentry => exact .inl (hposted hentry ▸ hmem)
      | release _ hentry => exact .inl (hposted hentry ▸ hmem)
      | returnCredits _ hentry => exact .inl (hposted hentry ▸ hmem)
      | recordRefusal _ => exact .inl (hfailed ▸ hmem)
      | recordFailure _ => exact .inl (hfailed ▸ hmem)
      | @settle job jobID walletID result _ hphase hsettled =>
          obtain ⟨source, hrecords, -⟩ := hsettled.tables
          rw [hrecords] at hmem
          rcases List.mem_append.mp hmem with hold | hnew
          · exact .inl hold
          · obtain rfl := List.mem_singleton.mp hnew
            simp only [CallInv, hphase] at hcallInv
            have hrow := hsettled.job
            rw [show (job.settlement P walletID jobID result).jobID = jobID from rfl,
              hcallInv.2.2.pending.row, Option.map_some] at hrow
            exact .inr ⟨_, hrow, rfl, ⟨rfl, rfl, rfl, rfl, rfl⟩, rfl, rfl⟩
      | _ => exact .inl hmem

end Rows

/-! ## The invariant -/

/-- Everything that a job names belongs together, and so does what a request has found. -/
structure Coherent (m : Market) : Prop where
  ads : AdsLinked m.db
  versions : Table.Unique ModelVersionRow.id m.db.catalog.modelVersions
  calls : ∀ call ∈ m.api.service.calls, Call.Linked m.db call
  jobs : ∀ id row, m.db.job id = some row → JobLinked m.db row
  usage : ∀ usage ∈ m.db.usageRecords, ∃ row, UsageMatches m.db usage row

section Invariant

variable {P : Platform} {cfg : Config} {m m' : Market} {e : MarketEvent} {es : List MarketEvent}

/-- The row of a usage record does not move. -/
theorem UsageMatches.step {s s' : ChatService} {e : ServiceEvent} (hinv : Invariant P s)
    (hnext : next P cfg s e = some s') {usage : UsageRow} {row : JobRow}
    (h : UsageMatches s.db usage row) : UsageMatches s'.db usage row := by
  obtain ⟨row', hrow', rfl | hmoves⟩ := (jobsStep_of_next hinv hnext).job_after h.job
  · exact { h with job := hrow' }
  · exact absurd (.inl h.succeeded) hmoves.not_ended

theorem Coherent.calls_step (h : Coherent m) (hstep : m.Step P cfg e m') :
    ∀ call ∈ m'.api.service.calls, Call.Linked m'.db call := by
  intro call' hcall'
  rcases hstep.call_origin hcall' with hold | ⟨id, bearer, requestID, body, rfl⟩ |
    ⟨call, hcall, e', db, hstepped⟩
  · exact (h.calls call' hold).mono hstep.survives
  · exact trivial
  · have hlinked : Call.Linked m.db call' := by
      cases hstepped with
      | advance hadvance => exact linked_of_advance h.ads h.versions (h.calls call hcall) hadvance
      | deliver hdeliver => exact linked_of_deliver hdeliver
    exact hlinked.mono hstep.survives

theorem Coherent.step (h : Coherent m) (hinv : Invariant P m.api.service)
    (hstep : m.Step P cfg e m') : Coherent m' where
  ads := h.ads.step hstep
  versions := by
    have hversions : m'.db.catalog.modelVersions = m.db.catalog.modelVersions :=
      hstep.change.modelVersions
    rw [hversions]
    exact h.versions
  calls := h.calls_step hstep
  jobs := by
    intro id row hrow
    rcases hstep.service_part with ⟨e', hnext⟩ | ⟨db, hbackground, hsame⟩
    · rcases job_origin hinv hnext hrow with ⟨old, hold, rfl | hmoves⟩ |
        ⟨call, hcall, job, hphase, rfl⟩
      · exact (h.jobs id row hold).mono hstep.survives
      · exact ((h.jobs id old hold).moved hmoves).mono hstep.survives
      · have hlinked := h.calls call hcall
        simp only [Call.Linked, hphase] at hlinked
        obtain ⟨hasked, hrouted⟩ := hlinked
        exact ⟨hasked.mono hstep.survives, _, _, rfl, rfl, hrouted.mono hstep.survives⟩
    · have hold : m.db.job id = some row := by
        rw [Market.db, hsame] at hrow
        rw [DB.job, ← hbackground.jobs]
        exact hrow
      exact (h.jobs id row hold).mono hstep.survives
  usage := by
    intro usage husage
    rcases hstep.service_part with ⟨e', hnext⟩ | ⟨db, hbackground, hsame⟩
    · rcases usage_origin hinv hnext husage with hold | hmatches
      · obtain ⟨row, hmatches⟩ := h.usage usage hold
        exact ⟨row, hmatches.step hinv hnext⟩
      · exact hmatches
    · rw [Market.db, hsame] at husage ⊢
      have hold : usage ∈ m.db.usageRecords := hbackground.usage ▸ husage
      obtain ⟨row, hmatches⟩ := h.usage usage hold
      refine ⟨row, { hmatches with job := ?_ }⟩
      rw [DB.job]
      exact hbackground.jobs ▸ hmatches.job

theorem coherent_of_reaches {guard : Market → MarketEvent → Market → Prop}
    (h : (marketMachine P cfg).Reaches guard es m) : Coherent m := by
  have hboth : Invariant P m.api.service ∧ Coherent m := by
    refine h.invariant (fun m => Invariant P m.api.service ∧ Coherent m) ?_ ?_
    · intro m hstart
      obtain ⟨⟨⟨models, modelVersions, hunique, hdb⟩, hcalls⟩, -⟩ := hstart
      refine ⟨.start ⟨_, hdb⟩ hcalls, ?_⟩
      refine ⟨?_, ?_, ?_, ?_, ?_⟩
      · rw [hdb]
        intro ad had
        cases had
      · rw [hdb]
        exact hunique
      · rw [hcalls]
        intro call hcall
        cases hcall
      · rw [hdb]
        intro id row hrow
        cases hrow
      · rw [hdb]
        intro usage husage
        cases husage
    · intro m e m' hboth hnext _
      have hstep := Market.step_of_next hnext
      exact ⟨hstep.invariant hboth.1, hboth.2.step hboth.1 hstep⟩
  exact hboth.2

end Invariant

end Nuvonode.Handler
