/-
  Handler/Authority.lean --- what happens where nobody is an administrator.

  A role is decided when a user registers and is never written again.  Where no user has
  the role of an administrator, no request of the dashboard moderates anything, so that no
  advertisement is approved, no request finds a route and no job is ever inserted.
-/
import Nuvonode.Handler.Offers
import Nuvonode.Handler.Parties

set_option autoImplicit false

namespace Nuvonode.Handler

open Nuvonode.Foundation Nuvonode.Database Nuvonode.Repository Nuvonode.Service Nuvonode.Ws

/-- No user is an administrator. -/
def NoAdmin (db : DB) : Prop := ∀ user ∈ db.users, user.role ≠ .admin

/-! ## Roles -/

section Roles

variable {P : Platform} {cfg : Config} {db db' : DB}

/-- Without the setting a registration makes no administrator. -/
theorem noAdmin_register {userID walletID : UUID} {publicID : String} {input : RegisterInput}
    (h : NoAdmin db) (hsettings : cfg.bootstrapFirstUserAdmin = false) :
    NoAdmin (afterwards (register P cfg userID walletID publicID input) db) := by
  intro user huser
  rcases users_of_register P cfg db userID walletID publicID input with
    hsame | ⟨row, hrole, hadded⟩
  · exact h user (hsame ▸ huser)
  · rw [hadded] at huser
    rcases List.mem_append.mp huser with hold | hnew
    · exact h user hold
    · rw [List.mem_singleton.mp hnew, hrole, roleAfter, hsettings]
      simp

variable {m m' : Market} {e : MarketEvent}

/-- Where nobody is an administrator, nobody was. -/
theorem NoAdmin.before (h : NoAdmin m'.db) (hstep : m.Step P cfg e m') : NoAdmin m.db :=
  fun user huser => h user (hstep.users.subset huser)

/-- Where the settings bootstrap no administrator, nobody becomes one. -/
theorem NoAdmin.after (h : NoAdmin m.db) (hsettings : cfg.bootstrapFirstUserAdmin = false)
    (hstep : m.Step P cfg e m') : NoAdmin m'.db := by
  rcases hstep.users_origin with hsame | ⟨userID, walletID, publicID, input, -, hdb⟩
  · exact fun user huser => h user (hsame ▸ huser)
  · exact hdb ▸ noAdmin_register h hsettings

end Roles

/-! ## Requests of the dashboard -/

/-- The requests that are for administrators. -/
def DashboardRequest.admin : DashboardRequest → Bool
  | .createProject .. | .createAPIKey .. | .revokeAPIKey .. => false
  | _ => true

section Requests

variable {P : Platform} {cfg : Config} {now : Nat} {db db' : DB} {user : UserRow}
  {r : DashboardRequest}

/-- Nobody but an administrator gets anywhere with a request for administrators. -/
theorem role_of_run (h : r.run P cfg now user db = .ok db') (hadmin : r.admin = true) :
    user.role = .admin := by
  cases r with
  | createProject | createAPIKey | revokeAPIKey => cases hadmin
  | createModel id publicID input =>
      obtain ⟨_, hcreate, -⟩ := eq_ok_of_map h
      exact (eq_ok_of_adminOnly hcreate).1
  | updateModel modelPublicID patch =>
      obtain ⟨_, hupdate, -⟩ := eq_ok_of_map h
      exact (eq_ok_of_adminOnly hupdate).1
  | pauseModel modelPublicID => exact (eq_ok_of_adminOnly h).1
  | setApproval providerPublicID status => exact (eq_ok_of_adminOnly h).1
  | disableProvider providerPublicID => exact (eq_ok_of_adminOnly h).1
  | setAdvertisementStatus publicID status => exact (eq_ok_of_adminOnly h).1

/-- What a user may do writes no model. -/
theorem models_of_user (h : r.run P cfg now user db = .ok db') (huser : r.admin = false) :
    db'.catalog.models = db.catalog.models := by
  cases r with
  | createProject id publicID name limit =>
      exact models_of_facts (registers_request h).change (List.cons_ne_nil _ _)
  | createAPIKey id publicID plaintext keyPrefix projectPublicID name =>
      obtain ⟨⟨row, db₁⟩, hcreate, rfl⟩ := eq_ok_of_map h
      obtain ⟨project, -, hkey⟩ := projectCreateAPIKey_eq_ok hcreate
      obtain ⟨-, -, -, rfl⟩ := createAPIKey_eq_ok hkey
      rfl
  | revokeAPIKey projectPublicID keyPublicID =>
      obtain ⟨project, -, hrevoke⟩ := projectRevokeAPIKey_eq_ok h
      obtain rfl := revokeAPIKey_eq_ok hrevoke
      rfl
  | _ => cases huser

/-- The decisions of an administrator. -/
def moderates : Fact → Bool
  | .decided .. | .disabled _ | .judged .. => true
  | _ => false

/-- What a user asks for is no decision. -/
theorem moderates_of_user (huser : r.admin = false) {fact : Fact} (h : fact ∈ r.facts db) :
    moderates fact = false := by
  cases r with
  | createProject id publicID name limit =>
      rw [List.mem_singleton.mp h]
      rfl
  | createAPIKey | revokeAPIKey => cases h
  | _ => cases huser

end Requests

/-! ## A step without an administrator -/

section Steps

variable {P : Platform} {cfg : Config} {m m' : Market} {e : MarketEvent}

/-- A request that goes through is one of a user. -/
theorem user_of_run {userPublicID : String} {user : UserRow} {r : DashboardRequest} {now : Nat}
    {db db' : DB} (hnone : NoAdmin db) (huser : userFromJWT userPublicID db = .ok user)
    (hrun : r.run P cfg now user db = .ok db') : r.admin = false := by
  cases hadmin : r.admin with
  | false => rfl
  | true => exact absurd (role_of_run hrun hadmin) (hnone user (mem_of_userFromJWT huser).1)

/-- No model is written. -/
theorem models_of_noAdmin (hnone : NoAdmin m.db) (h : m.Step P cfg e m') :
    m'.db.catalog.models = m.db.catalog.models := by
  cases h with
  | api hlocal hstep =>
      cases hstep with
      | service _ hnext => exact models_next hlocal hnext
      | deliver _ _ hnext => exact models_next rfl hnext
      | hello _ _ _ _ | refuseHello _ => cases hlocal
      | _ => rfl
  | hello hstep =>
      cases hstep with
      | refuseHello _ => rfl
      | hello _ hupsert _ _ =>
          have hregisters : Registers m.clock m.db [_] _ := (registers_upsertInstance hupsert).1
          exact models_of_facts hregisters.change (List.cons_ne_nil _ _)
  | frame _ _ _ _ hrun =>
      obtain ⟨instances, advertisements, hardwareReports, rfl⟩ := writes_frame hrun
      rfl
  | request huser hrun =>
      rw [Market.db_pursue]
      exact models_of_user hrun (user_of_run hnone huser hrun)
  | _ => rfl

/-- Nothing is decided. -/
theorem moderates_of_noAdmin (hnone : NoAdmin m.db) {fact : Fact}
    (h : fact ∈ m.shows P cfg e m') : moderates fact = false := by
  rcases shows_cases h with ⟨a, -, hcreated⟩ | ⟨-, hsent⟩ | ⟨userPublicID, r, rfl, hfact⟩
  · obtain ⟨providerID, walletID, publicID, token, ownerUserID, name, -, hcreated⟩ :=
      created_of_api hcreated
    obtain ⟨approval, rfl⟩ := created_of_service hcreated
    rfl
  · cases fact with
    | decided | disabled | judged => cases hsent
    | _ => rfl
  · simp only [Market.shows] at h
    split at h
    · cases h
    · rename_i user huser
      split at h
      · rename_i db hrun
        exact moderates_of_user (user_of_run hnone huser hrun) hfact
      · cases h

end Steps

/-! ## The invariant -/

/-- The phases of a request that has found no route. -/
def Phase.Unserved : Phase → Prop
  | .received => True
  | .authenticated .. => True
  | .modelFound .. => True
  | .done response => response.status ≠ 200
  | _ => False

/-- A request that has found no route, and has no job. -/
structure Call.Unserved (call : Call) : Prop where
  phase : call.phase.Unserved
  unpaid : call.jobID = none ∧ call.commits = []

/-- Nothing is moderated, and nobody is served. -/
structure Unattended (cfg : Config) (m : Market) : Prop where
  providers : ∀ provider ∈ m.db.providers,
    provider.approvalStatus = initialApproval cfg ∧ provider.status = .active
  ads : ∀ ad ∈ m.db.catalog.advertisements, ad.status = .pending
  calls : ∀ call ∈ m.api.service.calls, call.Unserved
  jobs : m.db.inferenceJobs = []
  usage : m.db.usageRecords = []

section Unattended

variable {P : Platform} {cfg : Config} {m m' : Market} {e : MarketEvent}

/-- There is no route without an approved advertisement. -/
theorem not_findsRoute {db : DB} {modelID : UUID} {route : RoutableProvider}
    (hads : ∀ ad ∈ db.catalog.advertisements, ad.status = .pending) :
    findsRoute modelID db (some route) = false := by
  refine Bool.eq_false_iff.mpr fun h => ?_
  obtain ⟨provider, inst, ad, version, hrows⟩ := rows_of_findsRoute h
  obtain ⟨-, -, -, -, -, -, -, happroved, -⟩ := hrows.conditions
  rw [hads ad hrows.ad_mem] at happroved
  cases happroved

/-- A request goes on looking, or is refused. -/
theorem Call.Unserved.step {s : ChatService} {e' : ServiceEvent} {db : DB} {call call' : Call}
    (h : call.Unserved)
    (hads : ∀ ad ∈ s.db.catalog.advertisements, ad.status = .pending)
    (hstep : Stepped P cfg s call e' db call') : call'.Unserved := by
  obtain ⟨hphase, hunpaid⟩ := h
  have hdone : ∀ {response : Response}, response.status ≠ 200 →
      (call.goto (.done response)).Unserved :=
    fun hstatus => ⟨hstatus, hunpaid⟩
  cases hstep with
  | advance hadvance =>
      cases hcurrent : call.phase with
      | received =>
          simp only [Call.advance, hcurrent] at hadvance
          split at hadvance
          · cases hadvance
            exact hdone (handle_status _)
          · split at hadvance
            · rename_i hbody
              cases hadvance
              exact hdone (validate_status hbody)
            · cases hadvance
              exact ⟨trivial, hunpaid⟩
      | authenticated auth request =>
          simp only [Call.advance, hcurrent] at hadvance
          split at hadvance
          · cases hadvance
            refine hdone ?_
            split
            · decide
            · exact handle_status _
          · split at hadvance
            · cases hadvance
              exact hdone (by decide)
            · cases hadvance
              exact ⟨trivial, hunpaid⟩
      | modelFound auth request model =>
          simp only [Call.advance, hcurrent] at hadvance
          split at hadvance
          · rename_i hfinds
            split at hadvance
            · cases hadvance
              exact hdone (by decide)
            · -- the lookup cannot have returned a route
              rename_i route hroute
              rw [hroute, not_findsRoute hads] at hfinds
              cases hfinds
          · cases hadvance
      | done response =>
          simp only [Call.advance, hcurrent] at hadvance
          cases hadvance
      | _ =>
          rw [hcurrent] at hphase
          exact hphase.elim
  | deliver hdeliver =>
      unfold Call.deliver at hdeliver
      split at hdeliver
      · rename_i hcurrent
        rw [hcurrent] at hphase
        exact hphase.elim
      · cases hdeliver

theorem job_of_nil {db : DB} (h : db.inferenceJobs = []) (id : UUID) : db.job id = none := by
  rw [DB.job, h]
  rfl

/-- No job is inserted where no request has a route. -/
theorem Unattended.jobs_step (h : Unattended cfg m) (hinv : Invariant P m.api.service)
    (hstep : m.Step P cfg e m') : m'.db.inferenceJobs = [] := by
  rcases hstep.service_part with ⟨e', hservice⟩ | ⟨db, hbackground, hsame⟩
  · refine List.eq_nil_iff_forall_not_mem.mpr fun row hrow => ?_
    have hfound : ∃ found, m'.db.job row.id = some found :=
      Option.isSome_iff_exists.mp (Table.select_isSome_iff.mpr ⟨row, hrow, rfl⟩)
    obtain ⟨found, hfound⟩ := hfound
    rcases job_origin hinv hservice hfound with ⟨old, hold, -⟩ | ⟨call, hcall, job, hrouted, -⟩
    · have hnone : m.api.service.db.job row.id = none := job_of_nil h.jobs row.id
      rw [hnone] at hold
      cases hold
    · have hphase := (h.calls call hcall).phase
      rw [hrouted] at hphase
      exact hphase
  · rw [Market.db, hsame]
    exact hbackground.jobs.trans h.jobs

/-- No usage is recorded where there is no job. -/
theorem Unattended.usage_step (h : Unattended cfg m) (hinv : Invariant P m.api.service)
    (hstep : m.Step P cfg e m') : m'.db.usageRecords = [] := by
  have hnil : m.api.service.db.usageRecords = [] := h.usage
  rcases hstep.service_part with ⟨e', hservice⟩ | ⟨db, hbackground, hsame⟩
  · refine List.eq_nil_iff_forall_not_mem.mpr fun usage husage => ?_
    rcases usage_origin hinv hservice husage with hold | ⟨row, hmatches⟩
    · rw [hnil] at hold
      cases hold
    · have hnone : m'.api.service.db.job usage.jobID = none :=
        job_of_nil (h.jobs_step hinv hstep) usage.jobID
      rw [hmatches.job] at hnone
      cases hnone
  · rw [Market.db, hsame]
    exact hbackground.usage.trans hnil

theorem Unattended.step (h : Unattended cfg m) (hinv : Invariant P m.api.service)
    (hnone : NoAdmin m.db) (hnext : m.next P cfg e = some m') : Unattended cfg m' := by
  have hstep := Market.step_of_next hnext
  have hdecides : ∀ {fact : Fact} {facts : List Fact},
      m.shows P cfg e m' = fact :: facts → moderates fact = false :=
    fun hshown => moderates_of_noAdmin hnone (hshown ▸ List.mem_cons_self)
  refine ⟨?_, ?_, ?_, h.jobs_step hinv hstep, h.usage_step hinv hstep⟩
  · intro provider hprovider
    cases hstep.change.provider_origin hprovider with
    | kept hold _ _ => exact h.providers provider hold
    | decided _ _ hshown | disabled _ _ hshown => cases hdecides hshown
    | created _ hactive hshown =>
        exact ⟨approval_of_created hnext (hshown ▸ List.mem_cons_self), hactive⟩
  · intro ad had
    cases hstep.change.advertisement_origin had with
    | kept hold hrow _ =>
        rw [hrow]
        exact (h.ads _ hold :)
    | judged _ _ hshown => cases hdecides hshown
    | listed hpending _ _ => exact hpending
  · intro call' hcall'
    rcases hstep.call_origin hcall' with hold | ⟨id, bearer, requestID, body, rfl⟩ |
      ⟨call, hcall, e', db, hstepped⟩
    · exact h.calls call' hold
    · exact ⟨trivial, rfl, rfl⟩
    · exact (h.calls call hcall).step h.ads hstepped

variable {guard : Market → MarketEvent → Market → Prop} {es : List MarketEvent}

/-- As long as nobody is an administrator nothing is moderated, and nobody is served. -/
theorem unattended_of_reaches (h : (marketMachine P cfg).Reaches guard es m)
    (hnone : NoAdmin m.db) : Unattended cfg m := by
  have hboth : Invariant P m.api.service ∧ (NoAdmin m.db → Unattended cfg m) := by
    refine h.invariant
      (fun m => Invariant P m.api.service ∧ (NoAdmin m.db → Unattended cfg m)) ?_ ?_
    · intro m hstart
      obtain ⟨⟨⟨models, modelVersions, -, hdb⟩, hcalls⟩, -⟩ := hstart
      refine ⟨.start ⟨_, hdb⟩ hcalls, fun _ => ⟨?_, ?_, ?_, ?_, ?_⟩⟩
      · rw [hdb]
        intro provider hprovider
        cases hprovider
      · rw [hdb]
        intro ad had
        cases had
      · rw [hcalls]
        intro call hcall
        cases hcall
      · rw [hdb]
        rfl
      · rw [hdb]
        rfl
    · intro m e m' hboth hnext _
      have hstep := Market.step_of_next hnext
      refine ⟨hstep.invariant hboth.1, fun hnone' => ?_⟩
      have hnone := NoAdmin.before hnone' hstep
      exact (hboth.2 hnone).step hboth.1 hnone hnext
  exact hboth.2 hnone

/-- Where the settings bootstrap no administrator, there is none. -/
theorem noAdmin_of_reaches (h : (marketMachine P cfg).Reaches guard es m)
    (hsettings : cfg.bootstrapFirstUserAdmin = false) : NoAdmin m.db := by
  refine h.invariant (fun m => NoAdmin m.db) ?_ ?_
  · intro m hstart
    obtain ⟨⟨⟨models, modelVersions, -, hdb⟩, -⟩, -⟩ := hstart
    rw [hdb]
    intro user huser
    cases huser
  · intro m e m' hnone hnext _
    exact hnone.after hsettings (Market.step_of_next hnext)

end Unattended

end Nuvonode.Handler
