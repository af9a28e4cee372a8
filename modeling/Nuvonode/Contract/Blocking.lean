/-
  Contract/Blocking.lean --- what a blocked account can still do.

  A login and an API key are refused to an account that is disabled or deleted.  The
  dashboard only asks whether the account is deleted, and a provider's token only whether
  the provider is.
-/
import Nuvonode.Contract.Ledger
import Nuvonode.Handler.Credentials
import Nuvonode.Handler.Market

set_option autoImplicit false

namespace Nuvonode.Contract

open Nuvonode.Foundation Nuvonode.Database Nuvonode.Repository Nuvonode.Service Nuvonode.Handler

section Blocking

variable (P : Platform) (A : Authenticator) (cfg : Config)

/-- A credential that is of no use to a blocked account: a password, an API key, a token
of a user that is deleted, or the token of a provider that is itself disabled or deleted. -/
def Credential.blockable (db : DB) (user : UserRow) : Credential → Prop
  | .password .. => True
  | .jwt _ => user.deleted = true
  | .apiKey _ => True
  | .providerToken header => ∀ provider ∈ db.providers,
      provider.tokenHash = P.hashToken cfg.providerTokenPepper (bearer header) →
        provider.status = .disabled ∨ provider.deleted = true

/-- A credential of a blocked account is refused exactly when it is of one of these kinds. -/
theorem blocked_refused_iff {db : DB} {user : UserRow} {credential : Credential} (hdb : Keyed db)
    (huser : user ∈ db.users) (hblocked : IsBlocked user)
    (hderives : credential.derives P A cfg db user) :
    credential.accepted P A cfg db = false ↔ Credential.blockable P cfg db user credential := by
  cases credential with
  | password email secret =>
      exact iff_of_true (login_of_blocked hdb huser hblocked hderives.1) trivial
  | jwt header =>
      obtain ⟨hheader, claims, hparse, hclaims⟩ := hderives
      have haccepted := dashboardAuth_isOk hdb huser hheader hparse hclaims
      simp only [Credential.accepted, Credential.blockable, haccepted, Bool.not_eq_false']
  | apiKey header =>
      obtain ⟨key, hkey, project, hproject, hhash, hof, howner⟩ := hderives
      exact iff_of_true
        (resolveAPIKey_of_blocked hdb huser hblocked hkey hproject hhash hof howner) trivial
  | providerToken header =>
      obtain ⟨hbegins, provider, hprovider, hhash, -⟩ := hderives
      have haccepted : (resolveToken P cfg (bearer header) db).isOk = true ↔
          provider.status = .active ∧ provider.deleted = false :=
        resolveToken_isOk hdb hprovider hbegins hhash
      have hstatus : provider.status = .disabled ↔ ¬ provider.status = .active := by
        cases provider.status <;> simp
      simp only [Credential.accepted, Credential.blockable]
      rw [← Bool.not_eq_true, haccepted, not_and_or, ← hstatus, Bool.not_eq_false]
      constructor
      · intro hgone other hother hhashOther
        obtain rfl := List.inj_on_of_nodup_map hdb.tokenHash hother hprovider
          (hhashOther.trans hhash.symm)
        exact hgone
      · exact fun hall => hall provider hprovider hhash

end Blocking

/-! ## A disabled administrator -/

/-- Tokens that are the public id of their user. -/
def sampleAuthenticator : Authenticator where
  checkPassword hash password := hash == "hash of " ++ password
  parseJWT token := some ⟨token, "a@example.com", "admin"⟩

/-- An administrator whose account is disabled. -/
def disabledAda : UserRow :=
  ⟨1, "usr_a", "a@example.com", "hash of password", "Ada", .admin, .disabled, false⟩

/-- The token of the provider that the administrator owns. -/
def adaToken : String := "pvn_provider_ada_secret"

def disabledAdaDB : DB :=
  { DB.seeded ⟨[], [], [], [], [], [], []⟩ with
    users := [disabledAda]
    providers := [⟨3, "prv_a", 1, none, "node", .pending, .active,
      samplePlatform.hashToken sampleConfig.providerTokenPepper adaToken, false⟩] }

theorem keyed_disabledAdaDB : Keyed disabledAdaDB where
  userID := List.nodup_singleton _
  userPublicID := List.nodup_singleton _
  userEmail := List.nodup_singleton _
  projectID := List.nodup_nil
  keyHash := List.nodup_nil
  tokenHash := List.nodup_singleton _
  text := by decide +kernel

/-- A token issued earlier to a disabled administrator still opens the dashboard, a provider
is approved with it, and the token of the administrator's own provider is accepted. -/
theorem disabled_admin_is_accepted :
    Keyed disabledAdaDB ∧ disabledAda ∈ disabledAdaDB.users ∧ IsBlocked disabledAda ∧
      (Credential.jwt "Bearer usr_a").derives samplePlatform sampleAuthenticator sampleConfig
        disabledAdaDB disabledAda ∧
      (Credential.jwt "Bearer usr_a").accepted samplePlatform sampleAuthenticator sampleConfig
        disabledAdaDB = true ∧
      ((DashboardRequest.setApproval "prv_a" "approved").run samplePlatform sampleConfig 0
        disabledAda disabledAdaDB).isOk = true ∧
      (Credential.providerToken ("Bearer " ++ adaToken)).derives samplePlatform
        sampleAuthenticator sampleConfig disabledAdaDB disabledAda ∧
      (Credential.providerToken ("Bearer " ++ adaToken)).accepted samplePlatform
        sampleAuthenticator sampleConfig disabledAdaDB = true := by
  have hheader : bearer "Bearer usr_a" = "usr_a" := by decide +kernel
  refine ⟨keyed_disabledAdaDB, List.mem_singleton_self _, .inl (by decide), ⟨?_, _, rfl, hheader⟩,
    by decide +kernel, by decide +kernel, ⟨by decide +kernel, _, List.mem_singleton_self _,
      by decide +kernel, rfl⟩, by decide +kernel⟩
  rw [hheader]
  decide

/-- The password of the disabled administrator is refused. -/
theorem blocked_refused_iff_password :
    (Credential.password "A@example.com" "password").accepted samplePlatform sampleAuthenticator
        sampleConfig disabledAdaDB = false ↔
      Credential.blockable samplePlatform sampleConfig disabledAdaDB disabledAda
        (.password "A@example.com" "password") :=
  blocked_refused_iff samplePlatform sampleAuthenticator sampleConfig keyed_disabledAdaDB
    (List.mem_singleton_self _) (.inl (by decide)) ⟨by decide +kernel, by decide +kernel⟩

end Nuvonode.Contract
