/-
  Handler/Credentials.lean --- the four ways to authenticate a request.

  From `AuthService.Login` and `UserFromJWT` in `service/services.go`, `DashboardAuth`
  in `httpx/middleware.go`, and the two lookups of keys and tokens.  bcrypt and the JWT
  library are parameters; the lookups decide alone which accounts are let in.
-/
import Nuvonode.Handler.Api
import Nuvonode.Service.Management

set_option autoImplicit false

namespace Nuvonode.Handler

open Nuvonode.Foundation Nuvonode.Database Nuvonode.Repository Nuvonode.Service

/-- `auth.Claims`, without the expiry. -/
structure Claims where
  userID : String
  email : String
  role : String
  deriving DecidableEq

/-- What the service asks of bcrypt and of the JWT library. -/
structure Authenticator where
  /-- `auth.CheckPassword`, of a hash and a password. -/
  checkPassword : String → String → Bool
  /-- `auth.ParseJWT`, under the secret of the server and at the moment of the request. -/
  parseJWT : String → Option Claims

/-- `Store.UserByEmail`. -/
def userByEmail (email : String) (db : DB) : Except Err UserRow :=
  if storable email then
    match Table.select UserRow.email db.users email with
    | some user => if user.deleted then .error .notFound else .ok user
    | none => .error .notFound
  else .error .invalidText

section Paths

variable (P : Platform) (A : Authenticator) (cfg : Config)

/-- `AuthService.Login`, up to the signing of the access token. -/
def login (email password : String) (db : DB) : Except Err UserRow :=
  match userByEmail (P.toLower (trimSpace email)) db with
  | .error _ => .error .invalidCredentials
  | .ok user =>
      if A.checkPassword user.passwordHash password ∧ user.status = .active then .ok user
      else .error .invalidCredentials

/-- The token in an `Authorization` header, from `bearer` and `bearerFromHeader`. -/
def bearer (header : String) : String :=
  if "Bearer ".toList.isPrefixOf header.toList then
    trimSpace (String.ofList (header.toList.drop "Bearer ".length))
  else ""

/-- `httpx.DashboardAuth`: the user that the request goes on with. -/
def dashboardAuth (header : String) (db : DB) : Except Response UserRow :=
  if bearer header = "" then .error (.error 401 "unauthorized" "Missing bearer token.")
  else match A.parseJWT (bearer header) with
    | none => .error (handle .invalidCredentials)
    | some claims =>
        match userFromJWT claims.userID db with
        | .ok user => .ok user
        | .error e => .error (handle e)

/-! ## Credentials of a user -/

/-- What a request can come with. -/
inductive Credential where
  | password (email password : String)
  | jwt (header : String)
  | apiKey (header : String)
  | providerToken (header : String)

/-- Whether the path that a credential takes lets the request through. -/
def Credential.accepted (db : DB) : Credential → Bool
  | .password email secret => (login P A email secret db).isOk
  | .jwt header => (dashboardAuth A header db).isOk
  | .apiKey header => (resolveAPIKey P cfg (bearer header) db).isOk
  | .providerToken header => (resolveToken P cfg (bearer header) db).isOk

/-- The credentials that derive from a user: its password, a token issued to it that has
not expired, a key of one of its projects, and the token of one of its providers. -/
def Credential.derives (db : DB) (user : UserRow) : Credential → Prop
  | .password email secret =>
      P.toLower (trimSpace email) = user.email ∧ A.checkPassword user.passwordHash secret = true
  | .jwt header => bearer header ≠ "" ∧
      ∃ claims, A.parseJWT (bearer header) = some claims ∧ claims.userID = user.publicID
  | .apiKey header => ∃ key ∈ db.catalog.apiKeys, ∃ project ∈ db.catalog.projects,
      key.keyHash = P.hashToken cfg.apiKeyPepper (bearer header) ∧ key.projectID = project.id ∧
        project.ownerUserID = user.id
  | .providerToken header => "pvn_provider_".toList.isPrefixOf (bearer header).toList = true ∧
      ∃ provider ∈ db.providers,
        provider.tokenHash = P.hashToken cfg.providerTokenPepper (bearer header) ∧
          provider.ownerUserID = user.id

end Paths

/-- The constraints of the schema that the four lookups rely on. -/
structure Keyed (db : DB) : Prop where
  userID : Table.Unique UserRow.id db.users
  userPublicID : Table.Unique UserRow.publicID db.users
  userEmail : Table.Unique UserRow.email db.users
  projectID : Table.Unique ProjectRow.id db.catalog.projects
  keyHash : Table.Unique APIKeyRow.keyHash db.catalog.apiKeys
  tokenHash : Table.Unique ProviderRow.tokenHash db.providers
  /-- A `TEXT` column holds what PostgreSQL can store. -/
  text : ∀ user ∈ db.users, storable user.publicID = true

/-- An account that is disabled or deleted. -/
def IsBlocked (user : UserRow) : Prop := user.status ≠ .active ∨ user.deleted = true

/-! ## The lookups by key -/

section Lookups

variable {P : Platform} {A : Authenticator} {cfg : Config} {db : DB} {user : UserRow}

/-- A login with the password of a blocked account is refused. -/
theorem login_of_blocked (hdb : Keyed db) (huser : user ∈ db.users) (hblocked : IsBlocked user)
    {email password : String} (hemail : P.toLower (trimSpace email) = user.email) :
    (login P A email password db).isOk = false := by
  have hselect : Table.select UserRow.email db.users (P.toLower (trimSpace email)) = some user := by
    rw [hemail]
    exact Table.select_of_mem hdb.userEmail huser
  have hlookup : (userByEmail (P.toLower (trimSpace email)) db) =
      if storable (P.toLower (trimSpace email)) then
        if user.deleted then .error .notFound else .ok user
      else .error .invalidText := by
    unfold userByEmail
    rw [hselect]
  unfold login
  rw [hlookup]
  cases storable (P.toLower (trimSpace email)) with
  | false => rfl
  | true =>
      cases hdeleted : user.deleted with
      | true => rfl
      | false =>
          cases hblocked with
          | inl hstatus => simp [hstatus, Except.isOk, Except.toBool]
          | inr hgone => exact absurd hgone (by simp [hdeleted])

/-- The dashboard lets a token through exactly when its account is not deleted. -/
theorem dashboardAuth_isOk (hdb : Keyed db) (huser : user ∈ db.users) {header : String}
    {claims : Claims} (hheader : bearer header ≠ "")
    (hparse : A.parseJWT (bearer header) = some claims) (hclaims : claims.userID = user.publicID) :
    (dashboardAuth A header db).isOk = !user.deleted := by
  have hselect : Table.select UserRow.publicID db.users user.publicID = some user :=
    Table.select_of_mem hdb.userPublicID huser
  have hlookup : userFromJWT claims.userID db =
      if user.deleted then .error .notFound else .ok user := by
    unfold userFromJWT
    rw [hclaims, if_pos (hdb.text user huser), hselect]
  unfold dashboardAuth
  simp only [if_neg hheader, hparse, hlookup]
  cases user.deleted <;> rfl

/-- A key of a project of a blocked account is refused. -/
theorem resolveAPIKey_of_blocked (hdb : Keyed db) (huser : user ∈ db.users)
    (hblocked : IsBlocked user) {token : String} {key : APIKeyRow} {project : ProjectRow}
    (hkey : key ∈ db.catalog.apiKeys) (hproject : project ∈ db.catalog.projects)
    (hhash : key.keyHash = P.hashToken cfg.apiKeyPepper token) (hof : key.projectID = project.id)
    (howner : project.ownerUserID = user.id) : (resolveAPIKey P cfg token db).isOk = false := by
  have hselectKey := Table.select_of_mem hdb.keyHash hkey
  have hselectProject := Table.select_of_mem hdb.projectID hproject
  have hselectUser : db.user user.id = some user := Table.select_of_mem hdb.userID huser
  unfold resolveAPIKey
  split
  · unfold resolveKeyHash
    rw [← hhash, hselectKey]
    simp only [Option.bind_eq_bind, Option.bind_some, hof, hselectProject, howner, hselectUser]
    rw [if_neg]
    · rfl
    · rintro ⟨-, -, -, hstatus, hdeleted⟩
      cases hblocked with
      | inl hnot => exact hnot hstatus
      | inr hgone => exact hdeleted hgone
  · rfl

/-- A provider's token is accepted exactly when the provider is active and not deleted. -/
theorem resolveToken_isOk (hdb : Keyed db) {token : String} {provider : ProviderRow}
    (hprovider : provider ∈ db.providers)
    (hbegins : "pvn_provider_".toList.isPrefixOf token.toList = true)
    (hhash : provider.tokenHash = P.hashToken cfg.providerTokenPepper token) :
    (resolveToken P cfg token db).isOk = true ↔
      provider.status = .active ∧ provider.deleted = false := by
  unfold resolveToken resolveProviderToken
  rw [if_pos hbegins, ← hhash]
  constructor
  · intro hok
    split at hok
    · rename_i row hrow
      have hmem := List.mem_of_find?_eq_some hrow
      obtain ⟨hrowHash, hactive, hkept⟩ : row.tokenHash = provider.tokenHash ∧
          row.status = .active ∧ row.deleted = false := by simpa using List.find?_some hrow
      obtain rfl := List.inj_on_of_nodup_map hdb.tokenHash hmem hprovider hrowHash
      exact ⟨hactive, hkept⟩
    · cases hok
  · rintro ⟨hactive, hkept⟩
    split
    · rfl
    · rename_i hnone
      exact absurd (List.find?_eq_none.mp hnone provider hprovider) (by simp [hactive, hkept])

end Lookups

end Nuvonode.Handler
