/-
  Service/Wallet.lean --- the operations that move credits.

  From `service/services.go`: `addLedger` and the six operations around it.  An
  operation is the program of statements that `database.InTx` runs; a check that
  the source makes before it begins the transaction is a failure before the first
  statement.
-/
import Nuvonode.Repository.Statements
import Nuvonode.Service.Pricing

set_option autoImplicit false

namespace Nuvonode.Service

open Nuvonode.Foundation Nuvonode.Database Nuvonode.Repository

/-- `if c { ... }`. -/
def onlyIf (c : Prop) [Decidable c] (body : Sql Unit) : Sql Unit := if c then body else pure ()

/-! ## The ledger -/

/-- The ledger row that `addLedger` writes for a wallet it found as `wallet`. -/
def ledgerRow (wallet : WalletRow) (walletID : UUID) (entryType : EntryType)
    (amount reservedDelta : Int64) (reason : String) (createdBy : Option UUID) : LedgerRow where
  walletID := walletID
  entryType := entryType
  amountCredits := amount
  reservedDelta := reservedDelta
  balanceAfter := wallet.balanceCredits + amount
  reservedAfter := wallet.reservedCredits + reservedDelta
  reason := reason
  createdBy := createdBy

/-- Change the cached balance of a wallet and write the change down. -/
def addLedger (walletID : UUID) (entryType : EntryType) (amount reservedDelta : Int64)
    (reason : String) (createdBy : Option UUID) : Sql Unit := do
  let row ← lockWallet walletID
  let wallet ← orFail .noRows row
  if wallet.balanceCredits + amount < 0 ∨ wallet.reservedCredits + reservedDelta < 0 then
    Tx.fail .insufficientCredits
  else do
    Tx.perform (S := store) (.setWallet walletID (wallet.balanceCredits + amount)
      (wallet.reservedCredits + reservedDelta))
    require (storable reason) .invalidText
    references fun db => createdBy.all fun id => (db.user id).isSome
    Tx.perform (S := store) (.insertLedger
      (ledgerRow wallet walletID entryType amount reservedDelta reason createdBy))

/-! ## Operations on a user's wallet -/

/-- `WalletService.AdminAdjust`. -/
def adminAdjust (actorUserID : UUID) (targetUserPublicID : String) (amount : Int64)
    (reason : String) : Sql WalletRow :=
  if amount = 0 ∨ trimSpace reason = "" then Tx.fail .invalidInput
  else do
    require (storable targetUserPublicID) .invalidText
    let target ← Tx.query (S := store) fun db =>
      (Table.select UserRow.publicID db.users targetUserPublicID).bind fun user =>
        db.walletOf (.user, user.id)
    let walletID ← orFail .notFound target
    let _ ← lockWallet walletID
    addLedger walletID .adminAdjustment amount 0 ("admin_adjustment: " ++ trimSpace reason)
      (some actorUserID)
    references fun db => (db.user actorUserID).isSome
    Tx.perform (S := store) (.insertAudit
      { actorUserID, action := "wallet_admin_adjustment", targetType := "wallet",
        targetID := walletID })
    let after ← Tx.query (S := store) fun db => db.wallet walletID
    orFail .noRows after

/-- `WalletService.ReserveForUser`. -/
def reserveForUser (userID : UUID) (amount : Int64) (reason : String) : Sql UUID :=
  if amount ≤ 0 then Tx.fail .invalidInput
  else do
    let found ← Tx.query (S := store) fun db => db.walletOf (.user, userID)
    let walletID ← orFail .noRows found
    addLedger walletID .reserve (-amount) amount reason none
    return walletID

/-- `WalletService.Release`. -/
def release (walletID : UUID) (amount : Int64) (reason : String) : Sql Unit :=
  if amount ≤ 0 then Tx.fail .invalidInput
  else addLedger walletID .releaseReserve amount (-amount) reason none

/-! ## Settlement -/

structure UsageSettlement where
  userWalletID : UUID
  providerPublicID : String
  reservedCredits : Int64
  actualCostCredits : Int64
  providerRewardCredits : Int64
  jobID : UUID
  projectID : UUID
  userID : UUID
  modelID : UUID
  providerID : UUID
  providerInstanceID : UUID
  inputTokens : ℤ
  outputTokens : ℤ
  tokenSource : String
  latencyMS : ℤ
  deriving DecidableEq

/-- The text of a token source. -/
def tokenSourceText : TokenSource → String
  | .runtimeReported => "runtime_reported"
  | .serverEstimated => "server_estimated"

/-- `CHECK (token_source IN ('runtime_reported', 'server_estimated'))`. -/
def tokenSourceOf (text : String) : Option TokenSource :=
  if text = "runtime_reported" then some .runtimeReported
  else if text = "server_estimated" then some .serverEstimated
  else none

@[simp] theorem tokenSourceOf_text (source : TokenSource) :
    tokenSourceOf (tokenSourceText source) = some source := by
  cases source <;> decide

/-- The usage record of a settlement. -/
def UsageSettlement.record (input : UsageSettlement) (source : TokenSource) : UsageRow where
  jobID := input.jobID
  projectID := input.projectID
  userID := input.userID
  modelID := input.modelID
  providerID := input.providerID
  providerInstanceID := input.providerInstanceID
  inputTokens := input.inputTokens
  outputTokens := input.outputTokens
  totalTokens := input.inputTokens + input.outputTokens
  tokenSource := source
  costCredits := input.actualCostCredits
  providerRewardCredits := input.providerRewardCredits
  latencyMS := input.latencyMS

/-- Whether the numbers of a settlement fit the `INT` columns of `usage_records`. -/
def UsageSettlement.fitsColumns (input : UsageSettlement) : Bool :=
  fitsInt4 input.inputTokens && fitsInt4 input.outputTokens &&
  fitsInt4 (input.inputTokens + input.outputTokens) && fitsInt4 input.latencyMS

/-- The rows a settlement refers to. -/
def UsageSettlement.partiesExist (input : UsageSettlement) (db : DB) : Bool :=
  (db.job input.jobID).isSome &&
  Repository.partiesExist input.projectID input.userID input.modelID input.providerID
    input.providerInstanceID db

/-- The source of the counts, where none is given. -/
def UsageSettlement.sourceText (input : UsageSettlement) : String :=
  if input.tokenSource = "" then "server_estimated" else input.tokenSource

/-- `INSERT INTO usage_records`. -/
def insertUsage (input : UsageSettlement) : Sql Unit := do
  require input.fitsColumns .outOfRange
  let source ← orFail .checkViolation (tokenSourceOf input.sourceText)
  unique (lockUsage input.jobID)
  references input.partiesExist
  Tx.perform (S := store) (.insertUsage (input.record source))

/-- `WalletService.FinalizeUsage`.  All three entries are on the wallet
`input.userWalletID`, the reward's too. -/
def finalizeUsage (input : UsageSettlement) : Sql Unit :=
  if input.reservedCredits < 0 ∨ input.actualCostCredits < 0 ∨
      input.providerRewardCredits < 0 then
    Tx.fail .invalidInput
  else do
    onlyIf (0 < input.reservedCredits) <|
      addLedger input.userWalletID .releaseReserve input.reservedCredits
        (-input.reservedCredits) "release_usage_reservation" none
    onlyIf (0 < input.actualCostCredits) <|
      addLedger input.userWalletID .debitUsage (-input.actualCostCredits) 0
        "chat_completion_usage" none
    onlyIf (0 < input.providerRewardCredits) <|
      addLedger input.userWalletID .creditProviderReward input.providerRewardCredits 0
        "chat_completion_provider_reward" none
    insertUsage input
    Tx.perform (S := store)
      (.settleJob input.jobID input.actualCostCredits input.providerRewardCredits)
    upsertSettledStats input.providerID input.latencyMS

/-! ## Accounts -/

structure RegisterInput where
  email : String
  password : String
  displayName : String
  deriving DecidableEq

/-- `AuthService.Register`, up to the signing of the access token. -/
def register (P : Platform) (cfg : Config) (userID walletID : UUID) (publicID : String)
    (input : RegisterInput) : Sql UserRow :=
  let email := P.toLower (trimSpace input.email)
  if email = "" ∨ input.password.utf8ByteSize < 8 ∨ trimSpace input.displayName = "" then
    Tx.fail .invalidInput
  else do
    let passwordHash ← orFail .hashing (P.hashPassword input.password)
    let count ← Tx.query (S := store) countUsers
    let role := if count = 0 ∧ cfg.bootstrapFirstUserAdmin then Role.admin else Role.user
    let user ← createUser userID publicID email passwordHash (trimSpace input.displayName) role
    let wallet ← createWallet walletID .user user.id
    addLedger wallet.id .grant cfg.startingFreeCredits 0 "starting_free_credits" none
    return user

/-- `ProviderService.Create`; the token is random. -/
def createProviderAccount (P : Platform) (cfg : Config) (providerID walletID : UUID)
    (publicID token : String) (ownerUserID : UUID) (name : String) : Sql ProviderRow :=
  if trimSpace name = "" then Tx.fail .invalidInput
  else do
    let approval := if cfg.allowDevAutoApproveProvider ∧ cfg.appEnv = "development" then
      ApprovalStatus.approved else ApprovalStatus.pending
    let provider ← createProvider providerID publicID ownerUserID (trimSpace name)
      (P.hashToken cfg.providerTokenPepper token) approval
    let wallet ← createWallet walletID .provider provider.id
    setProviderWallet provider.id wallet.id
    return provider

end Nuvonode.Service
