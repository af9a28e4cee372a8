/-
  Contract/Tokens.lean --- every issued credential is accepted where it belongs, and only there.

  The alphabet of base64 holds the separator that the format checks split at, so a
  credential may have more parts than its generator wrote; the checks ask for four at least.
-/
import Nuvonode.Auth.Tokens
import Nuvonode.Contract.NodeConfig
import Nuvonode.Handler.Credentials

set_option autoImplicit false

namespace Nuvonode.Contract

open Nuvonode.Foundation Nuvonode.Database Nuvonode.Repository Nuvonode.Service Nuvonode.Handler
open Nuvonode.Auth

/-! ## The header -/

section Header

variable {token : String}

/-- A text of the alphabet has nothing that `strings.TrimSpace` removes. -/
theorem trimSpace_of_isDigit (h : ∀ c ∈ token.toList, Base64.IsDigit c) :
    trimSpace token = token := by
  have hspace : ∀ c ∈ token.toList, isSpace c = false := fun c hc =>
    Base64.forall_isDigit (fun c => isSpace c = false) (by decide) (h c hc)
  have htrim : trim isSpace token.toList = token.toList :=
    trim_eq_self (fun c hc => hspace c (List.mem_of_mem_head? hc))
      (fun c hc => hspace c (List.mem_of_getLast? hc))
  have hself : trimSpace token = String.ofList (trim isSpace token.toList) := rfl
  rw [hself, htrim, String.ofList_toList]

/-- What is sent as a bearer token is what the server finds. -/
theorem bearer_append (h : ∀ c ∈ token.toList, Base64.IsDigit c) :
    bearer ("Bearer " ++ token) = token := by
  have hprefix : "Bearer ".toList.isPrefixOf ("Bearer " ++ token).toList = true := by
    rw [String.toList_append]
    exact List.isPrefixOf_iff_prefix.mpr (List.prefix_append _ _)
  have hdrop : ("Bearer " ++ token).toList.drop "Bearer ".length = token.toList := by
    rw [String.toList_append]
    exact List.drop_left
  rw [bearer, if_pos hprefix, hdrop, String.ofList_toList, trimSpace_of_isDigit h]

/-- A Go string has one text. -/
theorem goString_injective : Function.Injective Node.goString :=
  List.map_injective_iff.mpr fun _ _ h => Node.Piece.rune.inj h

/-- The header that a node with a token sends. -/
theorem header_of_authorization {node : Node.Config} {header : String}
    (htoken : node.providerToken = Node.goString token.toList)
    (hheader : Node.goString header.toList = Node.authorization node) :
    header = "Bearer " ++ token := by
  rw [Node.authorization, htoken] at hheader
  refine String.toList_injective ?_
  rw [String.toList_append]
  exact goString_injective (hheader.trans List.map_append.symm)

end Header

/-! ## The file -/

/-- A configuration for a provider token. -/
def withToken (token : Node.GoString) (node : Node.Config) : Node.Config :=
  { node with providerToken := token }

section File

variable {U : Node.Unicode} {text : Node.GoString}

theorem plainText_nil : PlainText U [] := ⟨by simp, by simp, by simp⟩

/-- The line of a plain and short token fits the scanner. -/
theorem not_tooLong_providerToken (hplain : PlainText U text) (hshort : textSize text ≤ 400) :
    Node.tooLong (Node.entryLine "provider_token" (Node.quote U text)) = false := by
  have hkey : Node.byteLength "provider_token".toList = 14 := by decide
  rw [tooLong_entryLine, byteLength_quote hplain, hkey]
  exact decide_eq_false (by omega)

theorem withKey_withToken {drawn : Node.Token} {node : Node.Config} :
    (withToken text node).withKey drawn = withToken text (node.withKey drawn) := by
  unfold withToken Node.Config.withKey
  split <;> rfl

theorem any_tooLong_withToken (hplain : PlainText U text) (hshort : textSize text ≤ 400)
    (node : Node.Config) :
    (Node.configLines U (withToken text node)).any Node.tooLong =
      (Node.configLines U (withToken [] node)).any Node.tooLong := by
  have hempty := not_tooLong_providerToken (plainText_nil (U := U)) (Nat.zero_le 400)
  have htext := not_tooLong_providerToken hplain hshort
  simp only [withToken, Node.configLines, List.cons_append, List.any_cons, htext, hempty]

/-- A plain and short token is read back, and the rest as without it. -/
theorem load_write_withToken (hplain : PlainText U text) (hshort : textSize text ≤ 400)
    (drawn : Node.Token) (node : Node.Config) :
    Node.load (Node.write U drawn (withToken text node)) =
      (Node.load (Node.write U drawn (withToken [] node))).map (withToken text) := by
  have hreread : reread U text = text := (goString_trimQuotes_iff text).mpr hplain
  have hreloaded : reloaded U (withToken text (node.withKey drawn)) =
      withToken (reread U text) (reloaded U (withToken [] (node.withKey drawn))) := rfl
  rw [load_write, load_write, withKey_withToken, withKey_withToken,
    any_tooLong_withToken hplain hshort, apply_ite (Except.map _), hreloaded, hreread]
  simp only [Except.map]

/-- So is a text of the alphabet with at most a hundred characters. -/
theorem load_write_of_isDigit {token : String} (h : ∀ c ∈ token.toList, Base64.IsDigit c)
    (hlength : token.toList.length ≤ 100) (drawn : Node.Token) (node : Node.Config) :
    Node.load (Node.write U drawn (withToken (Node.goString token.toList) node)) =
      (Node.load (Node.write U drawn (withToken [] node))).map
        (withToken (Node.goString token.toList)) := by
  have hbytes := byteLength_le token.toList
  refine load_write_withToken (plainText_of_alphabet h) ?_ drawn node
  rw [textSize_goString]
  omega

end File

/-! ## The lookups -/

section Lookups

variable {P : Platform} {cfg : Config} {db db' : DB}

/-- A provider is stored with its token hash, which was free. -/
theorem tokenHash_of_createProvider {seen : DB → Prop} {id ownerUserID : UUID}
    {publicID name tokenHash : String} {approval : ApprovalStatus} {ws ws' : List DbWrite}
    {r : ProviderRow}
    (h : Tx.Yields (S := store) seen db
      (createProvider id publicID ownerUserID name tokenHash approval) ws r ws') :
    r.tokenHash = tokenHash ∧
      Table.select ProviderRow.tokenHash (store.applyAll db ws).providers tokenHash = none := by
  simp only [createProvider, Tx.yields_bind, yields_require, yields_unique, yields_lockProvider,
    yields_lockProviderPublicID, yields_lockProviderToken, yields_references,
    Tx.yields_perform, Tx.yields_pure] at h
  obtain ⟨_, _, ⟨-, rfl⟩, _, _, ⟨-, rfl⟩, _, _, ⟨-, rfl⟩, _, _, ⟨htoken, rfl⟩, _, _, ⟨-, rfl⟩,
    _, _, rfl, rfl, rfl⟩ := h
  exact ⟨rfl, Option.map_eq_none_iff.mp htoken.symm⟩

/-- The token of a new provider finds that provider. -/
theorem resolveToken_of_createProviderAccount {providerID walletID ownerUserID : UUID}
    {publicID token name : String} {provider : ProviderRow}
    (h : (createProviderAccount P cfg providerID walletID publicID token ownerUserID name).exec db
      = .ok (provider, db'))
    (hbegins : "pvn_provider_".toList.isPrefixOf token.toList = true) :
    provider.tokenHash = P.hashToken cfg.providerTokenPepper token ∧
      ∃ row, resolveToken P cfg token db' = .ok row ∧ row.id = provider.id := by
  obtain ⟨ws, hyields, rfl⟩ := Tx.yields_of_exec_nil (S := store) h
  obtain ⟨hnew, -, hresult⟩ := yields_createProviderAccount hyields
  have hhash : provider.tokenHash = P.hashToken cfg.providerTokenPepper token ∧
      Table.select ProviderRow.tokenHash db.providers
        (P.hashToken cfg.providerTokenPepper token) = none := by
    unfold createProviderAccount at hyields
    split at hyields
    · simp at hyields
    · simp only [Tx.yields_bind, Tx.yields_pure] at hyields
      obtain ⟨row, _, hprovider, _, _, -, _, _, -, rfl, -⟩ := hyields
      exact tokenHash_of_createProvider hprovider
  obtain ⟨hstored, hfree⟩ := hhash
  have hrows : (store.applyAll db ws).providers =
      Table.insert db.providers (provider.setWallet walletID) := by
    rw [hresult]
    have hfreeID : Table.select ProviderRow.id db.providers provider.id = none :=
      hnew.id_eq ▸ hnew.freshID
    rw [← Table.update_insert_self hfreeID, hnew.id_eq]
    rfl
  refine ⟨hstored, provider.setWallet walletID, ?_, rfl⟩
  have hothers : db.providers.find? (fun row =>
      row.tokenHash = P.hashToken cfg.providerTokenPepper token ∧ row.status = .active ∧
        ¬ row.deleted) = none := by
    refine List.find?_eq_none.mpr fun row hrow hmatch => ?_
    have hsame := (of_decide_eq_true hmatch).1
    exact Table.select_eq_none_iff.mp hfree row hrow hsame
  rw [resolveToken, if_pos hbegins, resolveProviderToken, hrows, Table.insert,
    List.find?_append, hothers]
  have hfound : [provider.setWallet walletID].find? (fun row =>
      row.tokenHash = P.hashToken cfg.providerTokenPepper token ∧ row.status = .active ∧
        ¬ row.deleted) = some (provider.setWallet walletID) :=
    List.find?_cons_of_pos (decide_eq_true
      ⟨hstored, hnew.active, Bool.eq_false_iff.mp hnew.kept⟩)
  rw [hfound]
  rfl

/-- The key of a new row is looked up by its hash, and finds that row. -/
theorem resolveAPIKey_of_projectCreateAPIKey {id : UUID}
    {publicID plaintext keyPrefix projectPublicID name : String} {user : UserRow} {key : APIKeyRow}
    (h : projectCreateAPIKey P cfg id publicID plaintext keyPrefix user projectPublicID name db =
      .ok (key, db'))
    (hformat : validAPIKeyFormat plaintext = true) :
    key.keyHash = P.hashToken cfg.apiKeyPepper plaintext ∧
      Table.select APIKeyRow.keyHash db'.catalog.apiKeys key.keyHash = some key ∧
      resolveAPIKey P cfg plaintext db' = resolveKeyHash key.keyHash db' := by
  obtain ⟨project, -, hkey⟩ := projectCreateAPIKey_eq_ok h
  obtain ⟨hrow, -, hfree, rfl⟩ := createAPIKey_eq_ok hkey
  have hhash : key.keyHash = P.hashToken cfg.apiKeyPepper plaintext := by rw [hrow]
  refine ⟨hhash, Table.select_insert_self (hhash ▸ hfree), ?_⟩
  rw [resolveAPIKey, if_pos hformat, hhash]

end Lookups

/-! ## The checks of the node -/

theorem isPrefixOf_goString {text text' : List Char} :
    (Node.goString text).isPrefixOf (Node.goString text') = text.isPrefixOf text' := by
  rw [Bool.eq_iff_iff, List.isPrefixOf_iff_prefix, List.isPrefixOf_iff_prefix]
  exact List.prefix_map_iff_of_injective fun _ _ h => Node.Piece.rune.inj h

theorem validProviderToken_goString {text : List Char} :
    Node.validProviderToken (Node.goString text) =
      ("pvn_provider_".toList.isPrefixOf text && decide (4 ≤ text.count '_' + 1)) := by
  have hcount : (Node.goString text).count (.rune '_') = text.count '_' :=
    List.count_map_of_injective text _ (fun _ _ h => Node.Piece.rune.inj h) '_'
  rw [Node.validProviderToken, isPrefixOf_goString, hcount]

/-! ## The two kinds -/

/-- A provider token is accepted by the node and by the server, and is no key. -/
structure IsProviderToken (P : Platform) (cfg : Config) (U : Node.Unicode) (token : String) :
    Prop where
  valid : Node.validProviderToken (Node.goString token.toList) = true
  /-- A configuration with the token loads as it does without one, with the token in it. -/
  reloaded : ∀ (drawn : Node.Token) (node : Node.Config),
    Node.load (Node.write U drawn (withToken (Node.goString token.toList) node)) =
      (Node.load (Node.write U drawn (withToken [] node))).map
        (withToken (Node.goString token.toList))
  /-- The server finds the token in the header of a node that has it. -/
  recovered : ∀ (node : Node.Config) (header : String),
    node.providerToken = Node.goString token.toList →
      Node.goString header.toList = Node.authorization node → bearer header = token
  marked : "pvn_provider_".toList.isPrefixOf token.toList = true
  /-- A provider that is created with the token stores its hash, and the token finds it. -/
  resolved : ∀ (providerID walletID ownerUserID : UUID) (publicID name : String)
    (db db' : DB) (provider : ProviderRow),
    (createProviderAccount P cfg providerID walletID publicID token ownerUserID name).exec db =
        .ok (provider, db') →
      provider.tokenHash = P.hashToken cfg.providerTokenPepper token ∧
        ∃ row, resolveToken P cfg token db' = .ok row ∧ row.id = provider.id
  refused : validAPIKeyFormat token = false

/-- A key is accepted by the server, and is no provider token. -/
structure IsAPIKey (P : Platform) (cfg : Config) (key : String) : Prop where
  recovered : bearer ("Bearer " ++ key) = key
  valid : validAPIKeyFormat (bearer ("Bearer " ++ key)) = true
  /-- A row that is created with the key stores its hash, and the key is looked up by it. -/
  resolved : ∀ (id : UUID) (publicID keyPrefix projectPublicID name : String) (user : UserRow)
    (db db' : DB) (row : APIKeyRow),
    projectCreateAPIKey P cfg id publicID key keyPrefix user projectPublicID name db =
        .ok (row, db') →
      row.keyHash = P.hashToken cfg.apiKeyPepper key ∧
        Table.select APIKeyRow.keyHash db'.catalog.apiKeys row.keyHash = some row ∧
        resolveAPIKey P cfg key db' = resolveKeyHash row.keyHash db'
  refusedByNode : Node.validProviderToken (Node.goString key.toList) = false
  refused : ∀ db, resolveToken P cfg key db = .error .invalidCredentials

theorem isProviderToken_generate (P : Platform) (cfg : Config) (U : Node.Unicode)
    (drawn : Entropy) : IsProviderToken P cfg U (generateProviderToken drawn).plaintext := by
  have hmark : ∀ c ∈ "pvn_provider_".toList, Base64.IsDigit c := by simp [Base64.IsDigit]
  have halphabet : ∀ c ∈ (plaintext "pvn_provider_" drawn).toList, Base64.IsDigit c :=
    isDigit_of_mem_plaintext hmark
  have hbegins :
      "pvn_provider_".toList.isPrefixOf (plaintext "pvn_provider_" drawn).toList = true :=
    isPrefixOf_plaintext
  have hparts : "pvn_provider_".toList.count '_' + 1 ≤
      (plaintext "pvn_provider_" drawn).toList.count '_' := count_plaintext
  have hseparators : "pvn_provider_".toList.count '_' = 2 := by decide
  have hfour : 4 ≤ (plaintext "pvn_provider_" drawn).toList.count '_' + 1 := by omega
  have hlength : (plaintext "pvn_provider_" drawn).toList.length ≤ 100 := by
    rw [length_toList_plaintext]
    decide
  have hkey : "pvn_live_".toList.isPrefixOf (plaintext "pvn_provider_" drawn).toList = false :=
    not_isPrefixOf_plaintext (by decide) (by decide)
  refine
    { valid := ?_
      reloaded := load_write_of_isDigit halphabet hlength
      recovered := ?_
      marked := hbegins
      resolved := fun _ _ _ _ _ _ _ _ hcreate =>
        resolveToken_of_createProviderAccount hcreate hbegins
      refused := ?_ }
  · rw [validProviderToken_goString, generateProviderToken, hbegins, Bool.true_and]
    exact decide_eq_true hfour
  · intro node header htoken hheader
    rw [header_of_authorization htoken hheader]
    exact bearer_append halphabet
  · rw [validAPIKeyFormat, generateProviderToken, hkey, Bool.false_and]

theorem isAPIKey_generate (P : Platform) (cfg : Config) (drawn : Entropy) :
    IsAPIKey P cfg (generateAPIKey drawn).plaintext := by
  have hmark : ∀ c ∈ "pvn_live_".toList, Base64.IsDigit c := by simp [Base64.IsDigit]
  have halphabet : ∀ c ∈ (plaintext "pvn_live_" drawn).toList, Base64.IsDigit c :=
    isDigit_of_mem_plaintext hmark
  have hbegins : "pvn_live_".toList.isPrefixOf (plaintext "pvn_live_" drawn).toList = true :=
    isPrefixOf_plaintext
  have hparts : "pvn_live_".toList.count '_' + 1 ≤
      (plaintext "pvn_live_" drawn).toList.count '_' := count_plaintext
  have hseparators : "pvn_live_".toList.count '_' = 2 := by decide
  have hvalid : validAPIKeyFormat (plaintext "pvn_live_" drawn) = true := by
    rw [validAPIKeyFormat, hbegins, Bool.true_and]
    exact decide_eq_true (by omega)
  have htoken : "pvn_provider_".toList.isPrefixOf (plaintext "pvn_live_" drawn).toList = false :=
    not_isPrefixOf_plaintext (by decide) (by decide)
  have hrecovered : bearer ("Bearer " ++ plaintext "pvn_live_" drawn) =
      plaintext "pvn_live_" drawn := bearer_append halphabet
  refine
    { recovered := hrecovered
      valid := ?_
      resolved := fun _ _ _ _ _ _ _ _ _ hcreate =>
        resolveAPIKey_of_projectCreateAPIKey hcreate hvalid
      refusedByNode := ?_
      refused := fun db => ?_ }
  · rw [generateAPIKey, hrecovered]
    exact hvalid
  · rw [validProviderToken_goString, generateAPIKey, htoken, Bool.false_and]
  · rw [resolveToken, generateAPIKey, htoken]
    rfl

/-- **Every issued credential works where it should and nowhere else.** -/
theorem issued_credentials_work (P : Platform) (cfg : Config) (U : Node.Unicode)
    (drawn : Entropy) :
    IsProviderToken P cfg U (generateProviderToken drawn).plaintext ∧
      IsAPIKey P cfg (generateAPIKey drawn).plaintext :=
  ⟨isProviderToken_generate P cfg U drawn, isAPIKey_generate P cfg drawn⟩

end Nuvonode.Contract
