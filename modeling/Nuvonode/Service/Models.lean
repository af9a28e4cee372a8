/-
  Service/Models.lean --- the row that a create or an edit of a model stores.

  A stored create and a stored edit are described column by column.  Both checks keep
  prices and output tokens from being negative.  Two edits of a row are one edit of it.
-/
import Nuvonode.Repository.Registry
import Nuvonode.Service.Management

set_option autoImplicit false

namespace Nuvonode.Service

open Nuvonode.Foundation Nuvonode.Database Nuvonode.Repository

/-! ## Stored rows -/

/-- The columns of a model that has been created from an input. -/
structure StoresInput (input : ModelInput) (row : ModelRow) : Prop where
  slug : row.slug = input.slug
  displayName : row.displayName = input.displayName
  description : row.description = input.description
  family : row.family = input.family
  modality : modalityOf input.modality = some row.modality
  status : modelStatusOf input.status = some row.status
  contextLength : row.contextLength = input.contextLength.toInt
  defaultMaxOutputTokens : row.defaultMaxOutputTokens = input.defaultMaxOutputTokens.toInt
  inputCreditPer1K : row.inputCreditPer1K = input.inputCreditPer1K
  outputCreditPer1K : row.outputCreditPer1K = input.outputCreditPer1K
  providerRewardRatio : numericStore 6 4 input.providerRewardRatio = some row.providerRewardRatio
  minVRAMMB : row.minVRAMMB = input.minVRAMMB.toInt
  recommendedVRAMMB : row.recommendedVRAMMB = input.recommendedVRAMMB.toInt
  licenseName : row.licenseName = input.licenseName
  licenseURL : row.licenseURL = input.licenseURL
  licenseNotes : row.licenseNotes = input.licenseNotes
  communityAllowed : row.communityAllowed = input.communityAllowed
  externalOnly : row.externalOnly = input.externalOnly

/-- The columns of a model that has been edited by a patch. -/
structure StoresPatch (patch : ModelPatch) (old row : ModelRow) : Prop where
  slug : row.slug = coalesce patch.slug old.slug
  displayName : row.displayName = coalesce patch.displayName old.displayName
  description : row.description = coalesce patch.description old.description
  family : row.family = coalesce patch.family old.family
  modality : (patch.modality.elim (some old.modality) modalityOf) = some row.modality
  status : (patch.status.elim (some old.status) modelStatusOf) = some row.status
  contextLength : row.contextLength =
    coalesce (patch.contextLength.map Int64.toInt) old.contextLength
  defaultMaxOutputTokens : row.defaultMaxOutputTokens =
    coalesce (patch.defaultMaxOutputTokens.map Int64.toInt) old.defaultMaxOutputTokens
  inputCreditPer1K : row.inputCreditPer1K = coalesce patch.inputCreditPer1K old.inputCreditPer1K
  outputCreditPer1K : row.outputCreditPer1K =
    coalesce patch.outputCreditPer1K old.outputCreditPer1K
  providerRewardRatio : (patch.providerRewardRatio.elim (some old.providerRewardRatio)
    (numericStore 6 4)) = some row.providerRewardRatio
  minVRAMMB : row.minVRAMMB = coalesce (patch.minVRAMMB.map Int64.toInt) old.minVRAMMB
  recommendedVRAMMB : row.recommendedVRAMMB =
    coalesce (patch.recommendedVRAMMB.map Int64.toInt) old.recommendedVRAMMB
  licenseName : row.licenseName = coalesce patch.licenseName old.licenseName
  licenseURL : row.licenseURL = patch.licenseURL.or old.licenseURL
  licenseNotes : row.licenseNotes = coalesce patch.licenseNotes old.licenseNotes
  communityAllowed : row.communityAllowed = coalesce patch.communityAllowed old.communityAllowed
  externalOnly : row.externalOnly = coalesce patch.externalOnly old.externalOnly

section Stored

variable {id : UUID} {publicID : String} {user : UserRow}
  {input : ModelInput} {patch : ModelPatch} {old row : ModelRow} {db db' : DB}

/-- A value that a patch may leave out. -/
theorem eq_some_of_elim_orError {α β : Type} {e : Err} {f : α → Option β} {patch : Option α}
    {column b : β} (h : (patch.elim (.ok column) fun a => orError e (f a)) = .ok b) :
    patch.elim (some column) f = some b := by
  cases patch with
  | none =>
      cases h
      rfl
  | some a => exact eq_some_of_orError h

theorem storesInput_of_row (h : input.row id publicID = .ok row) : StoresInput input row := by
  obtain ⟨modality, hmodality, h⟩ := eq_ok_of_bind h
  obtain ⟨status, hstatus, h⟩ := eq_ok_of_bind h
  obtain ⟨ratio, hratio, h⟩ := eq_ok_of_bind h
  split at h
  · cases h
  · split at h
    · cases h
    · cases h
      exact ⟨rfl, rfl, rfl, rfl, eq_some_of_orError hmodality, eq_some_of_orError hstatus, rfl, rfl,
        rfl, rfl, eq_some_of_orError hratio, rfl, rfl, rfl, rfl, rfl, rfl, rfl⟩

theorem storesPatch_of_update (h : ModelPatch.update patch old = .ok row) :
    StoresPatch patch old row := by
  obtain ⟨modality, hmodality, h⟩ := eq_ok_of_bind h
  obtain ⟨status, hstatus, h⟩ := eq_ok_of_bind h
  obtain ⟨ratio, hratio, h⟩ := eq_ok_of_bind h
  split at h
  · cases h
  · split at h
    · cases h
    · cases h
      exact ⟨rfl, rfl, rfl, rfl, eq_some_of_elim_orError hmodality,
        eq_some_of_elim_orError hstatus, rfl, rfl, rfl, rfl, eq_some_of_elim_orError hratio, rfl,
        rfl, rfl, rfl, rfl, rfl, rfl⟩

/-- What an accepted create is. -/
theorem accepted_create (h : adminCreateModel id publicID user input db = .ok (row, db')) :
    validModelInput (normalizeModelInput input) = true ∧
      StoresInput (normalizeModelInput input) row ∧
      db'.catalog.models = Table.insert db.catalog.models row := by
  unfold adminCreateModel adminOnly at h
  split at h
  · split at h
    · rename_i hvalid
      obtain ⟨row', hrow, h⟩ := eq_ok_of_bind h
      split at h
      · cases h
      · obtain ⟨audited, -, h⟩ := eq_ok_of_bind h
        cases h
        exact ⟨hvalid, storesInput_of_row hrow, rfl⟩
    · cases h
  · cases h

end Stored

/-! ## Checked values -/

/-- What the check of an edit says of the values that are used below. -/
structure ChecksPatch (patch : ModelPatch) : Prop where
  modality : ∀ text ∈ patch.modality, validModality text = true
  status : ∀ text ∈ patch.status, validModelStatus text = true
  contextLength : ∀ n ∈ patch.contextLength, 0 < n
  defaultMaxOutputTokens : ∀ n ∈ patch.defaultMaxOutputTokens, 0 < n
  inputCreditPer1K : ∀ n ∈ patch.inputCreditPer1K, 0 ≤ n
  outputCreditPer1K : ∀ n ∈ patch.outputCreditPer1K, 0 ≤ n

theorem checksPatch_of_valid {patch : ModelPatch} (h : validModelPatch patch = true) :
    ChecksPatch patch := by
  simp only [validModelPatch, Bool.and_eq_true, Option.all_eq_true, decide_eq_true_eq] at h
  obtain ⟨⟨⟨h, -⟩, -⟩, -⟩ := h
  obtain ⟨⟨⟨⟨⟨⟨-, hmodality⟩, hstatus⟩, hcontext⟩, htokens⟩, hinput⟩, houtput⟩ := h
  exact ⟨hmodality, hstatus, hcontext, htokens, hinput, houtput⟩

/-! ## One edit after another -/

/-- The patch that takes the field of `next` where it is present, and that of `patch`
otherwise. -/
def mergedPatch (patch next : ModelPatch) : ModelPatch where
  slug := next.slug.or patch.slug
  displayName := next.displayName.or patch.displayName
  description := next.description.or patch.description
  family := next.family.or patch.family
  modality := next.modality.or patch.modality
  status := next.status.or patch.status
  contextLength := next.contextLength.or patch.contextLength
  defaultMaxOutputTokens := next.defaultMaxOutputTokens.or patch.defaultMaxOutputTokens
  inputCreditPer1K := next.inputCreditPer1K.or patch.inputCreditPer1K
  outputCreditPer1K := next.outputCreditPer1K.or patch.outputCreditPer1K
  providerRewardRatio := next.providerRewardRatio.or patch.providerRewardRatio
  minVRAMMB := next.minVRAMMB.or patch.minVRAMMB
  recommendedVRAMMB := next.recommendedVRAMMB.or patch.recommendedVRAMMB
  licenseName := next.licenseName.or patch.licenseName
  licenseURL := next.licenseURL.or patch.licenseURL
  licenseNotes := next.licenseNotes.or patch.licenseNotes
  communityAllowed := next.communityAllowed.or patch.communityAllowed
  externalOnly := next.externalOnly.or patch.externalOnly

/-- The columns that an edit takes from the old row, and that no patch has. -/
structure SameModel (old row : ModelRow) : Prop where
  id : row.id = old.id
  publicID : row.publicID = old.publicID
  deleted : row.deleted = old.deleted

/-- A patch whose numbers fit their columns and whose texts a column can hold. -/
structure WritablePatch (patch : ModelPatch) : Prop where
  contextLength : patch.contextLength.all fitsColumn = true
  defaultMaxOutputTokens : patch.defaultMaxOutputTokens.all fitsColumn = true
  minVRAMMB : patch.minVRAMMB.all fitsColumn = true
  recommendedVRAMMB : patch.recommendedVRAMMB.all fitsColumn = true
  slug : patch.slug.all storable = true
  displayName : patch.displayName.all storable = true
  description : patch.description.all storable = true
  family : patch.family.all storable = true
  licenseName : patch.licenseName.all storable = true
  licenseURL : patch.licenseURL.all storable = true
  licenseNotes : patch.licenseNotes.all storable = true

section Merged

variable {patch next : ModelPatch} {old mid row : ModelRow}

theorem SameModel.trans (h : SameModel old mid) (h' : SameModel mid row) : SameModel old row :=
  ⟨h'.id.trans h.id, h'.publicID.trans h.publicID, h'.deleted.trans h.deleted⟩

theorem all_or {α : Type} {f : α → Bool} {a b : Option α} (ha : a.all f = true)
    (hb : b.all f = true) : (b.or a).all f = true := by
  cases b with
  | none => exact ha
  | some v => exact hb

theorem ne_some_of_or {α : Type} {v : α} {a b : Option α} (ha : a ≠ some v) (hb : b ≠ some v) :
    b.or a ≠ some v := by
  cases b with
  | none => exact ha
  | some w => exact hb

theorem coalesce_or {α : Type} (a b : Option α) (column : α) :
    coalesce b (coalesce a column) = coalesce (b.or a) column := by
  cases b with
  | none => rfl
  | some v => rfl

/-- The column of a value that is looked up, after one patch and then another. -/
theorem elim_or {α β : Type} {f : α → Option β} {a b : Option α} {column between value : β}
    (ha : a.elim (some column) f = some between) (hb : b.elim (some between) f = some value) :
    (b.or a).elim (some column) f = some value := by
  cases b with
  | none =>
      cases hb
      exact ha
  | some v => exact hb

theorem map_coalesce_or {α β : Type} (f : α → β) (a b : Option α) (column : β) :
    coalesce (b.map f) (coalesce (a.map f) column) = coalesce ((b.or a).map f) column := by
  cases b with
  | none => rfl
  | some v => rfl

/-- Trimming the merged patch merges the trimmed ones. -/
theorem normalizeModelPatch_merged : normalizeModelPatch (mergedPatch patch next) =
    mergedPatch (normalizeModelPatch patch) (normalizeModelPatch next) := by
  simp only [normalizeModelPatch, mergedPatch, Option.map_or]

theorem validModelPatch_merged (h : validModelPatch patch = true)
    (h' : validModelPatch next = true) : validModelPatch (mergedPatch patch next) = true := by
  simp only [validModelPatch, Bool.and_eq_true, decide_eq_true_eq] at h h' ⊢
  obtain ⟨⟨⟨⟨⟨⟨⟨⟨⟨⟨⟨h₁, h₂⟩, h₃⟩, h₄⟩, h₅⟩, h₆⟩, h₇⟩, h₈⟩, h₉⟩, h₁₀⟩, h₁₁⟩, h₁₂⟩ := h
  obtain ⟨⟨⟨⟨⟨⟨⟨⟨⟨⟨⟨k₁, k₂⟩, k₃⟩, k₄⟩, k₅⟩, k₆⟩, k₇⟩, k₈⟩, k₉⟩, k₁₀⟩, k₁₁⟩, k₁₂⟩ := h'
  exact ⟨⟨⟨⟨⟨⟨⟨⟨⟨⟨⟨ne_some_of_or h₁ k₁, ne_some_of_or h₂ k₂⟩, ne_some_of_or h₃ k₃⟩,
    all_or h₄ k₄⟩, all_or h₅ k₅⟩, all_or h₆ k₆⟩, all_or h₇ k₇⟩, all_or h₈ k₈⟩, all_or h₉ k₉⟩,
    all_or h₁₀ k₁₀⟩, all_or h₁₁ k₁₁⟩, all_or h₁₂ k₁₂⟩

/-- What an update needs of its patch, and what it keeps of the row. -/
theorem writable_of_update (h : ModelPatch.update patch old = .ok row) :
    WritablePatch patch ∧ SameModel old row := by
  obtain ⟨modality, -, h⟩ := eq_ok_of_bind h
  obtain ⟨status, -, h⟩ := eq_ok_of_bind h
  obtain ⟨ratio, -, h⟩ := eq_ok_of_bind h
  split at h
  · cases h
  · rename_i hfits
    split at h
    · cases h
    · rename_i hstorable
      cases h
      simp only [Bool.not_eq_true', Bool.not_eq_false, Bool.and_eq_true] at hfits hstorable
      obtain ⟨⟨⟨f₁, f₂⟩, f₃⟩, f₄⟩ := hfits
      obtain ⟨⟨⟨⟨⟨⟨s₁, s₂⟩, s₃⟩, s₄⟩, s₅⟩, s₆⟩, s₇⟩ := hstorable
      exact ⟨⟨f₁, f₂, f₃, f₄, s₁, s₂, s₃, s₄, s₅, s₆, s₇⟩, ⟨rfl, rfl, rfl⟩⟩

theorem writablePatch_merged (h : WritablePatch patch) (h' : WritablePatch next) :
    WritablePatch (mergedPatch patch next) where
  contextLength := all_or h.contextLength h'.contextLength
  defaultMaxOutputTokens := all_or h.defaultMaxOutputTokens h'.defaultMaxOutputTokens
  minVRAMMB := all_or h.minVRAMMB h'.minVRAMMB
  recommendedVRAMMB := all_or h.recommendedVRAMMB h'.recommendedVRAMMB
  slug := all_or h.slug h'.slug
  displayName := all_or h.displayName h'.displayName
  description := all_or h.description h'.description
  family := all_or h.family h'.family
  licenseName := all_or h.licenseName h'.licenseName
  licenseURL := all_or h.licenseURL h'.licenseURL
  licenseNotes := all_or h.licenseNotes h'.licenseNotes

/-- The columns after two edits are those after the merged one. -/
theorem storesPatch_merged (h : StoresPatch patch old mid) (h' : StoresPatch next mid row) :
    StoresPatch (mergedPatch patch next) old row where
  slug := by rw [h'.slug, h.slug, coalesce_or]; rfl
  displayName := by rw [h'.displayName, h.displayName, coalesce_or]; rfl
  description := by rw [h'.description, h.description, coalesce_or]; rfl
  family := by rw [h'.family, h.family, coalesce_or]; rfl
  modality := elim_or h.modality h'.modality
  status := elim_or h.status h'.status
  contextLength := by rw [h'.contextLength, h.contextLength, map_coalesce_or]; rfl
  defaultMaxOutputTokens := by
    rw [h'.defaultMaxOutputTokens, h.defaultMaxOutputTokens, map_coalesce_or]; rfl
  inputCreditPer1K := by rw [h'.inputCreditPer1K, h.inputCreditPer1K, coalesce_or]; rfl
  outputCreditPer1K := by rw [h'.outputCreditPer1K, h.outputCreditPer1K, coalesce_or]; rfl
  providerRewardRatio := elim_or h.providerRewardRatio h'.providerRewardRatio
  minVRAMMB := by rw [h'.minVRAMMB, h.minVRAMMB, map_coalesce_or]; rfl
  recommendedVRAMMB := by rw [h'.recommendedVRAMMB, h.recommendedVRAMMB, map_coalesce_or]; rfl
  licenseName := by rw [h'.licenseName, h.licenseName, coalesce_or]; rfl
  licenseURL := by rw [h'.licenseURL, h.licenseURL, ← Option.or_assoc]; rfl
  licenseNotes := by rw [h'.licenseNotes, h.licenseNotes, coalesce_or]; rfl
  communityAllowed := by rw [h'.communityAllowed, h.communityAllowed, coalesce_or]; rfl
  externalOnly := by rw [h'.externalOnly, h.externalOnly, coalesce_or]; rfl

/-- A value that a patch may leave out, as the update computes it. -/
theorem elim_orError_of_eq_some {α β : Type} {e : Err} {f : α → Option β} {a : Option α}
    {column b : β} (h : a.elim (some column) f = some b) :
    (a.elim (.ok column) fun v => orError e (f v)) = .ok b := by
  cases a with
  | none =>
      cases h
      rfl
  | some v =>
      have hvalue : f v = some b := h
      simp only [Option.elim_some, hvalue, orError]

/-- The columns determine the row. -/
theorem update_of_stores (hwritable : WritablePatch patch) (h : StoresPatch patch old row)
    (hsame : SameModel old row) : ModelPatch.update patch old = .ok row := by
  have hfits : (patch.contextLength.all fitsColumn && patch.defaultMaxOutputTokens.all fitsColumn &&
      patch.minVRAMMB.all fitsColumn && patch.recommendedVRAMMB.all fitsColumn) = true := by
    rw [hwritable.contextLength, hwritable.defaultMaxOutputTokens, hwritable.minVRAMMB,
      hwritable.recommendedVRAMMB]
    rfl
  have hstorable : (patch.slug.all storable && patch.displayName.all storable &&
      patch.description.all storable && patch.family.all storable &&
      patch.licenseName.all storable && patch.licenseURL.all storable &&
      patch.licenseNotes.all storable) = true := by
    rw [hwritable.slug, hwritable.displayName, hwritable.description, hwritable.family,
      hwritable.licenseName, hwritable.licenseURL, hwritable.licenseNotes]
    rfl
  unfold ModelPatch.update
  rw [elim_orError_of_eq_some h.modality, elim_orError_of_eq_some h.status,
    elim_orError_of_eq_some h.providerRewardRatio, hfits, hstorable, ← h.slug, ← h.displayName,
    ← h.description, ← h.family, ← h.contextLength, ← h.defaultMaxOutputTokens,
    ← h.inputCreditPer1K, ← h.outputCreditPer1K, ← h.minVRAMMB, ← h.recommendedVRAMMB,
    ← h.licenseName, ← h.licenseURL, ← h.licenseNotes, ← h.communityAllowed, ← h.externalOnly,
    ← hsame.id, ← hsame.publicID, ← hsame.deleted]
  rfl

/-- **Two edits of a row are the edit by the merged patch.** -/
theorem update_merged (h : ModelPatch.update patch old = .ok mid)
    (h' : ModelPatch.update next mid = .ok row) :
    ModelPatch.update (mergedPatch patch next) old = .ok row := by
  obtain ⟨hwritable, hsame⟩ := writable_of_update h
  obtain ⟨hwritable', hsame'⟩ := writable_of_update h'
  exact update_of_stores (writablePatch_merged hwritable hwritable')
    (storesPatch_merged (storesPatch_of_update h) (storesPatch_of_update h'))
    (hsame.trans hsame')

end Merged

section Edits

variable {user user' : UserRow} {modelPublicID : String} {patch next : ModelPatch}
  {old mid row : ModelRow} {db db₁ db₂ db' : DB}

/-- The database after a model was edited. -/
def editedModel (user : UserRow) (db : DB) (old row : ModelRow) : DB :=
  { db with
    auditLog := Table.insert db.auditLog
      { actorUserID := user.id, action := "model_updated", targetType := "model",
        targetID := old.id }
    catalog := { db.catalog with
      models := Table.update ModelRow.id db.catalog.models old.id fun _ => row } }

/-- **When an edit is accepted, and what it does.** -/
theorem adminUpdateModel_eq_ok_iff :
    adminUpdateModel user modelPublicID patch db = .ok (row, db') ↔
      user.role = .admin ∧ validModelPatch (normalizeModelPatch patch) = true ∧
        ∃ old, modelByPublicID modelPublicID db = .ok old ∧
          ModelPatch.update (normalizeModelPatch patch) old = .ok row ∧
          (∀ other ∈ db.catalog.models, other.id ≠ old.id → other.slug ≠ row.slug) ∧
          (db.user user.id).isSome = true ∧ db' = editedModel user db old row := by
  constructor
  · intro h
    unfold adminUpdateModel adminOnly at h
    split at h
    · rename_i hadmin
      split at h
      · rename_i hvalid
        obtain ⟨old, hold, h⟩ := eq_ok_of_bind h
        obtain ⟨row', hrow, h⟩ := eq_ok_of_bind h
        split at h
        · cases h
        · rename_i hfree
          obtain ⟨audited, haudit, h⟩ := eq_ok_of_bind h
          cases h
          unfold audit at haudit
          split at haudit
          · cases haudit
          · rename_i hactor
            cases haudit
            refine ⟨hadmin, hvalid, old, hold, hrow, fun other hother hid hslug => hfree ?_,
              Option.isSome_iff_ne_none.mpr fun hnone => hactor (hnone ▸ rfl), rfl⟩
            exact List.any_eq_true.mpr ⟨other, hother, decide_eq_true ⟨hid, hslug⟩⟩
      · cases h
    · cases h
  · rintro ⟨hadmin, hvalid, old, hold, hrow, hfree, hactor, rfl⟩
    have hnot : ¬ (db.catalog.models.any fun other =>
        other.id ≠ old.id ∧ other.slug = row.slug) = true := by
      intro hany
      obtain ⟨other, hother, hclash⟩ := List.any_eq_true.mp hany
      obtain ⟨hid, hslug⟩ := of_decide_eq_true hclash
      exact hfree other hother hid hslug
    have hnone : ¬ (db.user user.id).isNone = true := by
      rw [Option.isNone_iff_eq_none]
      exact Option.isSome_iff_ne_none.mp hactor
    unfold adminUpdateModel adminOnly updateModel audit
    rw [if_pos hadmin, if_pos hvalid, hold]
    simp only [bind, Except.bind, hrow]
    rw [if_neg hnot, if_neg hnone]
    rfl

/-- What an accepted edit is. -/
theorem accepted_update (h : adminUpdateModel user modelPublicID patch db = .ok (row, db')) :
    validModelPatch (normalizeModelPatch patch) = true ∧
      ∃ old ∈ db.catalog.models, StoresPatch (normalizeModelPatch patch) old row ∧
        row.id = old.id ∧
        db'.catalog.models =
          Table.update ModelRow.id db.catalog.models old.id fun _ => row := by
  obtain ⟨-, hvalid, old, hold, hrow, -, -, rfl⟩ := adminUpdateModel_eq_ok_iff.mp h
  exact ⟨hvalid, old, (Table.mem_of_select (select_of_modelByPublicID hold)).1,
    storesPatch_of_update hrow, ModelPatch.update_id hrow, rfl⟩

/-- A model that is found is not deleted, and can be asked for. -/
theorem storable_of_modelByPublicID (h : modelByPublicID modelPublicID db = .ok old) :
    storable modelPublicID = true ∧ ¬ old.deleted = true := by
  have hselect := select_of_modelByPublicID h
  unfold modelByPublicID at h
  split at h
  · rename_i hstorable
    simp only [hselect] at h
    split at h
    · cases h
    · exact ⟨hstorable, ‹_›⟩
  · cases h

/-- The edited model is found under its public id. -/
theorem modelByPublicID_edited (hold : modelByPublicID modelPublicID db = .ok old)
    (hsame : SameModel old row) :
    modelByPublicID modelPublicID (editedModel user db old row) = .ok row := by
  have hselect := select_of_modelByPublicID hold
  obtain ⟨hstorable, hdeleted⟩ := storable_of_modelByPublicID hold
  have hpublic : row.publicID = modelPublicID :=
    hsame.publicID.trans (Table.mem_of_select hselect).2
  have hedited : Table.select ModelRow.publicID (editedModel user db old row).catalog.models
      modelPublicID = some row := Table.select_replaced hselect hpublic
  rw [modelByPublicID, if_pos hstorable, hedited]
  exact if_neg (hsame.deleted ▸ hdeleted)

/-- **Two accepted edits of a model store what the edit by the merged patch stores.** -/
theorem adminUpdateModel_merged
    (h : adminUpdateModel user modelPublicID patch db = .ok (mid, db₁))
    (h' : adminUpdateModel user' modelPublicID next db₁ = .ok (row, db₂)) :
    ∃ db₃, adminUpdateModel user modelPublicID (mergedPatch patch next) db = .ok (row, db₃) ∧
      db₃.catalog = db₂.catalog := by
  obtain ⟨hadmin, hvalid, old, hold, hmid, hfree, hactor, rfl⟩ := adminUpdateModel_eq_ok_iff.mp h
  obtain ⟨-, hvalid', mid', hmid', hrow, hfree', -, rfl⟩ := adminUpdateModel_eq_ok_iff.mp h'
  have hsame := (writable_of_update hmid).2
  rw [modelByPublicID_edited hold hsame] at hmid'
  cases hmid'
  refine ⟨editedModel user db old row, adminUpdateModel_eq_ok_iff.mpr ⟨hadmin, ?_, old, hold, ?_,
    fun other hother hid => ?_, hactor, rfl⟩, ?_⟩
  · rw [normalizeModelPatch_merged]
    exact validModelPatch_merged hvalid hvalid'
  · rw [normalizeModelPatch_merged]
    exact update_merged hmid hrow
  · -- Another row was not touched by the first edit, so that the second one saw it.
    refine hfree' other ((Table.mem_update_of_ne hsame.id hid).mpr hother) ?_
    rwa [hsame.id]
  · simp only [editedModel, hsame.id]
    rw [Table.update_replaced hsame.id]

end Edits

end Nuvonode.Service
