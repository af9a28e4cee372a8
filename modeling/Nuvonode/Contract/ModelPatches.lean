/-
  Contract/ModelPatches.lean --- an edit of a model changes the columns that it names.

  A patch is followed column by column from the body of the request to the row.  Two edits
  in a row are one edit by a patch that prefers the fields of the second.
-/
import Nuvonode.Contract.ModelEdits
import Nuvonode.Service.Administration

set_option autoImplicit false

namespace Nuvonode.Contract

open Nuvonode.Foundation Nuvonode.Database Nuvonode.Repository Nuvonode.Service Nuvonode.Handler

/-! ## One column -/

section Columns

variable {r : AdminModelRequest} {old row : ModelRow} {field : ModelField}

theorem takes_of_coalesce {α : Type} {patch : Option α} {column value : α}
    (h : value = coalesce patch column) (hpresent : patch.isSome = true) :
    patch = some value := by
  obtain ⟨v, rfl⟩ := Option.isSome_iff_exists.mp hpresent
  rw [h, coalesce, Option.getD_some]

theorem agrees_of_coalesce {α : Type} {patch : Option α} {column value : α}
    (h : value = coalesce patch column) (habsent : patch.isSome = false) : value = column := by
  rw [Option.isSome_eq_false_iff, Option.isNone_iff_eq_none] at habsent
  rw [h, habsent, coalesce, Option.getD_none]

/-- A field that is present after it is trimmed or widened was present before. -/
theorem takes_of_map {α β : Type} {f : α → β} {patch : Option α} {column value : β}
    (h : value = coalesce (patch.map f) column) (hpresent : patch.isSome = true) :
    patch.map f = some value :=
  takes_of_coalesce h (Option.isSome_map.trans hpresent)

theorem agrees_of_map {α β : Type} {f : α → β} {patch : Option α} {column value : β}
    (h : value = coalesce (patch.map f) column) (habsent : patch.isSome = false) :
    value = column :=
  agrees_of_coalesce h (Option.isSome_map.trans habsent)

/-- A column whose value is looked up, such as a modality. -/
theorem takes_of_elim {α β : Type} {f : α → Option β} {patch : Option α} {column value : β}
    (h : patch.elim (some column) f = some value) (hpresent : patch.isSome = true) :
    patch.bind f = some value := by
  obtain ⟨v, rfl⟩ := Option.isSome_iff_exists.mp hpresent
  exact h

theorem agrees_of_elim {α β : Type} {f : α → Option β} {patch : Option α} {column value : β}
    (h : patch.elim (some column) f = some value) (habsent : patch.isSome = false) :
    value = column := by
  rw [Option.isSome_eq_false_iff, Option.isNone_iff_eq_none] at habsent
  subst habsent
  exact (Option.some.inj h).symm

theorem eq_numericRound_of_store {precision scale : ℕ} {q stored : ℚ}
    (h : numericStore precision scale q = some stored) : numericRound scale q = stored := by
  unfold numericStore at h
  split at h
  · exact Option.some.inj h
  · cases h

/-- **A field that is present is taken.** -/
theorem takes_of_stores (h : StoresPatch (normalizeModelPatch r.modelPatch) old row)
    (hhas : r.has field = true) : field.Takes r row := by
  simp only [normalizeModelPatch, AdminModelRequest.modelPatch] at h
  cases field with
  | slug => exact takes_of_map h.slug hhas
  | displayName => exact takes_of_map h.displayName hhas
  | description => exact takes_of_map h.description hhas
  | family => exact takes_of_map h.family hhas
  | modality => exact takes_of_elim h.modality (Option.isSome_map.trans hhas)
  | status => exact takes_of_elim h.status (Option.isSome_map.trans hhas)
  | contextLength => exact takes_of_map h.contextLength hhas
  | defaultMaxOutputTokens => exact takes_of_map h.defaultMaxOutputTokens hhas
  | inputCreditPer1K => exact takes_of_coalesce h.inputCreditPer1K hhas
  | outputCreditPer1K => exact takes_of_coalesce h.outputCreditPer1K hhas
  | providerRewardRatio =>
      have hstored := h.providerRewardRatio
      obtain ⟨ratio, hratio⟩ := Option.isSome_iff_exists.mp hhas
      rw [hratio] at hstored
      simp only [ModelField.Takes]
      rw [hratio, Option.map_some, eq_numericRound_of_store hstored]
  | minVRAMMB => exact takes_of_map h.minVRAMMB hhas
  | recommendedVRAMMB => exact takes_of_map h.recommendedVRAMMB hhas
  | licenseName => exact takes_of_map h.licenseName hhas
  | licenseURL =>
      obtain ⟨url, hurl⟩ := Option.isSome_iff_exists.mp hhas
      have hstored := h.licenseURL
      simp only [ModelField.Takes]
      rw [hstored, hurl, Option.some_or]
  | licenseNotes => exact takes_of_map h.licenseNotes hhas
  | communityAllowed => exact takes_of_coalesce h.communityAllowed hhas
  | externalOnly => exact takes_of_coalesce h.externalOnly hhas

/-- **A field that is absent leaves its column as it is.** -/
theorem agrees_of_stores (h : StoresPatch (normalizeModelPatch r.modelPatch) old row)
    (hhas : r.has field = false) : field.Agrees row old := by
  simp only [normalizeModelPatch, AdminModelRequest.modelPatch] at h
  cases field with
  | slug => exact agrees_of_map h.slug hhas
  | displayName => exact agrees_of_map h.displayName hhas
  | description => exact agrees_of_map h.description hhas
  | family => exact agrees_of_map h.family hhas
  | modality => exact agrees_of_elim h.modality (Option.isSome_map.trans hhas)
  | status => exact agrees_of_elim h.status (Option.isSome_map.trans hhas)
  | contextLength => exact agrees_of_map h.contextLength hhas
  | defaultMaxOutputTokens => exact agrees_of_map h.defaultMaxOutputTokens hhas
  | inputCreditPer1K => exact agrees_of_coalesce h.inputCreditPer1K hhas
  | outputCreditPer1K => exact agrees_of_coalesce h.outputCreditPer1K hhas
  | providerRewardRatio => exact agrees_of_elim h.providerRewardRatio hhas
  | minVRAMMB => exact agrees_of_map h.minVRAMMB hhas
  | recommendedVRAMMB => exact agrees_of_map h.recommendedVRAMMB hhas
  | licenseName => exact agrees_of_map h.licenseName hhas
  | licenseURL =>
      have hnone : r.licenseURL = none := by
        rwa [AdminModelRequest.has, Option.isSome_eq_false_iff,
          Option.isNone_iff_eq_none] at hhas
      have hstored := h.licenseURL
      rwa [hnone, Option.none_or] at hstored
  | licenseNotes => exact agrees_of_map h.licenseNotes hhas
  | communityAllowed => exact agrees_of_coalesce h.communityAllowed hhas
  | externalOnly => exact agrees_of_coalesce h.externalOnly hhas

end Columns

/-! ## One edit -/

section Edits

variable {user : UserRow} {modelPublicID : String} {db : DB}

/-- Why an edit is refused. -/
inductive Refusal (modelPublicID : String) (db : DB) (r : AdminModelRequest) : Prop where
  | invalid : validModelPatch (normalizeModelPatch r.modelPatch) = false →
      Refusal modelPublicID db r
  | unknown : (∀ old, modelByPublicID modelPublicID db ≠ .ok old) → Refusal modelPublicID db r
  | duplicate {old other : ModelRow} : modelByPublicID modelPublicID db = .ok old →
      other ∈ db.catalog.models → other.id ≠ old.id →
      r.slug.map trimSpace = some other.slug → Refusal modelPublicID db r

/-- A refused edit does not store a row. -/
theorem not_accepted_of_refusal {r : AdminModelRequest} {row : ModelRow} {db' : DB}
    (h : Refusal modelPublicID db r) :
    adminUpdateModel user modelPublicID r.modelPatch db ≠ .ok (row, db') := by
  intro haccepted
  obtain ⟨-, hvalid, old, hold, hrow, hfree, -, -⟩ := adminUpdateModel_eq_ok_iff.mp haccepted
  cases h with
  | invalid hinvalid =>
      rw [hinvalid] at hvalid
      cases hvalid
  | unknown hunknown => exact hunknown old hold
  | duplicate hold' hother hid hslug =>
      rw [hold] at hold'
      cases hold'
      have hpresent : r.has .slug = true := by
        rw [AdminModelRequest.has, ← Option.isSome_map (f := trimSpace), hslug]
        rfl
      have htakes : ModelField.Takes r row .slug :=
        takes_of_stores (storesPatch_of_update hrow) hpresent
      exact hfree _ hother hid (Option.some.inj (hslug.symm.trans htakes))

/-- **An edit changes what it names.**  An accepted edit sets the columns of the fields that are
present and keeps all else but the audit log.  Two in a row store what the merged patch stores,
and one that is refused changes nothing. -/
theorem edit_changes_what_it_names :
    (∀ (r : AdminModelRequest) (row : ModelRow) (db' : DB),
      adminUpdateModel user modelPublicID r.modelPatch db = .ok (row, db') →
        ∃ old, modelByPublicID modelPublicID db = .ok old ∧
          modelByPublicID modelPublicID db' = .ok row ∧
          (∀ field, r.has field = true → field.Takes r row) ∧
          (∀ field, r.has field = false → field.Agrees row old) ∧
          SameModel old row ∧
          (∀ other, other.id ≠ old.id →
            (other ∈ db'.catalog.models ↔ other ∈ db.catalog.models)) ∧
          db' = { db with
            auditLog := db'.auditLog
            catalog := { db.catalog with
              models := db.catalog.models.map fun model =>
                if model.id = old.id then row else model } }) ∧
      (∀ (user' : UserRow) (p q : AdminModelRequest) (mid row : ModelRow) (db₁ db₂ : DB),
        adminUpdateModel user modelPublicID p.modelPatch db = .ok (mid, db₁) →
        adminUpdateModel user' modelPublicID q.modelPatch db₁ = .ok (row, db₂) →
          ∃ db₃, adminUpdateModel user modelPublicID (mergedPatch p.modelPatch q.modelPatch) db =
              .ok (row, db₃) ∧ db₃.catalog = db₂.catalog) ∧
      (∀ r : AdminModelRequest, Refusal modelPublicID db r →
        ∃ e, (AdminOperation.updateModel modelPublicID r.modelPatch).run user db = .error e) ∧
      ∀ (r : AdminModelRequest) (e : Err),
        (AdminOperation.updateModel modelPublicID r.modelPatch).run user db = .error e →
          (AdminOperation.updateModel modelPublicID r.modelPatch).apply user db = db := by
  refine ⟨fun r row db' h => ?_, fun user' p q mid row db₁ db₂ h h' => adminUpdateModel_merged h h',
    fun r h => ?_, fun r e h => ?_⟩
  · obtain ⟨-, -, old, hold, hrow, -, -, rfl⟩ := adminUpdateModel_eq_ok_iff.mp h
    have hstores := storesPatch_of_update hrow
    have hsame := (writable_of_update hrow).2
    exact ⟨old, hold, modelByPublicID_edited hold hsame,
      fun field hhas => takes_of_stores hstores hhas,
      fun field hhas => agrees_of_stores hstores hhas, hsame,
      fun other hid => Table.mem_update_of_ne hsame.id hid, rfl⟩
  · cases hrun : (AdminOperation.updateModel modelPublicID r.modelPatch).run user db with
    | error e => exact ⟨e, rfl⟩
    | ok db' =>
        obtain ⟨⟨row, db''⟩, haccepted, -⟩ := eq_ok_of_map hrun
        exact absurd haccepted (not_accepted_of_refusal h)
  · rw [AdminOperation.apply, h]

end Edits

/-! ## A licence that is padded -/

/-- A body that has only the address of a licence. -/
def licenceRequest (url : String) : AdminModelRequest :=
  { AdminModelRequest.empty with licenseURL := some url }

/-- The model of the sample database with an address. -/
def licencedRow (url : String) : ModelRow := { pricedRow 5 with licenseURL := some url }

/-- The database where the request has edited the model. -/
def licencedDB (url : String) : DB :=
  editedModel sampleAdmin (createdDB (pricedRequest 5)) (pricedRow 5) (licencedRow url)

theorem licence_is_stored :
    adminUpdateModel sampleAdmin "mdl_t" (licenceRequest " https://example.com ").modelPatch
      (createdDB (pricedRequest 5)) =
        .ok (licencedRow " https://example.com ", licencedDB " https://example.com ") := by
  decide +kernel

/-- The edit leaves the slug as it is. -/
theorem slug_is_kept :
    (licencedRow " https://example.com ").slug = (pricedRow 5).slug := by
  have hold : modelByPublicID "mdl_t" (createdDB (pricedRequest 5)) = .ok (pricedRow 5) := by
    decide +kernel
  obtain ⟨old, hfound, -, -, hagrees, -⟩ := edit_changes_what_it_names.1 _ _ _ licence_is_stored
  rw [hold] at hfound
  cases hfound
  exact hagrees .slug rfl

/-- The spaces around an address are stored. -/
theorem padded_licence_is_kept :
    adminUpdateModel sampleAdmin "mdl_t" (licenceRequest " https://example.com ").modelPatch
        (createdDB (pricedRequest 5)) =
          .ok (licencedRow " https://example.com ", licencedDB " https://example.com ") ∧
      ¬ ∀ field, (licenceRequest " https://example.com ").has field = true →
        field.TakesTrimmed (licenceRequest " https://example.com ")
          (licencedRow " https://example.com ") := by
  refine ⟨licence_is_stored, fun hall => ?_⟩
  have hurl : (some " https://example.com ").map trimSpace = some " https://example.com " :=
    hall .licenseURL rfl
  exact absurd hurl (by decide +kernel)

end Nuvonode.Contract
