/-
  Contract/ModelEdits.lean --- whether creating and editing a model agree on a request.

  A create takes a zero for a missing field.  The check of an edit refuses a zero of four
  of the fields that have a default, and takes that of the other six as it is.
-/
import Nuvonode.Contract.Ledger
import Nuvonode.Handler.AdminModels
import Nuvonode.Service.Models

set_option autoImplicit false

namespace Nuvonode.Contract

open Nuvonode.Foundation Nuvonode.Database Nuvonode.Repository Nuvonode.Service Nuvonode.Handler

/-- A present field of a request whose value a create takes for a missing one, where an edit
accepts it. -/
def TakenForMissing (r : AdminModelRequest) : ModelField → Prop
  | .inputCreditPer1K => r.inputCreditPer1K = some 0
  | .outputCreditPer1K => r.outputCreditPer1K = some 0
  | .providerRewardRatio => r.providerRewardRatio = some 0
  | .minVRAMMB => r.minVRAMMB = some 0
  | .recommendedVRAMMB => r.recommendedVRAMMB = some 0
  | .licenseName => r.licenseName.map trimSpace = some ""
  | _ => False

section Edits

variable {r : AdminModelRequest} {field : ModelField} {old created updated : ModelRow}

theorem defaultsTo_eq_iff {α : Type} [DecidableEq α] {missing default value : α}
    (h : default ≠ missing) : defaultsTo missing default value = value ↔ value ≠ missing := by
  unfold defaultsTo
  split
  · rename_i heq
    subst heq
    exact iff_of_false h (not_not_intro rfl)
  · rename_i hne
    exact iff_of_true rfl hne

/-- A field that is taken for missing is present. -/
theorem has_of_takenForMissing (h : TakenForMissing r field) : r.has field = true := by
  cases field with
  | licenseName =>
      obtain ⟨name, hname, -⟩ := Option.map_eq_some_iff.mp h
      exact Option.isSome_iff_exists.mpr ⟨name, hname⟩
  | inputCreditPer1K | outputCreditPer1K | providerRewardRatio | minVRAMMB | recommendedVRAMMB =>
      exact Option.isSome_iff_exists.mpr ⟨_, h⟩
  | _ => exact h.elim

/-- A text that is present is trimmed by an input and by a patch. -/
theorem copied_text {present : Option String} {column : String} (h : present.isSome = true) :
    trimSpace (present.getD "") = coalesce (present.map trimSpace) column := by
  obtain ⟨text, rfl⟩ := Option.isSome_iff_exists.mp h
  rfl

/-- A value that has a default is kept by both, unless it is the zero. -/
theorem defaulted {α β : Type} [DecidableEq α] {f : α → β} {present : Option α}
    {zero default : α} {column : β} (hf : Function.Injective f) (hdefault : default ≠ zero)
    (h : present.isSome = true) :
    f (defaultsTo zero default (present.getD zero)) = coalesce (present.map f) column ↔
      ¬ present = some zero := by
  obtain ⟨v, rfl⟩ := Option.isSome_iff_exists.mp h
  have hsame : f (defaultsTo zero default v) = f v ↔ v ≠ zero :=
    hf.eq_iff.trans (defaultsTo_eq_iff hdefault)
  have hzero : ¬ some v = some zero ↔ v ≠ zero := by rw [Option.some_inj]
  exact hsame.trans hzero.symm

/-- The rounded share of a create is that of an edit, unless it is zero. -/
theorem storedShare_eq_iff {ratio a b : ℚ}
    (hcreate : numericStore 6 4 (defaultsTo 0 (7 / 10) ratio) = some a)
    (hupdate : numericStore 6 4 ratio = some b) : a = b ↔ ratio ≠ 0 := by
  by_cases hzero : ratio = 0
  · subst hzero
    have ha : numericStore 6 4 (7 / 10) = some (7 / 10) := by decide +kernel
    have hb : numericStore 6 4 0 = some 0 := by decide +kernel
    cases ha.symm.trans hcreate
    cases hb.symm.trans hupdate
    exact iff_of_false (by norm_num) (not_not_intro rfl)
  · rw [(defaultsTo_eq_iff (by norm_num)).mpr hzero] at hcreate
    exact iff_of_true (Option.some.inj (hcreate.symm.trans hupdate)) hzero

/-- The same for a value that is stored as it is. -/
theorem copied_self {α : Type} {present : Option α} {zero column : α}
    (h : present.isSome = true) : present.getD zero = coalesce present column := by
  obtain ⟨v, rfl⟩ := Option.isSome_iff_exists.mp h
  rfl

theorem defaulted_self {α : Type} [DecidableEq α] {present : Option α} {zero default column : α}
    (hdefault : default ≠ zero) (h : present.isSome = true) :
    defaultsTo zero default (present.getD zero) = coalesce present column ↔
      ¬ present = some zero := by
  obtain ⟨v, rfl⟩ := Option.isSome_iff_exists.mp h
  exact defaulted (f := id) Function.injective_id hdefault rfl

/-- A blank text is a missing one. -/
theorem defaulted_text {present : Option String} {default column : String}
    (hdefault : default ≠ "") (h : present.isSome = true) :
    defaultsTo "" default (trimSpace (present.getD "")) =
        coalesce (present.map trimSpace) column ↔ ¬ present.map trimSpace = some "" := by
  obtain ⟨text, rfl⟩ := Option.isSome_iff_exists.mp h
  simp only [Option.map_some, Option.getD_some, coalesce, Option.some_inj]
  exact defaultsTo_eq_iff hdefault

/-- A text of a fixed set is not blank, so that no default is taken for it. -/
theorem checked_text {α : Type} {column : String → Option α} {check : String → Bool}
    {present : Option String} {default : String} {old a b : α} (hblank : check "" = false)
    (hcheck : ∀ text ∈ present.map trimSpace, check text = true)
    (hcreate : column (defaultsTo "" default (trimSpace (present.getD ""))) = some a)
    (hupdate : (present.map trimSpace).elim (some old) column = some b)
    (h : present.isSome = true) : a = b := by
  obtain ⟨text, rfl⟩ := Option.isSome_iff_exists.mp h
  have hne : trimSpace text ≠ "" := by
    intro hempty
    have htrue := hcheck (trimSpace text) rfl
    rw [hempty, hblank] at htrue
    cases htrue
  have hkept : defaultsTo "" default (trimSpace text) = trimSpace text := if_neg hne
  rw [Option.getD_some, hkept] at hcreate
  exact Option.some.inj (hcreate.symm.trans hupdate)

/-- A number that must be positive is not zero, so that no default is taken for it. -/
theorem checked_number {present : Option Int64} {default : Int64} {column : ℤ}
    (hdefault : default ≠ 0) (hcheck : ∀ n ∈ present, 0 < n) (h : present.isSome = true) :
    (defaultsTo 0 default (present.getD 0)).toInt =
      coalesce (present.map Int64.toInt) column := by
  refine (defaulted (fun _ _ => Int64.toInt_inj.mp) hdefault h).mpr fun hzero => ?_
  exact absurd (hcheck 0 hzero) (by decide)

/-- **A column is the same after a create as after an edit exactly if its field is not taken for
missing.** -/
theorem agrees_iff (hvalid : validModelPatch (normalizeModelPatch r.modelPatch) = true)
    (hcreate : StoresInput (normalizeModelInput r.modelInput) created)
    (hupdate : StoresPatch (normalizeModelPatch r.modelPatch) old updated)
    (hhas : r.has field = true) : field.Agrees created updated ↔ ¬ TakenForMissing r field := by
  have hchecks := checksPatch_of_valid hvalid
  have hint64 : Function.Injective Int64.toInt := fun _ _ => Int64.toInt_inj.mp
  -- With the columns written out the cases need not unfold the normal forms.
  simp only [normalizeModelInput, AdminModelRequest.modelInput] at hcreate
  simp only [normalizeModelPatch, AdminModelRequest.modelPatch] at hupdate
  cases field with
  | slug =>
      exact iff_of_true (hcreate.slug.trans ((copied_text hhas).trans hupdate.slug.symm)) id
  | displayName =>
      exact iff_of_true (hcreate.displayName.trans
        ((copied_text hhas).trans hupdate.displayName.symm)) id
  | description =>
      exact iff_of_true (hcreate.description.trans
        ((copied_text hhas).trans hupdate.description.symm)) id
  | family =>
      exact iff_of_true (hcreate.family.trans ((copied_text hhas).trans hupdate.family.symm)) id
  | modality =>
      have hstored := hcreate.modality
      have hedited := hupdate.modality
      simp only at hstored hedited
      exact iff_of_true (checked_text (by decide) hchecks.modality hstored hedited hhas) id
  | status =>
      have hstored := hcreate.status
      have hedited := hupdate.status
      simp only at hstored hedited
      exact iff_of_true (checked_text (by decide) hchecks.status hstored hedited hhas) id
  | contextLength =>
      exact iff_of_true (hcreate.contextLength.trans
        ((checked_number (by decide) hchecks.contextLength hhas).trans
          hupdate.contextLength.symm)) id
  | defaultMaxOutputTokens =>
      exact iff_of_true (hcreate.defaultMaxOutputTokens.trans
        ((checked_number (by decide) hchecks.defaultMaxOutputTokens hhas).trans
          hupdate.defaultMaxOutputTokens.symm)) id
  | inputCreditPer1K =>
      simp only [ModelField.Agrees]
      rw [hcreate.inputCreditPer1K, hupdate.inputCreditPer1K]
      exact defaulted_self (by decide) hhas
  | outputCreditPer1K =>
      simp only [ModelField.Agrees]
      rw [hcreate.outputCreditPer1K, hupdate.outputCreditPer1K]
      exact defaulted_self (by decide) hhas
  | providerRewardRatio =>
      obtain ⟨ratio, hratio⟩ := Option.isSome_iff_exists.mp hhas
      have hstored := hcreate.providerRewardRatio
      have hedited := hupdate.providerRewardRatio
      simp only [hratio, Option.getD_some, Option.elim_some] at hstored hedited
      have hzero : ¬ TakenForMissing r .providerRewardRatio ↔ ratio ≠ 0 := by
        rw [TakenForMissing, hratio, Option.some_inj]
      exact (storedShare_eq_iff hstored hedited).trans hzero.symm
  | minVRAMMB =>
      simp only [ModelField.Agrees]
      rw [hcreate.minVRAMMB, hupdate.minVRAMMB]
      exact defaulted hint64 (by decide) hhas
  | recommendedVRAMMB =>
      simp only [ModelField.Agrees]
      rw [hcreate.recommendedVRAMMB, hupdate.recommendedVRAMMB]
      exact defaulted hint64 (by decide) hhas
  | licenseName =>
      simp only [ModelField.Agrees]
      rw [hcreate.licenseName, hupdate.licenseName]
      simp only
      exact defaulted_text (by decide) hhas
  | licenseURL =>
      obtain ⟨url, hurl⟩ := Option.isSome_iff_exists.mp hhas
      have hstored := hcreate.licenseURL
      have hedited := hupdate.licenseURL
      simp only [hurl, Option.some_or] at hstored hedited
      exact iff_of_true (hstored.trans hedited.symm) id
  | licenseNotes =>
      exact iff_of_true (hcreate.licenseNotes.trans
        ((copied_text hhas).trans hupdate.licenseNotes.symm)) id
  | communityAllowed =>
      exact iff_of_true (hcreate.communityAllowed.trans
        ((copied_self hhas).trans hupdate.communityAllowed.symm)) id
  | externalOnly =>
      exact iff_of_true (hcreate.externalOnly.trans
        ((copied_self hhas).trans hupdate.externalOnly.symm)) id

/-- **When creating and editing a model agree on a request.**  Every column whose field is
present has the same value after both exactly if no present field is taken for missing, and each
such column by itself exactly if its field is not. -/
theorem create_agrees_with_edit_iff {id : UUID} {publicID modelPublicID : String}
    {user user' : UserRow} {db₁ db₁' db₂ db₂' : DB}
    (hcreate : adminCreateModel id publicID user r.modelInput db₁ = .ok (created, db₁'))
    (hupdate : adminUpdateModel user' modelPublicID r.modelPatch db₂ = .ok (updated, db₂')) :
    ((∀ field, r.has field = true → field.Agrees created updated) ↔
      ∀ field, ¬ TakenForMissing r field) ∧
    ∀ field, r.has field = true → (field.Agrees created updated ↔ ¬ TakenForMissing r field) := by
  obtain ⟨-, hstored, -⟩ := accepted_create hcreate
  obtain ⟨hvalid, old, -, hedited, -, -⟩ := accepted_update hupdate
  have heach : ∀ field, r.has field = true →
      (field.Agrees created updated ↔ ¬ TakenForMissing r field) :=
    fun field hhas => agrees_iff hvalid hstored hedited hhas
  refine ⟨⟨fun hall field htaken => ?_, fun hnone field hhas => ?_⟩, heach⟩
  · have hhas := has_of_takenForMissing htaken
    exact (heach field hhas).mp (hall field hhas) htaken
  · exact (heach field hhas).mpr (hnone field)

end Edits

/-! ## Two sample requests -/

/-- A body with an input price and what a create needs. -/
def pricedRequest (inputCreditPer1K : Int64) : AdminModelRequest :=
  { AdminModelRequest.empty with
    slug := some "tiny"
    displayName := some "Tiny"
    family := some "tiny"
    inputCreditPer1K := some inputCreditPer1K }

/-- The administrator of the sample database. -/
def sampleAdmin : UserRow :=
  ⟨1, "usr_a", "a@example.com", "hash of password", "Ada", .admin, .active, false⟩

/-- The row that has all defaults but for an input price. -/
def pricedRow (inputCreditPer1K : Int64) : ModelRow :=
  ⟨90, "mdl_t", "tiny", "Tiny", "", "tiny", .text, .active, 4096, 1024, inputCreditPer1K, 20,
    7 / 10, 8192, 12288, "unknown", none, "", true, false, false⟩

/-- The database where a request has created the model. -/
def createdDB (r : AdminModelRequest) : DB :=
  match adminCreateModel 90 "mdl_t" sampleAdmin r.modelInput registeredDB with
  | .ok (_, db) => db
  | .error _ => registeredDB

/-- The database where the same request has edited it. -/
def editedDB (r : AdminModelRequest) : DB :=
  match adminUpdateModel sampleAdmin "mdl_t" r.modelPatch (createdDB r) with
  | .ok (_, db) => db
  | .error _ => registeredDB

/-- A price of five credits is stored by both. -/
theorem positive_price_agrees :
    ModelField.inputCreditPer1K.Agrees (pricedRow 5) (pricedRow 5) ∧
      ¬ TakenForMissing (pricedRequest 5) .inputCreditPer1K := by
  have hcreate : adminCreateModel 90 "mdl_t" sampleAdmin (pricedRequest 5).modelInput
      registeredDB = .ok (pricedRow 5, createdDB (pricedRequest 5)) := by decide +kernel
  have hupdate : adminUpdateModel sampleAdmin "mdl_t" (pricedRequest 5).modelPatch
      (createdDB (pricedRequest 5)) = .ok (pricedRow 5, editedDB (pricedRequest 5)) := by
    decide +kernel
  have hagrees : ModelField.inputCreditPer1K.Agrees (pricedRow 5) (pricedRow 5) := rfl
  exact ⟨hagrees, ((create_agrees_with_edit_iff hcreate hupdate).2 .inputCreditPer1K rfl).mp
    hagrees⟩

/-- A price of zero is ten credits after a create and zero after an edit. -/
theorem zero_price_is_replaced :
    adminCreateModel 90 "mdl_t" sampleAdmin (pricedRequest 0).modelInput registeredDB =
        .ok (pricedRow 10, createdDB (pricedRequest 0)) ∧
      adminUpdateModel sampleAdmin "mdl_t" (pricedRequest 0).modelPatch
          (createdDB (pricedRequest 0)) = .ok (pricedRow 0, editedDB (pricedRequest 0)) ∧
      ¬ ∀ field, (pricedRequest 0).has field = true →
        field.Agrees (pricedRow 10) (pricedRow 0) := by
  refine ⟨by decide +kernel, by decide +kernel, fun hall => ?_⟩
  have hprice : (10 : Int64) = 0 := hall .inputCreditPer1K rfl
  exact absurd hprice (by decide)

end Nuvonode.Contract
