/-
  Handler/AdminModels.lean --- the body of an administrator's request about a model.

  From `adminModelRequest` in `handler/handlers.go`.  The same body is an input where a
  model is created and a patch where it is edited.
-/
import Nuvonode.Service.Management

set_option autoImplicit false

namespace Nuvonode.Handler

open Nuvonode.Foundation Nuvonode.Database Nuvonode.Repository Nuvonode.Service

/-- `adminModelRequest`; a field that is absent or `null` is `none`. -/
structure AdminModelRequest where
  slug : Option String
  displayName : Option String
  description : Option String
  family : Option String
  modality : Option String
  status : Option String
  contextLength : Option Int64
  defaultMaxOutputTokens : Option Int64
  inputCreditPer1K : Option Int64
  outputCreditPer1K : Option Int64
  providerRewardRatio : Option ℚ
  minVRAMMB : Option Int64
  recommendedVRAMMB : Option Int64
  licenseName : Option String
  licenseURL : Option String
  licenseNotes : Option String
  communityAllowed : Option Bool
  externalOnly : Option Bool
  deriving DecidableEq

namespace AdminModelRequest

/-- `adminModelRequest.modelInput`: an absent field is the zero value of its type, but for
`community_allowed`. -/
def modelInput (r : AdminModelRequest) : ModelInput where
  slug := r.slug.getD ""
  displayName := r.displayName.getD ""
  description := r.description.getD ""
  family := r.family.getD ""
  modality := r.modality.getD ""
  status := r.status.getD ""
  contextLength := r.contextLength.getD 0
  defaultMaxOutputTokens := r.defaultMaxOutputTokens.getD 0
  inputCreditPer1K := r.inputCreditPer1K.getD 0
  outputCreditPer1K := r.outputCreditPer1K.getD 0
  providerRewardRatio := r.providerRewardRatio.getD 0
  minVRAMMB := r.minVRAMMB.getD 0
  recommendedVRAMMB := r.recommendedVRAMMB.getD 0
  licenseName := r.licenseName.getD ""
  licenseURL := r.licenseURL
  licenseNotes := r.licenseNotes.getD ""
  communityAllowed := r.communityAllowed.getD true
  externalOnly := r.externalOnly.getD false

/-- `adminModelRequest.modelPatch`. -/
def modelPatch (r : AdminModelRequest) : ModelPatch where
  slug := r.slug
  displayName := r.displayName
  description := r.description
  family := r.family
  modality := r.modality
  status := r.status
  contextLength := r.contextLength
  defaultMaxOutputTokens := r.defaultMaxOutputTokens
  inputCreditPer1K := r.inputCreditPer1K
  outputCreditPer1K := r.outputCreditPer1K
  providerRewardRatio := r.providerRewardRatio
  minVRAMMB := r.minVRAMMB
  recommendedVRAMMB := r.recommendedVRAMMB
  licenseName := r.licenseName
  licenseURL := r.licenseURL
  licenseNotes := r.licenseNotes
  communityAllowed := r.communityAllowed
  externalOnly := r.externalOnly

/-- A body without a field. -/
def empty : AdminModelRequest :=
  ⟨none, none, none, none, none, none, none, none, none, none, none, none, none, none, none, none,
    none, none⟩

end AdminModelRequest

/-! ## Its fields -/

/-- The fields of a body, each of which is a column of `models`. -/
inductive ModelField where
  | slug
  | displayName
  | description
  | family
  | modality
  | status
  | contextLength
  | defaultMaxOutputTokens
  | inputCreditPer1K
  | outputCreditPer1K
  | providerRewardRatio
  | minVRAMMB
  | recommendedVRAMMB
  | licenseName
  | licenseURL
  | licenseNotes
  | communityAllowed
  | externalOnly
  deriving DecidableEq

/-- Whether a field is present. -/
def AdminModelRequest.has (r : AdminModelRequest) : ModelField → Bool
  | .slug => r.slug.isSome
  | .displayName => r.displayName.isSome
  | .description => r.description.isSome
  | .family => r.family.isSome
  | .modality => r.modality.isSome
  | .status => r.status.isSome
  | .contextLength => r.contextLength.isSome
  | .defaultMaxOutputTokens => r.defaultMaxOutputTokens.isSome
  | .inputCreditPer1K => r.inputCreditPer1K.isSome
  | .outputCreditPer1K => r.outputCreditPer1K.isSome
  | .providerRewardRatio => r.providerRewardRatio.isSome
  | .minVRAMMB => r.minVRAMMB.isSome
  | .recommendedVRAMMB => r.recommendedVRAMMB.isSome
  | .licenseName => r.licenseName.isSome
  | .licenseURL => r.licenseURL.isSome
  | .licenseNotes => r.licenseNotes.isSome
  | .communityAllowed => r.communityAllowed.isSome
  | .externalOnly => r.externalOnly.isSome

/-- Whether two rows have the same value in the column of a field. -/
def ModelField.Agrees (a b : ModelRow) : ModelField → Prop
  | .slug => a.slug = b.slug
  | .displayName => a.displayName = b.displayName
  | .description => a.description = b.description
  | .family => a.family = b.family
  | .modality => a.modality = b.modality
  | .status => a.status = b.status
  | .contextLength => a.contextLength = b.contextLength
  | .defaultMaxOutputTokens => a.defaultMaxOutputTokens = b.defaultMaxOutputTokens
  | .inputCreditPer1K => a.inputCreditPer1K = b.inputCreditPer1K
  | .outputCreditPer1K => a.outputCreditPer1K = b.outputCreditPer1K
  | .providerRewardRatio => a.providerRewardRatio = b.providerRewardRatio
  | .minVRAMMB => a.minVRAMMB = b.minVRAMMB
  | .recommendedVRAMMB => a.recommendedVRAMMB = b.recommendedVRAMMB
  | .licenseName => a.licenseName = b.licenseName
  | .licenseURL => a.licenseURL = b.licenseURL
  | .licenseNotes => a.licenseNotes = b.licenseNotes
  | .communityAllowed => a.communityAllowed = b.communityAllowed
  | .externalOnly => a.externalOnly = b.externalOnly

/-- What the column of a present field holds after an edit: a text is trimmed, but for
`license_url`, and the ratio has four decimals. -/
def ModelField.Takes (r : AdminModelRequest) (row : ModelRow) : ModelField → Prop
  | .slug => r.slug.map trimSpace = some row.slug
  | .displayName => r.displayName.map trimSpace = some row.displayName
  | .description => r.description.map trimSpace = some row.description
  | .family => r.family.map trimSpace = some row.family
  | .modality => (r.modality.map trimSpace).bind modalityOf = some row.modality
  | .status => (r.status.map trimSpace).bind modelStatusOf = some row.status
  | .contextLength => r.contextLength.map Int64.toInt = some row.contextLength
  | .defaultMaxOutputTokens =>
      r.defaultMaxOutputTokens.map Int64.toInt = some row.defaultMaxOutputTokens
  | .inputCreditPer1K => r.inputCreditPer1K = some row.inputCreditPer1K
  | .outputCreditPer1K => r.outputCreditPer1K = some row.outputCreditPer1K
  | .providerRewardRatio =>
      r.providerRewardRatio.map (numericRound 4) = some row.providerRewardRatio
  | .minVRAMMB => r.minVRAMMB.map Int64.toInt = some row.minVRAMMB
  | .recommendedVRAMMB => r.recommendedVRAMMB.map Int64.toInt = some row.recommendedVRAMMB
  | .licenseName => r.licenseName.map trimSpace = some row.licenseName
  | .licenseURL => r.licenseURL = row.licenseURL
  | .licenseNotes => r.licenseNotes.map trimSpace = some row.licenseNotes
  | .communityAllowed => r.communityAllowed = some row.communityAllowed
  | .externalOnly => r.externalOnly = some row.externalOnly

/-- The same where `license_url` is trimmed too. -/
def ModelField.TakesTrimmed (r : AdminModelRequest) (row : ModelRow) : ModelField → Prop
  | .licenseURL => r.licenseURL.map trimSpace = row.licenseURL
  | field => ModelField.Takes r row field

end Nuvonode.Handler
