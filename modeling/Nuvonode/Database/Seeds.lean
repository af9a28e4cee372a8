/-
  Database/Seeds.lean --- the models that a new database has.

  From `database/seeds/000001_seed_models.sql`.  The ids are random.
-/
import Nuvonode.Database.Schema

set_option autoImplicit false

namespace Nuvonode.Database

/-- The rows of `models`. -/
def seedModels (qwen code embed external : UUID) : List ModelRow :=
  [{ id := qwen
     publicID := "mdl_qwen_7b"
     slug := "qwen-7b-instruct"
     displayName := "Qwen 7B Instruct"
     description := "General small open chat model for V1 community providers."
     family := "qwen"
     modality := .text
     status := .active
     contextLength := 8192
     defaultMaxOutputTokens := 1024
     inputCreditPer1K := 10
     outputCreditPer1K := 20
     providerRewardRatio := 7 / 10
     minVRAMMB := 8192
     recommendedVRAMMB := 12288
     licenseName := "operator_check_required"
     licenseURL := none
     licenseNotes := "Verify model license before public commercial use."
     communityAllowed := true
     externalOnly := false
     deleted := false },
   { id := code
     publicID := "mdl_code_7b"
     slug := "code-7b-instruct"
     displayName := "Code 7B Instruct"
     description := "Small coding assistant model for V1."
     family := "code"
     modality := .text
     status := .active
     contextLength := 8192
     defaultMaxOutputTokens := 1024
     inputCreditPer1K := 12
     outputCreditPer1K := 24
     providerRewardRatio := 7 / 10
     minVRAMMB := 8192
     recommendedVRAMMB := 12288
     licenseName := "operator_check_required"
     licenseURL := none
     licenseNotes := "Verify model license before public commercial use."
     communityAllowed := true
     externalOnly := false
     deleted := false },
   { id := embed
     publicID := "mdl_embed_small"
     slug := "embed-small"
     displayName := "Embedding Small"
     description := "Lightweight embedding model for future V1.1 embedding endpoint."
     family := "embedding"
     modality := .embedding
     status := .paused
     contextLength := 2048
     defaultMaxOutputTokens := 0
     inputCreditPer1K := 2
     outputCreditPer1K := 0
     providerRewardRatio := 7 / 10
     minVRAMMB := 4096
     recommendedVRAMMB := 8192
     licenseName := "operator_check_required"
     licenseURL := none
     licenseNotes := "Embeddings endpoint can be implemented after chat V1."
     communityAllowed := true
     externalOnly := false
     deleted := false },
   { id := external
     publicID := "mdl_external_large"
     slug := "external-large-placeholder"
     displayName := "External Large Placeholder"
     description := "Disabled placeholder for optional external paid connector. Not active in V1 by default."
     family := "external"
     modality := .text
     status := .paused
     contextLength := 32768
     defaultMaxOutputTokens := 2048
     inputCreditPer1K := 100
     outputCreditPer1K := 300
     providerRewardRatio := 0
     minVRAMMB := 0
     recommendedVRAMMB := 0
     licenseName := "external_provider_terms"
     licenseURL := none
     licenseNotes := "Only enable if the operator has budget and accepts external provider terms."
     communityAllowed := false
     externalOnly := true
     deleted := false }]

/-- The rows of `model_versions`. -/
def seedModelVersions (qwenVersion codeVersion qwen code : UUID) : List ModelVersionRow :=
  [⟨qwenVersion, qwen, "ollama", "qwen-7b-instruct", .active⟩,
    ⟨codeVersion, code, "ollama", "code-7b-instruct", .active⟩]

end Nuvonode.Database
