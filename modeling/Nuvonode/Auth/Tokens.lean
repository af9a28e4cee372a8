/-
  Auth/Tokens.lean --- the credentials that the server issues.

  From `internal/auth/apikey.go` and `internal/auth/provider_token.go`.  The random
  bytes are arguments.
-/
import Nuvonode.Foundation.Base64
import Nuvonode.Foundation.Text

set_option autoImplicit false

namespace Nuvonode.Auth

open Nuvonode.Foundation

/-- `randToken`, of the bytes it draws. -/
def randToken {n : Nat} (bytes : Vector UInt8 n) : String :=
  String.ofList (Base64.encode bytes.toList)

/-- `PublicID`. -/
def publicID (kind : String) (bytes : Vector UInt8 12) : String :=
  kind ++ "_" ++ randToken bytes

/-- What a generator returns. -/
structure Issued where
  plaintext : String
  tokenPrefix : String
  publicID : String
  deriving DecidableEq

/-- The bytes that a generator draws. -/
structure Entropy where
  forPrefix : Vector UInt8 6
  forSecret : Vector UInt8 32
  forPublicID : Vector UInt8 12

/-- A credential of some kind: what marks the kind, the prefix and the secret. -/
def plaintext (mark : String) (drawn : Entropy) : String :=
  mark ++ randToken drawn.forPrefix ++ "_" ++ randToken drawn.forSecret

/-- `GenerateAPIKey`. -/
def generateAPIKey (drawn : Entropy) : Issued where
  plaintext := plaintext "pvn_live_" drawn
  tokenPrefix := randToken drawn.forPrefix
  publicID := publicID "key" drawn.forPublicID

/-- `GenerateProviderToken`. -/
def generateProviderToken (drawn : Entropy) : Issued where
  plaintext := plaintext "pvn_provider_" drawn
  tokenPrefix := randToken drawn.forPrefix
  publicID := publicID "prv" drawn.forPublicID

/-! ## The characters of a credential -/

variable {mark : String} {drawn : Entropy}

theorem toList_plaintext : (plaintext mark drawn).toList =
    mark.toList ++ (Base64.encode drawn.forPrefix.toList ++
      '_' :: Base64.encode drawn.forSecret.toList) := by
  simp [plaintext, randToken]

theorem length_toList_plaintext :
    (plaintext mark drawn).toList.length = mark.toList.length + 52 := by
  rw [toList_plaintext]
  simp only [List.length_append, List.length_cons, Base64.length_encode, Vector.length_toList]

/-- Only letters, digits, hyphens and underscores occur. -/
theorem isDigit_of_mem_plaintext (hmark : ∀ c ∈ mark.toList, Base64.IsDigit c) :
    ∀ c ∈ (plaintext mark drawn).toList, Base64.IsDigit c := by
  intro c h
  rw [toList_plaintext, List.mem_append, List.mem_append, List.mem_cons] at h
  rcases h with hmem | hmem | rfl | hmem
  · exact hmark c hmem
  · exact Base64.isDigit_of_mem_encode c hmem
  · exact .inr (.inr rfl)
  · exact Base64.isDigit_of_mem_encode c hmem

/-- Splitting at underscores gives four parts at least, whatever the drawn texts hold. -/
theorem count_plaintext :
    mark.toList.count '_' + 1 ≤ (plaintext mark drawn).toList.count '_' := by
  rw [toList_plaintext]
  simp only [List.count_append, List.count_cons_self]
  omega

theorem isPrefixOf_plaintext : mark.toList.isPrefixOf (plaintext mark drawn).toList = true := by
  rw [toList_plaintext]
  exact List.isPrefixOf_iff_prefix.mpr (List.prefix_append _ _)

/-- Credentials of two kinds are told apart by how they begin. -/
theorem not_isPrefixOf_plaintext {other : String} (hother : ¬ other.toList <+: mark.toList)
    (hmark : ¬ mark.toList <+: other.toList) :
    other.toList.isPrefixOf (plaintext mark drawn).toList = false := by
  have hbegins : mark.toList.isPrefixOf (plaintext mark drawn).toList = true := isPrefixOf_plaintext
  refine Bool.eq_false_iff.mpr fun h => ?_
  cases List.prefix_or_prefix_of_prefix (List.isPrefixOf_iff_prefix.mp h)
      (List.isPrefixOf_iff_prefix.mp hbegins) with
  | inl hshorter => exact hother hshorter
  | inr hlonger => exact hmark hlonger

end Nuvonode.Auth
