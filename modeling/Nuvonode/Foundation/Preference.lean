/-
  Foundation/Preference.lean --- choosing by a score, and by a load among equals.

  A preference is a strict weak order where it is asymmetric and its negation is
  transitive.  Scanning a list with such a preference ends with an element that no other
  is preferred to, so the order of the list matters among equals only.
-/
import Mathlib.Data.List.Perm.Basic
import Mathlib.Order.Lattice
import Mathlib.Order.RelClasses

set_option autoImplicit false

namespace Nuvonode.Foundation

variable {α κ τ : Type}

/-! ## A score and a load -/

section Prefers

variable [LinearOrder κ] [LinearOrder τ] {score : α → κ} {load : α → τ} {a b c : α}

/-- The higher score, or the lower load where the scores are equal. -/
def Prefers (score : α → κ) (load : α → τ) (a b : α) : Prop :=
  if score a = score b then load a < load b else score b < score a

instance : Std.Asymm (Prefers score load) where
  asymm a b h h' := by
    unfold Prefers at h h'
    by_cases hscore : score a = score b
    · rw [if_pos hscore] at h
      rw [if_pos hscore.symm] at h'
      exact lt_asymm h h'
    · rw [if_neg hscore] at h
      rw [if_neg (Ne.symm hscore)] at h'
      exact lt_asymm h h'

instance : IsOrderConnected α (Prefers score load) where
  conn a b c h := by
    unfold Prefers at h ⊢
    rcases lt_trichotomy (score a) (score b) with hab | hab | hab
    · -- `b` has the highest score of the two, and more than `c`.
      refine .inr ?_
      have hcb : score c < score b := by
        by_cases hac : score a = score c
        · exact hac ▸ hab
        · rw [if_neg hac] at h
          exact h.trans hab
      rw [if_neg hcb.ne']
      exact hcb
    · by_cases hac : score a = score c
      · rw [if_pos hac] at h
        rw [if_pos hab, if_pos (hab ▸ hac)]
        exact (lt_or_ge (load a) (load b)).imp_right fun hle => hle.trans_lt h
      · rw [if_neg hac] at h
        refine .inr ?_
        rw [if_neg (hab ▸ hac)]
        exact hab ▸ h
    · refine .inl ?_
      rw [if_neg hab.ne']
      exact hab

instance : IsStrictWeakOrder α (Prefers score load) := isStrictWeakOrder_of_isOrderConnected

/-- Two elements neither of which is preferred have one score and one load. -/
theorem eq_of_not_prefers (h : ¬ Prefers score load a b) (h' : ¬ Prefers score load b a) :
    score a = score b ∧ load a = load b := by
  unfold Prefers at h h'
  by_cases hscore : score a = score b
  · rw [if_pos hscore] at h
    rw [if_pos hscore.symm] at h'
    exact ⟨hscore, le_antisymm (not_lt.mp h') (not_lt.mp h)⟩
  · rw [if_neg hscore] at h
    rw [if_neg (Ne.symm hscore)] at h'
    exact absurd (le_antisymm (not_lt.mp h) (not_lt.mp h')) hscore

end Prefers

/-! ## Scanning a list -/

/-- The better of the best so far and the next one. -/
def better (prefer : α → α → Bool) (best next : α) : α := if prefer next best then next else best

/-- The last best of a list. -/
def scan (prefer : α → α → Bool) : List α → Option α
  | [] => none
  | first :: rest => some (rest.foldl (better prefer) first)

section Scan

variable {prefer : α → α → Bool}

theorem not_prefer_trans [IsOrderConnected α fun a b => prefer a b = true] {a b c : α}
    (hab : ¬ prefer a b = true) (hbc : ¬ prefer b c = true) : ¬ prefer a c = true :=
  IsOrderConnected.neg_trans (r := fun a b => prefer a b = true) hab hbc

variable [Std.Asymm fun a b => prefer a b = true]

theorem not_prefer_self (a : α) : ¬ prefer a a = true := fun h =>
  Std.Asymm.asymm (r := fun a b => prefer a b = true) a a h h

/-- Neither of the two is preferred to the better one. -/
theorem not_prefer_better (best next : α) : ¬ prefer best (better prefer best next) = true ∧
    ¬ prefer next (better prefer best next) = true := by
  unfold better
  split
  · rename_i hnext
    exact ⟨fun hbest => Std.Asymm.asymm (r := fun a b => prefer a b = true) _ _ hnext hbest,
      not_prefer_self next⟩
  · rename_i hnext
    exact ⟨not_prefer_self best, hnext⟩

variable [IsOrderConnected α fun a b => prefer a b = true] {best : α} {list list' : List α}

/-- A scan ends with an element of the list that no other is preferred to. -/
theorem foldl_better (first : α) (rest : List α) :
    rest.foldl (better prefer) first ∈ first :: rest ∧
      ∀ a ∈ first :: rest, ¬ prefer a (rest.foldl (better prefer) first) = true := by
  induction rest generalizing first with
  | nil =>
      refine ⟨List.mem_cons_self, fun a ha => ?_⟩
      rw [List.mem_singleton.mp ha]
      exact not_prefer_self first
  | cons next rest ih =>
      obtain ⟨hmem, hbest⟩ := ih (better prefer first next)
      obtain ⟨hfirst, hnext⟩ : ¬ prefer first (better prefer first next) = true ∧
          ¬ prefer next (better prefer first next) = true := not_prefer_better first next
      rw [List.foldl_cons]
      refine ⟨?_, fun a ha => ?_⟩
      · rcases List.mem_cons.mp hmem with heq | hrest
        · rw [heq]
          unfold better
          split
          · exact List.mem_cons_of_mem first List.mem_cons_self
          · exact List.mem_cons_self
        · exact List.mem_cons_of_mem first (List.mem_cons_of_mem next hrest)
      · have hkept := hbest _ List.mem_cons_self
        rcases List.mem_cons.mp ha with rfl | ha
        · exact not_prefer_trans hfirst hkept
        · rcases List.mem_cons.mp ha with rfl | ha
          · exact not_prefer_trans hnext hkept
          · exact hbest a (List.mem_cons_of_mem _ ha)

theorem scan_spec (h : scan prefer list = some best) :
    best ∈ list ∧ ∀ a ∈ list, ¬ prefer a best = true := by
  cases list with
  | nil => cases h
  | cons first rest =>
      cases h
      exact foldl_better first rest

/-- **The order of the list does not matter.**  A scan of the same elements in another order ends
with one of which neither is preferred to the other. -/
theorem scan_perm (h : list.Perm list') (hscan : scan prefer list = some best) :
    ∃ best', scan prefer list' = some best' ∧ ¬ prefer best best' = true ∧
      ¬ prefer best' best = true := by
  obtain ⟨hmem, hbest⟩ := scan_spec hscan
  cases list' with
  | nil => exact absurd (h.mem_iff.mp hmem) (List.not_mem_nil)
  | cons first rest =>
      refine ⟨_, rfl, ?_, ?_⟩
      · exact (scan_spec rfl).2 best (h.mem_iff.mp hmem)
      · exact hbest _ (h.mem_iff.mpr (scan_spec rfl).1)

end Scan

end Nuvonode.Foundation
