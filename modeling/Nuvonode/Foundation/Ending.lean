/-
  Foundation/Ending.lean --- runs that end.

  A rank that falls with every step of some kind, and rises with none, bounds how many
  steps of that kind a run has.  Where a state that has not ended always has a step that
  makes the rank fall, it can be brought to an end by such steps alone; and where that
  ends one part of a system and leaves the ended ones ended, all parts can be.  A rank that
  is a sum over the parts of a state is followed by the part that moves.
-/
import Mathlib.Algebra.Ring.Nat
import Nuvonode.Foundation.Machine

set_option autoImplicit false

namespace Nuvonode.Foundation.Machine

variable {σ ε ι : Type} {M : Machine σ ε} {guard : σ → ε → σ → Prop} {s s' : σ} {es : List ε}

/-- The rank bounds how often it falls. -/
theorem Steps.countP_add_le (I : σ → Prop) (rank : σ → Nat) (falls : ε → Bool)
    (h : M.Steps guard s es s') (hstart : I s)
    (hstep : ∀ a e b, I a → M.step a e b → guard a e b →
      I b ∧ rank b ≤ rank a ∧ (falls e = true → rank b < rank a)) :
    I s' ∧ es.countP falls + rank s' ≤ rank s := by
  induction h with
  | refl => exact ⟨hstart, by simp⟩
  | @snoc es a b e _ hab hguard ih =>
      obtain ⟨ha, hcount⟩ := ih
      obtain ⟨hb, hle, hlt⟩ := hstep a e b ha hab hguard
      refine ⟨hb, ?_⟩
      rw [List.countP_append, List.countP_singleton]
      by_cases hfalls : falls e = true
      · have := hlt hfalls
        rw [if_pos hfalls]
        omega
      · rw [if_neg hfalls]
        omega

/-- What always has a step that makes the rank fall can be brought to an end. -/
theorem exists_end (I Ended : σ → Prop) (rank : σ → Nat)
    (hnext : ∀ a, I a → ¬ Ended a →
      ∃ e b, M.step a e b ∧ guard a e b ∧ I b ∧ rank b < rank a) (hstart : I s) :
    ∃ es s', M.Steps guard s es s' ∧ I s' ∧ Ended s' ∧ es.length + rank s' ≤ rank s := by
  induction hrank : rank s using Nat.strongRecOn generalizing s with
  | ind n ih =>
      by_cases hended : Ended s
      · exact ⟨[], s, .refl, hstart, hended, by simp [hrank]⟩
      · obtain ⟨e, b, hstep, hguard, hb, hlt⟩ := hnext s hstart hended
        obtain ⟨es, s', hsteps, hI, hend, hlength⟩ := ih (rank b) (hrank ▸ hlt) hb rfl
        have hfirst : M.Steps guard s ([] ++ [e]) b := .snoc .refl hstep hguard
        refine ⟨[] ++ [e] ++ es, s', hfirst.trans hsteps, hI, hend, ?_⟩
        simp only [List.nil_append, List.singleton_append, List.length_cons]
        omega

/-- What can be brought to an end part by part can be brought to an end. -/
theorem exists_all_end (I : σ → Prop) (Ended : ι → σ → Prop) (n : Nat)
    (hone : ∀ i a, I a → ∃ es b, M.Steps guard a es b ∧ I b ∧ Ended i b ∧
      (∀ j, Ended j a → Ended j b) ∧ es.length ≤ n) (parts : List ι) (hstart : I s) :
    ∃ es s', M.Steps guard s es s' ∧ I s' ∧ (∀ i ∈ parts, Ended i s') ∧
      (∀ j, Ended j s → Ended j s') ∧ es.length ≤ n * parts.length := by
  induction parts generalizing s with
  | nil => exact ⟨[], s, .refl, hstart, by simp, fun _ hj => hj, by simp⟩
  | cons i parts ih =>
      obtain ⟨es, a, hfirst, ha, hi, hkeep, hlength⟩ := hone i s hstart
      obtain ⟨es', s', hrest, hI, hparts, hkeep', hlength'⟩ := ih ha
      refine ⟨es ++ es', s', hfirst.trans hrest, hI, fun j hj => ?_,
        fun j hj => hkeep' j (hkeep j hj), ?_⟩
      · rcases List.mem_cons.mp hj with rfl | hj
        · exact hkeep' _ hi
        · exact hparts j hj
      · rw [List.length_append, List.length_cons, Nat.mul_add, Nat.mul_one]
        omega

/-- A sum over the parts of a state, when one of them is replaced. -/
theorem sum_map_set {α : Type} (f : α → Nat) {rows : List α} {i : Nat} {old : α}
    (hold : rows[i]? = some old) (new : α) :
    ((rows.set i new).map f).sum + f old = (rows.map f).sum + f new := by
  obtain ⟨pre, post, hsplit, hset⟩ : ∃ pre post,
      rows = pre ++ old :: post ∧ rows.set i new = pre ++ new :: post := by
    obtain ⟨hlt, hget⟩ := List.getElem?_eq_some_iff.mp hold
    obtain ⟨pre, post, hsplit, -, hset⟩ := List.exists_of_set hlt
    exact ⟨pre, post, hget ▸ hsplit, hset⟩
  rw [hset, hsplit]
  simp only [List.map_append, List.map_cons, List.sum_append, List.sum_cons]
  omega

end Nuvonode.Foundation.Machine
