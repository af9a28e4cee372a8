/-
  Foundation/Utf8.lean --- the bytes and the characters of a text.

  A character takes from one to four bytes.  A text has as many bytes as characters and
  those that its wide characters take beyond their first one.
-/
import Mathlib.Algebra.Ring.Nat

set_option autoImplicit false

namespace Nuvonode.Foundation

/-- The number of bytes of some characters. -/
def utf8Bytes : List Char → Nat
  | [] => 0
  | c :: rest => c.utf8Size + utf8Bytes rest

/-- The characters that take more than one byte. -/
def wideChars (chars : List Char) : List Char := chars.filter fun c => 1 < c.utf8Size

/-- Characters that are ASCII, or an odd number of them all but one of which are, where that one
takes two bytes. -/
def NearlyASCII (chars : List Char) : Prop :=
  wideChars chars = [] ∨
    ∃ c, wideChars chars = [c] ∧ c.utf8Size = 2 ∧ chars.length % 2 = 1

section Bytes

variable {chars chars' : List Char} {c : Char}

@[simp] theorem utf8Bytes_nil : utf8Bytes [] = 0 := rfl

@[simp] theorem utf8Bytes_cons : utf8Bytes (c :: chars) = c.utf8Size + utf8Bytes chars := rfl

@[simp] theorem utf8Bytes_append :
    utf8Bytes (chars ++ chars') = utf8Bytes chars + utf8Bytes chars' := by
  induction chars with
  | nil => rw [List.nil_append, utf8Bytes_nil, Nat.zero_add]
  | cons c rest ih => rw [List.cons_append, utf8Bytes_cons, utf8Bytes_cons, ih, Nat.add_assoc]

theorem utf8ByteSize_ofList (chars : List Char) :
    (String.ofList chars).utf8ByteSize = utf8Bytes chars := by
  induction chars with
  | nil => rfl
  | cons c rest ih =>
      rw [String.ofList_cons, String.utf8ByteSize_append, String.utf8ByteSize_singleton, ih,
        utf8Bytes_cons]

theorem utf8ByteSize_eq (text : String) : text.utf8ByteSize = utf8Bytes text.toList := by
  rw [← utf8ByteSize_ofList, String.ofList_toList]

/-- Every wide character has a byte of its own beyond the number of characters. -/
theorem utf8Bytes_eq (chars : List Char) :
    utf8Bytes chars + (wideChars chars).length = chars.length + utf8Bytes (wideChars chars) := by
  induction chars with
  | nil => rfl
  | cons c rest ih =>
      have hpos := c.utf8Size_pos
      rw [wideChars] at ih ⊢
      rw [List.filter_cons, utf8Bytes_cons, List.length_cons]
      split
      · rw [List.length_cons, utf8Bytes_cons]
        omega
      · rename_i hnarrow
        have hone : ¬ 1 < c.utf8Size := fun hwide => hnarrow (decide_eq_true hwide)
        omega

theorem two_mul_length_le (h : ∀ c ∈ chars, 1 < c.utf8Size) :
    2 * chars.length ≤ utf8Bytes chars := by
  induction chars with
  | nil => exact Nat.le_refl 0
  | cons c rest ih =>
      have hrest := ih fun other hother => h other (List.mem_cons_of_mem c hother)
      have hwide := h c List.mem_cons_self
      rw [utf8Bytes_cons, List.length_cons]
      omega

theorem wide_of_mem (h : c ∈ wideChars chars) : 1 < c.utf8Size :=
  of_decide_eq_true (List.mem_filter.mp h).2

/-- **Half of the bytes, rounded up, is half of the characters exactly for these.** -/
theorem halves_eq_iff : (utf8Bytes chars + 1) / 2 = (chars.length + 1) / 2 ↔
    NearlyASCII chars := by
  have hbytes := utf8Bytes_eq chars
  unfold NearlyASCII
  cases hwide : wideChars chars with
  | nil =>
      rw [hwide, utf8Bytes_nil, List.length_nil] at hbytes
      refine iff_of_true ?_ (.inl rfl)
      have hsame : utf8Bytes chars = chars.length := hbytes
      rw [hsame]
  | cons c rest =>
      have hc : 1 < c.utf8Size := wide_of_mem (hwide ▸ List.mem_cons_self)
      rw [hwide, utf8Bytes_cons, List.length_cons] at hbytes
      cases rest with
      | nil =>
          rw [utf8Bytes_nil, List.length_nil] at hbytes
          constructor
          · intro hhalves
            exact .inr ⟨c, rfl, by omega, by omega⟩
          · rintro (hnil | ⟨d, hd, htwo, hodd⟩)
            · cases hnil
            · cases hd
              omega
      | cons d rest =>
          -- Two wide characters are two bytes more.
          have hrest : 2 * (d :: rest).length ≤ utf8Bytes (d :: rest) :=
            two_mul_length_le fun other hother =>
              wide_of_mem (hwide ▸ List.mem_cons_of_mem c hother)
          rw [List.length_cons] at hbytes hrest
          refine iff_of_false (by omega) ?_
          rintro (hnil | ⟨e, he, -, -⟩)
          · cases hnil
          · cases he

end Bytes

end Nuvonode.Foundation
