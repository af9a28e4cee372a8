/-
  Foundation/Base64.lean --- the URL-safe alphabet of base64, without padding.

  Three bytes are four characters; one or two bytes at the end are two or three.
-/
import Mathlib.Algebra.Ring.Int.Defs
import Mathlib.Algebra.Ring.Nat

set_option autoImplicit false

namespace Nuvonode.Foundation.Base64

/-- The character of a group of six bits. -/
def digit (n : Nat) : Char :=
  if n < 26 then Char.ofNat ('A'.toNat + n)
  else if n < 52 then Char.ofNat ('a'.toNat + (n - 26))
  else if n < 62 then Char.ofNat ('0'.toNat + (n - 52))
  else if n = 62 then '-'
  else '_'

/-- The four characters of three bytes. -/
def quantum (a b c : UInt8) : List Char :=
  let val := a.toNat * 2 ^ 16 + b.toNat * 2 ^ 8 + c.toNat
  [digit (val / 2 ^ 18 % 64), digit (val / 2 ^ 12 % 64), digit (val / 2 ^ 6 % 64), digit (val % 64)]

/-- The characters of some bytes. -/
def encode : List UInt8 → List Char
  | a :: b :: c :: src => quantum a b c ++ encode src
  | [a, b] => (quantum a b 0).take 3
  | [a] => (quantum a 0 0).take 2
  | [] => []

example : encode [0xfb, 0xff] = ['-', '_', '8'] := by decide

/-- What a character of the alphabet is. -/
def IsDigit (c : Char) : Prop := c.isAlphanum = true ∨ c = '-' ∨ c = '_'

instance : DecidablePred IsDigit :=
  fun c => inferInstanceAs (Decidable (c.isAlphanum = true ∨ c = '-' ∨ c = '_'))

/-- The alphabet is a part of ASCII. -/
theorem toNat_lt_of_isDigit {c : Char} (h : IsDigit c) : c.toNat < 128 := by
  rcases h with halpha | rfl | rfl
  · have hranges : ((decide ('A'.val ≤ c.val ∧ c.val ≤ 'Z'.val) ||
        (decide ('a'.val ≤ c.val) && decide (c.val ≤ 'z'.val))) ||
          (decide ('0'.val ≤ c.val) && decide (c.val ≤ '9'.val))) = true := halpha
    simp only [Bool.or_eq_true, Bool.and_eq_true, decide_eq_true_eq,
      UInt32.le_iff_toNat_le] at hranges
    have hnat : c.toNat = c.val.toNat := rfl
    simp at hranges
    omega
  · decide
  · decide

/-- What is checked of the ASCII characters of the alphabet holds of all of it. -/
theorem forall_isDigit (p : Char → Prop)
    (hascii : ∀ n < 128, IsDigit (Char.ofNat n) → p (Char.ofNat n)) {c : Char} (h : IsDigit c) :
    p c := by
  have hself : Char.ofNat c.toNat = c := Char.ofNat_toNat c
  exact hself ▸ hascii c.toNat (toNat_lt_of_isDigit h) (hself.symm ▸ h)

theorem isDigit_digit (n : Nat) (h : n < 64) : IsDigit (digit n) := by
  have hall : ∀ n < 64, IsDigit (digit n) := by decide
  exact hall n h

theorem isDigit_of_mem_quantum {a b c : UInt8} {char : Char} (h : char ∈ quantum a b c) :
    IsDigit char := by
  have hmod : ∀ n, IsDigit (digit (n % 64)) := fun n =>
    isDigit_digit (n % 64) (Nat.mod_lt n (by decide))
  simp only [quantum, List.mem_cons, List.not_mem_nil, or_false] at h
  rcases h with rfl | rfl | rfl | rfl <;> exact hmod _

/-- Every character of an encoding is of the alphabet. -/
theorem isDigit_of_mem_encode {src : List UInt8} : ∀ char ∈ encode src, IsDigit char := by
  induction src using encode.induct with
  | case1 a b c src ih =>
      intro char h
      cases List.mem_append.mp h with
      | inl hfirst => exact isDigit_of_mem_quantum hfirst
      | inr hrest => exact ih char hrest
  | case2 a b => exact fun char h => isDigit_of_mem_quantum (List.mem_of_mem_take h)
  | case3 a => exact fun char h => isDigit_of_mem_quantum (List.mem_of_mem_take h)
  | case4 => exact fun char h => absurd h List.not_mem_nil

/-- An encoding has four characters for three bytes, rounded up. -/
theorem length_encode (src : List UInt8) : (encode src).length = (src.length * 4 + 2) / 3 := by
  induction src using encode.induct with
  | case1 a b c src ih =>
      have hquantum : (quantum a b c).length = 4 := rfl
      rw [encode, List.length_append, ih, hquantum]
      simp only [List.length_cons]
      omega
  | case2 a b => simp [encode, quantum]
  | case3 a => simp [encode, quantum]
  | case4 => simp [encode]

end Nuvonode.Foundation.Base64
