/-
  Foundation/Scanning.lean --- the operations of a reader of lines.

  Trimming, cutting at a separator, splitting into lines and reading decimals, on
  lists of characters, each with the law that undoes the corresponding writer.
-/
import Mathlib.Data.List.DropRight
import Mathlib.Algebra.Ring.Int.Defs
import Mathlib.Algebra.Ring.Nat

set_option autoImplicit false

namespace Nuvonode.Foundation

/-! ## Trimming -/

section Trim

variable {α : Type} {p : α → Bool} {a : α} {l : List α}

/-- Remove the elements with a property from both ends. -/
def trim (p : α → Bool) (l : List α) : List α := (l.dropWhile p).rdropWhile p

theorem trim_cons_pos (h : p a = true) : trim p (a :: l) = trim p l := by
  rw [trim, List.dropWhile_cons_of_pos h, trim]

theorem trim_concat_pos (h : p a = true) : trim p (l ++ [a]) = trim p l := by
  unfold trim
  rw [List.dropWhile_append]
  split
  · rename_i hempty
    rw [List.isEmpty_iff.mp hempty, List.dropWhile_cons_of_pos h]
    rfl
  · exact List.rdropWhile_concat_pos _ _ _ h

/-- What is trimmed does not begin with the property. -/
theorem head_trim : ∀ b ∈ (trim p l).head?, p b = false := by
  intro b hb
  have hprefix : trim p l <+: l.dropWhile p := List.rdropWhile_prefix _ _
  obtain ⟨tail, htail⟩ := hprefix
  have hhead : (l.dropWhile p).head? = some b := by
    rw [← htail, List.head?_append, hb]
    rfl
  have hnot := List.head?_dropWhile_not p l
  rw [hhead] at hnot
  simpa using hnot

/-- What is trimmed does not end with the property. -/
theorem last_trim : ∀ b ∈ (trim p l).getLast?, p b = false := by
  intro b hb
  obtain ⟨hne, rfl⟩ := List.mem_getLast?_eq_getLast hb
  exact Bool.eq_false_iff.mpr (List.rdropWhile_last_not p (l.dropWhile p) hne)

theorem trim_eq_self (hhead : ∀ b ∈ l.head?, p b = false)
    (hlast : ∀ b ∈ l.getLast?, p b = false) : trim p l = l := by
  have hdrop : l.dropWhile p = l := by
    cases l with
    | nil => rfl
    | cons a l => exact List.dropWhile_cons_of_neg (by rw [hhead a rfl]; exact Bool.false_ne_true)
  rw [trim, hdrop]
  refine List.rdropWhile_eq_self_iff.mpr fun hne => ?_
  rw [hlast _ (List.getLast?_eq_some_getLast hne)]
  exact Bool.false_ne_true

end Trim

/-! ## Separators -/

section Separators

variable {α : Type} [DecidableEq α]

/-- The parts before and after the first separator. -/
def cut (sep : α) : List α → Option (List α × List α)
  | [] => none
  | a :: l => if a = sep then some ([], l) else (cut sep l).map fun parts => (a :: parts.1, parts.2)

theorem cut_append {sep : α} {before after : List α} (h : sep ∉ before) :
    cut sep (before ++ sep :: after) = some (before, after) := by
  induction before with
  | nil => exact if_pos rfl
  | cons a before ih =>
      have hne : a ≠ sep := fun heq => h (heq ▸ List.mem_cons_self)
      rw [List.cons_append, cut, if_neg hne, ih fun hmem => h (List.mem_cons_of_mem _ hmem)]
      rfl

/-- The lines of a text; the last one need not be terminated. -/
def splitLines (newline : α) : List α → List (List α)
  | [] => []
  | a :: l =>
      if a = newline then [] :: splitLines newline l
      else match splitLines newline l with
        | [] => [[a]]
        | line :: lines => (a :: line) :: lines

theorem splitLines_append {newline : α} {line rest : List α} (h : newline ∉ line) :
    splitLines newline (line ++ newline :: rest) = line :: splitLines newline rest := by
  induction line with
  | nil => exact if_pos rfl
  | cons a line ih =>
      have hne : a ≠ newline := fun heq => h (heq ▸ List.mem_cons_self)
      rw [List.cons_append, splitLines, if_neg hne,
        ih fun hmem => h (List.mem_cons_of_mem _ hmem)]

/-- Terminated lines are read back. -/
theorem splitLines_flatMap {newline : α} {lines : List (List α)}
    (h : ∀ line ∈ lines, newline ∉ line) :
    splitLines newline (lines.flatMap (· ++ [newline])) = lines := by
  induction lines with
  | nil => rfl
  | cons line lines ih =>
      rw [List.flatMap_cons, List.append_assoc, List.singleton_append,
        splitLines_append (h line List.mem_cons_self),
        ih fun other hother => h other (List.mem_cons_of_mem _ hother)]

end Separators

/-! ## Decimals -/

/-- Go's `%d`. -/
def formatInt (n : Int) : List Char :=
  if n < 0 then '-' :: Nat.toDigits 10 n.natAbs else Nat.toDigits 10 n.natAbs

/-- The number of a sign and digits; zero for digits that are none, and the nearest number for one
out of range. -/
def ofSignAndDigits (negative : Bool) (digits : List Char) : Int64 :=
  if digits = [] ∨ digits.any fun c => !c.isDigit then 0
  else
    let n := Nat.ofDigitChars 10 digits 0
    if negative then if 2 ^ 63 < n then Int64.minValue else Int64.ofInt (-n)
    else if 2 ^ 63 ≤ n then Int64.maxValue else Int64.ofInt n

/-- Go's `strconv.Atoi`, with the value that it returns beside an error. -/
def atoi : List Char → Int64
  | '-' :: digits => ofSignAndDigits true digits
  | '+' :: digits => ofSignAndDigits false digits
  | digits => ofSignAndDigits false digits

/-- Whether `strconv.Atoi` reads a number without an error. -/
def isInt64 : List Char → Bool
  | '-' :: digits =>
      !digits.isEmpty && digits.all Char.isDigit && Nat.ofDigitChars 10 digits 0 ≤ 2 ^ 63
  | digits => !digits.isEmpty && digits.all Char.isDigit && Nat.ofDigitChars 10 digits 0 < 2 ^ 63

/-- Go's `strconv.ParseInt` in base ten, for 64 bits and digits without a plus sign. -/
def parseInt (literal : List Char) : Option Int64 :=
  if isInt64 literal then some (atoi literal) else none

/-- Go's `strconv.ParseBool`, with the value that it returns beside an error. -/
def parseBool (text : List Char) : Bool :=
  text ∈ ["1", "t", "T", "true", "TRUE", "True"].map String.toList

/-- Go's `%t`. -/
def formatBool (b : Bool) : List Char := (if b then "true" else "false").toList

theorem parseBool_formatBool (b : Bool) : parseBool (formatBool b) = b := by
  cases b <;> decide

theorem isDigit_of_mem_toDigits {n : Nat} : ∀ c ∈ Nat.toDigits 10 n, c.isDigit = true :=
  fun _ hc => Nat.isDigit_of_mem_toDigits (by decide) (by decide) hc

/-- Digits that are printed are read back, while they fit. -/
theorem ofSignAndDigits_toDigits (negative : Bool) (n : Nat) :
    ofSignAndDigits negative (Nat.toDigits 10 n) =
      if negative then if 2 ^ 63 < n then Int64.minValue else Int64.ofInt (-n)
      else if 2 ^ 63 ≤ n then Int64.maxValue else Int64.ofInt n := by
  have hdigits : ¬ (Nat.toDigits 10 n = [] ∨
      ((Nat.toDigits 10 n).any fun c => !c.isDigit) = true) := by
    rintro (hnil | hany)
    · exact Nat.toDigits_ne_nil hnil
    · obtain ⟨c, hc, hnot⟩ := List.any_eq_true.mp hany
      rw [isDigit_of_mem_toDigits c hc] at hnot
      cases hnot
  unfold ofSignAndDigits
  rw [if_neg hdigits, Nat.ofDigitChars_ten_toDigits]

theorem atoi_toDigits (n : Nat) :
    atoi (Nat.toDigits 10 n) = ofSignAndDigits false (Nat.toDigits 10 n) := by
  unfold atoi
  split
  · rename_i hdigits
    have := isDigit_of_mem_toDigits '-' (by rw [hdigits]; exact List.mem_cons_self)
    cases this
  · rename_i hdigits
    have := isDigit_of_mem_toDigits '+' (by rw [hdigits]; exact List.mem_cons_self)
    cases this
  · rfl

/-- A machine integer that is printed is read back. -/
theorem atoi_formatInt (n : Int64) : atoi (formatInt n.toInt) = n := by
  have hlow := Int64.le_toInt n
  have hhigh := Int64.toInt_lt n
  unfold formatInt
  split
  · rename_i hneg
    have habs : -((n.toInt.natAbs : Nat) : Int) = n.toInt := by omega
    rw [atoi, ofSignAndDigits_toDigits, if_pos rfl, if_neg (by omega), habs, Int64.ofInt_toInt]
  · rename_i hneg
    have habs : ((n.toInt.natAbs : Nat) : Int) = n.toInt := by omega
    rw [atoi_toDigits, ofSignAndDigits_toDigits, if_neg Bool.false_ne_true, if_neg (by omega), habs,
      Int64.ofInt_toInt]

theorem all_isDigit_toDigits (n : Nat) :
    (!(Nat.toDigits 10 n).isEmpty && (Nat.toDigits 10 n).all Char.isDigit) = true := by
  rw [Bool.and_eq_true, List.all_eq_true]
  refine ⟨?_, fun c hc => isDigit_of_mem_toDigits c hc⟩
  rw [Bool.not_eq_true', List.isEmpty_eq_false_iff]
  exact Nat.toDigits_ne_nil

theorem isInt64_formatInt (n : Int64) : isInt64 (formatInt n.toInt) = true := by
  have hlow := Int64.le_toInt n
  have hhigh := Int64.toInt_lt n
  unfold formatInt
  split
  · rw [isInt64, all_isDigit_toDigits, Nat.ofDigitChars_ten_toDigits, Bool.true_and,
      decide_eq_true_eq]
    omega
  · have hplain : isInt64 (Nat.toDigits 10 n.toInt.natAbs) =
        (!(Nat.toDigits 10 n.toInt.natAbs).isEmpty &&
          (Nat.toDigits 10 n.toInt.natAbs).all Char.isDigit &&
          decide (Nat.ofDigitChars 10 (Nat.toDigits 10 n.toInt.natAbs) 0 < 2 ^ 63)) := by
      unfold isInt64
      split
      · rename_i hdigits
        have := isDigit_of_mem_toDigits '-' (by rw [hdigits]; exact List.mem_cons_self)
        cases this
      · rfl
    rw [hplain, all_isDigit_toDigits, Nat.ofDigitChars_ten_toDigits, Bool.true_and,
      decide_eq_true_eq]
    omega

/-- A machine integer that is printed is read without an error. -/
theorem parseInt_formatInt (n : Int64) : parseInt (formatInt n.toInt) = some n := by
  rw [parseInt, if_pos (isInt64_formatInt n), atoi_formatInt]

end Nuvonode.Foundation
