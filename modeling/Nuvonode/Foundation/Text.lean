/-
  Foundation/Text.lean --- the text operations the service relies on.

  `trimSpace` follows Go's `strings.TrimSpace`: it removes the characters for
  which `unicode.IsSpace` holds from both ends.  `storable` is what PostgreSQL
  accepts as a `TEXT` value: valid UTF-8, which every `String` is, without a NUL
  character.
-/
import Mathlib.Algebra.Ring.Int.Defs

set_option autoImplicit false

namespace Nuvonode.Foundation

/-- Go's `unicode.IsSpace`. -/
def isSpace (c : Char) : Bool :=
  c == '\t' || c == '\n' || c == '\x0b' || c == '\x0c' || c == '\r' || c == ' ' ||
  c == '\u0085' || c == '\u00a0' || c == '\u1680' ||
  ('\u2000' ≤ c && c ≤ '\u200a') || c == '\u2028' || c == '\u2029' ||
  c == '\u202f' || c == '\u205f' || c == '\u3000'

/-- Go's `strings.TrimSpace`. -/
def trimSpace (text : String) : String :=
  String.ofList (((text.toList.dropWhile isSpace).reverse.dropWhile isSpace).reverse)

/-- A `TEXT` value PostgreSQL can store: it holds no NUL character. -/
def storable (text : String) : Bool := !text.toList.contains '\x00'

/-- Whether a value fits PostgreSQL's 32-bit `INT`. -/
def fitsInt4 (n : Int) : Bool := -(2 ^ 31) ≤ n && n < 2 ^ 31

theorem fitsInt4_iff {n : Int} : fitsInt4 n = true ↔ -(2 ^ 31) ≤ n ∧ n < 2 ^ 31 := by
  simp [fitsInt4]

end Nuvonode.Foundation
