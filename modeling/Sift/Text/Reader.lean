import Sift.Text.Number

/-!
# Readers

A reader takes something from the front of a text and gives the rest of the text, or refuses.

* `Reader`: the type.
* `digits?`, `hexDigits?`: runs of digits.
-/

namespace Sift.Text

/-- Reads something from the front of a text and gives the rest. -/
abbrev Reader (α : Type) := List Char → Option (α × List Char)

/-- Digits, at least one. -/
def digits? : Reader (List Char) := fun cs =>
  let ds := cs.takeWhile Char.isDigit
  if ds = [] then none else some (ds, cs.dropWhile Char.isDigit)

/-- The value of a hexadecimal digit in either case. -/
def hexValue? (c : Char) : Option Nat :=
  if c.isDigit then some (digitValue c)
  else if 'a' ≤ c ∧ c ≤ 'f' then some (c.toNat - 'a'.toNat + 10)
  else if 'A' ≤ c ∧ c ≤ 'F' then some (c.toNat - 'A'.toNat + 10)
  else none

/-- The value of so many hexadecimal digits, appended to a number. -/
def hexDigits? : (count : Nat) → (n : Nat) → Reader Nat
  | 0, n, cs => some (n, cs)
  | count + 1, n, c :: cs => (hexValue? c).bind fun d => hexDigits? count (16 * n + d) cs
  | _ + 1, _, [] => none

end Sift.Text
