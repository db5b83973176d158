import Sift.Decimal.Basic
import Sift.Text.Number

/-!
# Reading doubles

The text of a number is an optional sign, digits with an optional point among, before or after them,
and an optional exponent. Nothing else may stand around it.

* `read?`: the double nearest to the written number.
* `readFinite?`: the same, refusing numbers beyond the largest finite double.
-/

namespace Sift.Decimal

open Text (digitsValue readNat? readInt?)

/-- An exponent: the letter `e` in either case, an optional sign, digits. Nothing means zero. -/
def readExponent? : List Char → Option Int
  | [] => some 0
  | c :: cs => if c = 'e' ∨ c = 'E' then readInt? cs else none

/-- Digits with an optional point and an optional exponent; at least one digit is needed. -/
def readUnsigned? (cs : List Char) : Option Decimal :=
  let whole := cs.takeWhile Char.isDigit
  let afterWhole := cs.dropWhile Char.isDigit
  let (fraction, afterFraction) :=
    match afterWhole with
    | '.' :: r => (r.takeWhile Char.isDigit, r.dropWhile Char.isDigit)
    | r => ([], r)
  if whole = [] ∧ fraction = [] then none
  else
    (readExponent? afterFraction).map fun e =>
      ⟨digitsValue (whole ++ fraction), e - fraction.length⟩

/-- The double nearest to the number written in the text; infinity if it is too large. -/
def read? (s : String) : Option Float :=
  match s.toList with
  | '-' :: cs => (readUnsigned? cs).map fun d => -d.toFloat
  | '+' :: cs => (readUnsigned? cs).map toFloat
  | cs => (readUnsigned? cs).map toFloat

/-- The finite double nearest to the number written in the text. -/
def readFinite? (s : String) : Option Float := (read? s).filter Float.isFinite

end Sift.Decimal
