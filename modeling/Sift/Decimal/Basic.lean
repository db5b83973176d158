/-!
# Decimal numbers and the doubles next to them

A decimal is a coefficient times a power of ten. `Decimal.toFloat` is the double nearest to it, a
tie going to the even neighbour, computed exactly on natural numbers.

* `nearestBits`: the bits of the double nearest to a positive fraction.
* `Decimal.toFloat`: the double nearest to a decimal.
-/

namespace Sift

/-- The number `coefficient * 10 ^ exponent`. -/
structure Decimal where
  coefficient : Nat
  exponent : Int
deriving Repr, DecidableEq

namespace Decimal

/-- The bits of positive infinity: one more than the largest finite double. -/
def infinityBits : Nat := 0x7FF0000000000000

/-- The leading digit of a mantissa of full precision, `2 ^ 52`: it is not stored, and the
exponent's bits start where it would stand. -/
def leadingBit : Nat := 0x10000000000000

/-- `num / den` rounded to a whole number, a half going to the even neighbour. -/
def roundHalfEven (num den : Nat) : Nat :=
  let q := num / den
  let r := num % den
  if 2 * r > den ∨ (2 * r = den ∧ q % 2 = 1) then q + 1 else q

/-- The largest `e` with `2 ^ e ≤ num / den`, for positive `num` and `den`. -/
def floorLog2 (num den : Nat) : Int :=
  let e : Int := (num.log2 : Int) - den.log2
  if den * Nat.pow 2 e.toNat ≤ num * Nat.pow 2 (-e).toNat then e else e - 1

/-- The bits of the double nearest to `num / den`; too large a fraction gives infinity. A double is
a whole multiple of `2 ^ q`, with 53 digits of precision as long as `q` is at least -1074, and the
bits of neighbouring doubles are neighbouring numbers. -/
def nearestBits (num den : Nat) : Nat :=
  if num = 0 then 0
  else
    let q := max (floorLog2 num den - 52) (-1074)
    let m := roundHalfEven (num * Nat.pow 2 (-q).toNat) (den * Nat.pow 2 q.toNat)
    min ((q + 1074).toNat * leadingBit + m) infinityBits

/-- The number of decimal digits of a positive number. -/
def digitCount (n : Nat) : Nat := (Nat.toDigits 10 n).length

/-- The double nearest to a decimal. Decimals outside `10 ^ (-330)` to `10 ^ 310` need no
computation: they are nearest to zero or beyond the largest finite double. -/
def toFloat (d : Decimal) : Float :=
  let magnitude := digitCount d.coefficient + d.exponent
  let bits :=
    if d.coefficient = 0 ∨ magnitude < -330 then 0
    else if 310 < magnitude then infinityBits
    else nearestBits (d.coefficient * Nat.pow 10 d.exponent.toNat) (Nat.pow 10 (-d.exponent).toNat)
  Float.ofBits bits.toUInt64

/-- The double nearest to a power of ten. -/
def powerOfTen (e : Nat) : Float := toFloat ⟨1, e⟩

end Decimal

end Sift
