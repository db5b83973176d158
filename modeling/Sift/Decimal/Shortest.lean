import Sift.Decimal.Basic

/-!
# Shortest digits of a double

The shortest decimal of a double is the one with the fewest digits among those that read back as the
same double, and of these the nearest. Doubles that read back form an interval around the double;
for one digit, two digits and so on the two decimals next to the double are tried.

* `Tie`: what happens when two shortest decimals are equally near.
* `shortest`: the shortest decimal of a positive finite double.
-/

namespace Sift.Decimal

/-- Which of two equally near decimals is taken: the larger one, or the one with an even last
digit. -/
inductive Tie where
  | up
  | even
deriving Repr, DecidableEq

/-- The reals that round to a double: from `low / den` to `high / den`, around `value / den`. The
ends belong to the interval when `closed`. -/
structure Interval where
  low : Nat
  value : Nat
  high : Nat
  den : Nat
  closed : Bool

/-- The interval of `mantissa * 2 ^ exponent`. The neighbour below is half as far away when the
mantissa is the least of its binade (`narrow`). Ends belong to the interval of an even mantissa. -/
def Interval.ofBinary (mantissa : Nat) (exponent : Int) (narrow : Bool) : Interval :=
  let scale := Nat.pow 2 (exponent - 2).toNat
  { low := (4 * mantissa - (if narrow then 1 else 2)) * scale
    value := 4 * mantissa * scale
    high := (4 * mantissa + 2) * scale
    den := Nat.pow 2 (2 - exponent).toNat
    closed := mantissa % 2 == 0 }

/-- The interval of a positive finite double given by its bits without the sign. -/
def Interval.ofBits (bits : Nat) : Interval :=
  let biased : Nat := bits / leadingBit
  let fraction : Nat := bits % leadingBit
  if biased = 0 then .ofBinary fraction (-1074) false
  else .ofBinary (leadingBit + fraction) ((biased : Int) - 1075) (fraction == 0 && 1 < biased)

/-- Whether `d * 10 ^ e` lies in the interval. -/
def Interval.contains (i : Interval) (d : Nat) (e : Int) : Bool :=
  let up := Nat.pow 10 (-e).toNat
  let x := d * Nat.pow 10 e.toNat * i.den
  if i.closed then i.low * up ≤ x && x ≤ i.high * up else i.low * up < x && x < i.high * up

/-- The largest whole number `d` with `d * 10 ^ e` not above the value. -/
def Interval.below (i : Interval) (e : Int) : Nat :=
  i.value * Nat.pow 10 (-e).toNat / (i.den * Nat.pow 10 e.toNat)

/-- The exponent of the value's leading decimal digit. -/
def Interval.leading (i : Interval) : Int :=
  if i.den ≤ i.value then (digitCount (i.value / i.den) : Int) - 1
  else
    let reaches (k : Nat) : Bool := i.den ≤ i.value * Nat.pow 10 k
    Int.negOfNat (((List.range 330).find? reaches).getD 330)

/-- Of the two neighbours `d` and `d + 1` of the value on the grid `10 ^ e`, the one in the
interval, or the nearer one if both are. -/
def Interval.pick (tie : Tie) (i : Interval) (e : Int) : Option Nat :=
  let d := i.below e
  match i.contains d e, i.contains (d + 1) e with
  | false, false => none
  | true, false => some d
  | false, true => some (d + 1)
  | true, true =>
    match compare (2 * i.value * Nat.pow 10 (-e).toNat)
        ((2 * d + 1) * Nat.pow 10 e.toNat * i.den) with
    | .lt => some d
    | .gt => some (d + 1)
    | .eq => if tie = .even ∧ d % 2 = 0 then some d else some (d + 1)

/-- The decimal without zeros at the end of its coefficient. -/
def stripZeros : Nat → Decimal → Decimal
  | 0, d => d
  | n + 1, d =>
    if d.coefficient % 10 = 0 then stripZeros n ⟨d.coefficient / 10, d.exponent + 1⟩ else d

/-- **The shortest decimal** that reads back as the positive finite double with the given bits;
seventeen digits always suffice. -/
def shortest (tie : Tie) (bits : Nat) : Decimal :=
  let i := Interval.ofBits bits
  let lead := i.leading
  let withDigits (n : Nat) : Option Decimal :=
    let e := lead - n
    (i.pick tie e).map fun d => ⟨d, e⟩
  stripZeros 18 (((List.range 17).findSome? withDigits).getD ⟨i.below (lead - 16), lead - 16⟩)

end Sift.Decimal
