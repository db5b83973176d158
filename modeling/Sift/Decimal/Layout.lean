import Sift.Decimal.Shortest

/-!
# Writing doubles

A double is written with its shortest digits. Which exponents are written out positionally, and
whether a whole number keeps a `.0`, is a `Layout`; each output format of the library has one.

* `Layout`: the choices of a format.
* `Layout.render`: the text of a finite double.
-/

namespace Sift.Decimal

/-- The choices a format makes when it writes a number. -/
structure Layout where
  /-- Whether a number whose leading digit has this exponent is written positionally. -/
  positional : Int → Bool
  /-- Whether a whole number written positionally ends in `.0`. -/
  pointZero : Bool
  /-- Which of two equally near shortest decimals is taken. -/
  tie : Tie

/-- Digits with the point after the digit of exponent zero; `lead` is the exponent of the first
digit. -/
def positionalText (pointZero : Bool) (digits : List Char) (lead : Int) : List Char :=
  if lead < 0 then
    '0' :: '.' :: (List.replicate ((-lead).toNat - 1) '0' ++ digits)
  else
    let whole := lead.toNat + 1
    if digits.length ≤ whole then
      digits ++ List.replicate (whole - digits.length) '0' ++ (if pointZero then ['.', '0'] else [])
    else digits.take whole ++ '.' :: digits.drop whole

/-- One digit, the point and the others if there are any, and a signed exponent. -/
def exponentText (digits : List Char) (lead : Int) : List Char :=
  let mantissa :=
    match digits with
    | [] => []
    | [d] => [d]
    | d :: ds => d :: '.' :: ds
  mantissa ++ 'e' :: (if lead < 0 then '-' else '+') :: Nat.toDigits 10 lead.natAbs

/-- The text of a number other than zero, given by the bits of its magnitude. -/
def Layout.renderBits (layout : Layout) (bits : Nat) : List Char :=
  let d := shortest layout.tie bits
  let digits := Nat.toDigits 10 d.coefficient
  let lead := d.exponent + digits.length - 1
  if layout.positional lead then positionalText layout.pointZero digits lead
  else exponentText digits lead

/-- The bit of the sign of a double. -/
def signBit : Nat := 0x8000000000000000

/-- The text of a finite double. Zero keeps its sign. -/
def Layout.render (layout : Layout) (x : Float) : String :=
  let bits := x.toBits.toNat
  let magnitude := bits % signBit
  let text :=
    if magnitude = 0 then '0' :: (if layout.pointZero then ['.', '0'] else [])
    else layout.renderBits magnitude
  String.ofList (if signBit ≤ bits then '-' :: text else text)

end Sift.Decimal
