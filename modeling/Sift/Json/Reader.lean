import Sift.Json.Basic
import Sift.Decimal.Basic
import Sift.Text.Reader

/-!
# Reading JSON text

The strict grammar: no comments, no trailing commas, no control characters in strings, no lone
surrogates. Arrays and objects nest at most `maxDepth` deep. Of two fields with one key the later
counts.

A number that is not whole keeps as many leading digits as fit 64 bits, and is that whole number as
a double, scaled by one power of ten.

* `Json.read?`: the value written in a text.
-/

namespace Sift.Json

open Text (Reader digitValue digitsValue digits? hexDigits?)

/-- How deep arrays and objects may nest. -/
def maxDepth : Nat := 127

/-- The four characters that may stand between tokens. -/
def isSpace (c : Char) : Bool := c == ' ' || c == '\t' || c == '\n' || c == '\r'

/-- The text from its first character that is not space. -/
def skipSpace (cs : List Char) : List Char := cs.dropWhile isSpace

/-- The leading half of a surrogate pair. -/
def isLeadSurrogate (n : Nat) : Bool := 0xD800 ≤ n && n < 0xDC00

/-- The trailing half of a surrogate pair. -/
def isTrailSurrogate (n : Nat) : Bool := 0xDC00 ≤ n && n < 0xE000

/-- A code unit and, if it leads a surrogate pair, the unit that completes it. -/
def unicodeEscape? (cs : List Char) : Option (Char × List Char) := do
  let (n, rest) ← hexDigits? 4 0 cs
  if isLeadSurrogate n then
    match rest with
    | '\\' :: 'u' :: rest => do
      let (m, rest) ← hexDigits? 4 0 rest
      if isTrailSurrogate m then
        some (Char.ofNat (0x10000 + (n - 0xD800) * 0x400 + (m - 0xDC00)), rest)
      else none
    | _ => none
  else if isTrailSurrogate n then none
  else some (Char.ofNat n, rest)

/-- What follows a backslash in a string. -/
def escape? : Reader Char
  | '"' :: rest => some ('"', rest)
  | '\\' :: rest => some ('\\', rest)
  | '/' :: rest => some ('/', rest)
  | 'b' :: rest => some ('\x08', rest)
  | 'f' :: rest => some ('\x0c', rest)
  | 'n' :: rest => some ('\n', rest)
  | 'r' :: rest => some ('\r', rest)
  | 't' :: rest => some ('\t', rest)
  | 'u' :: rest => unicodeEscape? rest
  | _ => none

/-- The characters of a string up to its closing quote. Each round takes at least one character, so
the length of the text bounds the rounds. -/
def stringBody? : Nat → List Char → Reader String
  | 0, _, _ => none
  | rounds + 1, acc, cs =>
    match cs with
    | [] => none
    | '"' :: rest => some (String.ofList acc.reverse, rest)
    | '\\' :: rest =>
      match escape? rest with
      | some (c, rest) => stringBody? rounds (c :: acc) rest
      | none => none
    | c :: rest => if c.toNat < 0x20 then none else stringBody? rounds (c :: acc) rest

/-- The largest number that fits 64 bits without a sign. -/
def maxUInt64 : Nat := 0xFFFFFFFFFFFFFFFF

/-- Appends digits to a number as long as it fits 64 bits; gives the number and the digits left
over. -/
def appendDigits (n : Nat) : List Char → Nat × List Char
  | [] => (n, [])
  | c :: cs =>
    let m := 10 * n + digitValue c
    if m ≤ maxUInt64 then appendDigits m cs else (n, c :: cs)

/-- `x * 10 ^ exponent` in doubles, by one multiplication or division, or `none` if it is too large.
An exponent below -308 is taken in steps; three steps bring every 64-bit number to zero. -/
def scale? : Nat → Float → Int → Option Float
  | 0, x, _ => some x
  | steps + 1, x, e =>
    if e.natAbs ≤ 308 then
      if 0 ≤ e then
        let y := x * Decimal.powerOfTen e.natAbs
        if y.isInf then none else some y
      else some (x / Decimal.powerOfTen e.natAbs)
    else if x == 0.0 then some x
    else if 0 ≤ e then none
    else scale? steps (x / Decimal.powerOfTen 308) (e + 308)

/-- Exponents that fit a signed 32-bit number. -/
def maxExponent : Nat := 0x7FFFFFFF

/-- A number with the given whole digits, fraction digits and exponent. -/
def float? (whole fraction : List Char) (negativeExponent : Bool) (exponent : Nat) : Option Float :=
  let (n, wholeLeft) := appendDigits 0 whole
  let (n, fractionLeft) := appendDigits n fraction
  let point : Int := wholeLeft.length - (fraction.length - fractionLeft.length : Nat)
  if maxExponent < exponent then
    if n ≠ 0 ∧ ¬negativeExponent then none else some 0.0
  else
    scale? 5 n.toUInt64.toFloat (if negativeExponent then point - exponent else point + exponent)

/-- The whole digits of a number: a single zero, or digits that do not start with zero. -/
def wholeDigits? (cs : List Char) : Option (List Char × List Char) := do
  let (ds, rest) ← digits? cs
  match ds with
  | '0' :: _ :: _ => none
  | _ => some (ds, rest)

/-- A point and digits, or nothing. -/
def fractionDigits? : List Char → Option (List Char × List Char)
  | '.' :: cs => digits? cs
  | cs => some ([], cs)

/-- An exponent mark, an optional sign and digits, or nothing. The first part of the result tells
whether there was an exponent, the second whether it is negative. -/
def exponentDigits? : List Char → Option ((Bool × Bool × List Char) × List Char)
  | c :: cs =>
    if c = 'e' ∨ c = 'E' then
      match cs with
      | '-' :: cs => (digits? cs).map fun (ds, rest) => ((true, true, ds), rest)
      | '+' :: cs => (digits? cs).map fun (ds, rest) => ((true, false, ds), rest)
      | cs => (digits? cs).map fun (ds, rest) => ((true, false, ds), rest)
    else some ((false, false, []), c :: cs)
  | [] => some ((false, false, []), [])

/-- A whole number that fits 64 bits with its sign. Minus zero is no whole number. -/
def wholeNumber? (negative : Bool) (n : Nat) : Option Json :=
  if negative then
    if n ≠ 0 ∧ n ≤ 0x8000000000000000 then some (.int (-n)) else none
  else if n ≤ maxUInt64 then some (.int n) else none

/-- The digits of a number after its sign. -/
def unsignedNumber? (negative : Bool) (cs : List Char) : Option (Json × List Char) := do
  let (whole, rest) ← wholeDigits? cs
  let (fraction, rest) ← fractionDigits? rest
  let ((hasExponent, negativeExponent, exponent), rest) ← exponentDigits? rest
  let exact :=
    if fraction = [] ∧ ¬hasExponent then wholeNumber? negative (digitsValue whole) else none
  match exact with
  | some v => some (v, rest)
  | none => do
    let x ← float? whole fraction negativeExponent (digitsValue exponent)
    some (.float (if negative then -x else x), rest)

/-- A number. -/
def number? : Reader Json
  | '-' :: cs => unsignedNumber? true cs
  | cs => unsignedNumber? false cs

/-- The items of an array after its opening bracket, the first of which has to be there. -/
def arrayItems? (item : Reader Json) : Nat → List Json → Reader Json
  | 0, _, _ => none
  | rounds + 1, acc, cs => do
    let (v, rest) ← item cs
    match skipSpace rest with
    | ',' :: rest => arrayItems? item rounds (v :: acc) rest
    | ']' :: rest => some (.arr (v :: acc).reverse, rest)
    | _ => none

/-- The fields of an object after its opening brace, the first of which has to be there. -/
def objectFields? (length : Nat) (item : Reader Json) :
    Nat → List (String × Json) → Reader Json
  | 0, _, _ => none
  | rounds + 1, acc, cs =>
    match skipSpace cs with
    | '"' :: rest => do
      let (key, rest) ← stringBody? length [] rest
      match skipSpace rest with
      | ':' :: rest => do
        let (v, rest) ← item rest
        let acc := insertSorted key v acc
        match skipSpace rest with
        | ',' :: rest => objectFields? length item rounds acc rest
        | '\x7d' :: rest => some (.obj acc, rest)
        | _ => none
      | _ => none
    | _ => none

/-- A value in which arrays and objects nest at most `depth` deep; `length` bounds the length of the
text. -/
def value? (length : Nat) : Nat → Reader Json
  | depth, cs =>
    match skipSpace cs with
    | 'n' :: 'u' :: 'l' :: 'l' :: rest => some (.null, rest)
    | 't' :: 'r' :: 'u' :: 'e' :: rest => some (.bool true, rest)
    | 'f' :: 'a' :: 'l' :: 's' :: 'e' :: rest => some (.bool false, rest)
    | '"' :: rest => (stringBody? length [] rest).map fun (s, rest) => (.str s, rest)
    | '[' :: rest =>
      match depth with
      | 0 => none
      | depth + 1 =>
        match skipSpace rest with
        | ']' :: rest => some (.arr [], rest)
        | rest => arrayItems? (value? length depth) length [] rest
    | '\x7b' :: rest =>
      match depth with
      | 0 => none
      | depth + 1 =>
        match skipSpace rest with
        | '\x7d' :: rest => some (.obj [], rest)
        | rest => objectFields? length (value? length depth) length [] rest
    | cs => number? cs

/-- The value written in a text, with nothing but space around it. -/
def read? (s : String) : Option Json := do
  let cs := s.toList
  let (v, rest) ← value? (cs.length + 1) maxDepth cs
  if skipSpace rest = [] then some v else none

end Sift.Json
