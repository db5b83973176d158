import Sift.Time.Instant

/-!
# Date literals

A date in a filter is relative, `now` or `today` with an optional offset such as `-2d`, or it is an
absolute reading `YYYY-MM-DD HH:mm:ss.SSS` of a clock in the zone. Offsets in months and years
follow the calendar of the zone; the other units are whole numbers of seconds.

* `DateLiteral.read?`: the literal written in a text.
* `Offset.span?`: how long an offset lasts.
* `DateLiteral.resolve?`: the moment a literal stands for.
* `resolveDate?`: a literal resolved to text.
-/

namespace Sift.Time

open Text (digitsValue IsInt64 readInt64?)

/-- The unit of an offset. -/
inductive TimeUnit where
  | second
  | minute
  | hour
  | day
  | week
  | month
  | year
deriving Repr, DecidableEq

/-- A length of time: seconds, or months of the calendar. -/
inductive Span where
  | seconds (n : Int)
  | months (n : Int)
deriving Repr, DecidableEq

/-- The letter of a unit. -/
def TimeUnit.ofLetter? : Char → Option TimeUnit
  | 's' => some .second
  | 'm' => some .minute
  | 'h' => some .hour
  | 'd' => some .day
  | 'w' => some .week
  | 'M' => some .month
  | 'y' => some .year
  | _ => none

/-- How long a unit lasts. -/
def TimeUnit.span : TimeUnit → Span
  | .second => .seconds 1
  | .minute => .seconds 60
  | .hour => .seconds 3600
  | .day => .seconds 86400
  | .week => .seconds 604800
  | .month => .months 1
  | .year => .months 12

namespace Span

/-- The number of seconds or months. -/
def count : Span → Int
  | .seconds n => n
  | .months n => n

/-- So many times a span. -/
def times (amount : Int) : Span → Span
  | .seconds n => .seconds (amount * n)
  | .months n => .months (amount * n)

/-- The spans that can be added to an instant: seconds have to fit 64 bits when they are counted in
milliseconds, and months 32 bits without their sign. -/
def IsBounded : Span → Prop
  | .seconds n => 1000 * n.natAbs ≤ 0x7FFFFFFFFFFFFFFF
  | .months n => n.natAbs ≤ 0xFFFFFFFF

instance : (s : Span) → Decidable s.IsBounded
  | .seconds _ => inferInstanceAs (Decidable (_ ≤ _))
  | .months _ => inferInstanceAs (Decidable (_ ≤ _))

end Span

/-- A signed amount of a unit. -/
structure Offset where
  amount : Int
  unit : TimeUnit
deriving Repr, DecidableEq

/-- How long an offset lasts: the product of the amount and the unit, if it fits 64 bits and is
bounded. -/
def Offset.span? (o : Offset) : Option Span :=
  let span := o.unit.span.times o.amount
  if IsInt64 span.count ∧ span.IsBounded then some span else none

/-- Where a relative date starts: at the present instant, or at the midnight before it. -/
inductive Anchor where
  | now
  | today
deriving Repr, DecidableEq

/-- A date in a filter. -/
inductive DateLiteral where
  | relative (anchor : Anchor) (offset : Option Offset)
  | absolute (reading : Reading)
deriving Repr, DecidableEq

/-- Digits of a number that fits 64 bits, and the letter of a unit. -/
def readAmount? (negative : Bool) (cs : List Char) : Option Offset :=
  match cs.dropWhile Char.isDigit with
  | [letter] => do
    let n ← readInt64? (String.ofList (cs.takeWhile Char.isDigit))
    let unit ← TimeUnit.ofLetter? letter
    some ⟨if negative then -n else n, unit⟩
  | _ => none

/-- Nothing, or a sign, digits and the letter of a unit. -/
def readOffset? : List Char → Option (Option Offset)
  | [] => some none
  | '+' :: cs => (readAmount? false cs).map some
  | '-' :: cs => (readAmount? true cs).map some
  | _ => none

/-- A relative date. -/
def readRelative? : List Char → Option DateLiteral
  | 'n' :: 'o' :: 'w' :: cs => (readOffset? cs).map (.relative .now)
  | 't' :: 'o' :: 'd' :: 'a' :: 'y' :: cs => (readOffset? cs).map (.relative .today)
  | _ => none

/-- A reading in fixed columns. -/
def readReading? : List Char → Option Reading
  | [y₁, y₂, y₃, y₄, '-', o₁, o₂, '-', d₁, d₂, ' ',
      h₁, h₂, ':', m₁, m₂, ':', s₁, s₂, '.', f₁, f₂, f₃] =>
    if [y₁, y₂, y₃, y₄, o₁, o₂, d₁, d₂, h₁, h₂, m₁, m₂, s₁, s₂, f₁, f₂, f₃].all Char.isDigit then
      let r : Reading :=
        { date := ⟨digitsValue [y₁, y₂, y₃, y₄], digitsValue [o₁, o₂], digitsValue [d₁, d₂]⟩
          hour := digitsValue [h₁, h₂]
          minute := digitsValue [m₁, m₂]
          second := digitsValue [s₁, s₂]
          milli := digitsValue [f₁, f₂, f₃] }
      if r.IsValid then some r else none
    else none
  | _ => none

/-- The literal written in a text. -/
def DateLiteral.read? (s : String) : Option DateLiteral :=
  match readRelative? s.toList with
  | some l => some l
  | none => (readReading? s.toList).map .absolute

/-- The instant a span later, if it is in the range. -/
def Instant.add? (i : Instant) (zone : Zone) : Span → Option Instant
  | .seconds n => i.addSeconds? n
  | .months n => i.addMonths? zone n

/-- The instant an anchor stands for. -/
def Anchor.instant? (now : Instant) (zone : Zone) : Anchor → Option Instant
  | .now => some now
  | .today => now.midnight? zone

/-- The instant an offset later, or the same instant without an offset. -/
def Instant.shift? (i : Instant) (zone : Zone) : Option Offset → Option Instant
  | none => some i
  | some offset => do
    let span ← offset.span?
    i.add? zone span

/-- The moment that a literal stands for in the zone at the instant `now`. -/
def DateLiteral.resolve? (now : Instant) (zone : Zone) : DateLiteral → Option Moment
  | .relative anchor offset => do
    let start ← anchor.instant? now zone
    let i ← start.shift? zone offset
    some { instant := i }
  | .absolute r => r.moment? zone

/-- The text of the date that a literal stands for, with the offset of the zone. -/
def resolveDate? (now : Instant) (zone : Zone) (s : String) : Option String := do
  let literal ← DateLiteral.read? s
  let m ← literal.resolve? now zone
  some ((m.reading zone).text zone)

end Sift.Time
