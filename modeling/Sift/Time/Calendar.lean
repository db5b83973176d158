/-!
# The calendar

Dates of the Gregorian calendar, extended to all years; the year before 1 is 0. Days are numbered
from 1 January of the year 1, which is day 0.

* `Date.dayNumber`, `Date.ofDayNumber`: dates and day numbers.
* `Date.addMonths`: months later or earlier, staying inside the month.
-/

namespace Sift.Time

/-- A date. Months count from 1 and so do days. -/
structure Date where
  year : Int
  month : Nat
  day : Nat
deriving Repr, DecidableEq

/-- Every fourth year is a leap year, but of the full centuries only every fourth. -/
def isLeapYear (year : Int) : Bool := year % 4 == 0 && (year % 100 != 0 || year % 400 == 0)

/-- The number of days of a month. -/
def monthLength (year : Int) (month : Nat) : Nat :=
  match month with
  | 2 => if isLeapYear year then 29 else 28
  | 4 | 6 | 9 | 11 => 30
  | _ => 31

/-- The number of days of a year before the first of a month. -/
def daysBeforeMonth (year : Int) : Nat → Nat
  | 0 => 0
  | 1 => 0
  | month + 1 => daysBeforeMonth year month + monthLength year month

/-- The number of days from 1 January of the year 1 to 1 January of the given year. -/
def daysBeforeYear (year : Int) : Int :=
  let y := year - 1
  365 * y + y / 4 - y / 100 + y / 400

/-- The month and the day of the `rest`-th day counted from the first of `month`, looking at most
`months` months ahead. -/
def monthAndDay (year : Int) (rest : Nat) : Nat → Nat → Nat × Nat
  | 0, month => (month, rest + 1)
  | months + 1, month =>
    let length := monthLength year month
    if rest < length then (month, rest + 1)
    else monthAndDay year (rest - length) months (month + 1)

namespace Date

/-- A day of the calendar. -/
def IsValid (d : Date) : Prop :=
  1 ≤ d.month ∧ d.month ≤ 12 ∧ 1 ≤ d.day ∧ d.day ≤ monthLength d.year d.month

instance (d : Date) : Decidable d.IsValid := inferInstanceAs (Decidable (_ ∧ _ ∧ _ ∧ _))

/-- The number of the day. -/
def dayNumber (d : Date) : Int :=
  daysBeforeYear d.year + daysBeforeMonth d.year d.month + d.day - 1

/-- The date of a day number. Years come in cycles of 400 years with 146097 days; the last year of a
cycle, of a century of a cycle and of a group of four years is a day longer or shorter than the
rest. -/
def ofDayNumber (n : Int) : Date :=
  let cycle := n / 146097
  let r := (n % 146097).toNat
  let century := min (r / 36524) 3
  let r := r - century * 36524
  let four := r / 1461
  let r := r % 1461
  let one := min (r / 365) 3
  let r := r - one * 365
  let year := 400 * cycle + (100 * century + 4 * four + one : Nat) + 1
  let (month, day) := monthAndDay year r 11 1
  ⟨year, month, day⟩

/-- The number of the month, counted through all years. -/
def monthIndex (d : Date) : Int := 12 * d.year + d.month - 1

/-- The date some months later. A day the new month does not have becomes its last day. -/
def addMonths (d : Date) (months : Int) : Date :=
  let index := d.monthIndex + months
  let year := index / 12
  let month := (index % 12).toNat + 1
  ⟨year, month, min d.day (monthLength year month)⟩

end Date

end Sift.Time
