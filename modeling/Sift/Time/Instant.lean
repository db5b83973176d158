import Sift.Time.Calendar
import Sift.Time.Zone

/-!
# Instants and wall clocks

An instant is a number of seconds from the start of 1970 in UTC and a fraction of a second. A
`Reading` is what a clock on the wall and a calendar next to it show. Clocks may show leap seconds,
which instants do not count; a `Moment` tells whether it is in one. Only times that a filter writes
out can lie in a leap second: its present is an instant.

* `Date.InRange`, `Instant.InRange`: the dates and the instants the library computes with.
* `Instant.reading`, `Moment.reading`: what clocks in a zone show.
* `Reading.moment?`: the moment at which clocks in a zone show a reading.
* `Reading.text`: a reading in writing.
-/

namespace Sift.Time

open Text (padded)

/-- Seconds from the start of 1970 in UTC, and nanoseconds. A clock that stands in a leap second
shows no instant and is left out as the present of a filter: ten seconds after 03:05:60.3 it would
show 03:06:09.3, and ten seconds after 03:05:59.9 already 03:06:09.9, so that adding seconds would
not keep the order of clocks. -/
structure Instant where
  seconds : Int
  nanos : Fin 1000000000
deriving Repr, DecidableEq

/-- Seconds of a day. -/
def daySeconds : Int := 86400

/-- The day number of 1 January 1970. -/
def epochDay : Int := 719162

/-- The first year of the range. -/
def firstYear : Int := -262143

/-- The last year of the range. -/
def lastYear : Int := 262142

/-- Dates in the years `firstYear` to `lastYear`. -/
def Date.InRange (d : Date) : Prop := firstYear ≤ d.year ∧ d.year ≤ lastYear

instance (d : Date) : Decidable d.InRange := inferInstanceAs (Decidable (_ ∧ _))

/-- The first second of a day, in seconds from the start of 1970. -/
def startOfDay (dayNumber : Int) : Int := (dayNumber - epochDay) * daySeconds

namespace Instant

/-- Instants in the years `firstYear` to `lastYear` of UTC. -/
def InRange (i : Instant) : Prop :=
  startOfDay (daysBeforeYear firstYear) ≤ i.seconds ∧
    i.seconds < startOfDay (daysBeforeYear (lastYear + 1))

instance (i : Instant) : Decidable i.InRange := inferInstanceAs (Decidable (_ ∧ _))

/-- The instant, if it is in the range. -/
def inRange? (i : Instant) : Option Instant := if i.InRange then some i else none

/-- The instant some seconds later, if it is in the range. -/
def addSeconds? (i : Instant) (n : Int) : Option Instant := inRange? ⟨i.seconds + n, i.nanos⟩

/-- Seconds that clocks in a zone have counted from the start of 1970 on their own wall. -/
def localSeconds (i : Instant) (zone : Zone) : Int := i.seconds + zone.seconds

/-- The day number on a calendar in the zone. -/
def localDay (i : Instant) (zone : Zone) : Int := i.localSeconds zone / daySeconds + epochDay

/-- The date on a calendar in the zone. -/
def localDate (i : Instant) (zone : Zone) : Date := Date.ofDayNumber (i.localDay zone)

/-- Seconds since local midnight. -/
def secondOfDay (i : Instant) (zone : Zone) : Nat := (i.localSeconds zone % daySeconds).toNat

/-- The midnight at which the day began in the zone. -/
def midnight (i : Instant) (zone : Zone) : Instant :=
  ⟨startOfDay (i.localDay zone) - zone.seconds, 0⟩

/-- That midnight, if the date and the midnight are in the range. -/
def midnight? (i : Instant) (zone : Zone) : Option Instant :=
  if (i.localDate zone).InRange then (i.midnight zone).inRange? else none

/-- The same time of day some months later, if the date and the instant are in the range. A date
that stays as it is need not be. -/
def addMonths? (i : Instant) (zone : Zone) (months : Int) : Option Instant :=
  let date := (i.localDate zone).addMonths months
  if months = 0 ∨ date.InRange then
    inRange? ⟨startOfDay date.dayNumber + i.secondOfDay zone - zone.seconds, i.nanos⟩
  else none

end Instant

/-- What a calendar and a clock show. The second may be 60. -/
structure Reading where
  date : Date
  hour : Nat
  minute : Nat
  second : Nat
  milli : Nat
deriving Repr, DecidableEq

/-- A clock in the zone at an instant; less than a millisecond is not shown. -/
def Instant.reading (i : Instant) (zone : Zone) : Reading :=
  let s := i.secondOfDay zone
  ⟨i.localDate zone, s / 3600, s / 60 % 60, s % 60, i.nanos / 1000000⟩

/-- An instant; with `leap`, the same place in the leap second that follows the second of the
instant. -/
structure Moment where
  instant : Instant
  leap : Bool := false
deriving Repr, DecidableEq

/-- A clock in the zone at a moment; in a leap second it shows one second more. -/
def Moment.reading (m : Moment) (zone : Zone) : Reading :=
  let r := m.instant.reading zone
  { r with second := r.second + m.leap.toNat }

namespace Reading

/-- A day of the calendar and a time of day, which may be in a leap second. -/
def IsValid (r : Reading) : Prop :=
  r.date.IsValid ∧ r.hour ≤ 23 ∧ r.minute ≤ 59 ∧ r.second ≤ 60 ∧ r.milli ≤ 999

instance (r : Reading) : Decidable r.IsValid := inferInstanceAs (Decidable (_ ∧ _ ∧ _ ∧ _ ∧ _))

/-- Seconds that the clock has counted from the start of 1970; it does not count the leap second. -/
def localSeconds (r : Reading) : Int :=
  startOfDay r.date.dayNumber + (3600 * r.hour + 60 * r.minute + min r.second 59 : Nat)

/-- The moment at which clocks in the zone show the reading, if it is in the range. -/
def moment? (r : Reading) (zone : Zone) : Option Moment :=
  (Instant.inRange? ⟨r.localSeconds - zone.seconds, ⟨1000000 * (r.milli % 1000), by omega⟩⟩).map
    (⟨·, decide (59 < r.second)⟩)

/-- A year in at least four digits; years before 0 and after 9999 have a sign. -/
def yearText (year : Int) : List Char :=
  let digits := padded 4 year.natAbs
  if year < 0 then '-' :: digits else if 9999 < year then '+' :: digits else digits

/-- Year, month and day. -/
def dateText (r : Reading) : List Char :=
  yearText r.date.year ++ '-' :: (padded 2 r.date.month ++ '-' :: padded 2 r.date.day)

/-- Hour, minute, second and millisecond. -/
def timeText (r : Reading) : List Char :=
  padded 2 r.hour ++ ':' :: (padded 2 r.minute ++ ':' ::
    (padded 2 r.second ++ '.' :: padded 3 r.milli))

/-- The reading of a clock in the zone, with the offset of the zone. -/
def text (r : Reading) (zone : Zone) : String :=
  String.ofList (r.dateText ++ 'T' :: (r.timeText ++ zone.text))

end Reading

end Sift.Time
