import Sift.Proofs.RelativeDate

/-!
# Local midnights

The day of a zone begins when its clocks show midnight, which in UTC may be on the day before or
after. `today` is the midnight at which the present day began. Whole days, weeks, months and years
later or earlier the clocks show midnight again, whether the offset is counted in seconds or on the
calendar.

* `Instant.Begins`: the instant at which a date begins in a zone.
* `Instant.begins_midnight`, `Instant.Begins.eq_midnight`: the day of an instant began at one
  midnight.
* `Instant.Begins.later`, `Instant.Begins.addMonths?`: offsets lead from midnight to midnight.
* `today_local_midnight`: **`today` is the midnight before the present instant**, and stays at
  midnight with an offset.
-/

namespace Sift.Time

open Text (digitsValue IsNumeral)

/-- Midnight, the first second of a date. -/
def Reading.midnight (date : Date) : Reading := ⟨date, 0, 0, 0, 0⟩

/-- **The instant at which a date begins in the zone**: the clocks show midnight, and no fraction of
a second is over. -/
structure Instant.Begins (t : Instant) (zone : Zone) (date : Date) : Prop where
  shown : (Reading.midnight date).ShownAt zone ⟨t, false⟩
  nanos : t.nanos = 0

namespace Instant

variable {t now : Instant} {zone : Zone} {date : Date}

theorem Begins.reading (h : t.Begins zone date) : t.reading zone = .midnight date :=
  h.shown.eq_reading.symm

theorem Begins.seconds (h : t.Begins zone date) :
    t.seconds + zone.seconds = startOfDay date.dayNumber :=
  h.shown.seconds.symm.trans (Int.add_zero _)

/-- A date begins at the first second of its day. -/
theorem begins_of_seconds (hdate : date.IsValid)
    (hseconds : t.seconds + zone.seconds = startOfDay date.dayNumber)
    (hnanos : t.nanos = 0) : t.Begins zone date := by
  have hzero : 0 ≤ 23 ∧ 0 ≤ 59 ∧ 0 ≤ 60 ∧ 0 ≤ 999 := by decide
  have hleap : 0 = 60 ↔ false = true := by decide
  have hmilli : 0 = t.nanos.val / 1000000 := by
    rw [hnanos]
    rfl
  exact ⟨⟨⟨hdate, hzero⟩, (Int.add_zero _).trans hseconds.symm, hleap, hmilli⟩, hnanos⟩

/-! ### The day of an instant -/

theorem begins_midnight (now : Instant) (zone : Zone) :
    (now.midnight zone).Begins zone (now.localDate zone) := by
  refine begins_of_seconds (now.localDate_isValid zone) ?_ rfl
  rw [dayNumber_localDate]
  exact Int.sub_add_cancel _ _

theorem midnight_le (now : Instant) (zone : Zone) : now.midnight zone ≤ now := by
  have hcut := now.localSeconds_eq zone
  rw [le_iff]
  simp only [midnight, localSeconds] at hcut ⊢
  omega

theorem lt_midnight_later (now : Instant) (zone : Zone) :
    now < (now.midnight zone).later 86400 := by
  have hcut := now.localSeconds_eq zone
  have hlt := now.secondOfDay_lt zone
  rw [lt_iff]
  simp only [midnight, later, localSeconds] at hcut ⊢
  omega

/-- **The day of an instant began at one midnight.** -/
theorem Begins.eq_midnight (h : t.Begins zone date) (hle : t ≤ now) (hlt : now < t.later 86400) :
    t = now.midnight zone := by
  have hseconds := h.seconds
  have hnanos : t.nanos.val = 0 := congrArg Fin.val h.nanos
  rw [le_iff] at hle
  simp only [lt_iff, later] at hlt
  have hpassed : startOfDay date.dayNumber + (now.seconds - t.seconds).toNat =
      now.localSeconds zone := by
    rw [localSeconds]
    omega
  have hday : date.dayNumber = now.localDay zone := (cut_unique (by omega) hpassed).1
  have hstart : t.seconds = startOfDay (now.localDay zone) - zone.seconds := by
    rw [← hday]
    omega
  rw [midnight, ← hstart, ← h.nanos]

/-! ### From midnight to midnight -/

/-- So many days of 86400 seconds later another date begins. -/
theorem Begins.later (h : t.Begins zone date) (days : Int) :
    (t.later (days * 86400)).Begins zone (Date.ofDayNumber (date.dayNumber + days)) := by
  have hseconds := h.seconds
  refine begins_of_seconds (Date.ofDayNumber_isValid _) ?_ h.nanos
  rw [Date.dayNumber_ofDayNumber]
  simp only [Instant.later, startOfDay, daySeconds] at hseconds ⊢
  omega

/-- So many months later another date begins. -/
theorem Begins.addMonths? {months : Int} (h : t.Begins zone date) {i : Instant}
    (hi : t.addMonths? zone months = some i) : i.Begins zone (date.addMonths months) := by
  have hlater : (t.reading zone).MonthsLater months (.midnight (date.addMonths months)) := by
    rw [h.reading]
    exact Reading.monthsLater_iff.2 rfl
  rw [addMonths?_eq hlater] at hi
  split at hi
  · obtain ⟨-, rfl⟩ := inRange?_eq_some.1 hi
    exact ⟨monthsLater_shownAt hlater, h.nanos⟩
  · exact nomatch hi

end Instant

/-! ### The present day -/

theorem midnight?_eq_some {now t : Instant} {zone : Zone} :
    now.midnight? zone = some t ↔
      (now.localDate zone).InRange ∧ t.InRange ∧ t = now.midnight zone := by
  rw [Instant.midnight?]
  split
  · next hdate =>
    rw [Instant.inRange?_eq_some]
    constructor
    · rintro ⟨hin, rfl⟩
      exact ⟨hdate, hin, rfl⟩
    · rintro ⟨-, hin, rfl⟩
      exact ⟨hin, rfl⟩
  · next hdate => simp [hdate]

theorem resolveDate?_today (now : Instant) (zone : Zone) :
    resolveDate? now zone "today" =
      (now.midnight? zone).map fun t => (t.reading zone).text zone := by
  have hread : DateLiteral.read? "today" = some (.relative .today none) := rfl
  rw [resolveDate?, hread]
  cases h : now.midnight? zone with
  | none => simp [DateLiteral.resolve?, Anchor.instant?, h]
  | some t => simp [DateLiteral.resolve?, Anchor.instant?, Instant.shift?, h]; rfl

section Offsets

variable {now : Instant} {zone : Zone} {unit : TimeUnit} {negative : Bool} {digits : List Char}
  {letter : Char} {out : String}

/-- With an offset the present day still has to have a midnight in the range. -/
theorem today_offset (hdigits : IsNumeral digits) (hunit : TimeUnit.ofLetter? letter = some unit)
    (hout : resolveDate? now zone (offsetText .today negative digits letter) = some out) :
    (now.localDate zone).InRange ∧ (now.midnight zone).InRange ∧
      ∃ i, (spanOf? negative (digitsValue digits) unit).bind ((now.midnight zone).add? zone) =
        some i ∧ (i.reading zone).text zone = out := by
  rw [resolveDate?_offsetText hdigits hunit] at hout
  obtain ⟨start, hstart, hout⟩ := Option.bind_eq_some_iff.1 hout
  obtain ⟨hdate, hmidnight, rfl⟩ := midnight?_eq_some.1 hstart
  obtain ⟨i, hi, hout⟩ := Option.map_eq_some_iff.1 hout
  exact ⟨hdate, hmidnight, i, hi, hout⟩

/-- Days and weeks from midnight on. -/
theorem today_days (days : Int) (hdigits : IsNumeral digits)
    (hunit : TimeUnit.ofLetter? letter = some unit) (hspan : unit.span = .seconds (days * 86400))
    (hout : resolveDate? now zone (offsetText .today negative digits letter) = some out) :
    ∃ (t : Instant) (date : Date), t.Begins zone date ∧ out = (Reading.midnight date).text zone ∧
      date.dayNumber = (now.localDate zone).dayNumber + days *
        signed negative (digitsValue digits) := by
  obtain ⟨-, hmidnight, i, hi, rfl⟩ := today_offset hdigits hunit hout
  rw [add?_seconds hmidnight hspan] at hi
  obtain ⟨-, rfl⟩ := Instant.inRange?_eq_some.1 hi
  have hseconds : signed negative (digitsValue digits) * (days * 86400) =
      days * signed negative (digitsValue digits) * 86400 := by
    rw [← Int.mul_assoc, Int.mul_comm (signed negative (digitsValue digits))]
  have hbegins := (now.begins_midnight zone).later (days * signed negative (digitsValue digits))
  rw [← hseconds] at hbegins
  exact ⟨_, _, hbegins, by rw [hbegins.reading], Date.dayNumber_ofDayNumber _⟩

/-- Months and years from midnight on. -/
theorem today_months {months : Int} (hdigits : IsNumeral digits)
    (hunit : TimeUnit.ofLetter? letter = some unit) (hspan : unit.span = .months months)
    (hout : resolveDate? now zone (offsetText .today negative digits letter) = some out) :
    ∃ (t : Instant) (date : Date), t.Begins zone date ∧
      out = (Reading.midnight date).text zone := by
  obtain ⟨hdate, -, i, hi, rfl⟩ := today_offset hdigits hunit hout
  have hmidnight := now.begins_midnight zone
  have hsame : (now.midnight zone).localDate zone = now.localDate zone :=
    congrArg Reading.date hmidnight.reading
  rw [add?_months (hsame ▸ hdate) hspan] at hi
  have hbegins := hmidnight.addMonths? hi
  exact ⟨_, _, hbegins, by rw [hbegins.reading]⟩

end Offsets

/-- **`today` is the local midnight at or before the present instant**, the only one within a day,
whichever day it is in UTC. With an offset in days, weeks, months or years it is a local midnight
again, moved by as many days as the offset says. -/
theorem today_local_midnight (now : Instant) (zone : Zone) (here : Reading)
    (hhere : here.ShownAt zone ⟨now, false⟩) :
    (∃ (t : Instant) (date : Date), t.Begins zone date ∧ t ≤ now ∧ now < t.later 86400 ∧
      (∀ (t' : Instant) (date' : Date), t'.Begins zone date' → t' ≤ now → now < t'.later 86400 →
        t' = t) ∧
      (here.date.InRange → (t.localDate .utc).InRange →
        orError .invalidDate (resolveDate? now zone "today") =
          .ok ((Reading.midnight date).text zone))) ∧
    ∀ negative digits, IsNumeral digits → ∀ letter ∈ ['d', 'w', 'M', 'y'], ∀ out,
      resolveDate? now zone (offsetText .today negative digits letter) = some out →
      ∃ (t : Instant) (date : Date), t.Begins zone date ∧ out = (Reading.midnight date).text zone ∧
        (letter = 'd' → date.dayNumber =
          here.date.dayNumber + signed negative (digitsValue digits)) ∧
        (letter = 'w' → date.dayNumber =
          here.date.dayNumber + 7 * signed negative (digitsValue digits)) := by
  obtain rfl := hhere.eq_reading
  constructor
  · have hbegins := now.begins_midnight zone
    refine ⟨now.midnight zone, now.localDate zone, hbegins, now.midnight_le zone,
      now.lt_midnight_later zone, ?_, ?_⟩
    · intro t' date' ht' hle hlt
      exact ht'.eq_midnight hle hlt
    · intro hdate hmidnight
      have hsome := midnight?_eq_some.2 ⟨hdate, (now.midnight zone).inRange_iff.2 hmidnight, rfl⟩
      rw [resolveDate?_today, hsome, Option.map_some, hbegins.reading]
      rfl
  · intro negative digits hdigits letter hletter out hout
    simp only [List.mem_cons, List.not_mem_nil, or_false] at hletter
    rcases hletter with rfl | rfl | rfl | rfl
    · obtain ⟨t, date, hbegins, rfl, hday⟩ := today_days 1 hdigits rfl rfl hout
      rw [Int.one_mul] at hday
      exact ⟨t, date, hbegins, rfl, fun _ => hday, fun h => absurd h (by decide)⟩
    · obtain ⟨t, date, hbegins, rfl, hday⟩ := today_days 7 hdigits rfl rfl hout
      exact ⟨t, date, hbegins, rfl, fun h => absurd h (by decide), fun _ => hday⟩
    · obtain ⟨t, date, hbegins, rfl⟩ := today_months hdigits rfl rfl hout
      exact ⟨t, date, hbegins, rfl, fun h => absurd h (by decide), fun h => absurd h (by decide)⟩
    · obtain ⟨t, date, hbegins, rfl⟩ := today_months hdigits rfl rfl hout
      exact ⟨t, date, hbegins, rfl, fun h => absurd h (by decide), fun h => absurd h (by decide)⟩

/-- A day of 1970 that began in 1969 in UTC, and three weeks before it. -/
theorem today_local_midnight_new_year :
    let now : Instant := ⟨-1, 999999999⟩
    let zone : Zone := ⟨330, by decide⟩
    let here : Reading := ⟨⟨1970, 1, 1⟩, 5, 29, 59, 999⟩
    here.ShownAt zone ⟨now, false⟩ ∧
      (∃ date, Instant.Begins ⟨-19800, 0⟩ zone date ∧
        orError .invalidDate (resolveDate? now zone "today") =
          .ok ((Reading.midnight date).text zone)) ∧
      resolveDate? now zone "today-3w" = some "1969-12-11T00:00:00.000+05:30" ∧
      ∃ (t : Instant) (date : Date), t.Begins zone date ∧
        "1969-12-11T00:00:00.000+05:30" = (Reading.midnight date).text zone ∧
        date.dayNumber = here.date.dayNumber + 7 * signed true 3 := by
  intro now zone here
  have hhere : here.ShownAt zone ⟨now, false⟩ := ⟨by decide, by decide, by decide, by decide⟩
  obtain ⟨⟨t, date, hbegins, hle, hlt, -, htoday⟩, hoffset⟩ :=
    today_local_midnight now zone here hhere
  obtain rfl : t = ⟨-19800, 0⟩ := hbegins.eq_midnight hle hlt
  have hweeks : resolveDate? now zone "today-3w" = some "1969-12-11T00:00:00.000+05:30" := by decide
  obtain ⟨t, date', hbegins', hout, -, hday⟩ :=
    hoffset true ['3'] (by decide) 'w' (by decide) _ hweeks
  exact ⟨hhere, ⟨date, hbegins, htoday (by decide) (by decide)⟩, hweeks, t, date', hbegins', hout,
    hday rfl⟩

end Sift.Time
