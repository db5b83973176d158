import Sift.Proofs.Calendar
import Sift.Time.Instant

/-!
# Clocks in a zone

A clock in a zone is ahead of UTC by the offset of the zone. What it shows and the seconds that it
has counted determine each other: the seconds are cut into days and seconds of a day by floor
division, so this holds before 1970 and on either side of a midnight in UTC, and a leap second is
shown without being counted.

* `Reading.ShownAt`: what a clock shows, told by the seconds that it has counted.
* `Reading.ShownAt.eq_reading`, `Instant.reading_shownAt`: **a clock shows one reading at a time.**
* `Reading.moment?_eq_some`: the moment at which a reading is shown.
* `Instant.inRange_iff`: the range of instants is a range of years.
-/

namespace Sift.Time

/-! ### The range -/

theorem Zone.seconds_bounds (zone : Zone) : -86400 < zone.seconds ∧ zone.seconds < 86400 := by
  have hlt := zone.lt_day
  rw [Zone.seconds]
  omega

/-- The year of a date is known by the number of its day. -/
theorem Date.IsValid.le_year_iff {d : Date} (h : d.IsValid) (year : Int) :
    year ≤ d.year ↔ daysBeforeYear year ≤ d.dayNumber := by
  obtain ⟨hfirst, hlast⟩ := h.dayNumber_bounds
  constructor
  · intro hle
    exact Int.le_trans (daysBeforeYear_mono hle) hfirst
  · intro hle
    by_cases hlt : d.year < year
    · have hmono := daysBeforeYear_mono (show d.year + 1 ≤ year by omega)
      omega
    · omega

theorem Date.IsValid.inRange_iff {d : Date} (h : d.IsValid) :
    d.InRange ↔ -95746130 ≤ d.dayNumber ∧ d.dayNumber < 95745399 := by
  have hfirst := h.le_year_iff firstYear
  have hlast := h.le_year_iff (lastYear + 1)
  rw [show daysBeforeYear firstYear = -95746130 from by decide] at hfirst
  rw [show daysBeforeYear (lastYear + 1) = 95745399 from by decide] at hlast
  rw [Date.InRange, hfirst]
  omega

namespace Instant

theorem inRange_bounds (i : Instant) :
    i.InRange ↔ -8334601228800 ≤ i.seconds ∧ i.seconds < 8210266876800 := by
  rw [InRange, show startOfDay (daysBeforeYear firstYear) = -8334601228800 from by decide,
    show startOfDay (daysBeforeYear (lastYear + 1)) = 8210266876800 from by decide]

theorem localDate_isValid (i : Instant) (zone : Zone) : (i.localDate zone).IsValid :=
  Date.ofDayNumber_isValid _

theorem dayNumber_localDate (i : Instant) (zone : Zone) :
    (i.localDate zone).dayNumber = i.localDay zone :=
  Date.dayNumber_ofDayNumber _

/-- **An instant is in the range if its date in UTC is.** -/
theorem inRange_iff (i : Instant) : i.InRange ↔ (i.localDate .utc).InRange := by
  rw [inRange_bounds, (i.localDate_isValid .utc).inRange_iff, dayNumber_localDate]
  simp only [localDay, localSeconds, Zone.seconds, Zone.utc, daySeconds, epochDay]
  omega

theorem inRange?_eq_some {i j : Instant} : i.inRange? = some j ↔ i.InRange ∧ i = j := by
  rw [inRange?]
  split <;> simp_all

/-- The instant so many seconds later, in the range or not. -/
def later (i : Instant) (n : Int) : Instant := ⟨i.seconds + n, i.nanos⟩

instance : LE Instant :=
  ⟨fun i j => i.seconds < j.seconds ∨ i.seconds = j.seconds ∧ i.nanos.val ≤ j.nanos.val⟩

instance : LT Instant :=
  ⟨fun i j => i.seconds < j.seconds ∨ i.seconds = j.seconds ∧ i.nanos.val < j.nanos.val⟩

theorem le_iff (i j : Instant) :
    i ≤ j ↔ i.seconds < j.seconds ∨ i.seconds = j.seconds ∧ i.nanos.val ≤ j.nanos.val := Iff.rfl

theorem lt_iff (i j : Instant) :
    i < j ↔ i.seconds < j.seconds ∨ i.seconds = j.seconds ∧ i.nanos.val < j.nanos.val := Iff.rfl

/-! ### Days and seconds of a day -/

theorem secondOfDay_lt (i : Instant) (zone : Zone) : i.secondOfDay zone < 86400 := by
  simp only [secondOfDay, daySeconds]
  omega

theorem localSeconds_eq (i : Instant) (zone : Zone) :
    i.localSeconds zone = startOfDay (i.localDay zone) + i.secondOfDay zone := by
  simp only [secondOfDay, localDay, startOfDay, daySeconds]
  omega

/-- Seconds are cut into days and seconds of a day in one way. -/
theorem cut_unique {i : Instant} {zone : Zone} {day : Int} {second : Nat} (hsecond : second < 86400)
    (h : startOfDay day + second = i.localSeconds zone) :
    day = i.localDay zone ∧ second = i.secondOfDay zone := by
  have hcut := i.localSeconds_eq zone
  have hlt := i.secondOfDay_lt zone
  simp only [startOfDay, daySeconds] at h hcut
  omega

end Instant

/-! ### Readings -/

namespace Reading

/-- **A clock in the zone shows the reading at the moment**: it has counted the seconds of UTC and
those of the offset, shows 60 in a leap second and then only, and cuts the milliseconds off. -/
structure ShownAt (r : Reading) (zone : Zone) (m : Moment) : Prop where
  valid : r.IsValid
  seconds : r.localSeconds = m.instant.seconds + zone.seconds
  leap : r.second = 60 ↔ m.leap = true
  milli : r.milli = m.instant.nanos / 1000000

variable {r : Reading} {zone : Zone} {m : Moment}

/-- Hours, minutes and seconds as seconds of the day. -/
theorem IsValid.timeOfDay_lt (h : r.IsValid) :
    3600 * r.hour + 60 * r.minute + min r.second 59 < 86400 := by
  obtain ⟨-, hhour, hminute, -, -⟩ := h
  omega

/-- **A clock shows one reading at a time.** -/
theorem ShownAt.eq_reading (h : r.ShownAt zone m) : r = m.reading zone := by
  obtain ⟨hday, hsecond⟩ := Instant.cut_unique h.valid.timeOfDay_lt h.seconds
  obtain ⟨hdate, hhour, hminute, hsec, -⟩ := h.valid
  have hleap : m.leap.toNat = if r.second = 60 then 1 else 0 := by
    by_cases hs : r.second = 60
    · rw [h.leap.1 hs, if_pos hs]
      rfl
    · rw [if_neg hs, Bool.eq_false_iff.2 fun ht => hs (h.leap.2 ht)]
      rfl
  have hdate : r.date = m.instant.localDate zone := by
    rw [Instant.localDate, ← hday, Date.ofDayNumber_dayNumber hdate]
  obtain ⟨date, hour, minute, second, milli⟩ := r
  simp only [Moment.reading, Instant.reading, Reading.mk.injEq, ← hsecond, hleap]
  simp only at hhour hminute hsec
  exact ⟨hdate, by omega, by omega, by split <;> omega, h.milli⟩

theorem timeOfDay_reading (i : Instant) (zone : Zone) :
    3600 * (i.reading zone).hour + 60 * (i.reading zone).minute + min (i.reading zone).second 59 =
      i.secondOfDay zone := by
  simp only [Instant.reading]
  omega

/-- The seconds that a clock has counted are those of UTC and of the offset. -/
theorem localSeconds_reading (i : Instant) (zone : Zone) :
    (i.reading zone).localSeconds = i.localSeconds zone := by
  rw [localSeconds, timeOfDay_reading, i.localSeconds_eq zone, ← i.dayNumber_localDate zone]
  rfl

theorem reading_isValid (i : Instant) (zone : Zone) : (i.reading zone).IsValid := by
  have hlt := i.secondOfDay_lt zone
  have hnanos := i.nanos.isLt
  refine ⟨i.localDate_isValid zone, ?_, ?_, ?_, ?_⟩
  all_goals simp only [Instant.reading]
  all_goals omega

/-- A clock that is right shows the instant. -/
theorem shownAt_reading (i : Instant) (zone : Zone) : (i.reading zone).ShownAt zone ⟨i, false⟩ := by
  have hsecond : (i.reading zone).second ≠ 60 := by
    simp only [Instant.reading]
    omega
  exact ⟨reading_isValid i zone, localSeconds_reading i zone, by simp [hsecond], rfl⟩

/-- Clocks show a reading at its moment. -/
theorem moment?_shownAt (h : r.IsValid) (hm : r.moment? zone = some m) : r.ShownAt zone m := by
  obtain ⟨i, hi, rfl⟩ := Option.map_eq_some_iff.1 hm
  obtain ⟨-, rfl⟩ := Instant.inRange?_eq_some.1 hi
  have hsecond := h.2.2.2.1
  have hmilli := h.2.2.2.2
  refine ⟨h, ?_, ?_, ?_⟩
  · exact (Int.sub_add_cancel _ _).symm
  · rw [decide_eq_true_iff]
    omega
  · show r.milli = 1000000 * (r.milli % 1000) / 1000000
    omega

/-- The years 0 to 9999 are far from the ends of the range. -/
theorem exists_moment (h : r.IsValid) (hyear : 0 ≤ r.date.year ∧ r.date.year ≤ 9999) (zone : Zone) :
    ∃ m, r.moment? zone = some m := by
  have hfirst := (h.1.le_year_iff 0).1 hyear.1
  have hlast := mt (h.1.le_year_iff 10000).2 (by omega)
  rw [show daysBeforeYear 0 = -366 from by decide] at hfirst
  rw [show daysBeforeYear 10000 = 3652059 from by decide] at hlast
  have htime := h.timeOfDay_lt
  have hzone := zone.seconds_bounds
  have hrange : Instant.InRange
      ⟨r.localSeconds - zone.seconds, ⟨1000000 * (r.milli % 1000), by omega⟩⟩ := by
    rw [Instant.inRange_bounds]
    simp only [localSeconds, startOfDay, epochDay, daySeconds]
    omega
  rw [moment?, Instant.inRange?, if_pos hrange]
  exact ⟨_, rfl⟩

end Reading

end Sift.Time
