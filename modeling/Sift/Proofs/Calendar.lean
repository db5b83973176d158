import Sift.Time.Calendar

/-!
# Dates and their numbers

The days of the calendar are numbered without a gap. A year has as many days as its months have
together, and the number of its first day is known in closed form; a day number is cut into a year
and a day of that year, and the rest is divided among the months. So a date and its number determine
each other, before the year 0 as well.

* `daysBeforeYear_succ`, `daysBeforeMonth_thirteen`: the days of a year.
* `Date.exists_year_and_rest`: the year of a day number.
* `Date.dayNumber_ofDayNumber`, `Date.ofDayNumber_dayNumber`: **dates and day numbers determine each
  other.**
* `Date.dayNumber_lt`, `Date.dayNumber_le_iff`: later dates have greater numbers.
* `Date.eq_addMonths`: the date some months later is known by its month and its day.
* `Date.addMonths_mono`: adding months keeps the order of dates.
-/

namespace Sift.Time

/-! ### Years -/

/-- The number of days of a year. -/
def yearLength (year : Int) : Nat := if isLeapYear year then 366 else 365

theorem isLeapYear_iff (year : Int) :
    isLeapYear year = true ↔ year % 4 = 0 ∧ (year % 100 ≠ 0 ∨ year % 400 = 0) := by
  simp [isLeapYear]

theorem yearLength_cases (year : Int) :
    (year % 4 = 0 ∧ (year % 100 ≠ 0 ∨ year % 400 = 0) ∧ yearLength year = 366) ∨
      (¬(year % 4 = 0 ∧ (year % 100 ≠ 0 ∨ year % 400 = 0)) ∧ yearLength year = 365) := by
  by_cases h : isLeapYear year = true
  · exact .inl ⟨((isLeapYear_iff year).1 h).1, ((isLeapYear_iff year).1 h).2, if_pos h⟩
  · exact .inr ⟨fun hleap => h ((isLeapYear_iff year).2 hleap), if_neg h⟩

/-- The next year begins when the days of this one are over. -/
theorem daysBeforeYear_succ (year : Int) :
    daysBeforeYear (year + 1) = daysBeforeYear year + yearLength year := by
  have hlength := yearLength_cases year
  simp only [daysBeforeYear]
  omega

theorem daysBeforeYear_mono {y z : Int} (h : y ≤ z) : daysBeforeYear y ≤ daysBeforeYear z := by
  simp only [daysBeforeYear]
  omega

/-- The first day of a year, told by its place in a cycle of 400 years, in a century and in a group
of four. -/
theorem daysBeforeYear_parts (cycle : Int) {century four one : Nat} (hcentury : century ≤ 3)
    (hfour : four ≤ 24) (hone : one ≤ 3) :
    daysBeforeYear (400 * cycle + (100 * century + 4 * four + one : Nat) + 1) =
      146097 * cycle + (36524 * century + 1461 * four + 365 * one : Nat) := by
  simp only [daysBeforeYear]
  omega

/-- The last of four years has a day more, unless it is the last of a century that is not the last
of its cycle. -/
theorem yearLength_parts (cycle : Int) (century one : Nat) {four : Nat} (hfour : four ≤ 24) :
    let length := yearLength (400 * cycle + (100 * century + 4 * four + one : Nat) + 1)
    365 ≤ length ∧ (one = 3 → four < 24 ∨ century = 3 → length = 366) := by
  have hlength := yearLength_cases (400 * cycle + (100 * century + 4 * four + one : Nat) + 1)
  intro length
  omega

/-! ### Months -/

theorem monthLength_bounds (year : Int) (month : Nat) :
    28 ≤ monthLength year month ∧ monthLength year month ≤ 31 := by
  unfold monthLength
  split
  · split <;> omega
  all_goals omega

theorem daysBeforeMonth_succ (year : Int) {month : Nat} (h : 1 ≤ month) :
    daysBeforeMonth year (month + 1) = daysBeforeMonth year month + monthLength year month := by
  obtain ⟨m, rfl⟩ : ∃ m, month = m + 1 := ⟨month - 1, by omega⟩
  rfl

theorem daysBeforeMonth_mono (year : Int) {m n : Nat} (hm : 1 ≤ m) (h : m ≤ n) :
    daysBeforeMonth year m ≤ daysBeforeMonth year n := by
  induction h with
  | refl => exact Nat.le_refl _
  | step h ih =>
    rw [daysBeforeMonth_succ year (Nat.le_trans hm h)]
    omega

/-- The months of a year fill it. -/
theorem daysBeforeMonth_thirteen (year : Int) : daysBeforeMonth year 13 = yearLength year := by
  simp only [daysBeforeMonth, monthLength, yearLength]
  split <;> rfl

/-- The days that are left are divided among the months that are left. -/
theorem monthAndDay_valid (year : Int) (months month rest : Nat) (hmonth : 1 ≤ month)
    (hlast : month + months = 12) (hrest : daysBeforeMonth year month + rest < yearLength year) :
    ∃ m d, monthAndDay year rest months month = (m, d) ∧ month ≤ m ∧ m ≤ 12 ∧ 1 ≤ d ∧
      d ≤ monthLength year m ∧
      daysBeforeMonth year m + d = daysBeforeMonth year month + rest + 1 := by
  -- on the months still ahead: the days left over never reach beyond the year
  induction months generalizing month rest with
  | zero =>
    obtain rfl : month = 12 := hlast
    have hyear := daysBeforeMonth_thirteen year
    rw [daysBeforeMonth_succ year hmonth] at hyear
    exact ⟨12, rest + 1, rfl, by omega, by omega, by omega, by omega, by omega⟩
  | succ months ih =>
    rw [monthAndDay]
    by_cases hlt : rest < monthLength year month
    · rw [if_pos hlt]
      exact ⟨month, rest + 1, rfl, by omega, by omega, by omega, by omega, by omega⟩
    · rw [if_neg hlt]
      have hnext := daysBeforeMonth_succ year hmonth
      obtain ⟨m, d, heq, hm, hm', hd, hd', hsum⟩ :=
        ih (month + 1) (rest - monthLength year month) (by omega) (by omega) (by omega)
      exact ⟨m, d, heq, by omega, hm', hd, hd', by omega⟩

namespace Date

/-! ### Days -/

/-- The number of a day, cut into a year and a day of that year. -/
theorem exists_year_and_rest (n : Int) :
    ∃ (year : Int) (rest : Nat), daysBeforeYear year + rest = n ∧ rest < yearLength year ∧
      ofDayNumber n = ⟨year, (monthAndDay year rest 11 1).1, (monthAndDay year rest 11 1).2⟩ := by
  obtain ⟨r, hr⟩ : ∃ r : Nat, r = (n % 146097).toNat := ⟨_, rfl⟩
  obtain ⟨century, hcentury⟩ : ∃ a : Nat, a = min (r / 36524) 3 := ⟨_, rfl⟩
  obtain ⟨four, hfour⟩ : ∃ b : Nat, b = (r - century * 36524) / 1461 := ⟨_, rfl⟩
  obtain ⟨one, hone⟩ : ∃ d : Nat, d = min ((r - century * 36524) % 1461 / 365) 3 := ⟨_, rfl⟩
  -- the last year of a cycle, of a century and of four years has to be told apart, so both cuts
  -- stop at 3
  have hyear :=
    daysBeforeYear_parts (n / 146097) (show century ≤ 3 by omega) (show four ≤ 24 by omega)
    (show one ≤ 3 by omega)
  obtain ⟨hlength, hlong⟩ := yearLength_parts (n / 146097) century one (show four ≤ 24 by omega)
  refine ⟨400 * (n / 146097) + (100 * century + 4 * four + one : Nat) + 1,
    (r - century * 36524) % 1461 - one * 365, ?_, ?_, ?_⟩
  · rw [hyear]
    omega
  · omega
  · simp only [ofDayNumber, ← hr, ← hcentury, ← hfour, ← hone]

theorem ofDayNumber_isValid (n : Int) : (ofDayNumber n).IsValid := by
  obtain ⟨year, rest, -, hrest, heq⟩ := exists_year_and_rest n
  obtain ⟨m, d, hmonth, hm, hm', hd, hd', -⟩ :=
    monthAndDay_valid year 11 1 rest (by omega) (by omega) (by simpa [daysBeforeMonth] using hrest)
  rw [heq, hmonth]
  exact ⟨hm, hm', hd, hd'⟩

/-- **The date of a day number has that number.** -/
theorem dayNumber_ofDayNumber (n : Int) : (ofDayNumber n).dayNumber = n := by
  obtain ⟨year, rest, hsum, hrest, heq⟩ := exists_year_and_rest n
  obtain ⟨m, d, hmonth, -, -, hd, -, hdays⟩ :=
    monthAndDay_valid year 11 1 rest (by omega) (by omega) (by simpa [daysBeforeMonth] using hrest)
  rw [heq, hmonth]
  simp only [daysBeforeMonth] at hdays
  simp only [dayNumber]
  omega

/-- A date lies in its year. -/
theorem IsValid.dayNumber_bounds {d : Date} (h : d.IsValid) :
    daysBeforeYear d.year ≤ d.dayNumber ∧ d.dayNumber < daysBeforeYear (d.year + 1) := by
  obtain ⟨hm, hm', hd, hd'⟩ := h
  have hnext := daysBeforeMonth_succ d.year hm
  have hrest :=
    daysBeforeMonth_mono d.year (show 1 ≤ d.month + 1 by omega) (show d.month + 1 ≤ 13 by omega)
  rw [daysBeforeMonth_thirteen] at hrest
  rw [daysBeforeYear_succ, dayNumber]
  omega

/-- The order of dates: by year, then by month, then by day. -/
def Before (d e : Date) : Prop :=
  d.year < e.year ∨ d.year = e.year ∧ (d.month < e.month ∨ d.month = e.month ∧ d.day < e.day)

/-- Later dates have greater numbers. -/
theorem dayNumber_lt {d e : Date} (hd : d.IsValid) (he : e.IsValid) (h : d.Before e) :
    d.dayNumber < e.dayNumber := by
  rcases h with hyear | ⟨hyear, hmonth | ⟨hmonth, hday⟩⟩
  · have hmono := daysBeforeYear_mono (show d.year + 1 ≤ e.year by omega)
    have hd := hd.dayNumber_bounds
    have he := he.dayNumber_bounds
    omega
  · have hnext := daysBeforeMonth_succ d.year hd.1
    have hmono :=
      daysBeforeMonth_mono d.year (show 1 ≤ d.month + 1 by omega)
        (show d.month + 1 ≤ e.month by omega)
    obtain ⟨-, -, -, hday⟩ := hd
    obtain ⟨-, -, hday', -⟩ := he
    rw [dayNumber, dayNumber, ← hyear]
    omega
  · rw [dayNumber, dayNumber, ← hyear, ← hmonth]
    omega

theorem eq_of_not_before {d e : Date} (hde : ¬d.Before e) (hed : ¬e.Before d) : d = e := by
  obtain ⟨y, m, k⟩ := d
  obtain ⟨y', m', k'⟩ := e
  simp only [Before] at hde hed
  simp only [Date.mk.injEq]
  omega

/-- **The order of dates is the order of their numbers.** -/
theorem dayNumber_le_iff {d e : Date} (hd : d.IsValid) (he : e.IsValid) :
    d.dayNumber ≤ e.dayNumber ↔ ¬e.Before d := by
  constructor
  · intro hle hlt
    have hgt := dayNumber_lt he hd hlt
    omega
  · intro hnot
    by_cases hlt : d.Before e
    · exact Int.le_of_lt (dayNumber_lt hd he hlt)
    · exact Int.le_of_eq (congrArg dayNumber (eq_of_not_before hlt hnot))

theorem dayNumber_inj {d e : Date} (hd : d.IsValid) (he : e.IsValid)
    (h : d.dayNumber = e.dayNumber) : d = e :=
  eq_of_not_before ((dayNumber_le_iff he hd).1 (Int.le_of_eq h.symm))
    ((dayNumber_le_iff hd he).1 (Int.le_of_eq h))

/-- **A date is the date of its number.** -/
theorem ofDayNumber_dayNumber {d : Date} (h : d.IsValid) : ofDayNumber d.dayNumber = d :=
  dayNumber_inj (ofDayNumber_isValid _) h (dayNumber_ofDayNumber _)

/-! ### Months later -/

/-- The date some months later is known by its month and its day. -/
theorem eq_addMonths {d e : Date} {months : Int} (hmonth : 1 ≤ e.month ∧ e.month ≤ 12)
    (hindex : e.monthIndex = d.monthIndex + months)
    (hday : e.day = min d.day (monthLength e.year e.month)) :
    e = d.addMonths months := by
  have hyear : e.year = (d.monthIndex + months) / 12 := by
    rw [← hindex, monthIndex]
    omega
  have hm : e.month = ((d.monthIndex + months) % 12).toNat + 1 := by
    rw [← hindex, monthIndex]
    omega
  rw [addMonths, ← hyear, ← hm, ← hday]

theorem addMonths_month (d : Date) (months : Int) :
    1 ≤ (d.addMonths months).month ∧ (d.addMonths months).month ≤ 12 := by
  simp only [addMonths]
  omega

theorem monthIndex_addMonths (d : Date) (months : Int) :
    (d.addMonths months).monthIndex = d.monthIndex + months := by
  simp only [addMonths, monthIndex]
  omega

theorem addMonths_isValid {d : Date} (h : d.IsValid) (months : Int) :
    (d.addMonths months).IsValid := by
  have hlength := monthLength_bounds (d.addMonths months).year (d.addMonths months).month
  have hday : 1 ≤ (d.addMonths months).day :=
    Nat.le_min.2 ⟨h.2.2.1, Nat.le_trans (by decide) hlength.1⟩
  exact ⟨(addMonths_month d months).1, (addMonths_month d months).2, hday, Nat.min_le_right _ _⟩

/-- **Adding months keeps the order of dates.** Days of one month may become the same day, but none
overtakes another. -/
theorem addMonths_mono {d e : Date} (hd : d.IsValid) (he : e.IsValid) (h : ¬e.Before d)
    (months : Int) :
    ¬(e.addMonths months).Before (d.addMonths months) := by
  have hdm := monthIndex_addMonths d months
  have hem := monthIndex_addMonths e months
  have hd' := addMonths_month d months
  have he' := addMonths_month e months
  obtain ⟨hd₁, hd₂, -, -⟩ := hd
  obtain ⟨he₁, he₂, -, -⟩ := he
  have hle : d.monthIndex ≤ e.monthIndex := by
    simp only [Before] at h
    simp only [monthIndex]
    omega
  by_cases hlt : d.monthIndex < e.monthIndex
  · -- different months stay different, whatever becomes of the days
    simp only [monthIndex] at hdm hem hlt
    simp only [Before]
    omega
  · have hindex : d.monthIndex = e.monthIndex := by omega
    have hday : d.day ≤ e.day := by
      simp only [monthIndex] at hindex
      simp only [Before] at h
      omega
    simp only [Before, addMonths, hindex]
    omega

end Date

end Sift.Time
