import Sift.Proofs.Midnight

/-!
# Dates as the clock goes on

While the clock goes on, a date does not go back. Each step of the resolution keeps the order of
instants, except for months added to an instant: several days of a month may become its last day,
and then the times of day decide. The order of days is kept there as well, and the order of instants
where the time of day is always midnight.

* `Moment.fraction`: the order of moments, with leap seconds.
* `Instant.midnight_mono`, `Instant.addSeconds?_mono`, `Instant.addMonths?_mono`: what each step
  keeps.
* `Instant.shift?_mono`: what an offset keeps of instants and of midnights.
* `resolved_date_mono`: **dates are monotone in the clock.**
-/

namespace Sift.Time

open Text (digitsValue IsNumeral)

/-- The part of a second that is over at a moment, in nanoseconds. A leap second goes on behind the
second before it. -/
def Moment.fraction (m : Moment) : Nat := m.instant.nanos + 1000000000 * m.leap.toNat

instance : LE Moment :=
  ⟨fun m n => m.instant.seconds < n.instant.seconds ∨
    m.instant.seconds = n.instant.seconds ∧ m.fraction ≤ n.fraction⟩

theorem Moment.le_refl (m : Moment) : m ≤ m := .inr ⟨rfl, Nat.le_refl _⟩

/-- Outside of leap seconds moments are ordered as instants are. -/
theorem Moment.le_of_instant {i j : Instant} (h : i ≤ j) : (⟨i, false⟩ : Moment) ≤ ⟨j, false⟩ := h

/-- The units that are counted on a calendar. -/
def TimeUnit.IsCalendar (unit : TimeUnit) : Prop := unit = .month ∨ unit = .year

/-- Only units of the calendar last for months. -/
theorem Offset.isCalendar_of_span? {o : Offset} {n : Int} (h : o.span? = some (.months n)) :
    o.unit.IsCalendar := by
  have hspan : o.unit.span.times o.amount = .months n :=
    Option.some.inj (Option.ite_none_right_eq_some.1 h).2
  obtain ⟨amount, unit⟩ := o
  cases unit
  case month => exact .inl rfl
  case year => exact .inr rfl
  all_goals cases hspan

namespace Instant

variable {i j i' j' : Instant} {zone : Zone}

/-! ### Steps -/

theorem localDay_mono (h : i ≤ j) (zone : Zone) : i.localDay zone ≤ j.localDay zone := by
  rw [le_iff] at h
  simp only [localDay, localSeconds, daySeconds]
  omega

/-- Later instants have no earlier dates. -/
theorem localDate_mono (h : i.localDay zone ≤ j.localDay zone) :
    ¬(j.localDate zone).Before (i.localDate zone) := by
  rw [← dayNumber_localDate, ← dayNumber_localDate] at h
  exact (Date.dayNumber_le_iff (localDate_isValid _ _) (localDate_isValid _ _)).1 h

theorem Begins.localDay {d : Date} (h : i.Begins zone d) : i.localDay zone = d.dayNumber := by
  have hdate : i.localDate zone = d := congrArg Reading.date h.reading
  rw [← hdate, dayNumber_localDate]

/-- Midnights are ordered as their days are. -/
theorem Begins.le {d e : Date} (hi : i.Begins zone d) (hj : j.Begins zone e)
    (h : i.localDay zone ≤ j.localDay zone) :
    i ≤ j := by
  have hiseconds := hi.seconds
  have hjseconds := hj.seconds
  rw [hi.localDay, hj.localDay] at h
  rw [le_iff, hi.nanos, hj.nanos]
  simp only [startOfDay, daySeconds] at hiseconds hjseconds
  omega

theorem midnight_mono (h : i ≤ j) (zone : Zone) : i.midnight zone ≤ j.midnight zone := by
  have hi := begins_midnight i zone
  have hj := begins_midnight j zone
  refine hi.le hj ?_
  rw [hi.localDay, hj.localDay, dayNumber_localDate, dayNumber_localDate]
  exact localDay_mono h zone

theorem addSeconds?_mono {n : Int} (h : i ≤ j) (hi : i.addSeconds? n = some i')
    (hj : j.addSeconds? n = some j') :
    i' ≤ j' := by
  obtain ⟨-, rfl⟩ := inRange?_eq_some.1 hi
  obtain ⟨-, rfl⟩ := inRange?_eq_some.1 hj
  rw [le_iff] at h ⊢
  simp only
  omega

theorem addMonths?_localDate {months : Int} (hi : i.addMonths? zone months = some i') :
    i'.localDate zone = (i.localDate zone).addMonths months := by
  have hlater : (i.reading zone).MonthsLater months
      { i.reading zone with date := (i.localDate zone).addMonths months } :=
        Reading.monthsLater_iff.2 rfl
  rw [addMonths?_eq hlater] at hi
  obtain ⟨-, hi⟩ := Option.ite_none_right_eq_some.1 hi
  obtain ⟨-, rfl⟩ := inRange?_eq_some.1 hi
  exact congrArg Reading.date (monthsLater_shownAt hlater).eq_reading.symm

/-- Months keep the order of days. -/
theorem addMonths?_mono {months : Int} (h : i.localDay zone ≤ j.localDay zone)
    (hi : i.addMonths? zone months = some i') (hj : j.addMonths? zone months = some j') :
    i'.localDay zone ≤ j'.localDay zone := by
  have hmono :=
    Date.addMonths_mono (localDate_isValid i zone) (localDate_isValid j zone) (localDate_mono h)
      months
  rw [← addMonths?_localDate hi, ← addMonths?_localDate hj,
    ← Date.dayNumber_le_iff (localDate_isValid _ _) (localDate_isValid _ _)] at hmono
  rwa [dayNumber_localDate, dayNumber_localDate] at hmono

/-! ### Offsets -/

/-- **An offset keeps the order of days.** It keeps the order of instants too, unless it is counted
in months; and then as well between two midnights. -/
theorem shift?_mono {offset : Option Offset} (h : i ≤ j) (hi : i.shift? zone offset = some i')
    (hj : j.shift? zone offset = some j') :
    i'.localDay zone ≤ j'.localDay zone ∧
      ((∀ o, offset = some o → ¬o.unit.IsCalendar) ∨
        (∃ d e, i.Begins zone d ∧ j.Begins zone e) → i' ≤ j') := by
  cases offset with
  | none =>
    obtain rfl := Option.some.inj hi
    obtain rfl := Option.some.inj hj
    exact ⟨localDay_mono h zone, fun _ => h⟩
  | some o =>
    obtain ⟨span, hspan, hi⟩ := Option.bind_eq_some_iff.1 hi
    obtain ⟨span', hspan', hj⟩ := Option.bind_eq_some_iff.1 hj
    obtain rfl := Option.some.inj (hspan.symm.trans hspan')
    cases span with
    | seconds n =>
      have hle : i' ≤ j' := addSeconds?_mono h hi hj
      exact ⟨localDay_mono hle zone, fun _ => hle⟩
    | months n =>
      have hday := addMonths?_mono (localDay_mono h zone) hi hj
      refine ⟨hday, ?_⟩
      rintro (hfixed | ⟨d, e, hd, he⟩)
      · exact absurd (Offset.isCalendar_of_span? hspan) (hfixed o rfl)
      · exact (hd.addMonths? hi).le (he.addMonths? hj) hday

end Instant

/-- Anchors keep the order of instants. -/
theorem Anchor.instant?_mono {anchor : Anchor} {now₁ now₂ start₁ start₂ : Instant} {zone : Zone}
    (h : now₁ ≤ now₂)
    (h₁ : anchor.instant? now₁ zone = some start₁) (h₂ : anchor.instant? now₂ zone = some start₂) :
    start₁ ≤ start₂ := by
  cases anchor with
  | now =>
    obtain rfl := Option.some.inj h₁
    obtain rfl := Option.some.inj h₂
    exact h
  | today =>
    obtain ⟨-, -, rfl⟩ := midnight?_eq_some.1 h₁
    obtain ⟨-, -, rfl⟩ := midnight?_eq_some.1 h₂
    exact Instant.midnight_mono h zone

/-! ### Literals -/

/-- **A date does not go back while the clock goes on**, and neither does its instant, unless months
are added to the present instant. -/
theorem DateLiteral.resolve?_mono {literal : DateLiteral} {now₁ now₂ : Instant} {zone : Zone}
    {m₁ m₂ : Moment} (h : now₁ ≤ now₂) (h₁ : literal.resolve? now₁ zone = some m₁)
    (h₂ : literal.resolve? now₂ zone = some m₂) :
    ¬(m₂.reading zone).date.Before (m₁.reading zone).date ∧
      ((∀ o, literal = .relative .now (some o) → ¬o.unit.IsCalendar) → m₁ ≤ m₂) := by
  cases literal with
  | relative anchor offset =>
    obtain ⟨start₁, hstart₁, h₁⟩ := Option.bind_eq_some_iff.1 h₁
    obtain ⟨start₂, hstart₂, h₂⟩ := Option.bind_eq_some_iff.1 h₂
    obtain ⟨i₁, hi₁, h₁⟩ := Option.bind_eq_some_iff.1 h₁
    obtain ⟨i₂, hi₂, h₂⟩ := Option.bind_eq_some_iff.1 h₂
    obtain rfl := Option.some.inj h₁
    obtain rfl := Option.some.inj h₂
    obtain ⟨hday, hle⟩ := Instant.shift?_mono (Anchor.instant?_mono h hstart₁ hstart₂) hi₁ hi₂
    refine ⟨Instant.localDate_mono hday, ?_⟩
    intro hfixed
    refine Moment.le_of_instant (hle ?_)
    cases anchor with
    | now => exact .inl fun o ho => hfixed o (congrArg _ ho)
    | today =>
      obtain ⟨-, -, rfl⟩ := midnight?_eq_some.1 hstart₁
      obtain ⟨-, -, rfl⟩ := midnight?_eq_some.1 hstart₂
      exact .inr ⟨_, _, Instant.begins_midnight now₁ zone, Instant.begins_midnight now₂ zone⟩
  | absolute r =>
    -- an absolute date does not look at the clock
    obtain rfl := Option.some.inj (h₁.symm.trans h₂)
    refine ⟨?_, fun _ => Moment.le_refl m₁⟩
    simp only [Date.Before]
    omega

/-- The texts of the present instant with an offset in months or years. -/
def IsMonthsFromNow (s : String) : Prop :=
  ∃ negative digits letter, IsNumeral digits ∧ letter ∈ ['M', 'y'] ∧
    s = offsetText .now negative digits letter

theorem mem_calendarLetters {letter : Char} {unit : TimeUnit}
    (h : TimeUnit.ofLetter? letter = some unit)
    (hunit : unit.IsCalendar) : letter ∈ ['M', 'y'] := by
  unfold TimeUnit.ofLetter? at h
  rcases hunit with rfl | rfl
  · split at h <;> simp_all
  · split at h <;> simp_all

theorem isMonthsFromNow_of_read {s : String} {o : Offset}
    (h : DateLiteral.read? s = some (.relative .now (some o)))
    (hunit : o.unit.IsCalendar) : IsMonthsFromNow s := by
  have hrelative : readRelative? s.toList = some (.relative .now (some o)) := by
    rw [DateLiteral.read?] at h
    split at h
    · next hread => exact hread.trans h
    · obtain ⟨r, -, hr⟩ := Option.map_eq_some_iff.1 h
      cases hr
  obtain ⟨anchor, offset, heq, htext⟩ := relativeText_of_read hrelative
  obtain ⟨rfl, rfl⟩ := DateLiteral.relative.inj heq
  cases htext with
  | offset anchor negative hdigits hletter =>
    exact ⟨negative, _, _, hdigits, mem_calendarLetters hletter hunit, rfl⟩

/-- **Dates are monotone in the clock.** Let a text resolve at two instants, the first of which is
not after the second. Then the date that it resolves to at the first is not after that at the
second; and neither is the moment, unless the text is the present instant with an offset in months
or years. -/
theorem resolved_date_mono (s : String) (zone : Zone) (now₁ now₂ : Instant) (hnow : now₁ ≤ now₂)
    (out₁ out₂ : String)
    (h₁ : resolveDate? now₁ zone s = some out₁) (h₂ : resolveDate? now₂ zone s = some out₂) :
    ∃ (literal : DateLiteral) (m₁ m₂ : Moment), DateLiteral.read? s = some literal ∧
      (literal.resolve? now₁ zone = some m₁ ∧ out₁ = (m₁.reading zone).text zone) ∧
      (literal.resolve? now₂ zone = some m₂ ∧ out₂ = (m₂.reading zone).text zone) ∧
      ¬(m₂.reading zone).date.Before (m₁.reading zone).date ∧ (¬IsMonthsFromNow s → m₁ ≤ m₂) := by
  obtain ⟨literal, hread, h₁⟩ := Option.bind_eq_some_iff.1 h₁
  obtain ⟨literal', hread', h₂⟩ := Option.bind_eq_some_iff.1 h₂
  obtain rfl := Option.some.inj (hread.symm.trans hread')
  obtain ⟨m₁, hm₁, h₁⟩ := Option.bind_eq_some_iff.1 h₁
  obtain ⟨m₂, hm₂, h₂⟩ := Option.bind_eq_some_iff.1 h₂
  obtain ⟨hdate, hmoment⟩ := DateLiteral.resolve?_mono hnow hm₁ hm₂
  refine ⟨literal, m₁, m₂, hread, ⟨hm₁, (Option.some.inj h₁).symm⟩,
    ⟨hm₂, (Option.some.inj h₂).symm⟩, hdate, ?_⟩
  intro hmonths
  refine hmoment fun o ho hunit => hmonths ?_
  rw [ho] at hread
  exact isMonthsFromNow_of_read hread hunit

/-- Two days at the end of January, a month later. -/
theorem resolved_date_mono_february :
    let now₁ : Instant := ⟨1675119600, 0⟩
    let now₂ : Instant := ⟨1675126800, 0⟩
    let out := "2023-02-28T00:00:00.000+00:00"
    now₁ ≤ now₂ ∧ resolveDate? now₁ .utc "today+1M" = some out ∧
      resolveDate? now₂ .utc "today+1M" = some out ∧
      ∃ (literal : DateLiteral) (m₁ m₂ : Moment), DateLiteral.read? "today+1M" = some literal ∧
        literal.resolve? now₁ .utc = some m₁ ∧ literal.resolve? now₂ .utc = some m₂ ∧
        ¬(m₂.reading .utc).date.Before (m₁.reading .utc).date ∧ m₁ ≤ m₂ := by
  intro now₁ now₂ out
  have hnow : now₁ ≤ now₂ := .inl (by decide)
  have h₁ : resolveDate? now₁ .utc "today+1M" = some out := by decide
  have h₂ : resolveDate? now₂ .utc "today+1M" = some out := by decide
  have htoday : ¬IsMonthsFromNow "today+1M" := by
    rintro ⟨negative, digits, letter, -, -, heq⟩
    have htext := congrArg String.toList heq
    rw [offsetText, String.toList_append] at htext
    cases htext
  obtain ⟨literal, m₁, m₂, hread, ⟨hm₁, -⟩, ⟨hm₂, -⟩, hdate, hmoment⟩ :=
    resolved_date_mono "today+1M" .utc now₁ now₂ hnow out out h₁ h₂
  exact ⟨hnow, h₁, h₂, literal, m₁, m₂, hread, hm₁, hm₂, hdate, hmoment htoday⟩

-- months added to the present instant: both days become the last of February, and the times of day
-- go back
example : resolveDate? ⟨1675119600, 0⟩ .utc "now+1M" = some "2023-02-28T23:00:00.000+00:00" ∧
    resolveDate? ⟨1675126800, 0⟩ .utc "now+1M" = some "2023-02-28T01:00:00.000+00:00" := by decide

end Sift.Time
