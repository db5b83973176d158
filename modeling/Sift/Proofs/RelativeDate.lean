import Sift.Condition.Operand
import Sift.Proofs.Clock
import Sift.Proofs.Numeral
import Sift.Proofs.Scan

/-!
# Dates relative to the present

An offset is read into 64 bits, multiplied by the length of its unit, bounded as a length of time,
and added to an instant, and each of these steps has a limit of its own. All limits but the last lie
beyond the range of instants, so an offset is exact: it gives the instant that unbounded arithmetic
gives, or nothing if that is out of the range, however many digits it has.

* `offsetText`: the text of a relative date with an offset.
* `RelativeText`: a relative date and its text, and `relativeText_of_read`: there are no other
  relative dates.
* `resolveDate?_offsetText`: such a date resolved, without its text.
* `spanOf?_eq`: the limits on the way come down to one, which `add?_seconds` and `add?_months` place
  beyond the range.
* `Reading.MonthsLater`: the same time of day some months later.
* `fixed_offset_exact`: **offsets in seconds to weeks are exact.**
* `calendar_offset_clamped`: **offsets in months and years follow the calendar**, and stay inside
  the month.
-/

namespace Sift.Time

open Text (digitsValue IsInt64 IsNumeral readInt64?)

/-! ### Texts -/

/-- A number with a sign. -/
def signed (negative : Bool) (n : Nat) : Int := if negative then -n else n

/-- The word for an anchor. -/
def Anchor.word : Anchor → String
  | .now => "now"
  | .today => "today"

/-- **The text of a relative date with an offset**: an anchor, a sign, digits and the letter of a
unit. -/
def offsetText (anchor : Anchor) (negative : Bool) (digits : List Char) (letter : Char) : String :=
  anchor.word ++ String.ofList ((if negative then '-' else '+') :: (digits ++ [letter]))

/-- How long an offset lasts, from its digits on: the number has to fit 64 bits before it is
multiplied. -/
def spanOf? (negative : Bool) (n : Nat) (unit : TimeUnit) : Option Span :=
  if n < 0x8000000000000000 then Offset.span? ⟨signed negative n, unit⟩ else none

variable {now : Instant} {zone : Zone} {anchor : Anchor} {negative : Bool} {digits : List Char}
  {letter : Char} {unit : TimeUnit}

theorem isDigit_of_ofLetter? (h : TimeUnit.ofLetter? letter = some unit) :
    letter.isDigit = false := by
  unfold TimeUnit.ofLetter? at h
  split at h
  case h_8 => exact nomatch h
  all_goals rfl

theorem readAmount?_numeral (hdigits : IsNumeral digits)
    (hunit : TimeUnit.ofLetter? letter = some unit) :
    readAmount? negative (digits ++ [letter]) =
      if digitsValue digits < 0x8000000000000000
        then some ⟨signed negative (digitsValue digits), unit⟩ else none := by
  have hstops : Text.Stops Char.isDigit [letter] := by
    intro c hc
    obtain rfl : letter = c := by simpa using hc
    exact isDigit_of_ofLetter? hunit
  rw [readAmount?, Text.takeWhile_run hdigits.isDigit hstops,
    Text.dropWhile_run hdigits.isDigit hstops, Text.readInt64?_numeral hdigits]
  by_cases hlt : digitsValue digits < 0x8000000000000000
  · rw [if_pos hlt, if_pos hlt]
    simp only [hunit, Option.bind_eq_bind, Option.bind_some]
    rfl
  · rw [if_neg hlt, if_neg hlt]
    rfl

/-- A reading begins with a digit. -/
theorem readReading?_eq_none {c : Char} {cs : List Char} (hc : c.isDigit = false) :
    readReading? (c :: cs) = none := by
  unfold readReading?
  split
  · next heq =>
    obtain ⟨rfl, -⟩ := List.cons.inj heq
    simp [hc]
  · rfl

theorem read?_offsetText (hdigits : IsNumeral digits)
    (hunit : TimeUnit.ofLetter? letter = some unit) :
    DateLiteral.read? (offsetText anchor negative digits letter) =
      if digitsValue digits < 0x8000000000000000 then
        some (.relative anchor (some ⟨signed negative (digitsValue digits), unit⟩))
      else none := by
  have hoffset : readOffset? ((if negative then '-' else '+') :: (digits ++ [letter])) =
      (readAmount? negative (digits ++ [letter])).map some := by
    cases negative <;> rfl
  have hrelative : readRelative? (offsetText anchor negative digits letter).toList =
      ((readAmount? negative (digits ++ [letter])).map some).map (.relative anchor) := by
    rw [offsetText, String.toList_append, String.toList_ofList, ← hoffset]
    cases anchor <;> rfl
  -- a number that does not fit leaves the text to the absolute dates, and these begin with a digit
  have hreading : readReading? (offsetText anchor negative digits letter).toList = none := by
    rw [offsetText, String.toList_append]
    cases anchor <;> exact readReading?_eq_none rfl
  rw [DateLiteral.read?, hrelative, hreading, readAmount?_numeral hdigits hunit]
  by_cases hlt : digitsValue digits < 0x8000000000000000
  · rw [if_pos hlt, if_pos hlt]
    rfl
  · rw [if_neg hlt, if_neg hlt]
    rfl

theorem readAmount?_eq_some {cs : List Char} {offset : Offset}
    (h : readAmount? negative cs = some offset) :
    ∃ digits letter unit, cs = digits ++ [letter] ∧ IsNumeral digits ∧
      TimeUnit.ofLetter? letter = some unit ∧
      offset = ⟨signed negative (digitsValue digits), unit⟩ := by
  have hsplit : cs.takeWhile Char.isDigit ++ cs.dropWhile Char.isDigit = cs :=
    List.takeWhile_append_dropWhile
  have hread := h
  unfold readAmount? at h
  split at h
  · next letter hletter =>
    obtain ⟨n, hn, h⟩ := Option.bind_eq_some_iff.1 h
    obtain ⟨unit, hunit, -⟩ := Option.bind_eq_some_iff.1 h
    have hne : cs.takeWhile Char.isDigit ≠ [] := by
      intro hnil
      rw [hnil] at hn
      cases hn
    have hdigits : IsNumeral (cs.takeWhile Char.isDigit) := ⟨hne, List.all_takeWhile⟩
    rw [hletter] at hsplit
    rw [← hsplit, readAmount?_numeral hdigits hunit] at hread
    have hoffset := Option.some.inj (Option.ite_none_right_eq_some.1 hread).2
    exact ⟨_, letter, unit, hsplit.symm, hdigits, hunit, hoffset.symm⟩
  · cases h

/-- **A relative date and its text**: an anchor alone, or an anchor with an offset. -/
inductive RelativeText : String → Anchor → Option Offset → Prop
  | plain (anchor : Anchor) : RelativeText anchor.word anchor none
  | offset (anchor : Anchor) (negative : Bool) {digits : List Char} (hdigits : IsNumeral digits)
      {letter : Char} {unit : TimeUnit} (hunit : TimeUnit.ofLetter? letter = some unit) :
      RelativeText (offsetText anchor negative digits letter) anchor
        (some ⟨signed negative (digitsValue digits), unit⟩)

theorem relativeText_of_readOffset? {cs : List Char} {offset : Option Offset}
    (h : readOffset? cs = some offset) :
    RelativeText (anchor.word ++ String.ofList cs) anchor offset := by
  have hamount (negative : Bool) {rest : List Char}
    (ho : (readAmount? negative rest).map some = some offset) :
      RelativeText (anchor.word ++ String.ofList ((if negative then '-' else '+') :: rest)) anchor
          offset := by
    obtain ⟨o, hread, rfl⟩ := Option.map_eq_some_iff.1 ho
    obtain ⟨digits, letter, unit, rfl, hdigits, hunit, rfl⟩ := readAmount?_eq_some hread
    exact .offset anchor negative hdigits hunit
  unfold readOffset? at h
  split at h
  · obtain rfl := Option.some.inj h
    have hword : anchor.word ++ String.ofList [] = anchor.word := String.append_empty
    rw [hword]
    exact .plain anchor
  · exact hamount false h
  · exact hamount true h
  · cases h

/-- **What is read as a relative date has the text of one.** -/
theorem relativeText_of_read {s : String} {l : DateLiteral} (h : readRelative? s.toList = some l) :
    ∃ anchor offset, l = .relative anchor offset ∧ RelativeText s anchor offset := by
  have hword (anchor : Anchor) {cs : List Char} (hs : s.toList = anchor.word.toList ++ cs)
      (hl : (readOffset? cs).map (.relative anchor) = some l) :
      ∃ anchor offset, l = .relative anchor offset ∧ RelativeText s anchor offset := by
    obtain ⟨offset, hoffset, rfl⟩ := Option.map_eq_some_iff.1 hl
    have htext : s = anchor.word ++ String.ofList cs := by
      rw [← String.toList_inj, hs, String.toList_append, String.toList_ofList]
    rw [htext]
    exact ⟨anchor, offset, rfl, relativeText_of_readOffset? hoffset⟩
  unfold readRelative? at h
  split at h
  · next cs heq => exact hword .now heq h
  · next cs heq => exact hword .today heq h
  · cases h

/-- A relative date resolved, without its text. -/
theorem resolveDate?_offsetText (hdigits : IsNumeral digits)
    (hunit : TimeUnit.ofLetter? letter = some unit) :
    resolveDate? now zone (offsetText anchor negative digits letter) =
      (anchor.instant? now zone).bind fun start =>
        ((spanOf? negative (digitsValue digits) unit).bind (start.add? zone)).map
          fun i => (i.reading zone).text zone := by
  rw [resolveDate?, read?_offsetText hdigits hunit, spanOf?]
  by_cases hlt : digitsValue digits < 0x8000000000000000
  · rw [if_pos hlt, if_pos hlt]
    simp only [Option.bind_eq_bind, Option.bind_some, DateLiteral.resolve?, Instant.shift?,
      Option.bind_assoc, Option.map_eq_bind]
    rfl
  · rw [if_neg hlt, if_neg hlt]
    cases anchor.instant? now zone <;> rfl

/-! ### Limits -/

theorem natAbs_signed (n : Nat) : (signed negative n).natAbs = n := by
  cases negative
  · exact Int.natAbs_natCast n
  · exact (Int.natAbs_neg _).trans (Int.natAbs_natCast n)

/-- A multiple of a unit counts at least as much as the factor. -/
theorem le_count_times (unit : TimeUnit) (n : Int) :
    n.natAbs ≤ (unit.span.times n).count.natAbs := by
  cases unit
  all_goals simp only [TimeUnit.span, Span.times, Span.count]
  all_goals omega

theorem Span.IsBounded.count_lt {s : Span} (h : s.IsBounded) :
    s.count.natAbs < 0x8000000000000000 := by
  cases s
  all_goals simp only [Span.IsBounded, Span.count] at h ⊢
  all_goals omega

/-- **The limits on the way come down to one.** A number that does not fit 64 bits, or whose product
does not, is beyond the bound as well. -/
theorem spanOf?_eq (negative : Bool) (n : Nat) (unit : TimeUnit) :
    spanOf? negative n unit =
      if (unit.span.times (signed negative n)).IsBounded
        then some (unit.span.times (signed negative n)) else none := by
  have hle := le_count_times unit (signed negative n)
  rw [natAbs_signed] at hle
  rw [spanOf?, Offset.span?]
  by_cases hbounded : (unit.span.times (signed negative n)).IsBounded
  · have hlt := hbounded.count_lt
    have hfits : IsInt64 (unit.span.times (signed negative n)).count := by
      rw [IsInt64]
      omega
    rw [if_pos hbounded, if_pos (by omega), if_pos ⟨hfits, hbounded⟩]
  · have hnot : ¬(IsInt64 (unit.span.times (signed negative n)).count ∧
        (unit.span.times (signed negative n)).IsBounded) := fun h => hbounded h.2
    rw [if_neg hbounded, if_neg hnot, ite_self]

/-! ### Units of fixed length -/

/-- The units of fixed length: their letters and their seconds. -/
def fixedUnits : List (Char × Int) :=
  [('s', 1), ('m', 60), ('h', 3600), ('d', 86400), ('w', 604800)]

theorem exists_fixedUnit {length : Int} (h : (letter, length) ∈ fixedUnits) :
    ∃ unit, TimeUnit.ofLetter? letter = some unit ∧ unit.span = .seconds length := by
  simp only [fixedUnits, List.mem_cons, Prod.mk.injEq, List.not_mem_nil, or_false] at h
  rcases h with ⟨rfl, rfl⟩ | ⟨rfl, rfl⟩ | ⟨rfl, rfl⟩ | ⟨rfl, rfl⟩ | ⟨rfl, rfl⟩
  · exact ⟨.second, rfl, rfl⟩
  · exact ⟨.minute, rfl, rfl⟩
  · exact ⟨.hour, rfl, rfl⟩
  · exact ⟨.day, rfl, rfl⟩
  · exact ⟨.week, rfl, rfl⟩

/-- **The bound on seconds lies beyond the range**: it is out of reach for an instant in the
range. -/
theorem add?_seconds {start : Instant} (hstart : start.InRange) {length : Int}
    (hspan : unit.span = .seconds length) (n : Nat) :
    (spanOf? negative n unit).bind (start.add? zone) =
      (start.later (signed negative n * length)).inRange? := by
  rw [spanOf?_eq, hspan, Span.times]
  by_cases hbounded : (Span.seconds (signed negative n * length)).IsBounded
  · rw [if_pos hbounded]
    rfl
  · -- so many seconds are more than from one end of the range to the other
    have hout : ¬(start.later (signed negative n * length)).InRange := by
      rw [Instant.inRange_bounds] at hstart ⊢
      simp only [Span.IsBounded] at hbounded
      simp only [Instant.later]
      omega
    rw [if_neg hbounded, Instant.inRange?, if_neg hout]
    rfl

/-- **Offsets in seconds, minutes, hours, days and weeks are exact and never wrap.** The instant
that the offset leads to in unbounded integers is the result, the same one in every zone, if its
year is in the range; otherwise there is none. -/
theorem fixed_offset_exact (now : Instant) (hnow : (now.localDate .utc).InRange) (negative : Bool)
    (digits : List Char) (hdigits : IsNumeral digits) (letter : Char) (length : Int)
    (hunit : (letter, length) ∈ fixedUnits) :
    let target := now.later (signed negative (digitsValue digits) * length)
    ∀ zone : Zone,
      let result :=
        orError .invalidDate (resolveDate? now zone (offsetText .now negative digits letter))
      ((target.localDate .utc).InRange → ∃ r : Reading, r.ShownAt zone ⟨target, false⟩ ∧
        result = .ok (r.text zone)) ∧
        (¬(target.localDate .utc).InRange → result = .error .invalidDate) := by
  intro target zone result
  obtain ⟨unit, hletter, hspan⟩ := exists_fixedUnit hunit
  have hresult : result =
      orError .invalidDate (target.inRange?.map fun i => (i.reading zone).text zone) := by
    simp only [result, resolveDate?_offsetText hdigits hletter, Anchor.instant?, Option.bind_some,
      add?_seconds (now.inRange_iff.2 hnow) hspan, target]
  rw [hresult, Instant.inRange?]
  constructor
  · intro htarget
    rw [if_pos (target.inRange_iff.2 htarget)]
    exact ⟨target.reading zone, Reading.shownAt_reading target zone, rfl⟩
  · intro htarget
    rw [if_neg (mt target.inRange_iff.1 htarget)]
    rfl

/-- From the last second of the range to the first, and one second too far. -/
theorem fixed_offset_exact_ends :
    let last : Instant := ⟨8210266876799, 999000000⟩
    let first : Instant := ⟨-8334601228800, 999000000⟩
    (last.localDate .utc).InRange ∧
      (∃ r : Reading, r.ShownAt .utc ⟨first, false⟩ ∧
        orError .invalidDate (resolveDate? last .utc "now-0016544868105599s") = .ok (r.text .utc)) ∧
      orError .invalidDate (resolveDate? last .utc "now+0000000000000000000000001s") =
          .error .invalidDate := by
  intro last first
  have hlast : (last.localDate .utc).InRange := by decide
  have hback :=
    (fixed_offset_exact last hlast true "0016544868105599".toList (by decide) 's' 1
      (by decide) .utc).1
    (by decide)
  have hon :=
    (fixed_offset_exact last hlast false "0000000000000000000000001".toList (by decide) 's' 1
      (by decide)
    .utc).2 (by decide)
  rw [show offsetText .now true "0016544868105599".toList 's' = "now-0016544868105599s" by decide]
    at hback
  rw [show offsetText .now false "0000000000000000000000001".toList 's' =
    "now+0000000000000000000000001s" by decide] at hon
  exact ⟨hlast, hback, hon⟩

/-! ### Units of the calendar -/

/-- The units of the calendar: their letters and their months. -/
def calendarUnits : List (Char × Int) := [('M', 1), ('y', 12)]

theorem exists_calendarUnit {months : Int} (h : (letter, months) ∈ calendarUnits) :
    ∃ unit, TimeUnit.ofLetter? letter = some unit ∧ unit.span = .months months := by
  simp only [calendarUnits, List.mem_cons, Prod.mk.injEq, List.not_mem_nil, or_false] at h
  rcases h with ⟨rfl, rfl⟩ | ⟨rfl, rfl⟩
  · exact ⟨.month, rfl, rfl⟩
  · exact ⟨.year, rfl, rfl⟩

/-- **The same time of day so many months later**: the day of the month stays as it is, or is the
last of a shorter month. -/
structure Reading.MonthsLater (months : Int) (r l : Reading) : Prop where
  month : 1 ≤ l.date.month ∧ l.date.month ≤ 12
  index : l.date.monthIndex = r.date.monthIndex + months
  day : l.date.day = min r.date.day (monthLength l.date.year l.date.month)
  time : l.hour = r.hour ∧ l.minute = r.minute ∧ l.second = r.second ∧ l.milli = r.milli

theorem Reading.monthsLater_iff {months : Int} {r l : Reading} :
    r.MonthsLater months l ↔ l = { r with date := r.date.addMonths months } := by
  constructor
  · rintro ⟨hmonth, hindex, hday, hhour, hminute, hsecond, hmilli⟩
    obtain ⟨date, hour, minute, second, milli⟩ := l
    rw [Reading.mk.injEq]
    exact ⟨Date.eq_addMonths hmonth hindex hday, hhour, hminute, hsecond, hmilli⟩
  · rintro rfl
    exact ⟨Date.addMonths_month _ _, Date.monthIndex_addMonths _ _, rfl, rfl, rfl, rfl, rfl⟩

/-- **The bound on months lies beyond the range**: it is out of reach for a date in the range. -/
theorem add?_months {start : Instant} (hstart : (start.localDate zone).InRange) {months : Int}
    (hspan : unit.span = .months months) (n : Nat) :
    (spanOf? negative n unit).bind (start.add? zone) =
      start.addMonths? zone (signed negative n * months) := by
  rw [spanOf?_eq, hspan, Span.times]
  by_cases hbounded : (Span.months (signed negative n * months)).IsBounded
  · rw [if_pos hbounded]
    rfl
  · -- so many months are more than all years of the range have
    have hmonth := (start.localDate_isValid zone).1
    have hmonth' := (start.localDate_isValid zone).2.1
    have hmonths := Date.addMonths_month (start.localDate zone) (signed negative n * months)
    have hindex := Date.monthIndex_addMonths (start.localDate zone) (signed negative n * months)
    have hout : ¬(signed negative n * months = 0 ∨
        ((start.localDate zone).addMonths (signed negative n * months)).InRange) := by
      simp only [Span.IsBounded] at hbounded
      simp only [Date.monthIndex] at hindex
      simp only [Date.InRange, firstYear, lastYear] at hstart ⊢
      omega
    rw [if_neg hbounded, Instant.addMonths?, if_neg hout]
    rfl

/-- The time of day that a clock shows is kept, and with it the fraction of a second. -/
theorem addMonths?_eq {months : Int} {l : Reading} (hl : (now.reading zone).MonthsLater months l) :
    now.addMonths? zone months =
      if months = 0 ∨ l.date.InRange
        then Instant.inRange? ⟨l.localSeconds - zone.seconds, now.nanos⟩ else none := by
  obtain rfl := Reading.monthsLater_iff.1 hl
  rw [Instant.addMonths?, ← Reading.timeOfDay_reading]
  rfl

theorem monthsLater_shownAt {months : Int} {l : Reading}
    (hl : (now.reading zone).MonthsLater months l) :
    l.ShownAt zone ⟨⟨l.localSeconds - zone.seconds, now.nanos⟩, false⟩ := by
  obtain ⟨-, hhour, hminute, hsecond, hmilli⟩ := Reading.reading_isValid now zone
  have hleap := (Reading.shownAt_reading now zone).leap
  obtain rfl := Reading.monthsLater_iff.1 hl
  refine ⟨⟨Date.addMonths_isValid (now.localDate_isValid zone) months, hhour, hminute, hsecond,
    hmilli⟩, ?_, hleap, rfl⟩
  exact (Int.sub_add_cancel _ _).symm

/-- **Offsets in months and years follow the calendar of the zone.** The reading so many months
later, with its day clamped to the month, is the result if it and its instant in UTC are in the
range; if the instant is not, there is none, however large the offset is. A year is twelve
months. -/
theorem calendar_offset_clamped (now : Instant) (zone : Zone) (here : Reading)
    (hhere : here.ShownAt zone ⟨now, false⟩) (negative : Bool) (digits : List Char)
    (hdigits : IsNumeral digits) :
    (here.date.InRange → ∀ letter months, (letter, months) ∈ calendarUnits →
      let result :=
        orError .invalidDate (resolveDate? now zone (offsetText .now negative digits letter))
      let k := signed negative (digitsValue digits) * months
      (∃ l, here.MonthsLater k l) ∧ ∀ l, here.MonthsLater k l →
        let target : Instant := ⟨l.localSeconds - zone.seconds, now.nanos⟩
        (l.date.InRange → (target.localDate .utc).InRange → result = .ok (l.text zone)) ∧
          (¬(target.localDate .utc).InRange → result = .error .invalidDate)) ∧
    ∀ digits', IsNumeral digits' → digitsValue digits' = 12 * digitsValue digits →
      resolveDate? now zone (offsetText .now negative digits 'y') =
        resolveDate? now zone (offsetText .now negative digits' 'M') := by
  obtain rfl := hhere.eq_reading
  constructor
  · intro hrange letter months hunit result k
    obtain ⟨unit, hletter, hspan⟩ := exists_calendarUnit hunit
    have hresult : result = orError .invalidDate
        ((now.addMonths? zone k).map fun i => (i.reading zone).text zone) := by
      simp only [result, resolveDate?_offsetText hdigits hletter, Anchor.instant?, Option.bind_some,
        add?_months hrange hspan, k]
    refine ⟨⟨_, Reading.monthsLater_iff.2 rfl⟩, ?_⟩
    intro l hl target
    have hreading : target.reading zone = l := (monthsLater_shownAt hl).eq_reading.symm
    rw [hresult, addMonths?_eq hl, Instant.inRange?]
    constructor
    · intro hdate htarget
      rw [if_pos (.inr hdate), if_pos (target.inRange_iff.2 htarget)]
      exact congrArg (fun r => Except.ok (r.text zone)) hreading
    · intro htarget
      rw [if_neg (mt target.inRange_iff.1 htarget), ite_self]
      rfl
  · intro digits' hdigits' hvalue
    have hspan : spanOf? negative (digitsValue digits) .year =
        spanOf? negative (digitsValue digits') .month := by
      have htimes : TimeUnit.year.span.times (signed negative (digitsValue digits)) =
          TimeUnit.month.span.times (signed negative (digitsValue digits')) := by
        simp only [TimeUnit.span, Span.times, signed, hvalue]
        split <;> simp only [Span.months.injEq] <;> omega
      rw [spanOf?_eq, spanOf?_eq, htimes]
    rw [resolveDate?_offsetText hdigits rfl, resolveDate?_offsetText hdigits' rfl, hspan]

/-- Back to the end of February of a leap year, from a day that has not begun in UTC, and on by too
many years. -/
theorem calendar_offset_clamped_leap :
    let now : Instant := ⟨1711828800, 250000000⟩
    let zone : Zone := ⟨330, by decide⟩
    let here : Reading := ⟨⟨2024, 3, 31⟩, 1, 30, 0, 250⟩
    here.ShownAt zone ⟨now, false⟩ ∧ here.date.InRange ∧
      orError .invalidDate (resolveDate? now zone "now-1M") = .ok "2024-02-29T01:30:00.250+05:30" ∧
      orError .invalidDate (resolveDate? now zone "now+99999999999999999999y") =
        .error .invalidDate ∧
      resolveDate? now zone "now-2y" = resolveDate? now zone "now-024M" := by
  intro now zone here
  have hhere : here.ShownAt zone ⟨now, false⟩ := ⟨by decide, by decide, by decide, by decide⟩
  have hrange : here.date.InRange := by decide
  have hback :=
    (calendar_offset_clamped now zone here hhere true ['1'] (by decide)).1 hrange 'M' 1 (by decide)
  have hon :=
    (calendar_offset_clamped now zone here hhere false "99999999999999999999".toList (by decide)).1
      hrange
    'y' 12 (by decide)
  have hyears :=
    (calendar_offset_clamped now zone here hhere true ['2'] (by decide)).2 "024".toList (by decide)
    (by decide)
  have hfebruary :=
    (hback.2 ⟨⟨2024, 2, 29⟩, 1, 30, 0, 250⟩ ⟨by decide, by decide, by decide, by decide⟩).1
    (by decide) (by decide)
  have hfar :=
    (hon.2 ⟨⟨100000000000000002023, 3, 31⟩, 1, 30, 0, 250⟩
      ⟨by decide, by decide, by decide, by decide⟩).2
    (by decide)
  rw [show offsetText .now true ['1'] 'M' = "now-1M" by decide,
    show Reading.text ⟨⟨2024, 2, 29⟩, 1, 30, 0, 250⟩ zone =
      "2024-02-29T01:30:00.250+05:30" by decide] at hfebruary
  rw [show offsetText .now false "99999999999999999999".toList 'y' =
    "now+99999999999999999999y" by decide] at hfar
  rw [show offsetText .now true ['2'] 'y' = "now-2y" by decide,
    show offsetText .now true "024".toList 'M' = "now-024M" by decide] at hyears
  exact ⟨hhere, hrange, hfebruary, hfar, hyears⟩

end Sift.Time
