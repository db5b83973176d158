import Sift.Proofs.Pinning
import Sift.Text.DecimalDigit

/-!
# Absolute dates

An absolute date is written in seven columns of digits with fixed signs between them. It is resolved
by way of UTC, where it may be another day or another year, and yet comes back as it was written:
digits of a fixed width are the text of their value, and what a clock shows determines the moment
that it is shown at.

* `Columns`: seven columns of digits, and `Columns.IsDate`: the columns of a day and a time of day.
* `readReading?_eq_some_iff`: absolute dates are read from such columns and from nothing else.
* `Columns.text_eq`: the columns are the text of their reading.
* `RelativePattern`: the texts that are not looked at as absolute dates.
* `absolute_date_verbatim`: **absolute dates are accepted strictly and kept as they are written.**
-/

namespace Sift.Time

open Text (digitsValue IsNumeral padded)

/-! ### Columns -/

/-- A column of ASCII digits. -/
def Column (width : Nat) : Type :=
  { cs : List Char // cs.length = width ∧ ∀ c ∈ cs, '0' ≤ c ∧ c ≤ '9' }

namespace Column

variable {width : Nat}

/-- The number in a column. -/
def value (c : Column width) : Nat := digitsValue c.val

theorem isDigit (c : Column width) : ∀ x ∈ c.val, x.isDigit = true := by
  intro x hx
  obtain ⟨hlow, hhigh⟩ := c.property.2 x hx
  exact Char.isDigit_iff_toNat.2 ⟨hlow, hhigh⟩

theorem value_lt (c : Column width) : c.value < Nat.pow 10 width :=
  Nat.lt_of_lt_of_eq (Text.digitsValue_lt c.isDigit) (congrArg (Nat.pow 10) c.property.1)

/-- **A column is the text of its number.** -/
theorem padded_value (c : Column width) (hwidth : 0 < width) : padded width c.value = c.val := by
  have hne : c.val ≠ [] := by
    rw [← List.length_pos_iff, c.property.1]
    exact hwidth
  have hnumeral : IsNumeral c.val := ⟨hne, List.all_eq_true.2 c.isDigit⟩
  have hpadded := Text.padded_digitsValue hnumeral
  rwa [c.property.1] at hpadded

/-- Digits as a column. -/
def ofDigits (cs : List Char) (hwidth : cs.length = width) (hdigits : ∀ c ∈ cs, c.isDigit = true) :
    Column width :=
  ⟨cs, hwidth, fun c hc => Char.isDigit_iff_toNat.1 (hdigits c hc)⟩

end Column

/-- The columns of a text `YYYY-MM-DD HH:mm:ss.SSS`. -/
structure Columns where
  year : Column 4
  month : Column 2
  day : Column 2
  hour : Column 2
  minute : Column 2
  second : Column 2
  milli : Column 3

namespace Columns

/-- The columns written out. -/
def text (c : Columns) : List Char :=
  c.year.val ++ '-' :: (c.month.val ++ '-' :: (c.day.val ++ ' ' ::
    (c.hour.val ++ ':' :: (c.minute.val ++ ':' :: (c.second.val ++ '.' :: c.milli.val)))))

/-- **The columns of a day and a time of day**: the month has the day, and the second may be a leap
second. -/
structure IsDate (c : Columns) : Prop where
  month : 1 ≤ c.month.value ∧ c.month.value ≤ 12
  day : 1 ≤ c.day.value ∧ c.day.value ≤ monthLength c.year.value c.month.value
  hour : c.hour.value ≤ 23
  minute : c.minute.value ≤ 59
  second : c.second.value ≤ 60

/-- What a clock shows that shows the columns. -/
def reading (c : Columns) : Reading :=
  ⟨⟨c.year.value, c.month.value, c.day.value⟩, c.hour.value, c.minute.value, c.second.value,
    c.milli.value⟩

variable {c : Columns}

theorem year_bounds (c : Columns) : 0 ≤ c.reading.date.year ∧ c.reading.date.year ≤ 9999 := by
  have hlt : c.year.value < 10000 := c.year.value_lt
  simp only [reading]
  omega

theorem isValid_iff : c.reading.IsValid ↔ c.IsDate := by
  constructor
  · rintro ⟨⟨hmonth, hmonth', hday, hday'⟩, hhour, hminute, hsecond, -⟩
    exact ⟨⟨hmonth, hmonth'⟩, ⟨hday, hday'⟩, hhour, hminute, hsecond⟩
  · rintro ⟨⟨hmonth, hmonth'⟩, ⟨hday, hday'⟩, hhour, hminute, hsecond⟩
    have hmilli : c.milli.value < 1000 := c.milli.value_lt
    exact ⟨⟨hmonth, hmonth', hday, hday'⟩, hhour, hminute, hsecond, Nat.le_of_lt_succ hmilli⟩

theorem dateText_reading (c : Columns) :
    c.reading.dateText = c.year.val ++ '-' :: (c.month.val ++ '-' :: c.day.val) := by
  have hyear : c.reading.date.year.natAbs = c.year.value := rfl
  rw [Reading.dateText, Reading.yearText_eq c.year_bounds, hyear, c.year.padded_value (by decide)]
  simp only [reading, c.month.padded_value (by decide), c.day.padded_value (by decide)]

theorem timeText_reading (c : Columns) :
    c.reading.timeText = c.hour.val ++ ':' :: (c.minute.val ++ ':' ::
      (c.second.val ++ '.' :: c.milli.val)) := by
  simp only [Reading.timeText, reading, c.hour.padded_value (by decide),
    c.minute.padded_value (by decide), c.second.padded_value (by decide),
    c.milli.padded_value (by decide)]

/-- **The columns are the text of their reading.** -/
theorem text_eq (c : Columns) : c.text = c.reading.dateText ++ ' ' :: c.reading.timeText := by
  simp only [text, dateText_reading, timeText_reading, List.append_assoc, List.cons_append]

theorem length_dateText (c : Columns) : c.reading.dateText.length = 10 := by
  simp only [dateText_reading, List.length_append, List.length_cons, c.year.property.1,
    c.month.property.1, c.day.property.1]

theorem length_timeText (c : Columns) : c.reading.timeText.length = 12 := by
  simp only [timeText_reading, List.length_append, List.length_cons, c.hour.property.1,
    c.minute.property.1, c.second.property.1, c.milli.property.1]

theorem take_text (c : Columns) : c.text.take 10 = c.reading.dateText := by
  rw [text_eq, ← c.length_dateText, List.take_left]

theorem drop_text (c : Columns) : c.text.drop (c.text.length - 12) = c.reading.timeText := by
  have hsplit : c.text = (c.reading.dateText ++ [' ']) ++ c.reading.timeText := by
    rw [text_eq, List.append_assoc, List.singleton_append]
  rw [hsplit, List.length_append, c.length_timeText, Nat.add_sub_cancel, List.drop_left]

end Columns

/-! ### Reading columns -/

/-- **Absolute dates are read from the columns of a date and from nothing else.** -/
theorem readReading?_eq_some_iff {cs : List Char} {r : Reading} :
    readReading? cs = some r ↔ ∃ c : Columns, c.IsDate ∧ c.text = cs ∧ c.reading = r := by
  constructor
  · intro h
    have hvalid := readReading?_isValid h
    unfold readReading? at h
    split at h
    · next y₁ y₂ y₃ y₄ o₁ o₂ d₁ d₂ h₁ h₂ m₁ m₂ s₁ s₂ f₁ f₂ f₃ =>
      obtain ⟨hdigits, h⟩ := Option.ite_none_right_eq_some.1 h
      obtain ⟨-, h⟩ := Option.ite_none_right_eq_some.1 h
      have hdigits (cs : List Char)
        (hcs : cs ⊆ [y₁, y₂, y₃, y₄, o₁, o₂, d₁, d₂, h₁, h₂, m₁, m₂, s₁, s₂, f₁, f₂, f₃]) :
          ∀ c ∈ cs, c.isDigit = true := fun c hc => List.all_eq_true.1 hdigits c (hcs hc)
      let c : Columns :=
        { year := .ofDigits [y₁, y₂, y₃, y₄] rfl (hdigits _ (by simp))
          month := .ofDigits [o₁, o₂] rfl (hdigits _ (by simp))
          day := .ofDigits [d₁, d₂] rfl (hdigits _ (by simp))
          hour := .ofDigits [h₁, h₂] rfl (hdigits _ (by simp))
          minute := .ofDigits [m₁, m₂] rfl (hdigits _ (by simp))
          second := .ofDigits [s₁, s₂] rfl (hdigits _ (by simp))
          milli := .ofDigits [f₁, f₂, f₃] rfl (hdigits _ (by simp)) }
      have hreading : c.reading = r := Option.some.inj h
      rw [← hreading] at hvalid
      exact ⟨c, Columns.isValid_iff.1 hvalid, rfl, hreading⟩
    · cases h
  · rintro ⟨c, hdate, rfl, rfl⟩
    rw [c.text_eq]
    exact Reading.readReading?_text (Columns.isValid_iff.2 hdate) c.year_bounds

/-- **The texts of absolute dates.** -/
def IsAbsolute (s : String) : Prop := ∃ c : Columns, c.IsDate ∧ c.text = s.toList

/-! ### The pattern of relative dates -/

/-- **The pattern of relative dates**: an anchor, alone or with a sign, decimal digits of any script
and the letter of a unit. A text of this pattern is not looked at as an absolute date, also where
its number cannot be read. -/
def RelativePattern (s : String) : Prop :=
  ∃ anchor : Anchor, s = anchor.word ∨ ∃ negative digits letter, digits ≠ [] ∧
    (∀ c ∈ digits, Text.isDecimalDigit c = true) ∧ letter ∈ ['s', 'm', 'h', 'd', 'w', 'M', 'y'] ∧
    s = offsetText anchor negative digits letter

theorem isDecimalDigit_of_isDigit {c : Char} (h : c.isDigit = true) :
    Text.isDecimalDigit c = true := by
  have hcode := Text.toNat_of_isDigit h
  rw [Text.isDecimalDigit, if_pos (by omega), h]

theorem mem_letters {letter : Char} {unit : TimeUnit} (h : TimeUnit.ofLetter? letter = some unit) :
    letter ∈ ['s', 'm', 'h', 'd', 'w', 'M', 'y'] := by
  unfold TimeUnit.ofLetter? at h
  split at h
  case h_8 => cases h
  all_goals decide

theorem RelativeText.pattern {s : String} {anchor : Anchor} {offset : Option Offset}
    (h : RelativeText s anchor offset) : RelativePattern s := by
  cases h with
  | plain => exact ⟨anchor, .inl rfl⟩
  | offset anchor negative hdigits hunit =>
    have hdecimal := fun c hc => isDecimalDigit_of_isDigit (hdigits.isDigit c hc)
    exact ⟨anchor, .inr ⟨negative, _, _, hdigits.1, hdecimal, mem_letters hunit, rfl⟩⟩

/-- A relative date begins with a letter. -/
theorem RelativePattern.head {s : String} (h : RelativePattern s) :
    s.toList.head? = some 'n' ∨ s.toList.head? = some 't' := by
  obtain ⟨anchor, rfl | ⟨negative, digits, letter, -, -, -, rfl⟩⟩ := h
  · cases anchor
    · exact .inl rfl
    · exact .inr rfl
  · rw [offsetText, String.toList_append]
    cases anchor
    · exact .inl rfl
    · exact .inr rfl

/-! ### Resolved as written -/

/-- Where no relative date is read, a date resolves if it is read as an absolute one. -/
theorem resolveDate?_absolute {now : Instant} {zone : Zone} {s : String} (hs : ¬RelativePattern s) :
    resolveDate? now zone s = (readReading? s.toList).map fun r => r.text zone := by
  have hrelative : readRelative? s.toList = none := by
    rw [Option.eq_none_iff_forall_ne_some]
    intro l hl
    obtain ⟨anchor, offset, -, htext⟩ := relativeText_of_read hl
    exact hs htext.pattern
  rw [resolveDate?, DateLiteral.read?, hrelative]
  cases hread : readReading? s.toList with
  | none => rfl
  | some r =>
    -- UTC may be in another year, but a clock shows one reading at the moment
    obtain ⟨c, hdate, -, rfl⟩ := readReading?_eq_some_iff.1 hread
    have hvalid := Columns.isValid_iff.2 hdate
    obtain ⟨m, hm⟩ := Reading.exists_moment hvalid c.year_bounds zone
    have hshown := (Reading.moment?_shownAt hvalid hm).eq_reading
    simp only [Option.map_some, Option.bind_eq_bind, Option.bind_some, DateLiteral.resolve?, hm,
      ← hshown]

/-- **Absolute dates are accepted strictly and kept as they are written.** A text that is not of the
pattern of relative dates is resolved if it has the columns of a day of the calendar and a time of
day, in ASCII digits. The result is then the ten characters of the date, a `T`, the twelve
characters of the time and the offset of the zone, whatever the present instant is; every other text
is refused. -/
theorem absolute_date_verbatim (s : String) (hs : ¬RelativePattern s) (zone : Zone)
    (now : Instant) :
    let result := orError .invalidDate (resolveDate? now zone s)
    ((∃ out, result = .ok out) ↔ IsAbsolute s) ∧
      (IsAbsolute s → result =
        .ok (String.ofList (s.toList.take 10 ++ 'T' ::
          (s.toList.drop (s.toList.length - 12) ++ zone.text)))) ∧
      (¬IsAbsolute s → result = .error .invalidDate) := by
  intro result
  have hresult : result =
      orError .invalidDate ((readReading? s.toList).map fun r => r.text zone) := by
    rw [← resolveDate?_absolute hs]
  have haccepted (h : IsAbsolute s) : result =
      .ok (String.ofList (s.toList.take 10 ++ 'T' ::
          (s.toList.drop (s.toList.length - 12) ++ zone.text))) := by
    obtain ⟨c, hdate, htext⟩ := h
    rw [hresult, readReading?_eq_some_iff.2 ⟨c, hdate, htext, rfl⟩, ← htext, c.take_text,
      c.drop_text]
    rfl
  have hrefused (h : ¬IsAbsolute s) : result = .error .invalidDate := by
    have hnone : readReading? s.toList = none := by
      rw [Option.eq_none_iff_forall_ne_some]
      intro r hr
      obtain ⟨c, hdate, htext, -⟩ := readReading?_eq_some_iff.1 hr
      exact h ⟨c, hdate, htext⟩
    rw [hresult, hnone]
    rfl
  refine ⟨⟨?_, ?_⟩, haccepted, hrefused⟩
  · rintro ⟨out, hout⟩
    by_contra h
    rw [hrefused h] at hout
    cases hout
  · intro h
    exact ⟨_, haccepted h⟩

/-- A leap second that is in the year before 0 in UTC, a day that February has in leap years only,
and a digit of another script. -/
theorem absolute_date_verbatim_leap :
    let east : Zone := ⟨1439, by decide⟩
    let now : Instant := ⟨1710360000, 250000000⟩
    (¬RelativePattern "0000-01-01 00:00:60.999" ∧ IsAbsolute "0000-01-01 00:00:60.999" ∧
      orError .invalidDate (resolveDate? now east "0000-01-01 00:00:60.999") =
        .ok "0000-01-01T00:00:60.999+23:59") ∧
    ∀ s ∈ ["2023-02-29 00:00:00.000", "2024-02-29 00:00:00.00٣"], ¬RelativePattern s ∧
      ¬IsAbsolute s ∧ orError .invalidDate (resolveDate? now east s) = .error .invalidDate := by
  intro east now
  have hpattern : ∀ s ∈
      ["0000-01-01 00:00:60.999", "2023-02-29 00:00:00.000", "2024-02-29 00:00:00.00٣"],
      ¬RelativePattern s := by
    intro s hs hpattern
    simp only [List.mem_cons, List.not_mem_nil, or_false] at hs
    rcases hs with rfl | rfl | rfl
    all_goals exact absurd hpattern.head (by decide)
  constructor
  · have hs := hpattern "0000-01-01 00:00:60.999" (by simp)
    have hread : readReading? "0000-01-01 00:00:60.999".toList =
        some ⟨⟨0, 1, 1⟩, 0, 0, 60, 999⟩ := by decide
    obtain ⟨c, hdate, htext, -⟩ := readReading?_eq_some_iff.1 hread
    have hresult := (absolute_date_verbatim _ hs east now).2.1 ⟨c, hdate, htext⟩
    rw [show String.ofList _ = "0000-01-01T00:00:60.999+23:59" by decide] at hresult
    exact ⟨hs, ⟨c, hdate, htext⟩, hresult⟩
  · intro s hs
    have hread : readReading? s.toList = none := by
      simp only [List.mem_cons, List.not_mem_nil, or_false] at hs
      rcases hs with rfl | rfl
      all_goals decide
    have habsolute : ¬IsAbsolute s := by
      rintro ⟨c, hdate, htext⟩
      rw [readReading?_eq_some_iff.2 ⟨c, hdate, htext, rfl⟩] at hread
      cases hread
    have hs := hpattern s (List.mem_cons_of_mem _ hs)
    exact ⟨hs, habsolute, (absolute_date_verbatim s hs east now).2.2 habsolute⟩

end Sift.Time
