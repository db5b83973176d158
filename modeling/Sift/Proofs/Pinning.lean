import Mathlib.Data.List.Basic
import Sift.Proofs.RelativeDate

/-!
# Dates pinned to a reading

What a date resolves to is written in the same columns as an absolute date. So a date can be pinned:
its resolved text, without the offset and with a blank for the `T`, is an absolute date that stands
for the same text at every instant, in leap years, in the year 0 and in leap seconds as well.

* `readReading?_isValid`, `readReading?_text`: absolute dates are valid readings, and valid readings
  in the years 0 to 9999 are absolute dates.
* `resolveDate?_isValid`: a date resolves to a valid reading.
* `pinned_text`: the text of a reading, pinned.
* `resolved_date_pinned`: **a pinned date resolves to the same text at every instant.**
-/

namespace Sift.Time

open Text (digitsValue padded)

/-! ### Readings in fixed columns -/

theorem readReading?_isValid {cs : List Char} {r : Reading} (h : readReading? cs = some r) :
    r.IsValid := by
  unfold readReading? at h
  split at h
  · obtain ⟨-, h⟩ := Option.ite_none_right_eq_some.1 h
    obtain ⟨hvalid, h⟩ := Option.ite_none_right_eq_some.1 h
    obtain rfl := Option.some.inj h
    exact hvalid
  · exact nomatch h

namespace Reading

variable {r : Reading} {zone : Zone}

theorem yearText_eq (h : 0 ≤ r.date.year ∧ r.date.year ≤ 9999) :
    yearText r.date.year = padded 4 r.date.year.natAbs := by
  rw [yearText]
  simp only [Int.not_lt.2 h.1, Int.not_lt.2 h.2, if_false]

/-- **A reading in the years 0 to 9999 is an absolute date**, with a blank between date and time. -/
theorem readReading?_text (h : r.IsValid) (hyear : 0 ≤ r.date.year ∧ r.date.year ≤ 9999) :
    readReading? (r.dateText ++ ' ' :: r.timeText) = some r := by
  have hvalid := h
  obtain ⟨⟨hmonth, hmonth', hday, hday'⟩, hhour, hminute, hsecond, hmilli⟩ := h
  have hlength := (monthLength_bounds r.date.year r.date.month).2
  have hwidth : ∀ n, n < 100 → (padded 2 n).length = 2 :=
    fun n hn => Text.length_padded (by decide) hn
  -- the columns of the text, one character each
  obtain ⟨y₁, y₂, y₃, y₄, hy⟩ := List.length_eq_four.1
    (Text.length_padded (by decide) (show r.date.year.natAbs < Nat.pow 10 4
      from Nat.lt_succ_of_le (by omega)))
  obtain ⟨o₁, o₂, ho⟩ := List.length_eq_two.1 (hwidth r.date.month (by omega))
  obtain ⟨d₁, d₂, hd⟩ := List.length_eq_two.1 (hwidth r.date.day (by omega))
  obtain ⟨h₁, h₂, hh⟩ := List.length_eq_two.1 (hwidth r.hour (by omega))
  obtain ⟨m₁, m₂, hm⟩ := List.length_eq_two.1 (hwidth r.minute (by omega))
  obtain ⟨s₁, s₂, hs⟩ := List.length_eq_two.1 (hwidth r.second (by omega))
  obtain ⟨f₁, f₂, f₃, hf⟩ := List.length_eq_three.1
    (Text.length_padded (by decide) (show r.milli < Nat.pow 10 3 from Nat.lt_succ_of_le hmilli))
  have hdigits : ([y₁, y₂, y₃, y₄] ++ ([o₁, o₂] ++ ([d₁, d₂] ++
      ([h₁, h₂] ++ ([m₁, m₂] ++ ([s₁, s₂] ++ [f₁, f₂, f₃])))))).all Char.isDigit = true := by
    rw [← hy, ← ho, ← hd, ← hh, ← hm, ← hs, ← hf]
    simp only [List.all_append, List.all_eq_true.2 (Text.padded_isDigit _ _), Bool.and_self]
  have hvalues : (⟨⟨digitsValue [y₁, y₂, y₃, y₄], digitsValue [o₁, o₂], digitsValue [d₁, d₂]⟩,
      digitsValue [h₁, h₂], digitsValue [m₁, m₂], digitsValue [s₁, s₂],
      digitsValue [f₁, f₂, f₃]⟩ : Reading) = r := by
    rw [← hy, ← ho, ← hd, ← hh, ← hm, ← hs, ← hf]
    simp only [Text.digitsValue_padded, Int.natAbs_of_nonneg hyear.1]
  rw [dateText, timeText, yearText_eq hyear, hy, ho, hd, hh, hm, hs, hf]
  refine (if_pos hdigits).trans ?_
  rw [← hvalues] at hvalid
  exact (if_pos hvalid).trans (congrArg some hvalues)

/-- A year outside 0 to 9999 is written with a sign. -/
theorem year_of_text (hfirst : ∃ c ∈ (r.text zone).toList.head?, c.isDigit = true) :
    0 ≤ r.date.year ∧ r.date.year ≤ 9999 := by
  obtain ⟨c, hc, hdigit⟩ := hfirst
  by_contra hyear
  have hsign : c = '-' ∨ c = '+' := by
    rw [text, dateText, yearText, String.toList_ofList] at hc
    by_cases hneg : r.date.year < 0
    · simp [hneg] at hc
      exact .inl hc.symm
    · simp [hneg, show 9999 < r.date.year by omega] at hc
      exact .inr hc.symm
  rcases hsign with rfl | rfl
  · exact absurd hdigit (by decide)
  · exact absurd hdigit (by decide)

end Reading

/-! ### Resolved dates -/

theorem readRelative?_eq_some {cs : List Char} {l : DateLiteral} (h : readRelative? cs = some l) :
    ∃ anchor offset, l = .relative anchor offset := by
  unfold readRelative? at h
  split at h
  · obtain ⟨offset, -, rfl⟩ := Option.map_eq_some_iff.1 h
    exact ⟨.now, offset, rfl⟩
  · obtain ⟨offset, -, rfl⟩ := Option.map_eq_some_iff.1 h
    exact ⟨.today, offset, rfl⟩
  · exact nomatch h

/-- An absolute date is a valid reading. -/
theorem read?_isValid {s : String} {r : Reading} (h : DateLiteral.read? s = some (.absolute r)) :
    r.IsValid := by
  rw [DateLiteral.read?] at h
  split at h
  · next l hrelative =>
    obtain ⟨anchor, offset, rfl⟩ := readRelative?_eq_some hrelative
    cases h
  · obtain ⟨r', hread, heq⟩ := Option.map_eq_some_iff.1 h
    obtain rfl := DateLiteral.absolute.inj heq
    exact readReading?_isValid hread

/-- **A date resolves to a valid reading**: an instant is shown by a clock, and an absolute date is
shown at its own moment. -/
theorem resolveDate?_isValid {now : Instant} {zone : Zone} {s out : String}
    (h : resolveDate? now zone s = some out) :
    ∃ r : Reading, r.IsValid ∧ out = r.text zone := by
  obtain ⟨literal, hread, h⟩ := Option.bind_eq_some_iff.1 h
  obtain ⟨m, hm, h⟩ := Option.bind_eq_some_iff.1 h
  obtain rfl := Option.some.inj h
  refine ⟨m.reading zone, ?_, rfl⟩
  cases literal with
  | relative anchor offset =>
    obtain ⟨start, -, hm⟩ := Option.bind_eq_some_iff.1 hm
    obtain ⟨i, -, hm⟩ := Option.bind_eq_some_iff.1 hm
    obtain rfl := Option.some.inj hm
    exact Reading.reading_isValid i zone
  | absolute r =>
    have hvalid := read?_isValid hread
    rw [← (Reading.moment?_shownAt hvalid hm).eq_reading]
    exact hvalid

/-! ### Pinning -/

/-- **A resolved date, pinned**: a blank for the `T`, and without the six characters of the
offset. -/
def pinned (out : String) : String :=
  String.ofList ((out.toList.take (out.toList.length - 6)).map fun c => if c = 'T' then ' ' else c)

theorem Zone.length_text (zone : Zone) : zone.text.length = 6 := by
  have hlt := zone.lt_day
  have hhours :=
    Text.length_padded (by decide) (show zone.minutes.natAbs / 60 < Nat.pow 10 2 from by
    show _ < 100
    omega)
  have hminutes :=
    Text.length_padded (by decide) (show zone.minutes.natAbs % 60 < Nat.pow 10 2 from by
    show _ < 100
    omega)
  simp only [Zone.text, List.length_cons, List.length_append, hhours, hminutes]

/-- Digits and signs are kept when a date is pinned. -/
theorem map_pinned {cs : List Char} (h : 'T' ∉ cs) :
    cs.map (fun c => if c = 'T' then ' ' else c) = cs := by
  refine (List.map_congr_left ?_).trans (List.map_id cs)
  intro c hc
  have hne : c ≠ 'T' := by
    rintro rfl
    exact h hc
  exact if_neg hne

theorem not_mem_padded (width n : Nat) : 'T' ∉ padded width n := fun hmem =>
  absurd (Text.padded_isDigit width n _ hmem) (by decide)

theorem not_mem_dateText (r : Reading) : 'T' ∉ r.dateText := by
  have hyear : 'T' ∉ Reading.yearText r.date.year := by
    rw [Reading.yearText]
    split
    · simp [not_mem_padded]
    · split <;> simp [not_mem_padded]
  simp [Reading.dateText, hyear, not_mem_padded]

theorem not_mem_timeText (r : Reading) : 'T' ∉ r.timeText := by
  simp [Reading.timeText, not_mem_padded]

/-- The text of a reading, pinned. -/
theorem pinned_text (r : Reading) (zone : Zone) :
    pinned (r.text zone) = String.ofList (r.dateText ++ ' ' :: r.timeText) := by
  have hsplit : r.dateText ++ 'T' :: (r.timeText ++ zone.text) =
      (r.dateText ++ 'T' :: r.timeText) ++ zone.text := by
    rw [List.append_assoc, List.cons_append]
  rw [pinned, Reading.text, String.toList_ofList, hsplit, List.length_append, zone.length_text,
    Nat.add_sub_cancel, List.take_left, List.map_append, List.map_cons,
    map_pinned (not_mem_dateText r), map_pinned (not_mem_timeText r)]
  rfl

/-- A text that begins with a digit is no relative date. -/
theorem readRelative?_eq_none_of_digit {cs : List Char} (h : ∃ c ∈ cs.head?, c.isDigit = true) :
    readRelative? cs = none := by
  obtain ⟨c, hc, hdigit⟩ := h
  unfold readRelative?
  split
  · obtain rfl : 'n' = c := by simpa using hc
    exact absurd hdigit (by decide)
  · obtain rfl : 't' = c := by simpa using hc
    exact absurd hdigit (by decide)
  · rfl

theorem head_dateText {r : Reading} (hyear : 0 ≤ r.date.year ∧ r.date.year ≤ 9999)
    (rest : List Char) :
    ∃ c ∈ (r.dateText ++ rest).head?, c.isDigit = true := by
  rw [Reading.dateText, Reading.yearText_eq hyear]
  cases hdigits : padded 4 r.date.year.natAbs with
  | nil =>
    have hlength := Text.length_padded (by decide)
      (show r.date.year.natAbs < Nat.pow 10 4 from Nat.lt_succ_of_le (by omega))
    rw [hdigits] at hlength
    exact nomatch hlength
  | cons c cs => exact ⟨c, rfl, Text.padded_isDigit 4 _ c (hdigits ▸ List.mem_cons_self)⟩

/-- The pinned text of a reading in the years 0 to 9999 is an absolute date. -/
theorem read?_pinned {r : Reading} (h : r.IsValid) (hyear : 0 ≤ r.date.year ∧ r.date.year ≤ 9999)
    (zone : Zone) :
    DateLiteral.read? (pinned (r.text zone)) = some (.absolute r) := by
  rw [pinned_text, DateLiteral.read?, String.toList_ofList,
    readRelative?_eq_none_of_digit (head_dateText hyear _), Reading.readReading?_text h hyear]
  rfl

/-- **Resolved dates can be pinned.** What a relative or an absolute date resolves to, with a blank
for the `T` and without the offset, is an absolute date itself and resolves to the same text in the
zone at every instant, provided that its year has four digits and no sign. -/
theorem resolved_date_pinned (now : Instant) (zone : Zone) (s out : String)
    (hout : resolveDate? now zone s = some out)
    (hyear : ∃ r : Reading, out = r.text zone ∧ 0 ≤ r.date.year ∧ r.date.year ≤ 9999) :
    (∃ r, DateLiteral.read? (pinned out) = some (.absolute r)) ∧
      ∀ other, resolveDate? other zone (pinned out) = some out := by
  obtain ⟨r, hvalid, rfl⟩ := resolveDate?_isValid hout
  have hyear : 0 ≤ r.date.year ∧ r.date.year ≤ 9999 := by
    obtain ⟨r', htext, hyear⟩ := hyear
    have hfirst : ∃ c ∈ (r.text zone).toList.head?, c.isDigit = true := by
      rw [htext, Reading.text, String.toList_ofList]
      exact head_dateText hyear _
    exact Reading.year_of_text hfirst
  have hread := read?_pinned hvalid hyear zone
  refine ⟨⟨r, hread⟩, ?_⟩
  intro other
  obtain ⟨m, hm⟩ := Reading.exists_moment hvalid hyear zone
  have hshown := (Reading.moment?_shownAt hvalid hm).eq_reading
  rw [resolveDate?, hread]
  simp only [Option.bind_eq_bind, Option.bind_some, DateLiteral.resolve?, hm, ← hshown]

/-- A leap second of the year 0 that is in the year before in UTC, and a day that February has in
leap years. -/
theorem resolved_date_pinned_leap :
    let east : Zone := ⟨1439, by decide⟩
    let now : Instant := ⟨1711828800, 250000000⟩
    (resolveDate? now east "0000-01-01 00:00:60.999" = some "0000-01-01T00:00:60.999+23:59" ∧
      ∀ other, resolveDate? other east (pinned "0000-01-01T00:00:60.999+23:59") =
        some "0000-01-01T00:00:60.999+23:59") ∧
    resolveDate? now .utc "now-1M" = some "2024-02-29T20:00:00.250+00:00" ∧
      ∀ other, resolveDate? other .utc (pinned "2024-02-29T20:00:00.250+00:00") =
        some "2024-02-29T20:00:00.250+00:00" := by
  intro east now
  have hleap : resolveDate? now east "0000-01-01 00:00:60.999" =
      some "0000-01-01T00:00:60.999+23:59" := by decide
  have hmonth : resolveDate? now .utc "now-1M" = some "2024-02-29T20:00:00.250+00:00" := by decide
  have hleapYear := resolved_date_pinned now east _ _ hleap
    ⟨⟨⟨0, 1, 1⟩, 0, 0, 60, 999⟩, by decide, by decide, by decide⟩
  have hmonthYear := resolved_date_pinned now .utc _ _ hmonth
    ⟨⟨⟨2024, 2, 29⟩, 20, 0, 0, 250⟩, by decide, by decide, by decide⟩
  exact ⟨⟨hleap, hleapYear.2⟩, hmonth, hmonthYear.2⟩

end Sift.Time
