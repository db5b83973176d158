import Sift.Text.Number

/-!
# Time zones

A zone is a fixed offset from UTC of less than a day, in whole minutes. It is written `Z` or
`±HH:MM`.

* `Zone.read?`, `Zone.text`: reading and writing a zone.
-/

namespace Sift.Time

open Text (digitsValue padded)

/-- An offset in minutes east of UTC. -/
structure Zone where
  minutes : Int
  lt_day : minutes.natAbs < 24 * 60
deriving DecidableEq

namespace Zone

/-- No offset. -/
def utc : Zone := ⟨0, by decide⟩

instance : Inhabited Zone := ⟨utc⟩

/-- The offset in seconds. -/
def seconds (z : Zone) : Int := 60 * z.minutes

/-- The zone with the given sign, hours and minutes. -/
def ofParts? (west : Bool) (hours minutes : Nat) : Option Zone :=
  if h : hours ≤ 23 ∧ minutes ≤ 59 then
    let total := 60 * hours + minutes
    some ⟨if west then -(total : Int) else total, by
      simp only [total]
      split <;> omega⟩
  else none

/-- Two digits for the hours, a colon and two digits for the minutes. -/
def readParts? (west : Bool) : List Char → Option Zone
  | [h₁, h₂, ':', m₁, m₂] =>
    if [h₁, h₂, m₁, m₂].all Char.isDigit
      then ofParts? west (digitsValue [h₁, h₂]) (digitsValue [m₁, m₂])
    else none
  | _ => none

/-- The zone written in a text: `Z`, or a sign, hours and minutes. -/
def read? (s : String) : Option Zone :=
  match s.toList with
  | ['Z'] => some utc
  | '+' :: cs => readParts? false cs
  | '-' :: cs => readParts? true cs
  | _ => none

/-- The offset as a sign, hours and minutes. -/
def text (z : Zone) : List Char :=
  (if z.minutes < 0 then '-' else '+') ::
    (padded 2 (z.minutes.natAbs / 60) ++ ':' :: padded 2 (z.minutes.natAbs % 60))

end Zone

end Sift.Time
