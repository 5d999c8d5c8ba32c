import PrimScript.Decimal.Expansion

/-! Dates of the calendar, from the days since the first of January 1970. -/

namespace PrimScript.Calendar

structure Date where
  year : Nat
  month : Nat
  day : Nat
  deriving DecidableEq, Repr

/-- The date of a day.  Years are counted from March, so that the leap day is the last of its
year. -/
def ofDays (days : Nat) : Date :=
  let d := days + 719468
  let era := d / 146097
  let inEra := d % 146097
  let year := (inEra - inEra / 1460 + inEra / 36524 - inEra / 146096) / 365
  let inYear := inEra - (365 * year + year / 4 - year / 100)
  let month := (5 * inYear + 2) / 153
  let day := inYear - (153 * month + 2) / 5 + 1
  let year := year + era * 400
  if month < 10 then ⟨year, month + 3, day⟩ else ⟨year + 1, month - 9, day⟩

def Date.chars (d : Date) : List Char :=
  Decimal.digitsPadded 4 d.year ++ '-' :: Decimal.digitsPadded 2 d.month ++
    '-' :: Decimal.digitsPadded 2 d.day

def timeChars (seconds micros : Nat) : List Char :=
  Decimal.digitsPadded 2 (seconds / 3600) ++ ':' :: Decimal.digitsPadded 2 (seconds / 60 % 60) ++
    ':' :: Decimal.digitsPadded 2 (seconds % 60) ++ '.' :: Decimal.digitsPadded 6 micros

end PrimScript.Calendar
