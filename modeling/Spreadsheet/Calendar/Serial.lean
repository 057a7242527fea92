import Spreadsheet.Calendar.Date

/-!
# Serial numbers

A date in a cell is a number of days. In the 1900 system 1900-01-01 is day 1 and the count goes on as if 1900 had had a
29th of February, which is day 60. In the 1904 system 1904-01-01 is day 0 and no day is counted that never was.
-/

namespace Spreadsheet.Calendar

/-- The two conventions for counting days. -/
inductive DateSystem where
  | from1900
  | from1904
deriving DecidableEq, Repr

/-- The day count of a date; days before the first one are zero or negative. -/
def DateSystem.serial : DateSystem → Date → Int
  | .from1900, d =>
    let days := d.dayNumber - (⟨1899, 12, 31⟩ : Date).dayNumber
    if d.year > 1900 || (d.year == 1900 && d.month > 2) then days + 1 else days
  | .from1904, d => d.dayNumber - (⟨1904, 1, 1⟩ : Date).dayNumber

/-- The day count as the number that a cell holds. -/
def DateSystem.serialNumber (s : DateSystem) (d : Date) : Float :=
  Float.ofInt (s.serial d)

end Spreadsheet.Calendar
