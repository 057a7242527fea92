import Spreadsheet.Proofs.Calendar.DayNumber
import Spreadsheet.Proofs.Number.Integer

/-!
# Serial numbers in order

Both systems count on from a base, and the 1900 system has one number more from 1900-03-01 on (`serial_from1900`), the
first date whose year and month say so.
-/

namespace Spreadsheet.Calendar

open Number

namespace DateSystem

variable {d e : Date}

private theorem serial_from1904 (d : Date) : from1904.serial d = d.dayNumber - 695056 :=
  rfl

/-- Year and month tell the days in front of 1900-03-01 from those after it. -/
private theorem from_march_iff (hd : d.Valid) :
    (d.year > 1900 || (d.year == 1900 && d.month > 2)) = true ↔ ¬ d.Before ⟨1900, 3, 1⟩ := by
  have hday := hd.2.2.1
  simp only [Bool.or_eq_true, Bool.and_eq_true, decide_eq_true_eq, beq_iff_eq, Date.Before]
  omega

theorem serial_from1900 (hd : d.Valid) :
    from1900.serial d = d.dayNumber - 693595 + if d.dayNumber < 693655 then 0 else 1 := by
  have hmarch : d.Before ⟨1900, 3, 1⟩ ↔ d.dayNumber < 693655 := (Date.dayNumber_lt_iff hd (by decide)).symm
  unfold serial
  dsimp only
  by_cases h : d.dayNumber < 693655
  · rw [if_neg (fun hafter => (from_march_iff hd).1 hafter (hmarch.2 h)), if_pos h]
    exact (Int.add_zero _).symm
  · rw [if_pos ((from_march_iff hd).2 (mt hmarch.1 h)), if_neg h]
    rfl

private theorem serial_lt (sys : DateSystem) (hd : d.Valid) (he : e.Valid) (h : d.Before e) :
    sys.serial d < sys.serial e := by
  have hlt := Date.dayNumber_lt hd he h
  cases sys with
  | from1900 =>
    rw [serial_from1900 hd, serial_from1900 he]
    split <;> split <;> omega
  | from1904 =>
    rw [serial_from1904, serial_from1904]
    omega

/-- The one step that skips a number is that from the last of February 1900. -/
private theorem serial_next (sys : DateSystem) (hd : d.Valid) :
    sys.serial d.next = sys.serial d + if sys = .from1900 ∧ d = ⟨1900, 2, 28⟩ then 2 else 1 := by
  have hnext := Date.dayNumber_next hd
  cases sys with
  | from1900 =>
    have hlast : from1900 = from1900 ∧ d = ⟨1900, 2, 28⟩ ↔ d.dayNumber = 693654 :=
      (and_iff_right rfl).trans (Date.dayNumber_inj hd (by decide)).symm
    rw [serial_from1900 hd, serial_from1900 (Date.valid_next hd), hnext, if_congr hlast rfl rfl]
    split <;> split <;> split <;> omega
  | from1904 =>
    rw [serial_from1904, serial_from1904, hnext, if_neg (fun h => nomatch h.1)]
    omega

private theorem serial_ne_sixty (hd : d.Valid) : from1900.serial d ≠ 60 := by
  rw [serial_from1900 hd]
  split <;> omega

private theorem serial_from1900_eq (hd : d.Valid) :
    from1900.serial d = from1904.serial d + if d.Before ⟨1900, 3, 1⟩ then 1461 else 1462 := by
  have hmarch : d.Before ⟨1900, 3, 1⟩ ↔ d.dayNumber < 693655 := (Date.dayNumber_lt_iff hd (by decide)).symm
  rw [serial_from1900 hd, serial_from1904, if_congr hmarch rfl rfl]
  split <;> omega

private theorem exactValue_serialNumber (sys : DateSystem) (hyear : yearInRange d.year) (hd : d.Valid) :
    exactValue (sys.serialNumber d) = sys.serial d :=
  exactValue_ofInt (natAbs_serial_lt sys hyear hd)

private theorem isFinite_serialNumber (sys : DateSystem) (hyear : yearInRange d.year) (hd : d.Valid) :
    (sys.serialNumber d).isFinite :=
  isFinite_ofInt (natAbs_serial_lt sys hyear hd)

private theorem serialNumber_lt (sys : DateSystem) (hyear : yearInRange d.year) (hyear' : yearInRange e.year)
    (hd : d.Valid) (he : e.Valid) (h : d.Before e) : sys.serialNumber d < sys.serialNumber e := by
  rw [lt_iff_exactValue (isFinite_serialNumber sys hyear hd) (isFinite_serialNumber sys hyear' he),
    exactValue_serialNumber sys hyear hd, exactValue_serialNumber sys hyear' he, Int.cast_lt]
  exact serial_lt sys hd he h

/-! ### All dates -/

/-- Serial numbers increase with the date in both systems, by one from each day to the next.  The 1900 system skips
number 60 after 1900-02-28, so that it is ahead of the other one by a day more from then on.  In a cell the numbers of
dates that can be read are exact. -/
theorem serials_increase (sys : DateSystem) {d e : Date} (hd : d.Valid) (he : e.Valid) :
    (d.Before e → sys.serial d < sys.serial e) ∧
      (d.next.Valid ∧ d.Before d.next ∧ (d.Before e → d.next = e ∨ d.next.Before e)) ∧
      sys.serial d.next = sys.serial d + (if sys = .from1900 ∧ d = ⟨1900, 2, 28⟩ then 2 else 1) ∧
      from1900.serial d ≠ 60 ∧
      from1900.serial d = from1904.serial d + (if d.Before ⟨1900, 3, 1⟩ then 1461 else 1462) ∧
      (yearInRange d.year → exactValue (sys.serialNumber d) = sys.serial d) ∧
      (yearInRange d.year → yearInRange e.year → d.Before e → sys.serialNumber d < sys.serialNumber e) :=
  ⟨serial_lt sys hd he,
    ⟨Date.valid_next hd, Date.before_next hd, Date.next_eq_or_before hd he⟩,
    serial_next sys hd,
    serial_ne_sixty hd,
    serial_from1900_eq hd,
    fun hyear => exactValue_serialNumber sys hyear hd,
    fun hyear hyear' => serialNumber_lt sys hyear hyear' hd he⟩

theorem serials_increase_february1900 :
    from1900.serial ⟨1900, 2, 28⟩ = 59 ∧ from1900.serial ⟨1900, 3, 1⟩ = 61 ∧
      from1904.serial ⟨1900, 2, 28⟩ = -1402 ∧
      exactValue (from1900.serialNumber ⟨1900, 2, 28⟩) = 59 ∧
      from1900.serialNumber ⟨1900, 2, 28⟩ < from1900.serialNumber ⟨1900, 3, 1⟩ := by
  have hserial : from1900.serial ⟨1900, 2, 28⟩ = 59 := by decide
  obtain ⟨-, -, hnext, -, hsystems, hvalue, hlt⟩ :=
    serials_increase .from1900 (d := ⟨1900, 2, 28⟩) (e := ⟨1900, 3, 1⟩) (by decide) (by decide)
  rw [hserial, if_pos ⟨rfl, rfl⟩] at hnext
  rw [hserial, if_pos (by decide)] at hsystems
  have hvalue := hvalue (by decide)
  rw [hserial] at hvalue
  exact ⟨hserial, hnext, by omega, hvalue, hlt (by decide) (by decide) (by decide)⟩

end DateSystem

end Spreadsheet.Calendar
