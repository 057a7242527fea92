import Mathlib.Order.Monotone.Basic
import Mathlib.Tactic.IntervalCases
import Spreadsheet.Calendar.Date

/-!
# Days in order

Months are numbered through the years, and the days before a month grow by the days of the month
(`daysBeforeMonth_succ`).  So the number of a day grows with the date (`Date.dayNumber_lt_iff`), by one from a day to
the next one (`Date.dayNumber_next`), and no two dates share a number.
-/

namespace Spreadsheet.Calendar

/-! ### Years -/

private theorem isLeap_iff (year : Int) : isLeap year = true ↔ year % 4 = 0 ∧ (year % 100 ≠ 0 ∨ year % 400 = 0) := by
  simp [isLeap]

private theorem daysBeforeYear_succ (year : Int) :
    daysBeforeYear (year + 1) = daysBeforeYear year + if isLeap year then 366 else 365 := by
  unfold daysBeforeYear
  dsimp only
  split
  · rename_i h
    have hleap := (isLeap_iff year).1 h
    omega
  · rename_i h
    have hleap := mt (isLeap_iff year).2 h
    omega

/-! ### Months -/

private theorem daysInMonth_pos (year : Int) (month : Nat) : 0 < daysInMonth year month := by
  unfold daysInMonth
  split
  · split <;> decide
  all_goals decide

/-- Days of all months before one, counted as those of years are.  Months are numbered through the years, January of
year zero being number zero. -/
def daysBeforeMonth (n : Int) : Int :=
  (⟨n / 12, (n % 12).toNat + 1, 0⟩ : Date).dayNumber

def monthLength (n : Int) : Nat :=
  daysInMonth (n / 12) ((n % 12).toNat + 1)

private theorem daysBeforeMonth_eq (n : Int) :
    daysBeforeMonth n = daysBeforeYear (n / 12) + daysBefore ((n % 12).toNat + 1) +
      if (n % 12).toNat + 1 > 2 && isLeap (n / 12) then 1 else 0 :=
  Int.add_zero _

/-- The step from one month to the next.  From December it leads into the next year. -/
theorem daysBeforeMonth_succ (n : Int) : daysBeforeMonth (n + 1) = daysBeforeMonth n + monthLength n := by
  rw [daysBeforeMonth_eq, daysBeforeMonth_eq, monthLength]
  by_cases hdecember : n % 12 = 11
  · rw [show (n + 1) / 12 = n / 12 + 1 by omega, show (n + 1) % 12 = 0 by omega, hdecember, daysBeforeYear_succ]
    cases hleap : isLeap (n / 12) <;> simp [daysBefore, daysInMonth] <;> omega
  · rw [show (n + 1) / 12 = n / 12 by omega, show ((n + 1) % 12).toNat = (n % 12).toNat + 1 by omega]
    have hmonth : (n % 12).toNat < 11 := by omega
    generalize (n % 12).toNat = month at hmonth
    -- The leap day stands in the steps from February on.
    interval_cases month <;> cases hleap : isLeap (n / 12) <;> simp [daysBefore, daysInMonth, hleap] <;> omega

private theorem daysBeforeMonth_mono {m n : Int} (h : m ≤ n) : daysBeforeMonth m ≤ daysBeforeMonth n := by
  refine monotone_int_of_le_succ (fun k => ?_) h
  have hsucc := daysBeforeMonth_succ k
  omega

/-! ### Days -/

namespace Date

/-- The number of the month, counted through the years. -/
def monthNumber (d : Date) : Int :=
  12 * d.year + (d.month - 1)

variable {d e : Date}

private theorem monthNumber_div (hd : d.Valid) : d.monthNumber / 12 = d.year := by
  obtain ⟨hlow, hhigh, -, -⟩ := hd
  unfold monthNumber
  omega

private theorem monthNumber_mod (hd : d.Valid) : (d.monthNumber % 12).toNat + 1 = d.month := by
  obtain ⟨hlow, hhigh, -, -⟩ := hd
  unfold monthNumber
  omega

private theorem dayNumber_eq (hd : d.Valid) : d.dayNumber = daysBeforeMonth d.monthNumber + d.day := by
  rw [daysBeforeMonth_eq, monthNumber_div hd, monthNumber_mod hd]
  rfl

private theorem monthLength_monthNumber (hd : d.Valid) : monthLength d.monthNumber = daysInMonth d.year d.month := by
  rw [monthLength, monthNumber_div hd, monthNumber_mod hd]

private theorem before_iff (hd : d.Valid) (he : e.Valid) :
    d.Before e ↔ d.monthNumber < e.monthNumber ∨ d.monthNumber = e.monthNumber ∧ d.day < e.day := by
  obtain ⟨hd, hd', -, -⟩ := hd
  obtain ⟨he, he', -, -⟩ := he
  unfold Before monthNumber
  omega

private theorem before_or_eq_or_before (d e : Date) : d.Before e ∨ d = e ∨ e.Before d := by
  obtain ⟨year, month, day⟩ := d
  obtain ⟨year', month', day'⟩ := e
  simp only [Before, Date.mk.injEq]
  omega

theorem dayNumber_lt (hd : d.Valid) (he : e.Valid) (h : d.Before e) : d.dayNumber < e.dayNumber := by
  rw [dayNumber_eq hd, dayNumber_eq he]
  rcases (before_iff hd he).1 h with hmonth | ⟨hmonth, hday⟩
  · have hle : daysBeforeMonth (d.monthNumber + 1) ≤ daysBeforeMonth e.monthNumber := daysBeforeMonth_mono hmonth
    have hsucc := daysBeforeMonth_succ d.monthNumber
    have hday : d.day ≤ monthLength d.monthNumber := monthLength_monthNumber hd ▸ hd.2.2.2
    have hpos := he.2.2.1
    omega
  · rw [hmonth]
    omega

/-- Days are numbered in their order. -/
theorem dayNumber_lt_iff (hd : d.Valid) (he : e.Valid) : d.dayNumber < e.dayNumber ↔ d.Before e := by
  refine ⟨fun h => ?_, dayNumber_lt hd he⟩
  rcases before_or_eq_or_before d e with hbefore | rfl | hafter
  · exact hbefore
  · exact absurd h (Int.lt_irrefl _)
  · exact absurd h (Int.not_lt.2 (Int.le_of_lt (dayNumber_lt he hd hafter)))

theorem dayNumber_inj (hd : d.Valid) (he : e.Valid) : d.dayNumber = e.dayNumber ↔ d = e := by
  refine ⟨fun h => ?_, fun h => h ▸ rfl⟩
  rcases before_or_eq_or_before d e with hbefore | heq | hafter
  · exact absurd h (Int.ne_of_lt (dayNumber_lt hd he hbefore))
  · exact heq
  · exact absurd h (Int.ne_of_gt (dayNumber_lt he hd hafter))

theorem valid_next (hd : d.Valid) : d.next.Valid := by
  obtain ⟨hlow, hhigh, -, hday⟩ := hd
  unfold next
  split
  · rename_i hshort
    exact ⟨hlow, hhigh, Nat.le_add_left 1 _, hshort⟩
  · split
    · rename_i hmonth
      exact ⟨Nat.le_add_left 1 _, hmonth, Nat.le_refl 1, daysInMonth_pos ..⟩
    · exact ⟨Nat.le_refl 1, Nat.le_add_left 1 11, Nat.le_refl 1, daysInMonth_pos ..⟩

/-- The next day is in the same month, or it is the first one of the next month. -/
private theorem monthNumber_next (hd : d.Valid) :
    d.next.monthNumber = d.monthNumber ∧ d.next.day = d.day + 1 ∨
      d.next.monthNumber = d.monthNumber + 1 ∧ d.next.day = 1 ∧ d.day = monthLength d.monthNumber := by
  have hday := hd.2.2.2
  rw [monthLength_monthNumber hd]
  unfold next monthNumber
  split
  · exact .inl ⟨rfl, rfl⟩
  · refine .inr ?_
    have hhigh := hd.2.1
    split <;> simp only [true_and] <;> omega

theorem dayNumber_next (hd : d.Valid) : d.next.dayNumber = d.dayNumber + 1 := by
  rw [dayNumber_eq hd, dayNumber_eq (valid_next hd)]
  rcases monthNumber_next hd with ⟨hmonth, hday⟩ | ⟨hmonth, hday, hlast⟩
  · rw [hmonth, hday]
    omega
  · rw [hmonth, hday, hlast, daysBeforeMonth_succ]
    omega

theorem before_next (hd : d.Valid) : d.Before d.next :=
  (dayNumber_lt_iff hd (valid_next hd)).1 (dayNumber_next hd ▸ Int.lt_succ _)

/-- There is no day between one and the next. -/
theorem next_eq_or_before (hd : d.Valid) (he : e.Valid) (h : d.Before e) : d.next = e ∨ d.next.Before e := by
  have hlt := dayNumber_lt hd he h
  have hnext := dayNumber_next hd
  rw [← dayNumber_inj (valid_next hd) he, ← dayNumber_lt_iff (valid_next hd) he]
  omega

end Date

end Spreadsheet.Calendar
