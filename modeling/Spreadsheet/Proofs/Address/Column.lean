import Mathlib.Data.List.Induction
import Mathlib.Data.Nat.Digits.Defs
import Spreadsheet.Address.Column
import Spreadsheet.Proofs.Text.Ascii

/-!
# Bijective base 26

The letters of a column are its numeral in base 26 with the digits 1 to 26.  Every positive number has exactly one such
numeral in capital letters (`number_numeral`, `numeral_number`).  Reading letters stops at the first number beyond the
last column, which changes nothing because the numbers only grow (`read_eq_ok_iff`).
-/

namespace Spreadsheet.Column

/-- The number of a column: what each letter counts, times a power of 26 for each letter behind it. -/
def number (s : List Char) : Nat :=
  Nat.ofDigits 26 (s.map letterValue).reverse

@[simp] theorem number_nil : number [] = 0 := rfl

private theorem number_append (s t : List Char) : number (s ++ t) = number s * 26 ^ t.length + number t := by
  unfold number
  rw [List.map_append, List.reverse_append, Nat.ofDigits_append, List.length_reverse, List.length_map,
    Nat.add_comm, Nat.mul_comm]

private theorem number_concat (s : List Char) (c : Char) : number (s ++ [c]) = number s * 26 + letterValue c := by
  have hc : number [c] = letterValue c := by simp [number]
  rw [number_append, hc]
  simp

private theorem number_cons (c : Char) (s : List Char) :
    number (c :: s) = letterValue c * 26 ^ s.length + number s := by
  have hc : number [c] = letterValue c := by simp [number]
  rw [← List.singleton_append, number_append, hc]

private theorem letterValue_pos (c : Char) : 0 < letterValue c :=
  Nat.succ_pos _

private theorem number_pos {s : List Char} (h : s ≠ []) : 0 < number s := by
  cases s with
  | nil => exact absurd rfl h
  | cons c s =>
    rw [number_cons]
    have := Nat.mul_pos (letterValue_pos c) (Nat.pow_pos (n := s.length) (show 0 < 26 by decide))
    omega

/-! ### Numerals -/

private theorem letterValue_letter : ∀ d < 26, letterValue (letter d) = d + 1 := by
  decide

private theorem isUpper_letter : ∀ d < 26, (letter d).isUpper = true := by
  decide

/-- A capital letter is the one that its value counts. -/
theorem letter_of_isUpper {c : Char} (h : c.isUpper = true) :
    letterValue c - 1 < 26 ∧ letter (letterValue c - 1) = c := by
  have hbounds : 65 ≤ c.toNat ∧ c.toNat ≤ 90 := Text.isUpper_iff.1 h
  have hc : letter (c.toNat - 65) = c := by
    have he : 'A'.toNat + (c.toNat - 65) = c.toNat := by
      have : 'A'.toNat = 65 := rfl
      omega
    rw [letter, he, Char.ofNat_toNat]
  have hvalue : letterValue c = c.toNat - 65 + 1 := by
    rw [← letterValue_letter (c.toNat - 65) (by omega), hc]
  have hd : letterValue c - 1 = c.toNat - 65 := by omega
  rw [hd]
  exact ⟨by omega, hc⟩

theorem isUpper_of_mem_numeral {n : Nat} {c : Char} (h : c ∈ numeral n) : c.isUpper = true := by
  induction n using Nat.strongRecOn with
  | _ n ih =>
    cases n with
    | zero => simp [numeral] at h
    | succ n =>
      rw [numeral, List.mem_append, List.mem_singleton] at h
      rcases h with h | rfl
      · exact ih (n / 26) (by omega) h
      · exact isUpper_letter _ (Nat.mod_lt _ (by decide))

theorem number_numeral (n : Nat) : number (numeral n) = n := by
  induction n using Nat.strongRecOn with
  | _ n ih =>
    cases n with
    | zero => simp [numeral]
    | succ n =>
      have hlt : n % 26 < 26 := Nat.mod_lt _ (by decide)
      rw [numeral, number_concat, ih (n / 26) (by omega), letterValue_letter _ hlt]
      omega

/-- Capital letters are the numeral of their number, so no two of them have the same number. -/
theorem numeral_number {s : List Char} (h : ∀ c ∈ s, c.isUpper = true) : numeral (number s) = s := by
  induction s using List.reverseRec with
  | nil => simp [numeral]
  | append_singleton s c ih =>
    obtain ⟨hlt, hc⟩ := letter_of_isUpper (h c (by simp))
    have hs : ∀ d ∈ s, d.isUpper = true := fun d hd => h d (by simp [hd])
    have hpos := letterValue_pos c
    have hn : number (s ++ [c]) = number s * 26 + (letterValue c - 1) + 1 := by
      rw [number_concat]
      omega
    have hdiv : (number s * 26 + (letterValue c - 1)) / 26 = number s := by omega
    have hmod : (number s * 26 + (letterValue c - 1)) % 26 = letterValue c - 1 := by omega
    rw [hn, numeral, hdiv, hmod, ih hs, hc]

theorem letters_ne_nil (col : Nat) : letters col ≠ [] := by
  simp [letters, numeral]

/-! ### Reading -/

/-- Reading on from `n` gives the number of all letters, if it is not beyond the last column. -/
theorem readFrom_eq_ok_iff {n m : Nat} {s : List Char} (hn : n ≤ maxCols) :
    readFrom n s = .ok m ↔
      (∀ c ∈ s, c.isAlpha = true) ∧ m = n * 26 ^ s.length + number s ∧ m ≤ maxCols := by
  induction s generalizing n with
  | nil =>
    simp only [readFrom, Except.ok.injEq, number_nil, List.length_nil, Nat.pow_zero]
    constructor
    · rintro rfl
      simp [hn]
    · rintro ⟨-, rfl, -⟩
      simp
  | cons c s ih =>
    unfold readFrom
    by_cases hc : c.isAlpha = true
    · have hnext : (n * 26 + letterValue c) * 26 ^ s.length + number s =
          n * 26 ^ (s.length + 1) + number (c :: s) := by
        rw [number_cons, Nat.pow_succ]
        ring
      by_cases hm : n * 26 + letterValue c ≤ maxCols
      · rw [if_neg (by simp [hc]), if_neg (by omega), ih hm, hnext]
        simp [hc]
      · rw [if_neg (by simp [hc]), if_pos (by omega)]
        constructor
        · intro h
          cases h
        -- The letters still to come only make the number larger.
        · rintro ⟨-, rfl, hle⟩
          rw [List.length_cons, ← hnext] at hle
          have := Nat.le_mul_of_pos_right (n * 26 + letterValue c) (Nat.pow_pos (n := s.length) (show 0 < 26 by decide))
          omega
    · rw [if_pos (by simp [hc])]
      constructor
      · intro h
        cases h
      · rintro ⟨h, -⟩
        exact absurd (h c (by simp)) hc

/-- Letters are read as the column of their number. -/
theorem read_eq_ok_iff {s : List Char} {col : Nat} :
    read s = .ok col ↔ s ≠ [] ∧ (∀ c ∈ s, c.isAlpha = true) ∧ number s = col + 1 ∧ col < maxCols := by
  unfold read
  cases s with
  | nil => simp
  | cons c s =>
    have hpos : 0 < number (c :: s) := number_pos (by simp)
    have hfrom : ∀ m, readFrom 0 (c :: s) = .ok m ↔ _ := fun m => readFrom_eq_ok_iff (Nat.zero_le maxCols)
    simp only [Nat.zero_mul, Nat.zero_add] at hfrom
    rw [if_neg (by simp)]
    cases hr : readFrom 0 (c :: s) with
    | error e =>
      constructor
      · intro h
        cases h
      · rintro ⟨-, ha, hn, hlt⟩
        have := (hfrom (col + 1)).2 ⟨ha, hn.symm, hlt⟩
        rw [hr] at this
        cases this
    | ok m =>
      obtain ⟨ha, hm, hle⟩ := (hfrom m).1 hr
      simp only [Except.map, Except.ok.injEq]
      constructor
      · rintro rfl
        exact ⟨by simp, ha, by omega, by omega⟩
      · rintro ⟨-, -, hn, -⟩
        omega

end Spreadsheet.Column
