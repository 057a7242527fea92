import Spreadsheet.Address.Cell
import Spreadsheet.Proofs.Address.Column
import Spreadsheet.Proofs.Text.Trimming

/-!
# A1 notation

`Denotes` is the grammar of A1 notation: which texts are written for an address.  Reading accepts just these texts, and
gives their address (`read_eq_ok_iff_denotes`).  The text that an address is written as is one of them, in which the
letters are the numeral of the column and the digits have no leading zeros.
-/

namespace Spreadsheet.CellAddress

open Text (isBlank Trimmed trim)

/-- The text names the address in A1 notation: the letters of its column, in any case, and the digits of its row number,
with any zeros in front.  A dollar sign stands before the letters and before the digits if the coordinate is absolute,
and there may be blanks around the whole. -/
def Denotes (s : List Char) (a : CellAddress) : Prop :=
  ∃ before letters digits after : List Char,
    s = before ++ (mark a.colAbsolute ++ letters ++ (mark a.rowAbsolute ++ digits)) ++ after ∧
    (∀ c ∈ before, isBlank c = true) ∧ (∀ c ∈ after, isBlank c = true) ∧
    letters ≠ [] ∧ (∀ c ∈ letters, c.isAlpha = true) ∧ Column.number letters = a.col + 1 ∧
    digits ≠ [] ∧ (∀ c ∈ digits, c.isDigit = true) ∧ Nat.ofDigitChars 10 digits 0 = a.row + 1 ∧
    a.InBounds

/-! ### Parts of an address -/

private theorem mark_append_of_splitMark {s t : List Char} {absolute : Bool} (h : splitMark s = (absolute, t)) :
    s = mark absolute ++ t := by
  unfold splitMark at h
  split at h
  · cases h
    rfl
  · cases h
    rfl

private theorem splitMark_mark_append {s : List Char} (absolute : Bool) (hs : s.head? ≠ some '$') :
    splitMark (mark absolute ++ s) = (absolute, s) := by
  cases absolute with
  | true => rfl
  | false =>
    unfold splitMark mark
    split
    · rename_i t ht
      simp only [Bool.false_eq_true, if_false, List.nil_append] at ht
      subst ht
      simp at hs
    · simp

/-- Digits are read as the row of their number. -/
private theorem readRow_eq_ok_iff {whole digits : List Char} {row : Nat} :
    readRow whole digits = .ok row ↔
      digits ≠ [] ∧ (∀ c ∈ digits, c.isDigit = true) ∧ Nat.ofDigitChars 10 digits 0 = row + 1 ∧ row < maxRows := by
  have hlimit : maxRows < rowNumberLimit := by decide
  unfold readRow Number.digitsValue
  generalize Nat.ofDigitChars 10 digits 0 = n
  by_cases hne : digits = []
  · simp [hne]
  by_cases hdigits : ∀ c ∈ digits, c.isDigit = true
  · have hany : digits.any (fun c => !c.isDigit) = false := by simpa using hdigits
    rw [if_neg (by simpa using hne), if_neg (by simp [hany])]
    simp only [ge_iff_le, gt_iff_lt]
    constructor
    · intro h
      split at h
      · cases h
      · split at h
        · cases h
        · split at h
          · cases h
          · cases h
            exact ⟨hne, hdigits, by omega, by omega⟩
    · rintro ⟨-, -, hn, hrow⟩
      rw [if_neg (by omega), if_neg (by omega), if_neg (by omega)]
      simp [hn]
  · have hany : digits.any (fun c => !c.isDigit) = true := by simpa using hdigits
    rw [if_neg (by simpa using hne), if_pos hany]
    constructor
    · intro h
      cases h
    · rintro ⟨-, h, -⟩
      exact absurd h hdigits

/-! ### The whole address -/

private theorem isAlpha_dollar : Char.isAlpha '$' = false := by decide

/-- The letters at the front end where a dollar sign or a digit follows. -/
private theorem takeWhile_letters {letters digits : List Char} (absolute : Bool) (hl : ∀ c ∈ letters, c.isAlpha = true)
    (hd : ∀ c ∈ digits, c.isDigit = true) :
    (letters ++ (mark absolute ++ digits)).takeWhile Char.isAlpha = letters ∧
      (letters ++ (mark absolute ++ digits)).dropWhile Char.isAlpha = mark absolute ++ digits := by
  have hstop : ∀ c ∈ (mark absolute ++ digits).head?, c.isAlpha = false := by
    intro c hc
    cases absolute with
    | true =>
      obtain rfl : '$' = c := by simpa [mark] using hc
      exact isAlpha_dollar
    | false =>
      have hm : c ∈ digits := List.mem_of_mem_head? (by simpa [mark] using hc)
      exact Text.not_isAlpha_of_isDigit (hd c hm)
  rw [List.takeWhile_append_of_pos hl, List.dropWhile_append_of_pos hl]
  cases hrest : mark absolute ++ digits with
  | nil => simp
  | cons c rest =>
    have hc : ¬ c.isAlpha = true := by simp [hstop c (by simp [hrest])]
    rw [List.takeWhile_cons_of_neg hc, List.dropWhile_cons_of_neg hc, List.append_nil]
    exact ⟨rfl, rfl⟩

private theorem head?_ne_dollar {s t : List Char} (hne : s ≠ []) (h : ∀ c ∈ s, c.isAlphanum = true) :
    (s ++ t).head? ≠ some '$' := by
  cases s with
  | nil => exact absurd rfl hne
  | cons c s =>
    intro hc
    obtain rfl : c = '$' := by simpa using hc
    exact absurd (h '$' (by simp)) (by decide)

private theorem readTrimmed_eq_ok_iff {s : List Char} {a : CellAddress} :
    readTrimmed s = .ok a ↔
      ∃ letters digits : List Char, s = mark a.colAbsolute ++ letters ++ (mark a.rowAbsolute ++ digits) ∧
        letters ≠ [] ∧ (∀ c ∈ letters, c.isAlpha = true) ∧ Column.number letters = a.col + 1 ∧
        digits ≠ [] ∧ (∀ c ∈ digits, c.isDigit = true) ∧ Nat.ofDigitChars 10 digits 0 = a.row + 1 ∧
        a.InBounds := by
  unfold readTrimmed
  constructor
  · intro h
    split at h
    · cases h
    · rcases hs : splitMark s with ⟨colAbsolute, rest⟩
      rw [hs] at h
      dsimp only at h
      split at h
      · cases h
      · split at h
        · cases h
        · rename_i col hcol
          rcases hd : splitMark (rest.dropWhile Char.isAlpha) with ⟨rowAbsolute, digits⟩
          rw [hd] at h
          dsimp only at h
          cases hr : readRow s digits with
          | error e =>
            rw [hr] at h
            cases h
          | ok row =>
            rw [hr] at h
            cases h
            obtain ⟨hne, halpha, hnumber, hlt⟩ := Column.read_eq_ok_iff.1 hcol
            obtain ⟨hne', hdigit, hvalue, hlt'⟩ := readRow_eq_ok_iff.1 hr
            refine ⟨_, digits, ?_, hne, halpha, hnumber, hne', hdigit, hvalue, hlt', hlt⟩
            rw [List.append_assoc, ← mark_append_of_splitMark hd, List.takeWhile_append_dropWhile]
            exact mark_append_of_splitMark hs
  · rintro ⟨letters, digits, rfl, hne, halpha, hnumber, hne', hdigit, hvalue, hlt', hlt⟩
    obtain ⟨htake, hdrop⟩ := takeWhile_letters a.rowAbsolute halpha hdigit
    have hcol : splitMark (mark a.colAbsolute ++ (letters ++ (mark a.rowAbsolute ++ digits))) = (a.colAbsolute, _) :=
      splitMark_mark_append _ (head?_ne_dollar hne fun c hc => Text.isAlphanum_iff.2 (.inl (halpha c hc)))
    have hrow : splitMark (mark a.rowAbsolute ++ digits) = (a.rowAbsolute, digits) := by
      refine splitMark_mark_append _ ?_
      have := head?_ne_dollar (t := []) hne' fun c hc => Text.isAlphanum_iff.2 (.inr (hdigit c hc))
      simpa using this
    rw [List.append_assoc, if_neg (by simp [hne]), hcol]
    dsimp only
    rw [htake, hdrop, hrow, if_neg (by simpa using hne), Column.read_eq_ok_iff.2 ⟨hne, halpha, hnumber, hlt⟩]
    dsimp only
    rw [readRow_eq_ok_iff.2 ⟨hne', hdigit, hvalue, hlt'⟩]
    rfl

/-- There are only letters, digits and dollar signs in an address. -/
private theorem mem_parts {letters digits : List Char} {colAbsolute rowAbsolute : Bool}
    (hl : ∀ c ∈ letters, c.isAlpha = true) (hd : ∀ c ∈ digits, c.isDigit = true) {c : Char}
    (hc : c ∈ mark colAbsolute ++ letters ++ (mark rowAbsolute ++ digits)) : c.isAlphanum = true ∨ c = '$' := by
  have hmark : ∀ absolute, c ∈ mark absolute → c = '$' := by
    intro absolute h
    cases absolute <;> simp_all [mark]
  simp only [List.mem_append] at hc
  rcases hc with (hc | hc) | hc | hc
  · exact .inr (hmark _ hc)
  · exact .inl (Text.isAlphanum_iff.2 (.inl (hl c hc)))
  · exact .inr (hmark _ hc)
  · exact .inl (Text.isAlphanum_iff.2 (.inr (hd c hc)))

theorem not_isBlank_of_part {c : Char} (hc : c.isAlphanum = true ∨ c = '$') : isBlank c = false := by
  rcases hc with hc | rfl
  · exact Text.not_isBlank_of_isAlphanum hc
  · decide

private theorem readChars_eq_ok_iff {s : List Char} {a : CellAddress} : readChars s = .ok a ↔ Denotes s a := by
  unfold readChars
  rw [readTrimmed_eq_ok_iff]
  constructor
  · rintro ⟨letters, digits, hs, h⟩
    obtain ⟨before, after, htrim, hbefore, hafter, -⟩ := Text.exists_trim s
    rw [hs] at htrim
    exact ⟨before, letters, digits, after, htrim, hbefore, hafter, h⟩
  · rintro ⟨before, letters, digits, after, rfl, hbefore, hafter, h⟩
    refine ⟨letters, digits, ?_, h⟩
    obtain ⟨-, hl, -, -, hd, -⟩ := h
    exact Text.trim_append hbefore hafter (Text.trimmed_of_forall fun c hc => not_isBlank_of_part (mem_parts hl hd hc))

private theorem isAlpha_of_mem_letters {col : Nat} {c : Char} (h : c ∈ Column.letters col) : c.isAlpha = true :=
  Text.isAlpha_iff.2 (.inl (Column.isUpper_of_mem_numeral h))

theorem mem_chars {a : CellAddress} {c : Char} (h : c ∈ a.chars) : c.isAlphanum = true ∨ c = '$' := by
  rw [chars, List.append_assoc] at h
  exact mem_parts (fun _ => isAlpha_of_mem_letters) (fun _ => Text.isDigit_of_mem_toDigits) h

theorem chars_ne_nil (a : CellAddress) : a.chars ≠ [] := by
  simp [chars, Column.letters_ne_nil]

/-- The text of an address within a sheet is one of the texts for it. -/
theorem denotes_chars {a : CellAddress} (h : a.InBounds) : Denotes a.chars a := by
  refine ⟨[], Column.letters a.col, Nat.toDigits 10 (a.row + 1), [], ?_, by simp, by simp, Column.letters_ne_nil _,
    fun _ => isAlpha_of_mem_letters, Column.number_numeral _, Nat.toDigits_ne_nil, fun _ => Text.isDigit_of_mem_toDigits,
    Nat.ofDigitChars_toDigits (by decide) (by decide), h⟩
  simp [chars]

theorem readChars_chars {a : CellAddress} (h : a.InBounds) : readChars a.chars = .ok a :=
  readChars_eq_ok_iff.2 (denotes_chars h)

theorem inBounds_of_readChars {s : List Char} {a : CellAddress} (h : readChars s = .ok a) : a.InBounds := by
  obtain ⟨_, _, _, _, -, -, -, -, -, -, -, -, -, ha⟩ := readChars_eq_ok_iff.1 h
  exact ha

/-- Just the texts in A1 notation of an address within a sheet are read, as this address, and the text of an address is
one of them.  The letters in it are the only numeral of the column in capital letters. -/
theorem read_eq_ok_iff_denotes :
    (∀ (s : String) (a : CellAddress), read s = .ok a ↔ Denotes s.toList a) ∧
      (∀ a : CellAddress, a.InBounds → read a.text = .ok a) ∧
      ∀ (col : Nat) (s : List Char),
        s = Column.letters col ↔ (∀ c ∈ s, c.isUpper = true) ∧ Column.number s = col + 1 := by
  refine ⟨fun s a => readChars_eq_ok_iff, fun a ha => ?_, fun col s => ⟨?_, ?_⟩⟩
  · unfold read text
    rw [String.toList_ofList]
    exact readChars_chars ha
  · rintro rfl
    exact ⟨fun c hc => Column.isUpper_of_mem_numeral hc, Column.number_numeral _⟩
  · rintro ⟨hupper, hnumber⟩
    rw [Column.letters, ← hnumber, Column.numeral_number hupper]

/-- A text with blanks, a small letter and a row number that begins with zeros, and the text that is written for its
address. -/
theorem read_paddedText :
    read " $aB$007\t" = .ok ⟨6, 27, true, true⟩ ∧ read (CellAddress.text ⟨6, 27, true, true⟩) = .ok ⟨6, 27, true, true⟩ := by
  obtain ⟨hread, htext, -⟩ := read_eq_ok_iff_denotes
  have hdenotes : Denotes " $aB$007\t".toList ⟨6, 27, true, true⟩ :=
    ⟨[' '], ['a', 'B'], ['0', '0', '7'], ['\t'], by decide, List.all_eq_true.1 rfl, List.all_eq_true.1 rfl, by decide,
      List.all_eq_true.1 rfl, by decide, by decide, List.all_eq_true.1 rfl, by decide, by decide⟩
  exact ⟨(hread _ _).2 hdenotes, htext _ (by decide)⟩

end Spreadsheet.CellAddress
