import Spreadsheet.Formula.Token
import Spreadsheet.Proofs.Address.SheetReference

/-!
# Texts of references in formulas

A reference in a formula is written as a sheet reference, or as one of the two error values for a lost reference.  An
error value begins with a number sign and no sheet reference does, so the two are not mixed up when a text is read back
(`Reference.readChars_chars`).  The token of a reference has the same text as the reference (`Token.display_ofReference`).
-/

namespace Spreadsheet

open Text (trim)

/-! ### No error values -/

private theorem head?_asciiLower_text (e : ErrorCode) : (Text.asciiLower e.text).head? = some '#' := by
  cases e <;> decide

private theorem toLower_ne_numberSign {c : Char} (h : c ≠ '#') : c.toLower ≠ '#' := by
  have hletter : ∀ d < 26, (Column.letter d).toLower ≠ '#' := by decide
  by_cases hupper : c.isUpper = true
  · obtain ⟨hlt, hc⟩ := Column.letter_of_isUpper hupper
    rw [← hc]
    exact hletter _ hlt
  · rwa [Text.toLower_of_not_isUpper hupper]

/-- A trimmed text that does not begin with a number sign is no error value. -/
theorem ErrorCode.ofChars?_eq_none {s : List Char} (hs : Text.Trimmed s) (h : s.head? ≠ some '#') :
    ErrorCode.ofChars? s = none := by
  unfold ofChars?
  rw [Text.trim_eq_self hs, List.find?_eq_none]
  intro e _ he
  have heq : Text.asciiLower e.text = s.map Char.toLower := by simpa using he
  have hhead := head?_asciiLower_text e
  rw [heq] at hhead
  cases s with
  | nil => simp at hhead
  | cons c s =>
    have hc : c ≠ '#' := by simpa using h
    exact toLower_ne_numberSign hc (by simpa using hhead)

private theorem SheetName.head?_inner_ne (name : String) (t : List Char) :
    (inner name ++ '!' :: t).head? ≠ some '#' := by
  have hplain : isPlainChar '#' = false := by decide
  unfold inner
  split
  · rename_i hall
    cases hname : name.toList with
    | nil => simp
    | cons c s =>
      intro hc
      obtain rfl : c = '#' := by simpa using hc
      have := List.all_eq_true.1 hall '#' (by simp [hname])
      rw [hplain] at this
      cases this
  · simp

namespace SheetReference

private theorem WellFormed.numberSign_not_mem_location {r : SheetReference} (h : r.WellFormed) : '#' ∉ r.location := by
  intro hm
  rcases h.location_cases with ⟨-, e⟩ | ⟨-, e, -⟩
  · rw [e] at hm
    have hcases := CellRange.mem_cornerChars hm
    simp [Char.isAlphanum] at hcases
  · rw [e] at hm
    have hcases := CellAddress.mem_chars hm
    simp [Char.isAlphanum] at hcases

/-- No reference begins like an error value. -/
theorem WellFormed.head?_chars_ne {r : SheetReference} (h : r.WellFormed) : r.chars.head? ≠ some '#' := by
  cases hs : r.sheet with
  | none =>
    rw [chars_of_none hs]
    exact fun hc => h.numberSign_not_mem_location (List.mem_of_mem_head? hc)
  | some name =>
    rw [chars_of_some hs]
    exact SheetName.head?_inner_ne name _

theorem wellFormed_cell {sheet : Option String} {a : CellAddress} (hs : ∀ name ∈ sheet, SheetName.Fits name)
    (ha : a.InBounds) : (cell sheet a).WellFormed :=
  ⟨hs, CellRange.valid_single ha, fun _ => rfl⟩

end SheetReference

/-! ### Reading back -/

namespace Reference

/-- The entry of a reference list for a sheet reference. -/
def ofSheetReference (r : SheetReference) : Reference :=
  if r.isArea then area r.sheet r.range else cell r.sheet r.range.start

@[simp] theorem ofSheetReference_cell (sheet : Option String) (a : CellAddress) :
    ofSheetReference (.cell sheet a) = cell sheet a := rfl

private theorem text_ofSheetReference {r : SheetReference} (h : r.WellFormed) : (ofSheetReference r).text = r.text := by
  unfold ofSheetReference
  rcases h.location_cases with ⟨ha, -⟩ | ⟨ha, -, hrange⟩
  · rw [if_pos ha]
    show (SheetReference.mk r.sheet r.range true).text = r.text
    rw [← ha]
  · rw [if_neg (by simp [ha])]
    show (SheetReference.mk r.sheet (.single r.range.start) false).text = r.text
    rw [← hrange, ← ha]

theorem readChars_chars {r : SheetReference} (h : r.WellFormed) : readChars r.chars = .ok (ofSheetReference r) := by
  unfold readChars
  rw [Text.trim_eq_self h.trimmed_chars]
  dsimp only
  rw [ErrorCode.ofChars?_eq_none h.trimmed_chars h.head?_chars_ne]
  dsimp only
  rw [SheetReference.readChars_chars h]
  rfl

/-- A text is read as one of the two error values for a lost reference or as a sheet reference. -/
theorem cases_of_read {s : String} {x : Reference} (h : read s = .ok x) :
    x = invalid .ref ∨ x = invalid .null ∨ ∃ r : SheetReference, r.WellFormed ∧ x = ofSheetReference r := by
  unfold read readChars at h
  dsimp only at h
  split at h
  · cases h
    exact .inl rfl
  · cases h
    exact .inr (.inl rfl)
  · cases h
  · cases hr : SheetReference.readChars (trim s.toList) with
    | error e =>
      rw [hr] at h
      cases h
    | ok r =>
      rw [hr] at h
      cases h
      exact .inr (.inr ⟨r, SheetReference.wellFormed_of_readChars hr, rfl⟩)

theorem read_text_of_wellFormed {r : SheetReference} (h : r.WellFormed) :
    read (ofSheetReference r).text = .ok (ofSheetReference r) := by
  rw [text_ofSheetReference h, read, SheetReference.text, String.toList_ofList, readChars_chars h]

theorem read_text {s : String} {x : Reference} (h : read s = .ok x) : read x.text = .ok x := by
  rcases cases_of_read h with rfl | rfl | ⟨r, hr, rfl⟩
  · decide
  · decide
  · exact read_text_of_wellFormed hr

end Reference

namespace Token

/-- A reference as a token has the same text. -/
theorem display_ofReference (x : Reference) : (ofReference x).display = x.text := by
  cases x with
  | cell sheet a => rfl
  | invalid e => rfl
  | area sheet r =>
    refine String.toList_injective ?_
    simp only [ofReference, display, Reference.text, SheetReference.text, CellAddress.text, String.toList_append,
      String.toList_ofList]
    cases sheet with
    | none => simp [SheetReference.chars, SheetReference.cell, SheetReference.area, CellRange.chars,
        CellRange.single, CellRange.cornerChars]
    | some name => simp [SheetReference.chars, SheetReference.cell, SheetReference.area, CellRange.chars,
        CellRange.single, CellRange.cornerChars]

private theorem read_eq_ok {s : String} {t : Token} (h : read s = .ok t) :
    ∃ x, Reference.read s = .ok x ∧ (∀ e, x ≠ .invalid e) ∧ t = ofReference x := by
  unfold read at h
  split at h
  · cases h
  · cases h
  · rename_i x hx hr
    cases h
    exact ⟨x, hr, fun e he => hx e (he ▸ rfl), rfl⟩

theorem read_of_reference {s : String} {x : Reference} (hx : ∀ e, x ≠ .invalid e) (h : Reference.read s = .ok x) :
    read s = .ok (ofReference x) := by
  unfold read
  rw [h]
  cases x with
  | invalid e => exact absurd rfl (hx e)
  | cell sheet a => rfl
  | area sheet r => rfl

theorem read_display {s : String} {t : Token} (h : read s = .ok t) : read t.display = .ok t := by
  obtain ⟨x, hx, hvalid, rfl⟩ := read_eq_ok h
  rw [display_ofReference]
  exact read_of_reference hvalid (Reference.read_text hx)

end Token

end Spreadsheet
