import Spreadsheet.Address.Range
import Spreadsheet.Proofs.Address.Cell

/-!
# Texts of ranges

A range that was read is normal and within a sheet (`valid_of_readChars`), and every such range is read back from its
text, with its corners written out or, if they are equal, written once (`readChars_cornerChars`, `readChars_chars`).
-/

namespace Spreadsheet.CellRange

open Text (trim Trimmed)

/-- A rectangle of cells of a sheet, from its top left corner to its bottom right one. -/
structure Valid (r : CellRange) : Prop where
  normal : r.Normal
  start : r.start.InBounds
  stop : r.stop.InBounds

theorem normal_between (a b : CellAddress) : (between a b).Normal := by
  unfold between Normal
  by_cases hrow : a.row ≤ b.row
  · by_cases hcol : a.col ≤ b.col
    · simp [hrow, hcol]
    · simp [hrow, hcol]
      omega
  · by_cases hcol : a.col ≤ b.col
    · simp [hrow, hcol]
      omega
    · simp [hrow, hcol]
      omega

/-- The rectangle between two cells of a sheet is on the sheet, whichever corners they are. -/
theorem valid_between {a b : CellAddress} (ha : a.InBounds) (hb : b.InBounds) : (between a b).Valid := by
  obtain ⟨harow, hacol⟩ := ha
  obtain ⟨hbrow, hbcol⟩ := hb
  refine ⟨normal_between a b, ?_, ?_⟩
  · unfold between
    by_cases hrow : a.row ≤ b.row <;> by_cases hcol : a.col ≤ b.col <;>
      simp [CellAddress.InBounds, *]
  · unfold between
    by_cases hrow : a.row ≤ b.row <;> by_cases hcol : a.col ≤ b.col <;>
      simp [CellAddress.InBounds, *]

theorem valid_single {a : CellAddress} (h : a.InBounds) : (single a).Valid :=
  ⟨⟨Nat.le_refl _, Nat.le_refl _⟩, h, h⟩

/-- The corners of a normal range are left as they are, with their absolute marks. -/
theorem between_of_normal {r : CellRange} (h : r.Normal) : between r.start r.stop = r := by
  obtain ⟨hrow, hcol⟩ := h
  simp [between, hrow, hcol]

/-! ### Splitting at the colon -/

private theorem splitCorners?_append {first last : List Char} (h : ':' ∉ first) :
    splitCorners? (first ++ ':' :: last) = some (first, last) := by
  have hfirst : ∀ c ∈ first, (c != ':') = true := by
    intro c hc
    have hne : c ≠ ':' := fun e => h (e ▸ hc)
    simpa using hne
  unfold splitCorners?
  rw [List.dropWhile_append_of_pos hfirst, List.takeWhile_append_of_pos hfirst]
  simp

private theorem splitCorners?_of_not_mem {s : List Char} (h : ':' ∉ s) : splitCorners? s = none := by
  have hdrop : s.dropWhile (· != ':') = [] := by
    rw [List.dropWhile_eq_nil_iff]
    intro c hc
    have hne : c ≠ ':' := fun e => h (e ▸ hc)
    simpa using hne
  unfold splitCorners?
  rw [hdrop]

/-! ### Reading back -/

theorem colon_not_mem_chars (a : CellAddress) : ':' ∉ a.chars := by
  intro h
  have hcases := CellAddress.mem_chars h
  simp [Char.isAlphanum] at hcases

/-- The characters of a range. -/
theorem mem_cornerChars {r : CellRange} {c : Char} (h : c ∈ r.cornerChars) :
    (c.isAlphanum = true ∨ c = '$') ∨ c = ':' := by
  rw [cornerChars, List.mem_append, List.mem_cons] at h
  rcases h with h | h | h
  · exact .inl (CellAddress.mem_chars h)
  · exact .inr h
  · exact .inl (CellAddress.mem_chars h)

theorem trimmed_cornerChars (r : CellRange) : Trimmed r.cornerChars := by
  refine Text.trimmed_of_forall fun c hc => ?_
  rcases mem_cornerChars hc with hc | rfl
  · exact CellAddress.not_isBlank_of_part hc
  · decide

theorem trimmed_chars (a : CellAddress) : Trimmed a.chars :=
  Text.trimmed_of_forall fun _ hc => CellAddress.not_isBlank_of_part (CellAddress.mem_chars hc)

theorem readChars_cornerChars {r : CellRange} (h : r.Valid) : readChars r.cornerChars = .ok r := by
  have hsplit : splitCorners? r.cornerChars = some (r.start.chars, r.stop.chars) :=
    splitCorners?_append (colon_not_mem_chars r.start)
  unfold readChars readTrimmed
  rw [Text.trim_eq_self (trimmed_cornerChars r), hsplit]
  dsimp only
  rw [CellAddress.readChars_chars h.start, CellAddress.readChars_chars h.stop]
  show Except.ok (between r.start r.stop) = _
  rw [between_of_normal h.normal]

theorem readChars_chars {a : CellAddress} (h : a.InBounds) : readChars a.chars = .ok (single a) := by
  unfold readChars readTrimmed
  rw [Text.trim_eq_self (trimmed_chars a), splitCorners?_of_not_mem (colon_not_mem_chars a)]
  dsimp only
  rw [CellAddress.readChars_chars h]
  rfl

/-- A range that was read is one of a sheet, and it is a single cell if there is no colon in its text. -/
theorem valid_of_readChars {s : List Char} {r : CellRange} (h : readChars s = .ok r) :
    r.Valid ∧ (':' ∉ s → r.start = r.stop) := by
  obtain ⟨before, after, hs, -, -, -⟩ := Text.exists_trim s
  unfold readChars readTrimmed at h
  cases hsplit : splitCorners? (trim s) with
  | none =>
    rw [hsplit] at h
    dsimp only at h
    cases ha : CellAddress.readChars (trim s) with
    | error e =>
      rw [ha] at h
      cases h
    | ok a =>
      rw [ha] at h
      cases h
      exact ⟨valid_single (CellAddress.inBounds_of_readChars ha), fun _ => rfl⟩
  | some corners =>
    obtain ⟨first, last⟩ := corners
    have hcolon : ¬ ':' ∉ s := by
      intro hn
      have hn' : ':' ∉ trim s := fun hc => hn (by rw [hs]; simp [hc])
      rw [splitCorners?_of_not_mem hn'] at hsplit
      cases hsplit
    rw [hsplit] at h
    dsimp only at h
    cases ha : CellAddress.readChars first with
    | error e =>
      rw [ha] at h
      cases h
    | ok a =>
      cases hb : CellAddress.readChars last with
      | error e =>
        rw [ha, hb] at h
        cases h
      | ok b =>
        rw [ha, hb] at h
        cases h
        refine ⟨?_, fun hn => absurd hn hcolon⟩
        exact valid_between (CellAddress.inBounds_of_readChars ha) (CellAddress.inBounds_of_readChars hb)

end Spreadsheet.CellRange
