import Spreadsheet.Address.SheetReference
import Spreadsheet.Proofs.Address.Range

/-!
# Texts of references with a sheet name

The name of a sheet may be any text of the right length, with apostrophes, exclamation marks and blanks in it.  It is
written in apostrophes unless it is plain, and read back as it was (`SheetName.read_inner`).  The exclamation mark that
ends it is the last one, because there is none in a range.  So a reference that was read is well-formed
(`wellFormed_of_read`), and each well-formed one is read back from its text (`read_text`).
-/

namespace Spreadsheet

open Text (trim Trimmed)

namespace SheetName

/-- A sheet can be called so: the name is not empty and not too long. -/
def Fits (name : String) : Prop :=
  name.toList ≠ [] ∧ name.toList.length ≤ maxSheetName

/-- What stands before the exclamation mark. -/
def inner (name : String) : List Char :=
  if name.toList.all isPlainChar then name.toList else '\'' :: (escape name.toList ++ ['\''])

private theorem qualifier_eq (name : String) : qualifier name = inner name ++ ['!'] := by
  unfold qualifier inner
  split
  · rfl
  · simp

private theorem unescape_cons {c : Char} (h : c ≠ '\'') (s : List Char) : unescape (c :: s) = c :: unescape s := by
  conv_lhs => unfold unescape
  split <;> simp_all

private theorem unescape_escape (s : List Char) : unescape (escape s) = s := by
  induction s with
  | nil => rfl
  | cons c s ih =>
    unfold escape
    by_cases hc : c = '\''
    · rw [if_pos hc, unescape, ih, hc]
    · rw [if_neg hc, unescape_cons hc, ih]

private theorem not_isBlank_of_isPlainChar {c : Char} (h : isPlainChar c = true) : Text.isBlank c = false := by
  simp only [isPlainChar, Bool.or_eq_true, beq_iff_eq] at h
  rcases h with (h | rfl) | rfl
  · exact Text.not_isBlank_of_isAlphanum h
  · decide
  · decide

private theorem inner_ne_nil {name : String} (h : Fits name) : inner name ≠ [] := by
  unfold inner
  split
  · exact h.1
  · simp

private theorem trimmed_inner (name : String) : Trimmed (inner name) := by
  unfold inner
  split
  · rename_i hplain
    exact Text.trimmed_of_forall fun c hc => not_isBlank_of_isPlainChar (List.all_eq_true.1 hplain c hc)
  · have hquote : Trimmed ['\''] := Text.trimmed_of_forall (by simp [Text.isBlank])
    rw [← List.singleton_append]
    constructor
    · exact fun c hc => hquote.1 c (by simpa using hc)
    · intro c hc
      rw [← List.append_assoc, List.getLast?_concat] at hc
      exact hquote.2 c (by simpa using hc)

/-- A plain name is not in apostrophes. -/
theorem quoted?_of_plain {s : List Char} (h : s.all isPlainChar = true) : quoted? s = none := by
  unfold quoted?
  split
  · have := List.all_eq_true.1 h '\'' (by simp)
    simp [isPlainChar] at this
  · rfl

private theorem quoted?_quotes (s : List Char) : quoted? ('\'' :: (s ++ ['\''])) = some s := by
  unfold quoted?
  simp

/-- The name that a text spells, in apostrophes or without them. -/
def spelled (s : List Char) : List Char :=
  match quoted? s with
  | some quoted => unescape quoted
  | none => s

private theorem spelled_inner (name : String) : spelled (inner name) = name.toList := by
  unfold inner
  by_cases hplain : name.toList.all isPlainChar = true
  · rw [if_pos hplain, spelled, quoted?_of_plain hplain]
  · rw [if_neg hplain, spelled, quoted?_quotes]
    exact unescape_escape _

theorem read_eq_ok_iff {s : List Char} {name : String} :
    read s = .ok name ↔ spelled (trim s) = name.toList ∧ Fits name := by
  have hread : read s = if (spelled (trim s)).isEmpty || decide ((spelled (trim s)).length > maxSheetName) then
      .error (.badSheet (String.ofList (spelled (trim s)))) else .ok (String.ofList (spelled (trim s))) := rfl
  rw [hread]
  generalize spelled (trim s) = t
  by_cases hfits : t ≠ [] ∧ t.length ≤ maxSheetName
  · have hempty : t.isEmpty = false := by simpa using hfits.1
    rw [if_neg (by simp [hempty]; omega)]
    constructor
    · intro h
      obtain rfl := Except.ok.inj h
      simpa [Fits] using hfits
    · rintro ⟨rfl, -⟩
      rw [String.ofList_toList]
  · have hcond : t = [] ∨ maxSheetName < t.length := by
      by_cases hempty : t = []
      · exact .inl hempty
      · exact .inr (Nat.lt_of_not_le fun hle => hfits ⟨hempty, hle⟩)
    rw [if_pos (by simpa using hcond)]
    constructor
    · intro h
      cases h
    · rintro ⟨rfl, h⟩
      exact absurd h hfits

/-- A name is read back from its text. -/
theorem read_inner {name : String} (h : Fits name) : read (inner name) = .ok name := by
  rw [read_eq_ok_iff, Text.trim_eq_self (trimmed_inner name), spelled_inner]
  exact ⟨rfl, h⟩

private theorem fits_of_read {s : List Char} {name : String} (h : read s = .ok name) : Fits name :=
  (read_eq_ok_iff.1 h).2

end SheetName

namespace SheetReference

/-- What reading gives: a name that a sheet can have, a rectangle of a sheet, and a single cell if there is no colon. -/
structure WellFormed (r : SheetReference) : Prop where
  sheet : ∀ name ∈ r.sheet, SheetName.Fits name
  range : r.range.Valid
  cell : r.isArea = false → r.range.start = r.range.stop

/-- The part behind the sheet name. -/
def location (r : SheetReference) : List Char :=
  if r.isArea then r.range.cornerChars else r.range.chars

theorem chars_of_none {r : SheetReference} (h : r.sheet = none) : r.chars = r.location := by
  unfold chars
  rw [h]
  rfl

theorem chars_of_some {r : SheetReference} {name : String} (h : r.sheet = some name) :
    r.chars = SheetName.inner name ++ '!' :: r.location := by
  unfold chars
  rw [h]
  dsimp only
  rw [SheetName.qualifier_eq, List.append_assoc]
  rfl

/-- The location is that of two corners, or that of a single cell. -/
theorem WellFormed.location_cases {r : SheetReference} (h : r.WellFormed) :
    (r.isArea = true ∧ r.location = r.range.cornerChars) ∨
      (r.isArea = false ∧ r.location = r.range.start.chars ∧ r.range = .single r.range.start) := by
  unfold location
  cases harea : r.isArea with
  | true => exact .inl ⟨rfl, rfl⟩
  | false =>
    have hsame := h.cell harea
    refine .inr ⟨rfl, ?_, ?_⟩
    · simp [CellRange.chars, hsame]
    · unfold CellRange.single
      rcases hr : r.range with ⟨start, stop⟩
      rw [hr] at hsame
      simp_all

private theorem WellFormed.trimmed_location {r : SheetReference} (h : r.WellFormed) : Trimmed r.location := by
  rcases h.location_cases with ⟨-, e⟩ | ⟨-, e, -⟩
  · rw [e]
    exact CellRange.trimmed_cornerChars _
  · rw [e]
    exact CellRange.trimmed_chars _

private theorem WellFormed.location_ne_nil {r : SheetReference} (h : r.WellFormed) : r.location ≠ [] := by
  rcases h.location_cases with ⟨-, e⟩ | ⟨-, e, -⟩
  · simp [e, CellRange.cornerChars]
  · simp [e, CellAddress.chars_ne_nil]

/-- There is no exclamation mark behind the sheet name, and a colon just in areas. -/
theorem WellFormed.mem_location {r : SheetReference} (h : r.WellFormed) :
    '!' ∉ r.location ∧ r.location.contains ':' = r.isArea := by
  rcases h.location_cases with ⟨ha, e⟩ | ⟨ha, e, -⟩
  · rw [e, ha]
    constructor
    · intro hm
      have hcases := CellRange.mem_cornerChars hm
      simp [Char.isAlphanum] at hcases
    · simp [CellRange.cornerChars]
  · rw [e, ha]
    constructor
    · intro hm
      have hcases := CellAddress.mem_chars hm
      simp [Char.isAlphanum] at hcases
    · simpa using CellRange.colon_not_mem_chars _

private theorem WellFormed.readChars_location {r : SheetReference} (h : r.WellFormed) :
    CellRange.readChars r.location = .ok r.range := by
  rcases h.location_cases with ⟨-, e⟩ | ⟨-, e, hr⟩
  · rw [e, CellRange.readChars_cornerChars h.range]
  · rw [e, CellRange.readChars_chars h.range.start, ← hr]

/-! ### Splitting at the last exclamation mark -/

private theorem splitSheet?_append {before after : List Char} (h : '!' ∉ after) :
    splitSheet? (before ++ '!' :: after) = some (before, after) := by
  have hafter : ∀ c ∈ after.reverse, (c != '!') = true := by
    intro c hc
    have hne : c ≠ '!' := fun e => h (by simpa [e] using hc)
    simpa using hne
  have hreverse : (before ++ '!' :: after).reverse = after.reverse ++ '!' :: before.reverse := by simp
  unfold splitSheet?
  rw [hreverse, List.dropWhile_append_of_pos hafter, List.takeWhile_append_of_pos hafter]
  simp

private theorem splitSheet?_of_not_mem {s : List Char} (h : '!' ∉ s) : splitSheet? s = none := by
  have hdrop : s.reverse.dropWhile (· != '!') = [] := by
    rw [List.dropWhile_eq_nil_iff]
    intro c hc
    have hne : c ≠ '!' := fun e => h (by simpa [e] using hc)
    simpa using hne
  unfold splitSheet?
  rw [hdrop]

/-! ### Reading back -/

theorem WellFormed.trimmed_chars {r : SheetReference} (h : r.WellFormed) : Trimmed r.chars := by
  cases hs : r.sheet with
  | none =>
    rw [chars_of_none hs]
    exact h.trimmed_location
  | some name =>
    have hmark : Trimmed ['!'] := Text.trimmed_of_forall (by simp [Text.isBlank])
    rw [chars_of_some hs]
    refine (SheetName.trimmed_inner name).append ?_ (SheetName.inner_ne_nil (h.sheet name hs)) (by simp)
    exact hmark.append h.trimmed_location (by simp) h.location_ne_nil

theorem readChars_chars {r : SheetReference} (h : r.WellFormed) : readChars r.chars = .ok r := by
  obtain ⟨hmark, hcolon⟩ := h.mem_location
  unfold readChars readTrimmed
  rw [Text.trim_eq_self h.trimmed_chars]
  cases hs : r.sheet with
  | none =>
    rw [chars_of_none hs, splitSheet?_of_not_mem hmark]
    dsimp only
    rw [h.readChars_location, hcolon]
    show Except.ok (⟨none, r.range, r.isArea⟩ : SheetReference) = _
    rw [← hs]
  | some name =>
    rw [chars_of_some hs, splitSheet?_append hmark]
    dsimp only
    rw [SheetName.read_inner (h.sheet name hs), h.readChars_location, hcolon]
    show Except.ok (⟨some name, r.range, r.isArea⟩ : SheetReference) = _
    rw [← hs]

theorem wellFormed_of_readChars {s : List Char} {r : SheetReference} (h : readChars s = .ok r) : r.WellFormed := by
  unfold readChars readTrimmed at h
  cases hsplit : splitSheet? (trim s) with
  | none =>
    rw [hsplit] at h
    dsimp only at h
    cases hr : CellRange.readChars (trim s) with
    | error e =>
      rw [hr] at h
      cases h
    | ok range =>
      rw [hr] at h
      obtain rfl := Except.ok.inj h
      obtain ⟨hvalid, hcell⟩ := CellRange.valid_of_readChars hr
      exact ⟨by simp, hvalid, fun ha => hcell (by simpa using ha)⟩
  | some parts =>
    obtain ⟨before, after⟩ := parts
    rw [hsplit] at h
    dsimp only at h
    cases hn : SheetName.read before with
    | error e =>
      rw [hn] at h
      cases h
    | ok name =>
      cases hr : CellRange.readChars after with
      | error e =>
        rw [hn, hr] at h
        cases h
      | ok range =>
        rw [hn, hr] at h
        obtain rfl := Except.ok.inj h
        obtain ⟨hvalid, hcell⟩ := CellRange.valid_of_readChars hr
        refine ⟨?_, hvalid, fun ha => hcell (by simpa using ha)⟩
        intro name' hname'
        obtain rfl := Option.some.inj hname'
        exact SheetName.fits_of_read hn

/-- A well-formed reference is read back from its text. -/
theorem read_text {r : SheetReference} (h : r.WellFormed) : read r.text = .ok r := by
  unfold read text
  rw [String.toList_ofList]
  exact readChars_chars h

/-- What is read is well-formed. -/
theorem wellFormed_of_read {s : String} {r : SheetReference} (h : read s = .ok r) : r.WellFormed :=
  wellFormed_of_readChars h

end SheetReference

end Spreadsheet
