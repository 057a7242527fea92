import Spreadsheet.Proofs.Formula.ReferenceText
import Spreadsheet.Proofs.Workbook.Actions
import Spreadsheet.Workbook.Session

/-!
# Names of sheets in references

A name that a sheet can be given (`Admits`) is a name that can be written in a reference and read back, and no other
sheet has it in any case of its letters.  So the text that is written for a cell of the sheet leads back to the sheet
(`read_text_of_read`).
-/

namespace Spreadsheet.Workbook

variable {wb wb' : Workbook} {name : String} {i : Nat}

variable (wb) in
/-- A sheet can have the name; the one at `except` may have it already. -/
structure Admits (name : String) (except : Option Nat) : Prop where
  fits : SheetName.Fits name
  allowed : ∀ c ∈ name.toList, isForbidden c = false
  free : ∀ j sheet, wb.sheet? j = some sheet → some j ≠ except → Text.sameAscii sheet.name name = false

private theorem nameInUse_eq_false_iff {except : Option Nat} : wb.nameInUse name except = false ↔
    ∀ j sheet, wb.sheet? j = some sheet → some j ≠ except → Text.sameAscii sheet.name name = false := by
  unfold nameInUse
  rw [List.any_eq_false]
  constructor
  · intro h j sheet hj hne
    have hmem : (sheet, j) ∈ wb.sheets.zipIdx := List.mem_zipIdx_iff_getElem?.2 hj
    simpa [hne] using h (sheet, j) hmem
  · rintro h ⟨sheet, j⟩ hmem
    have hj : wb.sheet? j = some sheet := List.mem_zipIdx_iff_getElem?.1 hmem
    simpa using h j sheet hj

/-- A name is refused for the reasons that are checked and for no others. -/
theorem sheetNameError?_eq_none_iff {except : Option Nat} :
    wb.sheetNameError? name except = none ↔ wb.Admits name except := by
  have hallowed : name.toList.find? isForbidden = none ↔ ∀ c ∈ name.toList, isForbidden c = false := by
    simp [List.find?_eq_none]
  unfold sheetNameError?
  constructor
  · intro h
    split at h
    · cases h
    · rename_i hempty
      split at h
      · cases h
      · rename_i hlength
        split at h
        · cases h
        · rename_i hfind
          split at h
          · cases h
          · rename_i huse
            exact ⟨⟨by simpa using hempty, by omega⟩, hallowed.1 hfind, nameInUse_eq_false_iff.1 (by simpa using huse)⟩
  · rintro ⟨⟨hne, hlength⟩, hchars, hfree⟩
    rw [if_neg (by simpa using hne), if_neg (by omega), hallowed.2 hchars]
    show (if wb.nameInUse name except then _ else none) = none
    rw [nameInUse_eq_false_iff.2 hfree]
    rfl

private theorem checkSheetName_eq_ok_iff {except : Option Nat} {checked : String} :
    wb.checkSheetName name except = .ok checked ↔ wb.Admits name except ∧ checked = name := by
  rw [← sheetNameError?_eq_none_iff, checkSheetName]
  cases wb.sheetNameError? name except <;> simp [eq_comm]

private theorem checkSheet_eq_ok_iff {checked : Nat} :
    wb.checkSheet i = .ok checked ↔ i < wb.sheetCount ∧ checked = i := by
  unfold checkSheet
  split <;> simp_all [eq_comm]

/-- A sheet is added at the end, under a name that it can have. -/
theorem addSheet_eq_ok_iff : (addSheet name).runOn wb = (.ok i, wb') ↔
    wb.Admits name none ∧ i = wb.sheetCount ∧ wb' = { wb with sheets := wb.sheets ++ [{ name }] } := by
  rw [addSheet, Action.runOn_get_bind, Action.runOn_check_bind_eq_ok]
  simp only [checkSheetName_eq_ok_iff, Action.runOn_modify_bind, Action.runOn_pure, Prod.mk.injEq, Except.ok.injEq]
  constructor
  · rintro ⟨_, ⟨hname, rfl⟩, rfl, rfl⟩
    exact ⟨hname, rfl, rfl⟩
  · rintro ⟨hname, rfl, rfl⟩
    exact ⟨name, ⟨hname, rfl⟩, rfl, rfl⟩

theorem atomic_addSheet (name : String) : (addSheet name).Atomic :=
  Action.atomic_get_bind fun _ => Action.atomic_check_bind fun _ =>
    ((Action.total_modify _).bind fun _ => Action.total_pure _).atomic

theorem runOn_addDefaultSheet (wb : Workbook) : addDefaultSheet.runOn wb = (addSheet wb.freeName).runOn wb := by
  rw [addDefaultSheet, Action.runOn_get_bind]

theorem atomic_addDefaultSheet : addDefaultSheet.Atomic := by
  rw [addDefaultSheet]
  exact Action.atomic_get_bind fun wb => atomic_addSheet wb.freeName

/-- A sheet is only renamed to a name that it can have. -/
theorem renameSheet_eq_ok_iff : (renameSheet i name).runOn wb = (.ok (), wb') ↔
    i < wb.sheetCount ∧ wb.Admits name (some i) ∧
      wb' = { wb with sheets := wb.sheets.modify i fun sheet => { sheet with name } } := by
  rw [renameSheet, Action.runOn_get_bind, Action.runOn_check_bind_eq_ok]
  simp only [Action.runOn_check_bind_eq_ok, checkSheet_eq_ok_iff, checkSheetName_eq_ok_iff, Action.runOn_modify,
    Prod.mk.injEq, true_and]
  constructor
  · rintro ⟨_, ⟨hi, rfl⟩, _, ⟨hname, rfl⟩, rfl⟩
    exact ⟨hi, hname, rfl⟩
  · rintro ⟨hi, hname, rfl⟩
    exact ⟨i, ⟨hi, rfl⟩, name, ⟨hname, rfl⟩, rfl⟩

/-- A sheet is only added under a name that fits and that no other sheet has. -/
theorem addSheet_eq_ok (h : (addSheet name).runOn wb = (.ok i, wb')) :
    SheetName.Fits name ∧ (∀ s ∈ wb.sheets, Text.sameAscii s.name name = false) ∧ i = wb.sheetCount ∧
      wb' = { wb with sheets := wb.sheets ++ [{ name }] } := by
  obtain ⟨hname, hi, hwb⟩ := addSheet_eq_ok_iff.1 h
  refine ⟨hname.fits, fun s hs => ?_, hi, hwb⟩
  obtain ⟨j, hj⟩ := List.getElem?_of_mem hs
  exact hname.free j s hj (by simp)

/-- The sheet that was added is the one that is found under its name. -/
theorem sheetIndex?_of_addSheet (h : (addSheet name).runOn wb = (.ok i, wb')) : wb'.sheetIndex? name = some i := by
  obtain ⟨-, hother, rfl, rfl⟩ := addSheet_eq_ok h
  have hnone : (wb.sheets.findIdx? fun s => Text.sameAscii s.name name) = none :=
    List.findIdx?_eq_none_iff.2 hother
  have hself : Text.sameAscii name name = true := Text.sameAscii_iff.2 rfl
  unfold sheetIndex? sheetCount
  rw [List.findIdx?_append, hnone]
  simp [List.findIdx?_cons, hself]

/-- Whatever was read as a reference is read back from its text, with its absolute marks, its sheet and the difference
between a cell and an area.  And the text for a cell of a sheet that was added, whatever its name is, is read as a
reference that is looked up on this sheet. -/
theorem read_text_of_read :
    (∀ (s : String) (r : SheetReference), SheetReference.read s = .ok r → SheetReference.read r.text = .ok r) ∧
      (∀ (s : String) (x : Reference), Reference.read s = .ok x → Reference.read x.text = .ok x) ∧
      (∀ (s : String) (t : Token), Token.read s = .ok t → Token.read t.display = .ok t) ∧
      ∀ (wb wb' : Workbook) (name : String) (i : Nat) (a : CellAddress),
        (addSheet name).runOn wb = (.ok i, wb') → a.InBounds →
          SheetReference.read (SheetReference.cell (some name) a).text = .ok (.cell (some name) a) ∧
          Reference.read (Reference.cell (some name) a).text = .ok (.cell (some name) a) ∧
          Token.read (Token.cell (some name) a).display = .ok (.cell (some name) a) ∧
          ∀ current, wb'.findSheet current (some name) = .ok i := by
  refine ⟨fun s r h => ?_, fun s x h => Reference.read_text h, fun s t h => Token.read_display h, ?_⟩
  · exact SheetReference.read_text (SheetReference.wellFormed_of_read h)
  · intro wb wb' name i a hadd ha
    obtain ⟨hfits, -, -, -⟩ := addSheet_eq_ok hadd
    have hwell : (SheetReference.cell (some name) a).WellFormed := by
      refine SheetReference.wellFormed_cell (fun n hn => ?_) ha
      obtain rfl := Option.some.inj hn
      exact hfits
    have hreference := Reference.read_text_of_wellFormed hwell
    rw [Reference.ofSheetReference_cell] at hreference
    refine ⟨SheetReference.read_text hwell, hreference, Token.read_of_reference (by simp) hreference, fun current => ?_⟩
    unfold findSheet
    dsimp only
    rw [sheetIndex?_of_addSheet hadd]

/-- A name with blanks, an apostrophe and an exclamation mark. -/
theorem read_awkwardName :
    ∃ wb' i, (addSheet " it's!").runOn new = (.ok i, wb') ∧
      Token.read (Token.cell (some " it's!") ⟨1, 2, true, false⟩).display = .ok (.cell (some " it's!") ⟨1, 2, true, false⟩) ∧
      ∀ current, wb'.findSheet current (some " it's!") = .ok i := by
  have hadd : (addSheet " it's!").runOn new = (.ok 1, { new with sheets := new.sheets ++ [{ name := " it's!" }] }) := by
    rfl
  obtain ⟨-, -, htoken, hfind⟩ := read_text_of_read.2.2.2 _ _ _ _ ⟨1, 2, true, false⟩ hadd (by decide)
  exact ⟨_, _, hadd, htoken, hfind⟩

end Spreadsheet.Workbook
