import Mathlib.Data.List.Perm.Subperm
import Spreadsheet.Proofs.Text.DistinctNames
import Spreadsheet.Proofs.Workbook.SheetStore

/-!
# Finding sheets by name

Operations add a name at the end of the list of sheet names, or replace one, and only with names that a sheet can have
(`Change.sheetNames_cases`).  So the names stay well-formed and distinct (`WellNamed.apply`), and each sheet is found
under all case variants of its name.  A sheet that comes without a name gets one: among as many numbers as there are
sheets, and one more, not all are taken (`exists_admits_numbered`).
-/

namespace Spreadsheet.Workbook

variable {wb wb' : Workbook}

/-- The names of the sheets, in order. -/
def sheetNames (wb : Workbook) : List String :=
  wb.sheets.map Sheet.name

private theorem length_sheetNames (wb : Workbook) : wb.sheetNames.length = wb.sheetCount :=
  List.length_map ..

private theorem sheetNames_getElem? (wb : Workbook) (i : Nat) : wb.sheetNames[i]? = (wb.sheet? i).map Sheet.name :=
  List.getElem?_map ..

private theorem sheetIndex?_eq (wb : Workbook) (name : String) :
    wb.sheetIndex? name = wb.sheetNames.findIdx? fun a => Text.sameAscii a name := by
  unfold sheetIndex? sheetNames
  rw [List.findIdx?_map]
  rfl

/-! ### What operations do to the names -/

private theorem sheetNames_modify {i : Nat} {f : Sheet → Sheet} (hf : ∀ sheet, (f sheet).name = sheet.name) :
    sheetNames { wb with sheets := wb.sheets.modify i f } = wb.sheetNames := by
  refine List.ext_getElem? fun j => ?_
  rw [sheetNames_getElem?, sheetNames_getElem?]
  show ((wb.sheets.modify i f)[j]?).map Sheet.name = (wb.sheets[j]?).map Sheet.name
  rw [List.getElem?_modify]
  by_cases hij : i = j <;> cases wb.sheets[j]? <;> simp [hij, hf]

private theorem sheetNames_foldl_storeResult (rs : List CellResult) :
    (rs.foldl storeResult wb).sheetNames = wb.sheetNames := by
  induction rs generalizing wb with
  | nil => rfl
  | cons r rs ih =>
    rw [List.foldl_cons, ih]
    exact sheetNames_modify fun sheet => rfl

private theorem sheetNames_rename (i : Nat) (name : String) :
    sheetNames { wb with sheets := wb.sheets.modify i fun sheet => { sheet with name } } = wb.sheetNames.set i name := by
  refine List.ext_getElem? fun j => ?_
  rw [sheetNames_getElem?, List.getElem?_set, sheetNames_getElem?, length_sheetNames]
  show ((wb.sheets.modify i _)[j]?).map Sheet.name = _
  rw [List.getElem?_modify]
  by_cases hij : i = j
  · subst hij
    by_cases hi : i < wb.sheets.length
    · simp [sheetCount, hi]
    · simp [sheetCount, hi]
  · simp only [hij, if_false]
    cases h : wb.sheets[j]? <;> simp [sheet?, h]

/-- A change leaves the names of the sheets, or adds one, or replaces one. -/
theorem Change.sheetNames_cases (h : Change wb wb') :
    wb'.sheetNames = wb.sheetNames ∨ (∃ name, wb.Admits name none ∧ wb'.sheetNames = wb.sheetNames ++ [name]) ∨
      ∃ i name, wb.Admits name (some i) ∧ wb'.sheetNames = wb.sheetNames.set i name := by
  cases h with
  | @addSheet name hname => exact .inr (.inl ⟨name, hname, by simp [sheetNames]⟩)
  | @renameSheet i name hname => exact .inr (.inr ⟨i, name, hname, sheetNames_rename i name⟩)
  | defineName | setSettings => exact .inl rfl
  | @editSheet i sheet sheet' edit hs hedit =>
    obtain ⟨p, -, -, rfl⟩ := Sheet.Edit.run_eq_ok_iff.1 hedit
    have hname : (wb.sheetNames)[i]? = some (edit.write sheet p).name := by
      rw [sheetNames_getElem?, hs, Option.map_some, (edit.writesAt_write p sheet).name]
    left
    show (wb.sheets.set i (edit.write sheet p)).map Sheet.name = wb.sheetNames
    rw [List.map_set]
    obtain ⟨hi, hname⟩ := List.getElem?_eq_some_iff.1 hname
    rw [← hname]
    exact List.set_getElem_self hi
  | calculate => exact .inl (sheetNames_foldl_storeResult _)

/-- All sheets have names that a sheet can have, and no two have the same one. -/
structure WellNamed (wb : Workbook) : Prop where
  valid : ∀ name ∈ wb.sheetNames, SheetName.Fits name ∧ ∀ c ∈ name.toList, isForbidden c = false
  distinct : Text.Distinct wb.sheetNames

private theorem wellNamed_empty : empty.WellNamed where
  valid := by simp [sheetNames, empty]
  distinct := Text.distinct_nil

private theorem wellNamed_new : new.WellNamed where
  valid name h := by
    have hallowed : ("Sheet1".toList.all fun c => !isForbidden c) = true := by decide
    rw [List.mem_singleton.1 h]
    exact ⟨⟨by decide, by decide⟩, by simpa using hallowed⟩
  distinct := List.pairwise_singleton ..

private theorem Admits.sameAscii_eq_false {name : String} {except : Option Nat} (h : wb.Admits name except) {j : Nat}
    {other : String} (hj : wb.sheetNames[j]? = some other) (hne : some j ≠ except) :
    Text.sameAscii other name = false := by
  rw [sheetNames_getElem?] at hj
  obtain ⟨sheet, hs, rfl⟩ := Option.map_eq_some_iff.1 hj
  exact h.free j sheet hs hne

theorem WellNamed.change (h : wb.WellNamed) (hchange : Change wb wb') : wb'.WellNamed := by
  have hvalid : ∀ {name except}, wb.Admits name except → (∀ a ∈ wb'.sheetNames, a ∈ wb.sheetNames ∨ a = name) →
      ∀ a ∈ wb'.sheetNames, SheetName.Fits a ∧ ∀ c ∈ a.toList, isForbidden c = false := by
    intro name except hname hmem a ha
    rcases hmem a ha with ha | rfl
    · exact h.valid a ha
    · exact ⟨hname.fits, hname.allowed⟩
  rcases hchange.sheetNames_cases with hsame | ⟨name, hname, hadd⟩ | ⟨i, name, hname, hset⟩
  · exact ⟨hsame ▸ h.valid, hsame ▸ h.distinct⟩
  · refine ⟨hvalid hname (by simp [hadd]), ?_⟩
    rw [hadd]
    refine h.distinct.concat fun other hother => ?_
    obtain ⟨j, hj⟩ := List.getElem?_of_mem hother
    exact hname.sameAscii_eq_false hj (by simp)
  · refine ⟨hvalid hname fun a ha => List.mem_or_eq_of_mem_set (hset ▸ ha), ?_⟩
    rw [hset]
    exact h.distinct.set fun j other hj hne => hname.sameAscii_eq_false hj (by simpa using hne)

theorem WellNamed.apply (h : wb.WellNamed) (op : Operation) : (op.apply wb).WellNamed := by
  rcases op.apply_cases wb with hsame | hchange
  · rw [hsame]
    exact h
  · exact h.change hchange

theorem WellNamed.foldl (h : wb.WellNamed) (ops : List Operation) :
    (ops.foldl (fun wb op => op.apply wb) wb).WellNamed :=
  Operation.foldl_invariant (fun op _ h => h.apply op) h ops

/-- Each sheet is found under all case variants of its name, and under nothing else. -/
theorem WellNamed.sheetIndex?_eq_some_iff (h : wb.WellNamed) {name : String} {i : Nat} :
    wb.sheetIndex? name = some i ↔ ∃ sheet, wb.sheet? i = some sheet ∧ Text.sameAscii sheet.name name = true := by
  rw [sheetIndex?_eq, h.distinct.findIdx?_eq_some_iff, sheetNames_getElem?]
  simp

/-! ### Numbered names -/

private theorem toList_numbered (n : Nat) : (s!"Sheet{n}").toList = "Sheet".toList ++ Nat.toDigits 10 n := by
  show ("Sheet" ++ toString n).toList = _
  rw [String.toList_append, Nat.toString_eq_ofList_toDigits, @String.toList_ofList (Nat.toDigits 10 n)]

private theorem isAlphanum_of_mem_numbered {n : Nat} {c : Char} (h : c ∈ (s!"Sheet{n}").toList) :
    c.isAlphanum = true := by
  rw [toList_numbered, List.mem_append] at h
  rcases h with h | h
  · have hletters : "Sheet".toList.all Char.isAlphanum = true := by decide
    exact List.all_eq_true.1 hletters c h
  · rw [Text.isAlphanum_iff]
    exact .inr (Text.isDigit_of_mem_toDigits h)

private theorem isForbidden_of_isAlphanum {c : Char} (h : c.isAlphanum = true) : isForbidden c = false := by
  rw [← Bool.not_eq_true]
  intro hc
  simp only [isForbidden, Bool.or_eq_true, beq_iff_eq] at hc
  rcases hc with (((((rfl | rfl) | rfl) | rfl) | rfl) | rfl) | rfl <;> revert h <;> decide

/-- A number of up to 26 digits can stand in a name. -/
theorem fits_numbered {n : Nat} (h : n < 10 ^ 26) : SheetName.Fits s!"Sheet{n}" := by
  have hdigits : (Nat.toDigits 10 n).length ≤ 26 := (Nat.length_toDigits_le_iff (by decide) (by decide)).2 h
  rw [SheetName.Fits, toList_numbered]
  constructor
  · simp
  · rw [List.length_append]
    show 5 + _ ≤ 31
    omega

/-- Different numbers make different names. -/
theorem eq_of_sameAscii_numbered {m n : Nat} (h : Text.sameAscii s!"Sheet{m}" s!"Sheet{n}" = true) : m = n := by
  have hlower : ∀ n, Text.asciiLower s!"Sheet{n}" = "Sheet".toList.map Char.toLower ++ Nat.toDigits 10 n := by
    intro n
    have hdigits : (Nat.toDigits 10 n).map Char.toLower = (Nat.toDigits 10 n).map id := by
      refine List.map_congr_left fun c hc => Text.toLower_of_not_isUpper ?_
      have hdigit : c.isDigit = true := Text.isDigit_of_mem_toDigits hc
      rw [Char.isDigit_iff_toNat] at hdigit
      rw [Text.isUpper_iff]
      have : '9'.toNat = 57 := rfl
      omega
    unfold Text.asciiLower
    rw [toList_numbered, List.map_append, hdigits, List.map_id]
  rw [Text.sameAscii_iff, hlower, hlower, List.append_cancel_left_eq] at h
  rw [← Nat.ofDigitChars_ten_toDigits (n := m), h, Nat.ofDigitChars_ten_toDigits]

/-- A numbered name that no sheet can be given is the name of a sheet. -/
theorem mem_of_not_admits_numbered {n : Nat} (hn : n < 10 ^ 26) (h : ¬ wb.Admits s!"Sheet{n}" none) :
    Text.asciiLower s!"Sheet{n}" ∈ wb.sheetNames.map Text.asciiLower := by
  by_contra hfree
  refine h ⟨fits_numbered hn, fun c hc => isForbidden_of_isAlphanum (isAlphanum_of_mem_numbered hc), ?_⟩
  intro j sheet hs _
  rw [← Bool.not_eq_true, Text.sameAscii_iff]
  intro hsame
  have hmem : sheet.name ∈ wb.sheetNames := List.mem_map_of_mem (List.mem_of_getElem? hs)
  exact hfree (List.mem_map.2 ⟨sheet.name, hmem, hsame⟩)

/-- Of more numbered names than there are sheets, a sheet can be given one. -/
theorem exists_admits_numbered (h : wb.sheetCount < 2 ^ 64) : ∃ name ∈ wb.defaultNames, wb.Admits name none := by
  by_contra hnone
  have hsub : wb.defaultNames.map Text.asciiLower ⊆ wb.sheetNames.map Text.asciiLower := by
    intro lower hlower
    obtain ⟨name, hname, rfl⟩ := List.mem_map.1 hlower
    obtain ⟨n, hn, rfl⟩ := List.mem_map.1 hname
    rw [List.mem_range'_1] at hn
    exact mem_of_not_admits_numbered (by omega) fun hadmits => hnone ⟨_, hname, hadmits⟩
  have hnodup : (wb.defaultNames.map Text.asciiLower).Nodup := by
    unfold defaultNames
    rw [List.map_map]
    refine List.Nodup.map_on (fun m _ n _ hmn => ?_) List.nodup_range'
    exact eq_of_sameAscii_numbered (Text.sameAscii_iff.2 hmn)
  have hle := (List.subperm_of_subset hnodup hsub).length_le
  simp only [defaultNames, List.length_map, List.length_range', length_sheetNames] at hle
  omega

/-- The first numbered name that a sheet can be given is the one that is taken. -/
theorem freeName_spec (h : wb.sheetCount < 2 ^ 64) : ∃ k ≤ wb.sheetCount,
    wb.freeName = s!"Sheet{wb.sheetCount + 1 + k}" ∧ wb.Admits wb.freeName none ∧
      ∀ j < k, ¬ wb.Admits s!"Sheet{wb.sheetCount + 1 + j}" none := by
  have hfree : ∀ name, (wb.sheetNameError? name none).isNone = true ↔ wb.Admits name none := by
    intro name
    rw [Option.isNone_iff_eq_none, sheetNameError?_eq_none_iff]
  obtain ⟨name, hname, hadmits⟩ := exists_admits_numbered h
  have hsome : (wb.defaultNames.find? fun name => (wb.sheetNameError? name none).isNone).isSome := by
    rw [List.find?_isSome]
    exact ⟨name, hname, (hfree name).2 hadmits⟩
  obtain ⟨first, hfind⟩ := Option.isSome_iff_exists.1 hsome
  have hfirst : wb.freeName = first := by rw [freeName, hfind, Option.getD_some]
  obtain ⟨hadmits, k, hk, rfl, hbefore⟩ := List.find?_eq_some_iff_getElem.1 hfind
  rw [hfree] at hadmits
  have hget : ∀ j (hj : j < wb.defaultNames.length), wb.defaultNames[j] = s!"Sheet{wb.sheetCount + 1 + j}" := by
    intro j hj
    simp [defaultNames]
  refine ⟨k, ?_, by rw [hfirst, hget], hfirst ▸ hadmits, fun j hj hadmits => ?_⟩
  · simp [defaultNames] at hk
    omega
  · have hrefused := hbefore j hj
    rw [Bool.not_eq_true', ← Bool.not_eq_true, hfree, hget] at hrefused
    exact hrefused hadmits

/-- A sheet without a name can be added, and the numbered names before the one that it gets are refused. -/
theorem addDefaultSheet_eq_ok (h : wb.sheetCount < 2 ^ 64) : ∃ k ≤ wb.sheetCount,
    addDefaultSheet.runOn wb = (.ok wb.sheetCount,
      { wb with sheets := wb.sheets ++ [{ name := s!"Sheet{wb.sheetCount + 1 + k}" }] }) ∧
    ∀ j < k, ∃ error, ((addSheet s!"Sheet{wb.sheetCount + 1 + j}").runOn wb).1 = .error error := by
  obtain ⟨k, hk, hname, hadmits, hbefore⟩ := freeName_spec h
  refine ⟨k, hk, ?_, fun j hj => ?_⟩
  · rw [runOn_addDefaultSheet, addSheet_eq_ok_iff.2 ⟨hadmits, rfl, rfl⟩, hname]
  · cases hadd : ((addSheet s!"Sheet{wb.sheetCount + 1 + j}").runOn wb).1 with
    | error error => exact ⟨error, rfl⟩
    | ok added => exact absurd (addSheet_eq_ok_iff.1 (Prod.ext hadd rfl)).1 (hbefore j hj)

/-! ### Names after operations -/

/-- Whatever operations have done to a new workbook, or to one without sheets: the names of its sheets are ones that a
sheet can have, no two are the same up to the case of ASCII letters, and each sheet is found under all case variants of
its name.  An operation that fails changes nothing.  To add a sheet without a name takes the first numbered name that is
free, which is among as many as there are sheets, and one more.  (Sheets are counted in a machine word.) -/
theorem findable_after_operations {start wb : Workbook} (hstart : start = new ∨ start = empty) {ops : List Operation}
    (hwb : wb = ops.foldl (fun wb op => op.apply wb) start) :
    (∀ i sheet, wb.sheet? i = some sheet → sheet.name ≠ "" ∧ sheet.name.toList.length ≤ 31 ∧
      ∀ c ∈ [':', '\\', '/', '?', '*', '[', ']'], c ∉ sheet.name.toList) ∧
    (wb.sheets.Pairwise fun sheet sheet' => Text.sameAscii sheet.name sheet'.name = false) ∧
    (∀ name i, wb.sheetIndex? name = some i ↔
      ∃ sheet, wb.sheet? i = some sheet ∧ Text.sameAscii sheet.name name = true) ∧
    (∀ (op : Operation) error, (op.run.runOn wb).1 = .error error → op.apply wb = wb) ∧
    (wb.sheetCount < 2 ^ 64 → ∃ k ≤ wb.sheetCount,
      addDefaultSheet.runOn wb = (.ok wb.sheetCount,
        { wb with sheets := wb.sheets ++ [{ name := s!"Sheet{wb.sheetCount + 1 + k}" }] }) ∧
      ∀ j < k, ∃ error, ((addSheet s!"Sheet{wb.sheetCount + 1 + j}").runOn wb).1 = .error error) := by
  have hnamed : wb.WellNamed := by
    rw [hwb]
    rcases hstart with rfl | rfl
    · exact wellNamed_new.foldl ops
    · exact wellNamed_empty.foldl ops
  refine ⟨fun i sheet hs => ?_, List.pairwise_map.1 hnamed.distinct, fun name i => hnamed.sheetIndex?_eq_some_iff,
    fun op error => Operation.apply_of_error, addDefaultSheet_eq_ok⟩
  · have hmem : sheet.name ∈ wb.sheetNames := List.mem_map_of_mem (List.mem_of_getElem? hs)
    obtain ⟨⟨hne, hlength⟩, hallowed⟩ := hnamed.valid _ hmem
    refine ⟨fun hempty => hne (by rw [hempty]; rfl), hlength, fun c hc hcmem => ?_⟩
    have hforbidden : [':', '\\', '/', '?', '*', '[', ']'].all isForbidden = true := by decide
    exact absurd (List.all_eq_true.1 hforbidden c hc) (by simp [hallowed c hcmem])

/-- A sheet gets a name by hand that would be given to the next one without a name, and keeps it in another case; the
attempt to give it to one more sheet fails. -/
def takenNumber : Workbook :=
  [.addSheet "sheet3", .renameSheet 1 "SHEET3", .renameSheet 0 "Sheet3"].foldl
    (fun wb (op : Operation) => op.apply wb) new

/-- The name is found in all cases, and the next sheet gets another one. -/
theorem findable_takenNumber :
    takenNumber.sheetIndex? "sHeEt3" = some 1 ∧ (Operation.renameSheet 0 "Sheet3").apply takenNumber = takenNumber ∧
      ∃ k ≤ 2, addDefaultSheet.runOn takenNumber =
        (.ok 2, { takenNumber with sheets := takenNumber.sheets ++ [{ name := s!"Sheet{3 + k}" }] }) := by
  have hcount : takenNumber.sheetCount = 2 := by decide
  have hname : (takenNumber.sheet? 1).map Sheet.name = some "SHEET3" := by decide
  have hrun : ((Operation.renameSheet 0 "Sheet3").run.runOn takenNumber).1 = .error (.duplicateSheetName "Sheet3") := by
    rfl
  obtain ⟨sheet, hs, hname⟩ := Option.map_eq_some_iff.1 hname
  obtain ⟨-, -, hindex, hfailed, hadd⟩ := findable_after_operations (.inl rfl) (rfl : takenNumber = _)
  obtain ⟨k, hk, hadd, -⟩ := hadd (by rw [hcount]; decide)
  rw [hcount] at hk hadd
  refine ⟨(hindex _ _).2 ⟨sheet, hs, ?_⟩, hfailed _ _ hrun, k, hk, hadd⟩
  rw [hname]
  decide

end Spreadsheet.Workbook
