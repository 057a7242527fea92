import Spreadsheet.Proofs.Text.DistinctNames
import Spreadsheet.Proofs.Workbook.Operations

/-!
# Defined names

Names are numbered in the order in which they are defined.  An operation leaves them or adds one at the end
(`Change.names_cases`), so that the number of a name stays its number whatever happens to the workbook later
(`Later.names_isPrefix`).  As no two of the names are case variants of each other, finding the number of a name and
finding the name of a number are inverse to each other (`NamesSound.nameId?_eq_some_iff`).
-/

namespace Spreadsheet.Workbook

variable {wb wb' later : Workbook} {name : String} {id : Nat} {d : DefinedName}

/-! ### Numbers and names -/

private theorem definedName?_eq_some_iff : wb.definedName? id = some d ↔ ∃ i, id = i + 1 ∧ wb.names[i]? = some d := by
  unfold definedName?
  cases id with
  | zero => simp
  | succ i => simp

private theorem nameId?_eq (wb : Workbook) (name : String) : wb.nameId? name =
    ((wb.names.map DefinedName.name).findIdx? fun a => Text.sameAscii a name).map (· + 1) := by
  unfold nameId?
  rw [List.findIdx?_map]
  rfl

/-- What a name begins with, and what it does not have in it. -/
theorem exists_of_isNameText {s : List Char} (h : isNameText s = true) :
    ∃ c cs, s = c :: cs ∧ (Text.isLetter c = true ∨ c = '_' ∨ c = '\\') ∧ ∀ b ∈ s, Text.isBlank b = false := by
  cases s with
  | nil => cases h
  | cons c cs =>
    simp only [isNameText, Bool.and_eq_true, Bool.or_eq_true, beq_iff_eq, Bool.not_eq_true', List.any_eq_false,
      Bool.not_eq_true, or_assoc] at h
    exact ⟨c, cs, rfl, h⟩

/-- The names are formed as names, no two are the same, and there are numbers for all of them. -/
structure NamesSound (wb : Workbook) : Prop where
  formed : ∀ d ∈ wb.names, isNameText d.name.toList = true
  distinct : Text.Distinct (wb.names.map DefinedName.name)
  length_le : wb.names.length ≤ maxNames

/-- A name has a number if one of its case variants is defined under this number, and only then. -/
theorem NamesSound.nameId?_eq_some_iff (h : wb.NamesSound) :
    wb.nameId? name = some id ↔ ∃ d, wb.definedName? id = some d ∧ Text.sameAscii d.name name = true := by
  rw [nameId?_eq, Option.map_eq_some_iff]
  simp only [h.distinct.findIdx?_eq_some_iff, List.getElem?_map, Option.map_eq_some_iff, definedName?_eq_some_iff]
  constructor
  · rintro ⟨i, ⟨_, ⟨d, hd, rfl⟩, hname⟩, rfl⟩
    exact ⟨d, ⟨i, rfl, hd⟩, hname⟩
  · rintro ⟨d, ⟨i, rfl, hd⟩, hname⟩
    exact ⟨i, ⟨_, ⟨d, hd, rfl⟩, hname⟩, rfl⟩

/-- The number of a name is not zero, and 16 bits hold it. -/
theorem NamesSound.number_bounds (h : wb.NamesSound) (hd : wb.definedName? id = some d) :
    id ≠ 0 ∧ (UInt16.ofNat id).toNat = id := by
  obtain ⟨i, rfl, hi⟩ := definedName?_eq_some_iff.1 hd
  obtain ⟨hi, -⟩ := List.getElem?_eq_some_iff.1 hi
  have hlength : wb.names.length ≤ 65535 := h.length_le
  exact ⟨by omega, UInt16.toNat_ofNat_of_lt' (by show i + 1 < 65536; omega)⟩

/-! ### What operations do to names -/

private theorem names_foldl_storeResult (rs : List CellResult) : (rs.foldl storeResult wb).names = wb.names := by
  induction rs generalizing wb with
  | nil => rfl
  | cons r rs ih =>
    rw [List.foldl_cons, ih]
    rfl

/-- A change leaves the names, or adds one that can be defined. -/
theorem Change.names_cases (h : Change wb wb') :
    wb'.names = wb.names ∨ ∃ d, wb.CanDefine d.name ∧ wb'.names = wb.names ++ [d] := by
  cases h with
  | @defineName d hd => exact .inr ⟨d, hd, rfl⟩
  | calculate => exact .inl (names_foldl_storeResult _)
  | addSheet | renameSheet | setSettings | editSheet => exact .inl rfl

theorem NamesSound.concat (h : wb.NamesSound) (hd : wb.CanDefine d.name) (hnames : wb'.names = wb.names ++ [d]) :
    wb'.NamesSound := by
  refine ⟨?_, ?_, ?_⟩
  · intro e he
    rw [hnames] at he
    rcases List.mem_append.1 he with he | he
    · exact h.formed e he
    · rw [List.mem_singleton.1 he]
      exact hd.isNameText
  · rw [hnames, List.map_append]
    refine h.distinct.concat ?_
    have hfree := hd.free
    rw [nameId?_eq, Option.map_eq_none_iff, List.findIdx?_eq_none_iff] at hfree
    exact hfree
  · have hlength := hd.lt_maxNames
    rw [hnames, List.length_append]
    exact hlength

theorem NamesSound.apply (h : wb.NamesSound) (op : Operation) : (op.apply wb).NamesSound := by
  rcases op.apply_cases wb with hsame | hchange
  · rw [hsame]
    exact h
  · rcases hchange.names_cases with hnames | ⟨d, hd, hnames⟩
    · exact ⟨hnames ▸ h.formed, hnames ▸ h.distinct, hnames ▸ h.length_le⟩
    · exact h.concat hd hnames

theorem Reachable.namesSound (h : wb.Reachable) : wb.NamesSound := by
  have hnone : ∀ {wb : Workbook}, wb.names = [] → wb.NamesSound := by
    intro wb hnames
    exact ⟨by simp [hnames], by rw [hnames]; exact Text.distinct_nil, by simp [hnames]⟩
  induction h with
  | empty => exact hnone rfl
  | new => exact hnone rfl
  | apply op _ ih => exact ih.apply op
  | place i _ _ _ ih _ => exact ⟨ih.formed, ih.distinct, ih.length_le⟩
  | placeBlank i name _ ih => exact ⟨ih.formed, ih.distinct, ih.length_le⟩

/-! ### Later workbooks -/

/-- What can become of a workbook: operations are done, whether they fail or not, and sheets are put in the place of
others. -/
inductive Later (wb : Workbook) : Workbook → Prop
  | refl : Later wb wb
  | apply {wb' : Workbook} (op : Operation) : Later wb wb' → Later wb (op.apply wb')
  | place {wb' : Workbook} (i : Nat) (sheet : Sheet) : Later wb wb' →
      Later wb { wb' with sheets := wb'.sheets.set i sheet }

theorem Later.foldl (h : wb.Later wb') (ops : List Operation) :
    wb.Later (ops.foldl (fun wb op => op.apply wb) wb') :=
  Operation.foldl_invariant (fun op _ h => h.apply op) h ops

/-- Names are only added at the end. -/
theorem Later.names_isPrefix (h : wb.Later later) : wb.names <+: later.names := by
  induction h with
  | refl => exact List.prefix_rfl
  | place i sheet _ ih => exact ih
  | @apply wb' op _ ih =>
    rcases op.apply_cases wb' with hsame | hchange
    · rw [hsame]
      exact ih
    · rcases hchange.names_cases with hnames | ⟨d, -, hnames⟩
      · rw [hnames]
        exact ih
      · rw [hnames]
        exact ih.trans (List.prefix_append ..)

theorem Later.namesSound (h : wb.Later later) (hsound : wb.NamesSound) : later.NamesSound := by
  induction h with
  | refl => exact hsound
  | apply op _ ih => exact ih.apply op
  | place i sheet _ ih => exact ⟨ih.formed, ih.distinct, ih.length_le⟩

/-- A number keeps its name and the tokens of the name. -/
theorem Later.definedName? (h : wb.Later later) (hd : wb.definedName? id = some d) : later.definedName? id = some d := by
  obtain ⟨i, rfl, hi⟩ := definedName?_eq_some_iff.1 hd
  obtain ⟨added, hadded⟩ := h.names_isPrefix
  refine definedName?_eq_some_iff.2 ⟨i, rfl, ?_⟩
  rw [← hadded, List.getElem?_append_left (List.getElem?_eq_some_iff.1 hi).1]
  exact hi

/-- A name that was defined is the name of its number from then on, and the number is the number of the name. -/
theorem lookups_of_defineName (h : wb.NamesSound) {text : String} {tokens : List Token}
    (hdefine : (defineName text tokens).runOn wb = (.ok id, wb')) (hlater : wb'.Later later) :
    later.definedName? id = some ⟨String.ofList (Text.trim text.toList), tokens⟩ ∧
      later.nameId? (String.ofList (Text.trim text.toList)) = some id := by
  obtain ⟨hname, rfl, rfl⟩ := defineName_eq_ok_iff.1 hdefine
  have hnew : definedName? { wb with names := wb.names ++ [⟨String.ofList (Text.trim text.toList), tokens⟩] }
      (wb.names.length + 1) = some ⟨String.ofList (Text.trim text.toList), tokens⟩ :=
    definedName?_eq_some_iff.2 ⟨_, rfl, List.getElem?_concat_length⟩
  have hsound : later.NamesSound := hlater.namesSound (h.concat hname rfl)
  have hfound := hlater.definedName? hnew
  exact ⟨hfound, hsound.nameId?_eq_some_iff.2 ⟨_, hfound, Text.sameAscii_refl _⟩⟩

/-- In a workbook that can come about, no two defined names are the same up to the case of ASCII letters; they begin with
a letter, an underscore or a backslash and have no blanks in them; and names and numbers lead to each other.  A number is
not zero and is held by 16 bits.  A name that is defined gets a number that leads to the name, without the blanks around
it, and to its tokens, whatever becomes of the workbook.  Where a name cannot be defined nothing changes. -/
theorem definedNames_lasting (h : wb.Reachable) :
    (wb.names.Pairwise fun d e => Text.sameAscii d.name e.name = false) ∧
    (∀ d ∈ wb.names, ∃ c cs, d.name.toList = c :: cs ∧ (Text.isLetter c = true ∨ c = '_' ∨ c = '\\') ∧
      ∀ b ∈ d.name.toList, Text.isBlank b = false) ∧
    (∀ name id, wb.nameId? name = some id ↔
      ∃ d, wb.definedName? id = some d ∧ Text.sameAscii d.name name = true) ∧
    (∀ d ∈ wb.names, ∃ id, wb.definedName? id = some d) ∧
    (∀ id d, wb.definedName? id = some d → id ≠ 0 ∧ (UInt16.ofNat id).toNat = id) ∧
    (∀ text tokens wb' id, (defineName text tokens).runOn wb = (.ok id, wb') →
      (Operation.defineName text tokens).apply wb = wb' ∧ id ≠ 0 ∧ (UInt16.ofNat id).toNat = id ∧
      ∀ later, wb'.Later later →
        later.definedName? id = some ⟨String.ofList (Text.trim text.toList), tokens⟩ ∧
        later.nameId? (String.ofList (Text.trim text.toList)) = some id) ∧
    ∀ text tokens wb' error, (defineName text tokens).runOn wb = (.error error, wb') →
      wb' = wb ∧ (Operation.defineName text tokens).apply wb = wb := by
  have hsound := h.namesSound
  refine ⟨List.pairwise_map.1 hsound.distinct, fun d hd => ?_, fun name id => hsound.nameId?_eq_some_iff,
    fun d hd => ?_, fun id d => hsound.number_bounds, ?_, ?_⟩
  · exact exists_of_isNameText (hsound.formed d hd)
  · obtain ⟨i, hi⟩ := List.getElem?_of_mem hd
    exact ⟨i + 1, definedName?_eq_some_iff.2 ⟨i, rfl, hi⟩⟩
  · intro text tokens wb' id hdefine
    have hnew := (lookups_of_defineName hsound hdefine .refl).1
    have happly : (Operation.defineName text tokens).apply wb = wb' :=
      Operation.apply_of_ok (Action.runOn_discard_eq_ok.2 ⟨id, hdefine⟩)
    obtain ⟨hne, hbits⟩ := (happly ▸ hsound.apply _ : wb'.NamesSound).number_bounds hnew
    exact ⟨happly, hne, hbits, fun later hlater => lookups_of_defineName hsound hdefine hlater⟩
  · intro text tokens wb' error hdefine
    have hsame : ((defineName text tokens).runOn wb).2 = wb := atomic_defineName text tokens wb error (by rw [hdefine])
    refine ⟨by rw [← hsame, hdefine], ?_⟩
    show ((discard (defineName text tokens)).runOn wb).2 = wb
    rw [Action.runOn_discard, hsame]

/-- A name is defined, and then sheets are added and another name is defined. -/
theorem definedNames_rate :
    ∃ wb', (defineName " Rate " [.integer 5]).runOn new = (.ok 1, wb') ∧
      ([.addDefaultSheet, .defineName "RATE" [.missing], .defineName "\\x" []].foldl
        (fun wb (op : Operation) => op.apply wb) wb').definedName? 1 = some ⟨"Rate", [.integer 5]⟩ ∧
      wb'.nameId? "rAtE" = some 1 ∧ (Operation.defineName "RATE" [.missing]).apply wb' = wb' := by
  have hdefine : (defineName " Rate " [.integer 5]).runOn new =
      (.ok 1, { new with names := [⟨"Rate", [.integer 5]⟩] }) := by rfl
  have hrefused : (defineName "RATE" [.missing]).runOn { new with names := [⟨"Rate", [.integer 5]⟩] } =
      (.error (.nameTaken "RATE"), { new with names := [⟨"Rate", [.integer 5]⟩] }) := by rfl
  obtain ⟨-, -, -, -, -, hlasting, -⟩ := definedNames_lasting .new
  obtain ⟨happly, -, -, hlater⟩ := hlasting _ _ _ _ hdefine
  have hreachable : Reachable { new with names := [⟨"Rate", [.integer 5]⟩] } := happly ▸ Reachable.new.apply _
  obtain ⟨-, -, hnumber, -, -, -, hfailed⟩ := definedNames_lasting hreachable
  refine ⟨_, hdefine, (hlater _ (Later.refl.foldl _)).1, (hnumber _ _).2 ⟨⟨"Rate", [.integer 5]⟩, rfl, by decide⟩, ?_⟩
  exact (hfailed _ _ _ _ hrefused).2

end Spreadsheet.Workbook
