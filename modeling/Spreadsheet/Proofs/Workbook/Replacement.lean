import Spreadsheet.Proofs.Workbook.Edits
import Spreadsheet.Proofs.Workbook.Ideal

/-!
# Replacing a cell by its value

A formula cell that has a value can be replaced by this value, an error value included: all other cells of a ranked set
have the same values as before (`evaluateCell_setValue`).  For the formulas that ask for the cell the answer is the same,
and the formulas themselves do not change.

A cell without a value is different.  It is shown as the error value of its failure, but the formulas that ask for it see
the failure, and IF for one reads the failure of a reference as a value of the wrong type, whatever the failure is
(`evaluateCell_ne_failingReference`).  Then only the cells that do not depend on the replaced one keep their values.
-/

namespace Spreadsheet

open Relation

namespace Workbook

variable {wb wb' : Workbook} {c : Location} {x : Scalar}

/-- Two workbooks that differ in one cell only, which is worth `x` in the second one. -/
structure DiffersAt (c : Location) (x : Scalar) (wb wb' : Workbook) : Prop where
  settings : wb'.settings = wb.settings
  sheetCount : wb'.sheetCount = wb.sheetCount
  findSheet : ∀ i sheet, wb'.findSheet i sheet = wb.findSheet i sheet
  definedName? : ∀ id, wb'.definedName? id = wb.definedName? id
  shared? : ∀ i p, (wb'.sheet? i).bind (·.shared? p) = (wb.sheet? i).bind (·.shared? p)
  formula? : ∀ l, l ≠ c → wb'.formula? l = wb.formula? l
  stored : ∀ l, l ≠ c → wb'.stored l = wb.stored l
  formula?_self : wb'.formula? c = none
  stored_self : wb'.stored c = .ok x

/-- Setting a cell to a constant changes this cell only. -/
theorem differsAt_setValue (h : (editSheet c.sheet (Sheet.setValue c.position x)).runOn wb = (.ok (), wb')) :
    DiffersAt c x wb wb' := by
  have hput := putAt_of_setValue h
  refine ⟨hput.settings, hput.sheetCount, hput.findSheet, hput.definedName?, hput.shared?, fun l => hput.formula?_of_ne,
    fun l => hput.stored_of_ne, ?_, ?_⟩
  · rw [hput.formula?_self, Sheet.formula?_ofConstant]
  · rw [hput.stored_self, Sheet.constant?_ofConstant]

/-- Setting a blank cell to something, seen backwards. -/
theorem differsAt_of_blank {content : Option Cell} (h : wb.PutAt c content wb') (hblank : wb.content? c = none) :
    DiffersAt c .empty wb' wb := by
  refine ⟨h.settings.symm, h.sheetCount.symm, fun i sheet => (h.findSheet i sheet).symm, fun id => (h.definedName? id).symm,
    fun i p => (h.shared? i p).symm, fun l hl => (h.formula?_of_ne hl).symm, fun l hl => (h.stored_of_ne hl).symm, ?_, ?_⟩
  · show (wb.content? c).bind _ = none
    rw [hblank]
    rfl
  · rw [stored_eq, if_pos h.isSome_sheet?_self, hblank]
    rfl

/-! ### Values of other cells -/

namespace DiffersAt

variable (h : DiffersAt c x wb wb')
include h

theorem resolverOn {σ : Type} (current : Eval σ Nat) (lookUp : Location → Eval σ Scalar) :
    wb'.resolverOn current lookUp = wb.resolverOn current lookUp := by
  unfold Workbook.resolverOn
  simp only [h.findSheet, h.definedName?, h.shared?]

/-- The formulas of other cells ask the same and give the same when they get the same answers. -/
theorem evaluateIn (v : Valuation) {l : Location} (hl : l ≠ c) : wb'.evaluateIn v l = wb.evaluateIn v l := by
  cases hf : wb.formula? l with
  | none =>
    unfold Workbook.evaluateIn
    rw [lookUpWith_of_stored hf, lookUpWith_of_stored ((h.formula? l hl).trans hf), h.stored l hl]
  | some tokens =>
    rw [evaluateIn_of_formula hf, evaluateIn_of_formula ((h.formula? l hl).trans hf), h.settings]
    unfold resolverIn
    rw [h.resolverOn]

theorem valueIn (v : Valuation) {l : Location} (hl : l ≠ c) : wb'.valueIn v l = wb.valueIn v l := by
  rw [Workbook.valueIn, h.evaluateIn v hl, Workbook.valueIn]

theorem asks (v : Valuation) {l : Location} (hl : l ≠ c) : wb'.asks v l = wb.asks v l := by
  rw [Workbook.asks, h.evaluateIn v hl, Workbook.asks]

/-- A cell keeps its ideal value if the replaced one has its own value still, or if it does not depend on it. -/
theorem ideal {l : Location} {r : Except FormulaError Scalar} (hl : wb.Ideal l r)
    (hc : wb.Ideal c (.ok x) ∨ ¬ ReflTransGen (wb.Asks wb.idealValue) l c) : wb'.Ideal l r := by
  induction hl with
  | intro v l hasks ih =>
    by_cases hlc : l = c
    · subst hlc
      rcases hc with hc | hc
      · have hr : wb.valueIn v l = .ok x := (Ideal.intro v l hasks).unique hc
        rw [hr, ← h.stored_self]
        exact .of_stored h.formula?_self
      · exact absurd .refl hc
    · rw [← h.valueIn v hlc]
      refine .intro v l fun d hd => ?_
      rw [h.asks v hlc] at hd
      refine ih d hd (hc.imp_right fun hn hdc => hn (.head ?_ hdc))
      show d ∈ wb.asks wb.idealValue l
      rw [asks_congr fun d hd => (hasks d hd).idealValue_eq]
      exact hd

/-- Also backwards: an ideal value that does not depend on the replaced cell is the one that was there before. -/
theorem ideal_of_not_reaches {l : Location} {r : Except FormulaError Scalar} (hl : wb'.Ideal l r)
    (hc : ¬ ReflTransGen (wb'.Asks wb'.idealValue) l c) : wb.Ideal l r := by
  induction hl with
  | intro v l hasks ih =>
    have hlc : l ≠ c := by
      rintro rfl
      exact hc .refl
    rw [h.valueIn v hlc]
    refine .intro v l fun d hd => ?_
    rw [← h.asks v hlc] at hd
    refine ih d hd fun hdc => hc (.head ?_ hdc)
    show d ∈ wb'.asks wb'.idealValue l
    rw [asks_congr fun d hd => (hasks d hd).idealValue_eq]
    exact hd

end DiffersAt

/-- The value of a cell that has an ideal value. -/
theorem evaluateCell_ideal {l : Location} {r : Except FormulaError Scalar} (hl : wb.Ideal l r) {address : String}
    (ha : Sheet.readPosition address = .ok l.position) :
    wb.evaluateCell l.sheet address =
      wb.checkSheet l.sheet >>= fun _ => (shownInCell r).mapError .formula := by
  have hv : runSession l.sheet (wb.cellValue ⟨l.sheet, l.position⟩) = r := hl.cellValue_eq .new
  unfold evaluateCell checkSheet
  split
  · rw [ha]
    show (shownInCell (runSession l.sheet (wb.cellValue ⟨l.sheet, l.position⟩))).mapError _ = _
    rw [hv]
    rfl
  · rfl

/-- When a cell of a ranked set is set to the value that it has, then the other cells of the set keep their values.  When
it is set to anything else, those that do not depend on it do. -/
theorem evaluateCell_setValue {D : Set Location} {rank : Location → Nat} (hD : wb.Ranked D rank) (hc : c ∈ D)
    (hset : (editSheet c.sheet (Sheet.setValue c.position x)).runOn wb = (.ok (), wb')) {d : Location} (hd : d ∈ D)
    (hx : runSession c.sheet (wb.cellValue c) = .ok x ∨ ¬ ReflTransGen (wb.Asks wb.idealValue) d c)
    {address : String} (ha : Sheet.readPosition address = .ok d.position) :
    wb'.evaluateCell d.sheet address = wb.evaluateCell d.sheet address := by
  have hdiffers := differsAt_setValue hset
  have hideal := hD.exists_ideal hd
  have hideal' : wb'.Ideal d (wb.idealValue d) := by
    refine hdiffers.ideal hideal (hx.imp_left fun hx => ?_)
    exact (cellValue_iff_ideal hD .new hc (.ok x)).1 hx
  have hcheck : wb'.checkSheet d.sheet = wb.checkSheet d.sheet := by
    unfold checkSheet
    rw [hdiffers.sheetCount]
  rw [evaluateCell_ideal hideal ha, evaluateCell_ideal hideal' ha, hcheck]

/-- A cell with the error value `#N/A`, one that refers to it, and one that refers to that one. -/
def relay : Workbook where
  sheets := [{
    name := "Sheet1"
    cells := .ofList [
      (⟨0, 0⟩, .formula [.ofCall Function.na.id 0]),
      (⟨0, 1⟩, .formula [.cell none (.relative 0 0)]),
      (⟨0, 2⟩, .formula [.cell none (.relative 0 1)])] Position.order }]

private theorem asks_relay (v : Valuation) : relay.asks v ⟨0, ⟨0, 0⟩⟩ = [] := rfl

theorem ranked_relay : relay.Ranked Set.univ (·.position.col) := by
  refine ranked_univ fun l hl v _ d hd => ?_
  rw [show relay.formulaLocations = [⟨0, ⟨0, 0⟩⟩, ⟨0, ⟨0, 1⟩⟩, ⟨0, ⟨0, 2⟩⟩] by decide] at hl
  simp only [List.mem_cons, List.not_mem_nil, or_false] at hl
  rcases hl with rfl | rfl | rfl
  · rw [asks_relay] at hd
    cases hd
  · rw [asks_of_reference (a := .relative 0 0) (by decide)] at hd
    obtain rfl := List.mem_singleton.1 hd
    decide
  · rw [asks_of_reference (a := .relative 0 1) (by decide)] at hd
    obtain rfl := List.mem_singleton.1 hd
    decide

/-- The last cell has the same value when the first one is set to its error value. -/
theorem evaluateCell_relay :
    ∃ wb', (editSheet 0 (Sheet.setValue ⟨0, 0⟩ (.error .na))).runOn relay = (.ok (), wb') ∧
      wb'.evaluateCell 0 "C1" = relay.evaluateCell 0 "C1" := by
  have hideal : relay.Ideal ⟨0, ⟨0, 0⟩⟩ (.ok (.error .na)) := by
    refine .intro (fun _ => .ok .empty) ⟨0, ⟨0, 0⟩⟩ fun d hd => ?_
    rw [asks_relay] at hd
    cases hd
  have hx : runSession 0 (relay.cellValue ⟨0, ⟨0, 0⟩⟩) = .ok (.error .na) := hideal.cellValue_eq .new
  have ha : Sheet.readPosition "C1" = .ok ⟨0, 2⟩ := by decide
  obtain ⟨wb', hset⟩ : ∃ wb', (editSheet 0 (Sheet.setValue ⟨0, 0⟩ (.error .na))).runOn relay = (.ok (), wb') :=
    ⟨_, rfl⟩
  exact ⟨wb', hset, evaluateCell_setValue (c := ⟨0, ⟨0, 0⟩⟩) (d := ⟨0, ⟨0, 2⟩⟩) ranked_relay (Set.mem_univ _) hset
    (Set.mem_univ _) (.inl hx) ha⟩

/-- A cell that refers to a sheet that does not exist, and one that asks in a condition for it. -/
def failingReference : Workbook where
  sheets := [{
    name := "Sheet1"
    cells := .ofList [
      (⟨0, 0⟩, .formula [.cell (some "Missing") (.relative 0 0)]),
      (⟨0, 1⟩, .formula [.cell none (.relative 0 0), .boolean true, .boolean false, .ofCall Function.ifThen.id 3])]
      Position.order }]

private theorem asks_failingReference (v : Valuation) : failingReference.asks v ⟨0, ⟨0, 0⟩⟩ = [] := rfl

private theorem ideal_failingReference : failingReference.Ideal ⟨0, ⟨0, 0⟩⟩ (.error (.code .ref)) := by
  refine .intro (fun _ => .ok .empty) ⟨0, ⟨0, 0⟩⟩ fun d hd => ?_
  rw [asks_failingReference] at hd
  cases hd

/-- The condition asks for the first cell only, if this has the outcome `r`. -/
theorem asks_condition {v : Valuation} {r : Except FormulaError Scalar} (hv : v ⟨0, ⟨0, 0⟩⟩ = r)
    (hr : failingReference.asks (fun _ => r) ⟨0, ⟨0, 1⟩⟩ = [⟨0, ⟨0, 0⟩⟩]) :
    failingReference.asks v ⟨0, ⟨0, 1⟩⟩ = [⟨0, ⟨0, 0⟩⟩] := by
  rw [← hr]
  refine asks_congr fun d hd => ?_
  rw [hr] at hd
  obtain rfl := List.mem_singleton.1 hd
  exact hv

private theorem ranked_failingReference : failingReference.Ranked Set.univ (·.position.col) := by
  refine ranked_univ fun l hl v hv d hd => ?_
  rw [show failingReference.formulaLocations = [⟨0, ⟨0, 0⟩⟩, ⟨0, ⟨0, 1⟩⟩] by decide] at hl
  simp only [List.mem_cons, List.not_mem_nil, or_false] at hl
  rcases hl with rfl | rfl
  · rw [asks_failingReference] at hd
    cases hd
  · have hv0 : v ⟨0, ⟨0, 0⟩⟩ = .error (.code .ref) := (hv ⟨0, ⟨0, 0⟩⟩ (by decide)).unique ideal_failingReference
    rw [asks_condition hv0 rfl] at hd
    obtain rfl := List.mem_singleton.1 hd
    decide

/-- The first cell is shown as `#REF!`.  The condition reads its failure as `#VALUE!`, and the error value as `#REF!`. -/
theorem evaluateCell_ne_failingReference :
    failingReference.Ranked Set.univ (·.position.col) ∧ (failingReference.formula? ⟨0, ⟨0, 0⟩⟩).isSome ∧
      failingReference.evaluateCell 0 "A1" = .ok (.error .ref) ∧
      ∃ wb', (editSheet 0 (Sheet.setValue ⟨0, 0⟩ (.error .ref))).runOn failingReference = (.ok (), wb') ∧
        failingReference.evaluateCell 0 "B1" = .ok (.error .value) ∧ wb'.evaluateCell 0 "B1" = .ok (.error .ref) := by
  obtain ⟨wb', hset⟩ : ∃ wb', (editSheet 0 (Sheet.setValue ⟨0, 0⟩ (.error .ref))).runOn failingReference =
      (.ok (), wb') := ⟨_, rfl⟩
  have hdiffers : DiffersAt ⟨0, ⟨0, 0⟩⟩ (.error .ref) failingReference wb' := differsAt_setValue hset
  have hA : Sheet.readPosition "A1" = .ok ⟨0, 0⟩ := by decide
  have hB : Sheet.readPosition "B1" = .ok ⟨0, 1⟩ := by decide
  have hne : (⟨0, ⟨0, 1⟩⟩ : Location) ≠ ⟨0, ⟨0, 0⟩⟩ := by decide
  -- The same formula, first with the failure and then with the error value for the cell that it asks for.
  have hbefore : failingReference.Ideal ⟨0, ⟨0, 1⟩⟩ (.ok (.error .value)) := by
    refine .intro (fun _ => .error (.code .ref)) ⟨0, ⟨0, 1⟩⟩ fun d hd => ?_
    rw [asks_condition rfl rfl] at hd
    obtain rfl := List.mem_singleton.1 hd
    exact ideal_failingReference
  have hafter : wb'.Ideal ⟨0, ⟨0, 1⟩⟩ (.ok (.error .ref)) := by
    let w : Valuation := fun _ => .ok (.error .ref)
    have hvalue : wb'.valueIn w ⟨0, ⟨0, 1⟩⟩ = .ok (.error .ref) := by
      rw [valueIn, hdiffers.evaluateIn w hne]
      rfl
    rw [← hvalue]
    refine .intro w ⟨0, ⟨0, 1⟩⟩ fun d hd => ?_
    rw [asks, hdiffers.evaluateIn w hne] at hd
    rw [show ((failingReference.evaluateIn w ⟨0, ⟨0, 1⟩⟩).runFrom []).2 = [⟨0, ⟨0, 0⟩⟩] from rfl] at hd
    obtain rfl := List.mem_singleton.1 hd
    show wb'.Ideal ⟨0, ⟨0, 0⟩⟩ (.ok (.error .ref))
    rw [← hdiffers.stored_self]
    exact .of_stored hdiffers.formula?_self
  have hcheck : wb'.checkSheet 0 = .ok 0 := by
    unfold checkSheet
    rw [hdiffers.sheetCount]
    rfl
  refine ⟨ranked_failingReference, by decide, ?_, wb', hset, ?_, ?_⟩
  · exact (evaluateCell_ideal ideal_failingReference hA).trans rfl
  · exact (evaluateCell_ideal hbefore hB).trans rfl
  · refine (evaluateCell_ideal hafter hB).trans ?_
    rw [hcheck]
    rfl

end Workbook

end Spreadsheet
