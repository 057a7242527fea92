import Spreadsheet.Proofs.Workbook.Coherence

/-!
# Plain recursion

`Ideal` is the recursion that a session stands for: the value of a formula cell is that of its formula when each cell
that the formula asks for has its own ideal value.  There is no cache and no limit; a cell that depends on itself has no
ideal value.  A session finds the ideal value of every cell that has one (`Ideal.cellValue_eq`), and the cells of a
ranked set all have one (`cellValue_iff_ideal`).
-/

namespace Spreadsheet.Workbook

open Relation

variable (wb : Workbook)

/-- The outcome of plain recursion on the cells that formulas ask for. -/
inductive Ideal : Location → Except FormulaError Scalar → Prop
  | intro (v : Valuation) (l : Location) (h : ∀ d ∈ wb.asks v l, Ideal d (v d)) : Ideal l (wb.valueIn v l)

variable {wb}

theorem Ideal.of_stored {l : Location} (h : wb.formula? l = none) : wb.Ideal l (wb.stored l) := by
  have v : Valuation := fun _ => .ok .empty
  rw [← valueIn_of_stored (v := v) h]
  refine .intro v l fun d hd => ?_
  rw [asks_of_stored h] at hd
  cases hd

theorem Ideal.unique {l : Location} {r r' : Except FormulaError Scalar} (h : wb.Ideal l r) (h' : wb.Ideal l r') :
    r = r' := by
  induction h generalizing r' with
  | intro v l h ih =>
    cases h' with
    | intro w _ h' =>
      -- A third valuation agrees with `v` where the formula asks under `v`, and with `w` where it asks under `w`.
      let u : Valuation := fun d => if d ∈ wb.asks v l then v d else w d
      have huv : wb.valueIn u l = wb.valueIn v l := valueIn_congr fun d hd => if_pos hd
      have huw : wb.valueIn u l = wb.valueIn w l := by
        refine valueIn_congr fun d hd => ?_
        by_cases hv : d ∈ wb.asks v l
        · rw [show u d = v d from if_pos hv]
          exact ih d hv (h' d hd)
        · exact if_neg hv
      exact huv.symm.trans huw

/-! ### The ideal values as a valuation -/

open Classical in
variable (wb) in
/-- The ideal value of each cell that has one. -/
noncomputable def idealValue : Valuation := fun l =>
  if h : ∃ r, wb.Ideal l r then h.choose else .error .circular

theorem Ideal.idealValue_eq {l : Location} {r : Except FormulaError Scalar} (h : wb.Ideal l r) :
    wb.idealValue l = r := by
  have hex : ∃ r, wb.Ideal l r := ⟨r, h⟩
  unfold idealValue
  rw [dif_pos hex]
  exact hex.choose_spec.unique h

/-- The ideal value solves the equation of plain evaluation, and asks only for cells that have an ideal value too. -/
theorem Ideal.solves {l : Location} {r : Except FormulaError Scalar} (h : wb.Ideal l r) :
    wb.idealValue l = wb.valueIn wb.idealValue l ∧
      ∀ d ∈ wb.asks wb.idealValue l, wb.Ideal d (wb.idealValue d) := by
  have he := h.idealValue_eq
  cases h with
  | intro v _ h =>
    have hv : ∀ d ∈ wb.asks v l, wb.idealValue d = v d := fun d hd => (h d hd).idealValue_eq
    rw [asks_congr hv, valueIn_congr hv]
    refine ⟨he, fun d hd => ?_⟩
    rw [hv d hd]
    exact h d hd

private theorem Ideal.not_cyclic {l : Location} {r : Except FormulaError Scalar} (h : wb.Ideal l r) :
    ¬ TransGen (wb.Asks wb.idealValue) l l := by
  induction h with
  | intro v l h ih =>
    have hv : wb.asks wb.idealValue l = wb.asks v l := asks_congr fun d hd => (h d hd).idealValue_eq
    intro hcyc
    obtain ⟨d, hd, hdl⟩ := TransGen.head'_iff.1 hcyc
    exact ih d (hv ▸ hd) (TransGen.tail' hdl hd)

/-- The cells with an ideal value and their values are coherent. -/
theorem coherent_ideal : wb.Coherent {l | ∃ r, wb.Ideal l r} wb.idealValue where
  value := fun _ ⟨_, h⟩ => h.solves.1
  closed := fun _ ⟨_, h⟩ d hd => ⟨_, h.solves.2 d hd⟩
  circular := fun _ ⟨_, h⟩ hcyc => absurd hcyc h.not_cyclic

/-- A session finds the ideal value, whatever it was asked before. -/
theorem Ideal.cellValue_eq {l : Location} {r : Except FormulaError Scalar} (h : wb.Ideal l r) {sheet : Nat}
    {s : Session} (hs : wb.Reached sheet s) : ((wb.cellValue l).runFrom s).1 = r := by
  rw [cellValue_coherent coherent_ideal hs ⟨r, h⟩]
  exact h.idealValue_eq

/-! ### Ranked sets of cells -/

variable (wb) in
/-- The cells of `D` are ranked: when cells of lower rank in `D` have their ideal values, a formula in `D` asks only for
cells of lower rank in `D`. -/
def Ranked (D : Set Location) (rank : Location → Nat) : Prop :=
  ∀ c ∈ D, ∀ v : Valuation, (∀ d ∈ D, rank d < rank c → wb.Ideal d (v d)) → ∀ d ∈ wb.asks v c, d ∈ D ∧ rank d < rank c

/-- To rank all cells it is enough to look at the formulas. -/
theorem ranked_univ {rank : Location → Nat}
    (h : ∀ l ∈ wb.formulaLocations, ∀ v : Valuation, (∀ d, rank d < rank l → wb.Ideal d (v d)) →
      ∀ d ∈ wb.asks v l, rank d < rank l) : wb.Ranked Set.univ rank := by
  intro l _ v hv d hd
  refine ⟨Set.mem_univ d, ?_⟩
  by_cases hf : (wb.formula? l).isSome
  · exact h l (mem_formulaLocations.2 hf) v (fun d hlt => hv d (Set.mem_univ d) hlt) d hd
  · rw [asks_of_stored (by simpa using hf)] at hd
    cases hd

theorem Ranked.exists_ideal {D : Set Location} {rank : Location → Nat} (hD : wb.Ranked D rank) {c : Location}
    (hc : c ∈ D) : wb.Ideal c (wb.idealValue c) := by
  induction h : rank c using Nat.strongRecOn generalizing c with
  | _ n ih =>
    -- The ideal values of lower cells are known to be values of `Ideal`, which is what the ranking asks for.
    have hlow : ∀ d ∈ D, rank d < rank c → wb.Ideal d (wb.idealValue d) := fun d hd hlt => ih _ (h ▸ hlt) hd rfl
    have hc' : wb.Ideal c (wb.valueIn wb.idealValue c) := by
      refine .intro _ c fun d hd => ?_
      obtain ⟨hdD, hlt⟩ := hD c hc _ hlow d hd
      exact hlow d hdD hlt
    rw [hc'.idealValue_eq]
    exact hc'

/-- On a ranked set of cells, however long its chains are, a session finds exactly the outcomes of plain recursion,
whatever it was asked before. -/
theorem cellValue_iff_ideal {D : Set Location} {rank : Location → Nat} (hD : wb.Ranked D rank) {sheet : Nat}
    {s : Session} (hs : wb.Reached sheet s) {c : Location} (hc : c ∈ D) (r : Except FormulaError Scalar) :
    ((wb.cellValue c).runFrom s).1 = r ↔ wb.Ideal c r := by
  have h := hD.exists_ideal hc
  rw [h.cellValue_eq hs]
  exact ⟨fun e => e ▸ h, h.unique⟩

/-- A column of 41 cells in which each refers to the one above it, and beside it a cell that refers to itself. -/
def column : Workbook where
  sheets := [{
    name := "Sheet1"
    cells := .ofList ((⟨0, 0⟩, .constant (.text "top")) :: (⟨0, 1⟩, .formula [.cell none (.relative 0 1)]) ::
      (List.range 40).map fun k => (⟨k + 1, 0⟩, .formula [.cell none (.relative k 0)])) Position.order }]

private theorem formula?_column : ∀ k < 40, column.formula? ⟨0, ⟨k + 1, 0⟩⟩ = some [.cell none (.relative k 0)] := by
  decide

private theorem ranked_column :
    column.Ranked {l | l.sheet = 0 ∧ l.position.col = 0 ∧ l.position.row ≤ 40} (·.position.row) := by
  rintro ⟨i, ⟨row, col⟩⟩ ⟨rfl, rfl, hrow⟩ v - d hd
  cases row with
  | zero =>
    rw [asks_of_stored (by decide)] at hd
    cases hd
  | succ k =>
    rw [asks_of_reference (formula?_column k hrow)] at hd
    obtain rfl := List.mem_singleton.1 hd
    exact ⟨⟨rfl, rfl, Nat.le_of_succ_le hrow⟩, Nat.lt_succ_self k⟩

private theorem ideal_column {k : Nat} (hk : k ≤ 40) : column.Ideal ⟨0, ⟨k, 0⟩⟩ (.ok (.text "top")) := by
  induction k with
  | zero => exact .of_stored (by decide)
  | succ k ih =>
    let v : Valuation := fun _ => .ok (.text "top")
    have hv : column.valueIn v ⟨0, ⟨k + 1, 0⟩⟩ = .ok (.text "top") := valueIn_of_reference (formula?_column k hk)
    rw [← hv]
    refine .intro v _ fun d hd => ?_
    rw [asks_of_reference (formula?_column k hk)] at hd
    obtain rfl := List.mem_singleton.1 hd
    exact ih (Nat.le_of_succ_le hk)

/-- The cell at the bottom of the column has the value of the one at the top, also after a look at the cyclic cell. -/
theorem cellValue_column :
    ((column.cellValue ⟨0, ⟨40, 0⟩⟩).runFrom ((column.cellValue ⟨0, ⟨0, 1⟩⟩).runFrom (Session.new 0)).2).1 =
      .ok (.text "top") :=
  (cellValue_iff_ideal ranked_column (.value _ .new) ⟨rfl, rfl, le_rfl⟩ _).2 (ideal_column le_rfl)

end Spreadsheet.Workbook
