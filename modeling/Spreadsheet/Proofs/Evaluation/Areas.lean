import Spreadsheet.Proofs.Address.Walk
import Spreadsheet.Proofs.Evaluation.ComponentValues

/-!
# The values of an area

The values of a countable area are a table of its rows and columns (`Resolver.length_rows`), and they come in the order in
which the cells of the area are walked.  If the resolver answers a question in the same way whenever it is asked, then
they are its answers for the cells one by one (`Resolver.outcome_rows`), and without an answer for some cell there is no
table but the failure of the first such cell.  `CellRange.walked_once` puts this together with what a walk along the
rows meets.
-/

namespace Spreadsheet

variable {σ : Type}

/-! ### Lists of outcomes -/

private theorem Eval.length_of_mapM {α β : Type} {f : α → Eval σ β} {xs : List α} {ys : List β} {p q : σ}
    (h : (xs.mapM f).runFrom p = (.ok ys, q)) : ys.length = xs.length := by
  induction xs generalizing p ys with
  | nil =>
    cases h
    rfl
  | cons x xs ih =>
    rw [List.mapM_cons] at h
    obtain ⟨y, p', -, h⟩ := runFrom_bind_eq_ok.1 h
    obtain ⟨ys', q', hxs, ⟨⟩⟩ := runFrom_bind_eq_ok.1 h
    rw [List.length_cons, List.length_cons, ih hxs]

private theorem exists_mapM_ok {α β : Type} {f : α → Except FormulaError β} {xs : List α}
    (h : ∀ x ∈ xs, ∃ y, f x = .ok y) : ∃ ys : List β, xs.mapM f = .ok ys ∧ ys.map .ok = xs.map f := by
  induction xs with
  | nil => exact ⟨[], rfl, rfl⟩
  | cons x xs ih =>
    obtain ⟨y, hy⟩ := h x List.mem_cons_self
    obtain ⟨ys, hys, hmap⟩ := ih fun x hx => h x (List.mem_cons_of_mem _ hx)
    refine ⟨y :: ys, ?_, ?_⟩
    · rw [List.mapM_cons, hy, hys]
      rfl
    · rw [List.map_cons, List.map_cons, hy, hmap]

/-- The first failure is the outcome. -/
private theorem mapM_error_of_append {α β : Type} {f : α → Except FormulaError β} {before after : List α} {a : α}
    {e : FormulaError} (hbefore : ∀ b ∈ before, ∃ y, f b = .ok y) (ha : f a = .error e) :
    (before ++ a :: after).mapM f = .error e := by
  obtain ⟨ys, hys, -⟩ := exists_mapM_ok hbefore
  rw [List.mapM_append, hys, List.mapM_cons, ha]
  rfl

/-! ### Tables -/

namespace Resolver

variable {r : Resolver σ} {I : σ → Prop} {p q : σ} {range : CellRange}

theorem length_rows (hnormal : range.Normal) (hcount : range.Countable) {sheet : Option String}
    {table : List (List Scalar)} (h : (r.rows sheet range).runFrom p = (.ok table, q)) :
    table.length = range.rowCount ∧ ∀ row ∈ table, row.length = range.colCount := by
  refine ⟨?_, fun row hrow => ?_⟩
  · rw [Eval.length_of_mapM h, CellRange.length_rows hnormal hcount]
  · obtain ⟨_, _, _, _, _, _, -, -, hcols⟩ := Eval.exists_of_mem_mapM h hrow
    rw [Eval.length_of_mapM hcols, CellRange.length_cols hnormal hcount]

/-- The answers for the cells are the same in each state. -/
theorem outcome_rows (hr : r.Steady I) (hp : I p) (hq : I q) (sheet : Option String) (hnormal : range.Normal)
    (hcount : range.Countable) :
    ((r.rows sheet range).runFrom q).1.map List.flatten =
      range.cells.mapM fun a => ((r.cell sheet a).runFrom p).1 := by
  have hflatten := congrArg (fun x : Eval σ (List Scalar) => (x.runFrom q).1) (r.flatten_rows sheet hnormal hcount)
  rw [Eval.runFrom_map] at hflatten
  refine hflatten.trans (Eval.mapM_steady (fun a p' hp' => ?_) range.cells hq)
  exact ⟨hr.same (.cell sheet a) hp' hp, hr.stays (.cell sheet a) hp'⟩

private theorem exists_rows (hr : r.Steady I) (hp : I p) (hq : I q) {sheet : Option String} (hnormal : range.Normal)
    (hcount : range.Countable) (h : ∀ a ∈ range.cells, ∃ v, ((r.cell sheet a).runFrom p).1 = .ok v) :
    ∃ table, ((r.rows sheet range).runFrom q).1 = .ok table ∧ table.length = range.rowCount ∧
      (∀ row ∈ table, row.length = range.colCount) ∧
      table.flatten.map .ok = range.cells.map fun a => ((r.cell sheet a).runFrom p).1 := by
  obtain ⟨values, hvalues, hmap⟩ := exists_mapM_ok h
  have houtcome := (outcome_rows hr hp hq sheet hnormal hcount).trans hvalues
  rcases hrun : (r.rows sheet range).runFrom q with ⟨e | table, q'⟩
  · rw [hrun] at houtcome
    cases houtcome
  · rw [hrun] at houtcome
    obtain rfl : table.flatten = values := Except.ok.inj houtcome
    obtain ⟨hlength, hwidths⟩ := length_rows hnormal hcount hrun
    exact ⟨table, rfl, hlength, hwidths, hmap⟩

private theorem rows_error (hr : r.Steady I) (hp : I p) (hq : I q) {sheet : Option String} (hnormal : range.Normal)
    (hcount : range.Countable) {before after : List CellAddress} {a : CellAddress} {e : FormulaError}
    (hcells : range.cells = before ++ a :: after)
    (hbefore : ∀ b ∈ before, ∃ v, ((r.cell sheet b).runFrom p).1 = .ok v)
    (ha : ((r.cell sheet a).runFrom p).1 = .error e) : ((r.rows sheet range).runFrom q).1 = .error e := by
  have houtcome := outcome_rows hr hp hq sheet hnormal hcount
  rw [hcells, mapM_error_of_append hbefore ha] at houtcome
  rcases hrun : (r.rows sheet range).runFrom q with ⟨e' | table, q'⟩
  · rw [hrun] at houtcome
    obtain rfl : e' = e := Except.error.inj houtcome
    rfl
  · rw [hrun] at houtcome
    cases houtcome

end Resolver

/-! ### Walks and tables -/

/-- A walk along a normal range that leaves a row free below it and does not take up the whole width meets all cells in
the range, each once, row by row and from left to right.  None of its numbers outgrows its machine word, and the number
of cells left is exact after every step.  The values of the range, from a resolver whose answers do not depend on what
has been asked before, are a table of its rows and columns with the answers for these cells in this order, or the
failure of the first cell without an answer. -/
theorem CellRange.walked_once {range : CellRange} (hnormal : range.Normal) (hrow : range.stop.row < 4294967295)
    (hcol : range.stop.col < 65536) (hwidth : ¬ (range.start.col = 0 ∧ range.stop.col = 65535)) :
    (range.rowCount < 2 ^ 32 ∧ range.colCount < 2 ^ 16 ∧ range.cellCount < 2 ^ 64 ∧
      ∀ k, (range.walk.steps k).row < 2 ^ 32 ∧ (range.walk.steps k).col < 2 ^ 16) ∧
    (∀ n, range.firstCells n = range.cells.take n) ∧
    range.cells.length = range.cellCount ∧
    (∀ k, (range.walk.steps k).remaining = range.cellCount - k) ∧
    (∀ a, a ∈ range.cells ↔ range.contains a ∧ a = .relative a.row a.col) ∧
    range.cells.Nodup ∧
    range.cells.Pairwise (fun a b => a.row < b.row ∨ a.row = b.row ∧ a.col < b.col) ∧
    ∀ (σ : Type) (r : Resolver σ) (I : σ → Prop) (p q : σ) (sheet : Option String), r.Steady I → I p → I q →
      let answer := fun a => ((r.cell sheet a).runFrom p).1
      ((∀ a ∈ range.cells, ∃ v, answer a = .ok v) →
        ∃ table, ((r.rows sheet range).runFrom q).1 = .ok table ∧ table.length = range.rowCount ∧
          (∀ row ∈ table, row.length = range.colCount) ∧ table.flatten.map .ok = range.cells.map answer) ∧
      ∀ before a after e, range.cells = before ++ a :: after → (∀ b ∈ before, ∃ v, answer b = .ok v) →
        answer a = .error e → ((r.rows sheet range).runFrom q).1 = .error e := by
  have hcount : range.Countable := by
    rw [countable_iff]
    simp only [rowWords, colWords]
    omega
  have hrows : range.rowCount < 2 ^ 32 := by
    rw [hcount.rowCount_eq]
    omega
  have hcols : range.colCount < 2 ^ 16 := by
    rw [hcount.colCount_eq]
    omega
  refine ⟨⟨hrows, hcols, ?_, fun k => ⟨?_, ?_⟩⟩, firstCells_eq_take hnormal, length_cells range,
    remaining_steps hnormal, fun a => mem_cells hnormal hcount, nodup_cells range, pairwise_cells range, ?_⟩
  · calc range.cellCount < 2 ^ 32 * 2 ^ 16 := Nat.mul_lt_mul'' hrows hcols
      _ < 2 ^ 64 := by decide
  · have hle := row_steps_le hnormal hcount k
    omega
  · have hle := col_steps_le hnormal hcount k
    omega
  · intro σ r I p q sheet hr hp hq answer
    refine ⟨fun hall => Resolver.exists_rows hr hp hq hnormal hcount hall, fun before a after e hcells hbefore ha => ?_⟩
    exact Resolver.rows_error hr hp hq hnormal hcount hcells hbefore ha

/-- The first two rows have values, and the others do not.  The state counts the questions. -/
def Resolver.twoRows : Resolver Nat where
  cell _ a := do
    modify (· + 1)
    if a.row < 2 then return .boolean (a.col == 1) else throw (.unknownName a.col)
  name id := throw (.unknownName id)
  shared anchor := throw (.noSharedFormula anchor)

private theorem Resolver.steady_twoRows : twoRows.Steady fun _ => True where
  same q s t _ _ := by
    cases q with
    | cell sheet a =>
      simp only [answer, twoRows]
      split <;> rfl
    | _ => rfl
  stays _ _ _ := trivial

private theorem Resolver.answer_twoRows {sheet : Option String} {a : CellAddress} {p : Nat} (h : a.row < 2) :
    ((twoRows.cell sheet a).runFrom p).1 = .ok (.boolean (a.col == 1)) := by
  simp only [twoRows, if_pos h]
  rfl

/-- The area B1:C3 has values in its first two rows only.  A walk has two cells left after four steps. -/
theorem CellRange.walked_once_twoRows :
    let range : CellRange := ⟨.relative 0 1, .relative 2 2⟩
    let upper : CellRange := ⟨.relative 0 1, .relative 1 2⟩
    (range.Normal ∧ range.stop.row < 4294967295 ∧ range.stop.col < 65536 ∧
      ¬ (range.start.col = 0 ∧ range.stop.col = 65535)) ∧
    Resolver.twoRows.Steady (fun _ => True) ∧
    (range.walk.steps 4).remaining = 2 ∧
    ((Resolver.twoRows.rows none range).runFrom 0).1 = .error (.unknownName 1) ∧
    ∃ table, ((Resolver.twoRows.rows none upper).runFrom 0).1 = .ok table ∧ table.length = 2 ∧
      (∀ row ∈ table, row.length = 2) ∧
      table.flatten.map (Except.ok (ε := FormulaError)) =
        [.ok (.boolean true), .ok (.boolean false), .ok (.boolean true), .ok (.boolean false)] := by
  intro range upper
  have hnormal : range.Normal := ⟨by decide, by decide⟩
  have hnormal' : upper.Normal := ⟨by decide, by decide⟩
  have hupper : ∀ b ∈ upper.cells, ∃ v, ((Resolver.twoRows.cell none b).runFrom 0).1 = .ok v := by
    intro b hb
    have hrow : ∀ b ∈ upper.cells, b.row < 2 := by decide
    exact ⟨_, Resolver.answer_twoRows (hrow b hb)⟩
  obtain ⟨-, -, -, hremaining, -, -, -, hvalues⟩ := range.walked_once hnormal (by decide) (by decide) (by decide)
  obtain ⟨-, -, -, -, -, -, -, hvalues'⟩ := upper.walked_once hnormal' (by decide) (by decide) (by decide)
  refine ⟨⟨hnormal, by decide⟩, Resolver.steady_twoRows, hremaining 4, ?_, ?_⟩
  · exact (hvalues Nat Resolver.twoRows (fun _ => True) 0 0 none Resolver.steady_twoRows trivial trivial).2
      upper.cells (.relative 2 1) [.relative 2 2] (.unknownName 1) (by decide) hupper rfl
  · have hcells : upper.cells = [.relative 0 1, .relative 0 2, .relative 1 1, .relative 1 2] := by decide
    obtain ⟨table, htable, hlength, hwidths, hflatten⟩ :=
      (hvalues' Nat Resolver.twoRows (fun _ => True) 0 0 none Resolver.steady_twoRows trivial trivial).1 hupper
    rw [hcells] at hflatten
    exact ⟨table, htable, hlength, hwidths, hflatten⟩

end Spreadsheet
