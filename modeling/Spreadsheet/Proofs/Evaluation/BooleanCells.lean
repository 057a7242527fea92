import Spreadsheet.Proofs.Evaluation.AnyResolver
import Spreadsheet.Proofs.Evaluation.Selection
import Spreadsheet.Proofs.Number.Text
import Spreadsheet.Proofs.Text.Ascii
import Spreadsheet.Proofs.Text.Trimming

/-!
# Boolean cells and criteria

TRUE is equal to the operands that are its text, but FALSE to all others, numbers and blanks included
(`Criteria.compareWith_boolean_iff`).  A criteria that asks for no boolean passes over the cells that hold TRUE, so that
COUNTIF and SUMIF are the same without them (`Selection.PassesOver.countFrom_leaveOut`,
`Selection.PassesOver.sumFrom_leaveOut`), but it selects those that hold FALSE.
-/

namespace Spreadsheet

namespace Criteria

variable {operand : String}

/-- Without the blanks around it, and in any case, the operand is the text of the boolean. -/
def Reads (operand : String) (b : Bool) : Prop :=
  Text.sameAscii (String.ofList (Text.trim operand.toList)) (Scalar.booleanText b) = true

instance (operand : String) (b : Bool) : Decidable (Reads operand b) :=
  inferInstanceAs (Decidable (_ = true))

private theorem reads_iff {b : Bool} :
    Reads operand b ↔ (Text.trim operand.toList).map Char.toLower = Text.asciiLower (Scalar.booleanText b) := by
  rw [Reads, Text.sameAscii_iff, Text.asciiLower, String.toList_ofList]

private theorem not_reads_both : ¬ (Reads operand true ∧ Reads operand false) := by
  rintro ⟨htrue, hfalse⟩
  rw [reads_iff] at htrue hfalse
  exact absurd (htrue.symm.trans hfalse) (by decide)

/-- Whatever is not the text of TRUE counts as FALSE. -/
theorem compareValue_boolean (dates : Calendar.DateSystem) (operand : String) (p : Pattern) (b : Bool) :
    compareValue dates operand p (.boolean b) = some (compare (decide (Reads operand true)) b) := by
  have hwanted : ((Text.trim operand.toList).map Char.toLower == "true".toList) = decide (Reads operand true) := by
    rw [Bool.eq_iff_iff, beq_iff_eq, decide_eq_true_iff, reads_iff]
    rfl
  rw [compareValue, hwanted]

/-- A boolean is equal to its own text and to no other, except for FALSE, which is equal to whatever is no text of a
boolean. -/
theorem compareWith_boolean_iff (operand : String) (b : Bool) :
    (compareWith (.boolean b) operand .equal = true ↔ Reads operand b) ↔ b = true ∨ ∃ b', Reads operand b' := by
  have hboth : ¬ (Reads operand true ∧ Reads operand false) := not_reads_both
  rw [compareWith, holds, compareValue_boolean, Bool.exists_bool]
  by_cases htrue : Reads operand true
  · have hfalse : ¬ Reads operand false := fun h => hboth ⟨htrue, h⟩
    cases b <;> simp [htrue, hfalse, Relation.accepts]
  · cases b <;> simp [htrue, Relation.accepts]

/-- As a criteria the value asks for what is equal to an operand that is no text of a boolean, if it asks for anything. -/
def AsksForNoBoolean (v : Value) : Prop :=
  (∀ r ∈ (ofValue v).relation, r = .equal) ∧ ∀ b, ¬ Reads (ofValue v).operand b

private theorem asksForNoBoolean_of_isOperand {v : Value} (hv : IsOperand v.corner.display)
    (hreads : ∀ b, ¬ Reads v.corner.display b) : AsksForNoBoolean v := by
  rw [AsksForNoBoolean, ofValue, ofText_of_isOperand hv]
  exact ⟨fun r hr => (Option.some.inj hr).symm, hreads⟩

private theorem asksForNoBoolean_empty : AsksForNoBoolean .empty :=
  asksForNoBoolean_of_isOperand (by decide) fun b => by cases b <;> decide

private theorem isRelationChar_of_isDigit {c : Char} (h : c.isDigit = true) : isRelationChar c = false := by
  rw [isRelationChar, Bool.or_eq_false_iff, Bool.or_eq_false_iff]
  refine ⟨⟨?_, ?_⟩, ?_⟩ <;> (rw [beq_eq_false_iff_ne]; rintro rfl; cases h)

/-- The text of a number has neither a character of a relation nor the letters of a boolean. -/
theorem asksForNoBoolean_number (x : Float) : AsksForNoBoolean (.number x) := by
  have hsign : ∀ c ∈ ['.', '-', 'N', 'a', 'i', 'n', 'f'], isRelationChar c = false ∧ c.toLower ≠ 't' ∧ c.toLower ≠ 's' := by
    simp only [List.mem_cons, List.not_mem_nil, or_false, forall_eq_or_imp, forall_eq]
    decide
  have hchars : ∀ c ∈ Number.chars x, isRelationChar c = false ∧ c.toLower ≠ 't' ∧ c.toLower ≠ 's' := by
    intro c hc
    rcases Number.mem_chars hc with hdigit | hc
    · rw [Text.toLower_of_isDigit hdigit]
      refine ⟨isRelationChar_of_isDigit hdigit, ?_, ?_⟩ <;> (rintro rfl; cases hdigit)
    · exact hsign c hc
  have hdisplay : (Value.number x).corner.display.toList = Number.chars x := String.toList_ofList
  refine asksForNoBoolean_of_isOperand (fun c hc => ?_) fun b hb => ?_
  · rw [hdisplay] at hc
    exact (hchars c (List.mem_of_mem_head? hc)).1
  · rw [reads_iff, hdisplay] at hb
    have hmem : ∀ c ∈ Text.asciiLower (Scalar.booleanText b), c ≠ 't' ∧ c ≠ 's' := by
      intro c hc
      rw [← hb, List.mem_map] at hc
      obtain ⟨d, hd, rfl⟩ := hc
      exact (hchars d (Text.mem_of_mem_trim hd)).2
    cases b
    · exact (hmem 's' (by decide)).2 rfl
    · exact (hmem 't' (by decide)).1 rfl

/-- Of the booleans it selects none but FALSE. -/
theorem selects_true {v : Value} (hv : AsksForNoBoolean v) (dates : Calendar.DateSystem) :
    (ofValue v).selects dates (.boolean true) = false := by
  rw [selects, Option.any_eq_false]
  intro r hr
  rw [hv.1 r hr, holds, compareValue_boolean, decide_eq_false (hv.2 true)]
  decide

end Criteria

namespace Selection

open Criteria (AsksForNoBoolean Reads)

/-- Whatever the scope and its state are, COUNTIF and SUMIF pass over the cells that hold the value: they go on behind
them, without their targets. -/
structure PassesOver (c : Criteria) (v : Scalar) : Prop where
  count {σ : Type} {s : Scope σ} {t : Token} {p q : σ} (n : Nat) (rest : List Token) :
    (cellValue s t).runFrom p = (.ok v, q) → (countFrom s c n (t :: rest)).runFrom p = (countFrom s c n rest).runFrom q
  sum {σ : Type} {s : Scope σ} {t : Token} {p q : σ} (start : Float) (rest targets : List Token) :
    (cellValue s t).runFrom p = (.ok v, q) →
      (sumFrom s c start (t :: rest) targets).runFrom p = (sumFrom s c start rest targets.tail).runFrom q

theorem runFrom_selected {σ : Type} {s : Scope σ} {c : Criteria} {t : Token} {v : Scalar} {p q : σ}
    (hv : (cellValue s t).runFrom p = (.ok v, q)) :
    (selected s c t).runFrom p = (.ok (c.selects s.settings.dates v), q) := by
  rw [selected, Eval.runFrom_bind, hv]
  rfl

private theorem passesOver_of_selects {c : Criteria} {v : Scalar} (h : ∀ dates, c.selects dates v = false) :
    PassesOver c v where
  count n rest hv := by
    rw [countFrom, Eval.runFrom_bind, runFrom_selected hv, h]
    rfl
  sum {_ s t p _} start rest targets hv := by
    show (selected s c t >>= fun hit => _).runFrom p = _
    rw [Eval.runFrom_bind, runFrom_selected hv, h]
    rfl

/-! ### Leaving out a cell -/

section Steady

variable {σ : Type} {r : Resolver σ} {I : σ → Prop} {settings : Settings} {m : Nat} {c : Criteria} {v : Scalar} {t : Token}
  {p q : σ}

private theorem cellValue_steady (hr : r.Steady I) (t : Token) (hp : I p) (hq : I q) :
    ((cellValue (.withLevels settings r m) t).runFrom p).1 = ((cellValue (.withLevels settings r m) t).runFrom q).1 ∧
      I ((cellValue (.withLevels settings r m) t).runFrom p).2 :=
  ((t.value_isDialogue (withLevels_isDialogue settings m)).bind fun v => .pure v.corner.toScalar).run_steady hr hp hq

/-- The value of the cell is the same at each place of the run, so the step past it is the same. -/
theorem PassesOver.countFrom_leaveOut (h : PassesOver c v) (hr : r.Steady I) (hp : I p)
    (ht : ((cellValue (.withLevels settings r m) t).runFrom p).1 = .ok v) (n : Nat) (before after : List Token) :
    ((countFrom (.withLevels settings r m) c n (before ++ t :: after)).runFrom p).1 =
      ((countFrom (.withLevels settings r m) c n (before ++ after)).runFrom p).1 := by
  induction before generalizing n p with
  | nil =>
    have hstay : I ((cellValue (.withLevels settings r m) t).runFrom p).2 := (cellValue_steady hr t hp hp).2
    rw [List.nil_append, List.nil_append, h.count n after (Prod.ext ht rfl)]
    exact ((countFrom_isDialogue (withLevels_isDialogue settings m) c n after).run_steady hr hstay hp).1
  | cons u before ih =>
    refine Eval.outcome_bind_congr fun hit q hq => ?_
    have hstay : I q := (selected_isDialogue (withLevels_isDialogue settings m) c u).run_stays hr hp hq
    exact ih hstay ((cellValue_steady hr t hstay hp).1.trans ht) _

theorem PassesOver.sumFrom_leaveOut (h : PassesOver c v) (hr : r.Steady I) (hp : I p)
    (ht : ((cellValue (.withLevels settings r m) t).runFrom p).1 = .ok v) (sum : Float) (before after targets : List Token) :
    ((sumFrom (.withLevels settings r m) c sum (before ++ t :: after) targets).runFrom p).1 =
      ((sumFrom (.withLevels settings r m) c sum (before ++ after) (targets.eraseIdx before.length)).runFrom p).1 := by
  induction before generalizing sum targets p with
  | nil =>
    have hstay : I ((cellValue (.withLevels settings r m) t).runFrom p).2 := (cellValue_steady hr t hp hp).2
    rw [List.nil_append, List.nil_append, List.length_nil, List.eraseIdx_zero, h.sum sum after targets (Prod.ext ht rfl)]
    exact ((sumFrom_isDialogue (withLevels_isDialogue settings m) c sum after targets.tail).run_steady hr hstay hp).1
  | cons u before ih =>
    refine Eval.outcome_bind_congr fun hit q hq => ?_
    have hstay : I q := (selected_isDialogue (withLevels_isDialogue settings m) c u).run_stays hr hp hq
    have htstay : ((cellValue (.withLevels settings r m) t).runFrom q).1 = .ok v :=
      (cellValue_steady hr t hstay hp).1.trans ht
    cases hit with
    | false =>
      cases targets with
      | nil => exact ih hstay htstay sum []
      | cons target others => exact ih hstay htstay sum others
    | true =>
      cases targets with
      | nil => exact ih hstay htstay sum []
      | cons target others =>
        refine Eval.outcome_bind_congr fun w q' hq' => ?_
        have hstay' : I q' := (target.value_isDialogue (withLevels_isDialogue settings m)).run_stays hr hstay hq'
        refine Eval.outcome_bind_congr fun sum' q'' hq'' => ?_
        obtain rfl : q' = q'' := by
          rw [Eval.runFrom_ofExcept] at hq''
          exact congrArg Prod.snd hq''
        exact ih hstay' ((cellValue_steady hr t hstay' hp).1.trans ht) sum' others

end Steady

/-! ### Booleans -/

/-- A boolean is equal to its own text only, FALSE and the operands that are no text of a boolean excepted.  Criteria that
ask for no boolean, such as a blank, a number or any other text without a relation, pass over the cells that hold TRUE, so
that each of these may be left out with its target. -/
theorem passesOver_true (operand : String) (b : Bool) :
    ((Criteria.compareWith (.boolean b) operand .equal = true ↔ Reads operand b) ↔ b = true ∨ ∃ b', Reads operand b') ∧
    AsksForNoBoolean .empty ∧ (∀ x, AsksForNoBoolean (.number x)) ∧
    (∀ text, Criteria.IsOperand text → (∀ b, ¬ Reads text b) → AsksForNoBoolean (.text text)) ∧
    ∀ v, AsksForNoBoolean v →
      PassesOver (.ofValue v) (.boolean true) ∧
      ∀ {σ : Type} {r : Resolver σ} {I : σ → Prop} {settings : Settings} {m : Nat} {t : Token} {p : σ},
        let s := Scope.withLevels settings r m
        r.Steady I → I p → ((cellValue s t).runFrom p).1 = .ok (.boolean true) →
          (∀ n before after, ((countFrom s (.ofValue v) n (before ++ t :: after)).runFrom p).1 =
            ((countFrom s (.ofValue v) n (before ++ after)).runFrom p).1) ∧
          ∀ sum before after targets, ((sumFrom s (.ofValue v) sum (before ++ t :: after) targets).runFrom p).1 =
            ((sumFrom s (.ofValue v) sum (before ++ after) (targets.eraseIdx before.length)).runFrom p).1 := by
  refine ⟨Criteria.compareWith_boolean_iff operand b, Criteria.asksForNoBoolean_empty, Criteria.asksForNoBoolean_number,
    fun text => Criteria.asksForNoBoolean_of_isOperand (v := .text text), fun v hv => ?_⟩
  have hpasses : PassesOver (.ofValue v) (.boolean true) := passesOver_of_selects (Criteria.selects_true hv)
  refine ⟨hpasses, fun hr hp ht => ⟨?_, ?_⟩⟩
  · exact hpasses.countFrom_leaveOut hr hp ht
  · exact hpasses.sumFrom_leaveOut hr hp ht

/-- The second of three cells holds TRUE. -/
theorem passesOver_true_five :
    let s := Scope.withLevels {} (Resolver.blank (σ := Unit)) 0
    (Criteria.compareWith (.boolean false) " true" .equal = true ↔ Reads " true" false) ∧
    AsksForNoBoolean (.text "five") ∧
    ((sumFrom s (.ofValue (.text "five")) 0 [.text "Five", .boolean true, .text "six"]
      [.integer 1, .integer 2, .integer 4]).runFrom ()).1 =
      ((sumFrom s (.ofValue (.text "five")) 0 [.text "Five", .text "six"] [.integer 1, .integer 4]).runFrom ()).1 := by
  intro s
  obtain ⟨hequal, -, -, htext, hpasses⟩ := passesOver_true " true" false
  have hfive : AsksForNoBoolean (.text "five") := htext "five" (by decide) fun b => by cases b <;> decide
  have htrue : ((cellValue s (.boolean true)).runFrom ()).1 = .ok (.boolean true) := rfl
  have hleave := (hpasses _ hfive).2 (Resolver.steady_blank fun _ => True) trivial htrue
  exact ⟨hequal.2 (.inr ⟨true, by decide⟩), hfive,
    hleave.2 0 [.text "Five"] [.text "six"] [.integer 1, .integer 2, .integer 4]⟩

/-- The number five as criteria counts a cell that holds FALSE. -/
theorem not_passesOver_false :
    Criteria.compareWith (.boolean false) "5" .equal = true ∧ ¬ Reads "5" false ∧
    ((callFunction ⟨{}, Resolver.blank (σ := Unit), none⟩ Function.countIf.id [.boolean false, .number 5]).runFrom ()).1 =
      .ok (.number 1) := by
  refine ⟨by decide, by decide, ?_⟩
  decide +kernel

end Selection

end Spreadsheet
