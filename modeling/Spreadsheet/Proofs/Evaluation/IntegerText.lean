import Spreadsheet.Evaluation.Machine
import Spreadsheet.Proofs.Criteria.Integers
import Spreadsheet.Proofs.Evaluation.Dialogue
import Spreadsheet.Proofs.Evaluation.Entrywise

/-!
# Integers by way of their text

Formulas turn numbers into text when they join them with text and when they make a criteria of them, and read them
again in arithmetic and to compare them with cells.  An integer of up to fifteen digits is not changed on either way
(`integers_survive_text`).
-/

namespace Spreadsheet

open Number

/-- A text that is read as a number is not blank. -/
theorem Value.coerce?_text (settings : Settings) {t : String} {y : Float} (h : ofText? t = some y) :
    (Value.text t).coerce? settings = some y := by
  have hblank : (Text.trim t.toList).isEmpty = false := by
    rw [Bool.eq_false_iff]
    intro hempty
    rw [ofText?, readChars?, List.isEmpty_iff.1 hempty] at h
    cases h
  rw [Value.coerce?, hblank, h]
  rfl

/-- An operand that is a number and an empty text are joined to the text of the number, in either order. -/
theorem runFrom_concat_empty {σ : Type} {s : Scope σ} {a : Token} {x : Float} {p q : σ} (ha : a.isError = false)
    (hvalue : (a.value s).runFrom p = (.ok (.number x), q)) :
    (applyOperator s .concat [a, .text ""]).runFrom p = (.ok (.text (text x)), q) ∧
      (applyOperator s .concat [.text "", a]).runFrom p = (.ok (.text (text x)), q) := by
  constructor
  · rw [applyOperator_of_not_isError rfl rfl ha rfl, applyToValues, Eval.runFrom_bind, hvalue]
    show (Except.ok (Token.text (text x ++ "")), q) = _
    rw [String.append_empty]
  · have hempty : (Token.text "").value s = pure (.text "") := rfl
    rw [applyOperator_of_not_isError rfl rfl rfl ha, applyToValues, hempty, pure_bind, Eval.runFrom_bind, hvalue]
    show (Except.ok (Token.text ("" ++ text x)), q) = _
    rw [String.empty_append]

/-- A number with the value of an integer of up to fifteen digits is written as the numeral of the integer, and comes
back from the text as the number with its value, which is the same one unless it is a negative zero.  It comes back from
its concatenation with an empty text, too, and a criteria made of it selects the integers that are equal to it. -/
theorem integers_survive_text {x : Float} {k : Int} (hx : x.isFinite) (hvalue : exactValue x = k)
    (hk : k.natAbs < 10 ^ 15) :
    text x = toString k ∧ ofText? (text x) = some (Float.ofInt k) ∧ exactValue (Float.ofInt k) = k ∧
      (k ≠ 0 → Float.ofInt k = x) ∧
      (∀ (σ : Type) (s : Scope σ) (a : Token) (p q : σ), a.isError = false →
        (a.value s).runFrom p = (.ok (.number x), q) → ∀ args ∈ [[a, .text ""], [.text "", a]],
          ∃ t, (applyOperator s .concat args).runFrom p = (.ok (.text t), q) ∧
            ∀ settings, (Value.text t).coerce? settings = some (Float.ofInt k)) ∧
      ∀ (v : Value) (dates : Calendar.DateSystem) (y : Float) (m : Int), v.corner = .number x → y.isFinite →
        exactValue y = m → ((Criteria.ofValue v).selects dates (.number y) = true ↔ m = k) := by
  have hsmall : k.natAbs < 2 ^ 52 := by omega
  have htext : text x = toString k := text_eq_toString hx hvalue hk
  have hread : ofText? (text x) = some (Float.ofInt k) := by rw [htext, ofText?_toString hsmall]
  have hback : exactValue (Float.ofInt k) = k := exactValue_ofInt hsmall
  refine ⟨htext, hread, hback, fun hzero => ?_, fun σ s a p q ha hrun args hargs => ?_,
    fun v dates y m hv hy hm => ?_⟩
  · refine eq_of_exactValue_eq (hback.trans hvalue.symm) ?_
    rw [hback]
    exact Int.cast_ne_zero.2 hzero
  · obtain ⟨hleft, hright⟩ := runFrom_concat_empty ha hrun
    refine ⟨text x, ?_, fun settings => Value.coerce?_text settings hread⟩
    rcases List.mem_pair.1 hargs with rfl | rfl
    · exact hleft
    · exact hright
  · rw [Criteria.ofValue, hv]
    show (Criteria.ofText (text x)).selects dates (.number y) = true ↔ m = k
    rw [htext, Criteria.selects_toString dates hsmall hy, hm, Int.cast_inj]

theorem integers_survive_text_negative :
    text (Float.ofInt (-12345)) = "-12345" ∧ ofText? "-12345" = some (Float.ofInt (-12345)) ∧
      (∃ t, (applyOperator (.of {} .blank) .concat [.integer (-12345), .text ""]).runFrom () =
        (.ok (.text t), ()) ∧ (Value.text t).coerce? {} = some (Float.ofInt (-12345))) ∧
      (Criteria.ofValue (.number (Float.ofInt (-12345)))).selects .from1904 (.number (Float.ofInt (-12345))) = true ∧
      (Criteria.ofValue (.number (Float.ofInt (-12345)))).selects .from1904 (.number (Float.ofInt 12345)) = false := by
  have hk : (-12345 : Int).natAbs < 2 ^ 52 := by decide
  have hm : (12345 : Int).natAbs < 2 ^ 52 := by decide
  obtain ⟨htext, hread, -, -, hconcat, hselects⟩ :=
    integers_survive_text (isFinite_ofInt hk) (exactValue_ofInt hk) (by decide)
  obtain ⟨t, hrun, hcoerce⟩ := hconcat Unit (.of {} .blank) (.integer (-12345)) () () rfl rfl _
    (List.mem_cons_self ..)
  rw [htext] at hread
  refine ⟨htext, hread, ⟨t, hrun, hcoerce {}⟩, ?_, ?_⟩
  · exact (hselects _ _ _ _ rfl (isFinite_ofInt hk) (exactValue_ofInt hk)).2 rfl
  · rw [Bool.eq_false_iff]
    exact mt (hselects _ _ _ _ rfl (isFinite_ofInt hm) (exactValue_ofInt hm)).1 (by decide)

end Spreadsheet
