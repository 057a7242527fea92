import Spreadsheet.Proofs.Criteria.Relations
import Spreadsheet.Proofs.Criteria.TrailingStar
import Spreadsheet.Proofs.Number.IntegerText

/-!
# Integers as criteria

The numeral of an integer is an operand without a relation, a wildcard or a percent sign, and it is its own uppercase
form (`ofText_toString`).  So the criteria that an integer stands for is read as the integer again, and selects the
numbers that are equal to it (`selects_toString`).
-/

namespace Spreadsheet.Criteria

open Number

variable {k : Int}

/-- A minus sign and digits have no meaning in a criteria. -/
private theorem plain_of_mem_integerChars {c : Char} (h : c ∈ integerChars k) :
    isRelationChar c = false ∧ c ∉ ['*', '?', '~', '%'] ∧ c.toNat < 128 ∧ c.toUpper = c := by
  rcases mem_integerChars h with rfl | hc
  · decide
  · have hascii : c.toNat < 128 := by
      have hdigit : 48 ≤ c.toNat ∧ c.toNat ≤ 57 := Char.isDigit_iff_toNat.1 hc
      omega
    exact Text.forall_ascii (P := fun c => c.isDigit = true →
      isRelationChar c = false ∧ c ∉ ['*', '?', '~', '%'] ∧ c.toNat < 128 ∧ c.toUpper = c) (by decide) hascii hc

private theorem upper_integerChars (k : Int) : Text.upper (integerChars k) = integerChars k := by
  rw [Text.upper_of_isAscii fun c hc => (plain_of_mem_integerChars hc).2.2.1,
    List.map_congr_left fun c hc => (plain_of_mem_integerChars hc).2.2.2, List.map_id']

theorem ofText_toString (k : Int) : ofText (toString k) = ⟨some .equal, toString k, ⟨(integerChars k).map .char⟩⟩ := by
  have hoperand : IsOperand (toString k) := by
    intro c hc
    rw [toList_toString] at hc
    exact (plain_of_mem_integerChars (List.mem_of_mem_head? hc)).1
  have hplain : IsPlain (integerChars k) := fun c hc => (plain_of_mem_integerChars hc).2.1
  rw [ofText_of_isOperand hoperand, Pattern.ofText, toList_toString, Pattern.ofChars_of_isPlain hplain,
    upper_integerChars]

private theorem compareValue_integerChars (dates : Calendar.DateSystem) (operand : String) (hk : k.natAbs < 2 ^ 52)
    (y : Float) :
    compareValue dates operand ⟨(integerChars k).map .char⟩ (.number y) = order? (Float.ofInt k) y := by
  rw [compareValue, Pattern.literal_of_chars, readChars?_integerChars hk]
  exact compareNumbers_eq _ _

theorem selects_toString (dates : Calendar.DateSystem) (hk : k.natAbs < 2 ^ 52) {y : Float} (hy : y.isFinite) :
    (ofText (toString k)).selects dates (.number y) = true ↔ exactValue y = k := by
  have hcompare := compareValue_integerChars dates (toString k) hk y
  rw [order?_eq_compare (isFinite_ofInt hk) hy, exactValue_ofInt hk] at hcompare
  rw [ofText_toString, selects]
  show holds dates (toString k) ⟨(integerChars k).map .char⟩ .equal (.number y) = true ↔ _
  rw [holds, hcompare]
  show (compare (k : ℚ) (exactValue y) == .eq) = true ↔ _
  rw [beq_iff_eq, compare_eq_iff_eq, eq_comm]

end Spreadsheet.Criteria
