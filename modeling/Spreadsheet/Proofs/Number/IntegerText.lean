import Spreadsheet.Number.Reading
import Spreadsheet.Number.Text
import Spreadsheet.Proofs.Number.Integer
import Spreadsheet.Proofs.Text.Trimming

/-!
# Integers as text

A number with a small integer as its value is written as the numeral of the integer (`text_eq_toString`), and the
numeral is read as the integer again (`ofText?_toString`).  So the number comes back from its text, a negative zero
apart.
-/

namespace Spreadsheet.Number

variable {x : Float} {k : Int}

/-! ### Numerals -/

def integerChars : Int → List Char
  | .ofNat n => Nat.toDigits 10 n
  | .negSucc n => '-' :: Nat.toDigits 10 (n + 1)

theorem toList_toString (k : Int) : (toString k).toList = integerChars k := by
  cases k with
  | ofNat n => exact Nat.toList_repr
  | negSucc n =>
    show ("-" ++ Nat.repr (n + 1)).toList = _
    rw [String.toList_append, Nat.toList_repr]
    rfl

theorem mem_integerChars {c : Char} (h : c ∈ integerChars k) : c = '-' ∨ c.isDigit = true := by
  cases k with
  | ofNat n => exact .inr (Text.isDigit_of_mem_toDigits h)
  | negSucc n =>
    rcases List.mem_cons.1 h with rfl | h
    · exact .inl rfl
    · exact .inr (Text.isDigit_of_mem_toDigits h)

/-! ### Writing -/

private theorem whole?_of_exactValue (h : exactValue x = k) : (binary x).whole? = some k.natAbs := by
  rw [Binary.whole?_eq_some_iff, ← abs_exactValue, h, Nat.cast_natAbs, Int.cast_abs]

private theorem isNegative_of_exactValue (h : exactValue x = k) (hk : k ≠ 0) : isNegative x = decide (k < 0) := by
  have hnonneg := (binary x).value_nonneg
  cases hx : isNegative x with
  | true =>
    rw [exactValue_of_negative hx] at h
    have hle : (k : ℚ) ≤ 0 := by linarith
    have hle : k ≤ 0 := by exact_mod_cast hle
    exact (decide_eq_true (by omega)).symm
  | false =>
    rw [exactValue_of_positive hx] at h
    have hle : (0 : ℚ) ≤ k := by linarith
    have hle : 0 ≤ k := by exact_mod_cast hle
    exact (decide_eq_false (by omega)).symm

private theorem chars_of_isFinite (hx : x.isFinite) : chars x =
    match (binary x).whole?.filter (· < wholeLimit) with
    | some 0 => ['0']
    | some n => (if isNegative x then ['-'] else []) ++ Nat.toDigits 10 n
    | none => (if isNegative x then ['-'] else []) ++ (shortest (binary x)).positional := by
  have hfinite : x.toModel.unpack.isFinite = true := hx
  have hnan : x.isNaN = false := by
    show x.toModel.unpack.isNaN = false
    cases hu : x.toModel.unpack <;> rw [hu] at hfinite <;> first | rfl | cases hfinite
  have hinf : x.isInf = false := by
    show x.toModel.unpack.isInf = false
    cases hu : x.toModel.unpack <;> rw [hu] at hfinite <;> first | rfl | cases hfinite
  unfold chars
  rw [hnan, hinf]
  rfl

private theorem chars_of_exactValue (hx : x.isFinite) (h : exactValue x = k) (hk : k.natAbs < 10 ^ 15) :
    chars x = integerChars k := by
  have hsmall : (some k.natAbs).filter (· < wholeLimit) = some k.natAbs :=
    Option.filter_eq_some_iff.2 ⟨rfl, decide_eq_true hk⟩
  rw [chars_of_isFinite hx, whole?_of_exactValue h, hsmall]
  match k with
  | .ofNat 0 => rfl
  | .ofNat (n + 1) =>
    have hsign : isNegative x = false := by
      rw [isNegative_of_exactValue h (Int.natCast_ne_zero.2 (Nat.succ_ne_zero n))]
      exact decide_eq_false (Int.not_lt.2 (Int.natCast_nonneg _))
    rw [hsign]
    rfl
  | .negSucc n =>
    have hsign : isNegative x = true := by
      rw [isNegative_of_exactValue h (Int.negSucc_ne_zero n)]
      exact decide_eq_true (Int.negSucc_lt_zero n)
    rw [hsign]
    rfl

theorem text_eq_toString (hx : x.isFinite) (h : exactValue x = k) (hk : k.natAbs < 10 ^ 15) : text x = toString k := by
  rw [text, chars_of_exactValue hx h hk, ← toList_toString, String.ofList_toList]

/-! ### Reading -/

/-- A text that begins with a digit has no sign. -/
theorem splitSign_of_isDigit {s : List Char} (h : ∀ c ∈ s, c.isDigit = true) : splitSign s = (false, s) := by
  cases s with
  | nil => rfl
  | cons c s =>
    have hc := h c (List.mem_cons_self ..)
    unfold splitSign
    split
    · rename_i hminus
      rw [(List.cons.inj hminus).1] at hc
      exact absurd hc (by decide)
    · rename_i hplus
      rw [(List.cons.inj hplus).1] at hc
      exact absurd hc (by decide)
    · rfl

private theorem splitDigits_of_isDigit {s : List Char} (h : ∀ c ∈ s, c.isDigit = true) : splitDigits s = (s, []) := by
  rw [splitDigits, List.takeWhile_eq_self_iff.2 h, List.dropWhile_eq_nil_iff.2 h]

private theorem readScientific?_of_splitSign {s : List Char} {negative : Bool} {n : Nat}
    (h : splitSign s = (negative, Nat.toDigits 10 n)) : readScientific? s = some ⟨negative, n, 0⟩ := by
  have hdigits : splitDigits (Nat.toDigits 10 n) = (Nat.toDigits 10 n, []) :=
    splitDigits_of_isDigit fun _ hc => Text.isDigit_of_mem_toDigits hc
  unfold readScientific?
  simp only [h, hdigits, splitFraction, List.append_nil, digitsValue, Nat.ofDigitChars_ten_toDigits]
  simp [readExponent?, Nat.toDigits_ne_nil]

theorem readChars?_integerChars (hk : k.natAbs < 2 ^ 52) : readChars? (integerChars k) = some (Float.ofInt k) := by
  have htrim : Text.trim (integerChars k) = integerChars k := by
    refine Text.trim_eq_self (Text.trimmed_of_forall fun c hc => ?_)
    rcases mem_integerChars hc with rfl | hc
    · rfl
    · exact Text.not_isBlank_of_isAlphanum (Text.isAlphanum_iff.2 (.inr hc))
  have hread : (readScientific? (integerChars k)).map Scientific.value = some (Float.ofInt k) := by
    cases k with
    | ofNat n =>
      show (readScientific? (Nat.toDigits 10 n)).map Scientific.value = _
      rw [readScientific?_of_splitSign (splitSign_of_isDigit fun _ hc => Text.isDigit_of_mem_toDigits hc)]
      rfl
    | negSucc n =>
      rw [readScientific?_of_splitSign (s := integerChars (.negSucc n)) rfl]
      rfl
  rw [readChars?, htrim, hread]
  exact Option.filter_eq_some_iff.2 ⟨rfl, isFinite_ofInt hk⟩

theorem ofText?_toString (hk : k.natAbs < 2 ^ 52) : ofText? (toString k) = some (Float.ofInt k) := by
  rw [ofText?, toList_toString, readChars?_integerChars hk]

end Spreadsheet.Number
