import Mathlib.Algebra.Order.Field.Power
import Mathlib.Algebra.Order.Field.Rat
import Mathlib.Tactic.GCongr
import Mathlib.Tactic.Linarith
import Mathlib.Tactic.Ring
import Spreadsheet.Number.Binary
import Spreadsheet.Proofs.Number.Order

/-!
# Exact values

The rational number that a finite floating-point number is (`exactValue`), from its sign and its size.  Sizes are
compared by their exponents first, as a mantissa has all its bits unless the exponent is the least one
(`Binary.compare_value`).  So finite numbers compare as their values do (`order?_eq_compare`), and only zero is the
value of two numbers (`eq_of_exactValue_eq`).
-/

namespace Spreadsheet.Number

open Float.Model Float.Model.UnpackedFloat

/-! ### Parts of the bit pattern -/

private theorem toNat_unpackMantissa (b : BitVec Format.binary64.numBits) :
    (unpackMantissa b).toNat = b.toNat % fractionLimit := by
  simp [unpackMantissa, fractionLimit]

private theorem toNat_unpackExponent (b : BitVec Format.binary64.numBits) :
    (unpackExponent b).toNat = b.toNat / fractionLimit % 0x800 := by
  simp [unpackExponent, fractionLimit, Nat.shiftRight_eq_div_pow]

def sign (x : Float) : Sign :=
  if isNegative x then .negative else .positive

theorem sign_of_negative {x : Float} (h : isNegative x = true) : sign x = .negative :=
  if_pos h

theorem sign_of_positive {x : Float} (h : isNegative x = false) : sign x = .positive := by
  rw [sign, h]
  rfl

private theorem ofBitVec_unpackSign (x : Float) :
    Sign.ofBitVec (@unpackSign .binary64 x.toModel.toBits.toBitVec) = sign x := by
  have hbit : (@unpackSign .binary64 x.toModel.toBits.toBitVec).toNat = x.toBits.toNat / 2 ^ 63 % 2 := by
    show (BitVec.extractLsb' 63 1 x.toModel.toBits.toBitVec).toNat = _
    rw [BitVec.extractLsb'_toNat, Nat.shiftRight_eq_div_pow]
    rfl
  unfold sign isNegative
  rw [Nat.testBit_eq_decide_div_mod_eq, ← hbit]
  rcases BitVec.eq_zero_or_eq_one (@unpackSign .binary64 x.toModel.toBits.toBitVec) with h | h
  · rw [h]
    rfl
  · rw [h]
    rfl

/-- The mantissa with its implicit bit. -/
theorem toNat_one_append (m : BitVec 52) : (1#1 ++ m).toNat = fractionLimit + m.toNat := by
  rw [BitVec.toNat_append, ← Nat.shiftLeft_add_eq_or_of_lt m.isLt]
  rfl

theorem finite_congr {s : Sign} {m n : Nat} {e f : Int} {hm : 0 < m} (hmn : m = n) (hef : e = f) :
    UnpackedFloat.finite s m e hm = .finite s n f (hmn ▸ hm) := by
  subst hmn hef
  rfl

/-- The size, from the parts of the bit pattern. -/
theorem binary_eq (x : Float) : binary x =
    if (@unpackExponent .binary64 x.toModel.toBits.toBitVec).toNat = 0 then
      ⟨(@unpackMantissa .binary64 x.toModel.toBits.toBitVec).toNat, -1074⟩
    else
      ⟨fractionLimit + (@unpackMantissa .binary64 x.toModel.toBits.toBitVec).toNat,
        ((@unpackExponent .binary64 x.toModel.toBits.toBitVec).toNat : Int) - 1075⟩ := by
  rw [toNat_unpackMantissa, toNat_unpackExponent]
  rfl

/-- A finite number unpacks to its sign and its size. -/
theorem unpack_eq {x : Float} (h : x.isFinite) : x.toModel.unpack =
    if hm : (binary x).mantissa = 0 then .zero (sign x) else
    .finite (sign x) (binary x).mantissa (binary x).exponent (Nat.pos_of_ne_zero hm) := by
  have hfinite : (UnpackedFloat.unpack .binary64 x.toModel.toBits.toBitVec).isFinite = true := h
  have hlast : (@unpackExponent .binary64 x.toModel.toBits.toBitVec).toNat ≠ 2047 := by
    rcases unpack_cases x.toModel.toBits.toBitVec with ⟨-, hinfinite⟩ | ⟨hlast, -⟩
    · rw [hfinite] at hinfinite
      cases hinfinite
    · exact hlast
  have hbinary := binary_eq x
  show UnpackedFloat.unpack .binary64 x.toModel.toBits.toBitVec = _
  unfold UnpackedFloat.unpack
  dsimp only
  rw [exponentBias_binary64, mantissaBits_binary64, if_neg (fun hall => hlast (congrArg BitVec.toNat hall)),
    ofBitVec_unpackSign]
  by_cases hzero : @unpackExponent .binary64 x.toModel.toBits.toBitVec = 0#11
  · have hexponent : (@unpackExponent .binary64 x.toModel.toBits.toBitVec).toNat = 0 := congrArg BitVec.toNat hzero
    rw [if_pos hexponent] at hbinary
    rw [if_pos hzero]
    by_cases hm : @unpackMantissa .binary64 x.toModel.toBits.toBitVec = 0#52
    · rw [dif_pos hm, dif_pos (by rw [hbinary, hm]; rfl)]
    · have hmantissa : (@unpackMantissa .binary64 x.toModel.toBits.toBitVec).toNat ≠ 0 :=
        fun hm' => hm (BitVec.eq_of_toNat_eq hm')
      rw [dif_neg hm, dif_neg (by rwa [hbinary])]
      exact finite_congr (by rw [hbinary]) (by rw [hbinary, hexponent]; rfl)
  · have hexponent : (@unpackExponent .binary64 x.toModel.toBits.toBitVec).toNat ≠ 0 :=
      fun he => hzero (BitVec.eq_of_toNat_eq he)
    rw [if_neg hexponent] at hbinary
    rw [if_neg hzero, dif_neg (by rw [hbinary]; simp [fractionLimit])]
    exact finite_congr (by rw [hbinary]; exact toNat_one_append _) (by rw [hbinary]; rfl)

/-! ### Sizes -/

namespace Binary

/-- The size as a rational number. -/
def value (b : Binary) : ℚ :=
  b.mantissa * 2 ^ b.exponent

/-- Mantissas have 53 bits, and the first of them is one unless the exponent is the least one. -/
structure Normal (b : Binary) : Prop where
  mantissa_lt : b.mantissa < 2 ^ 53
  le_exponent : -1074 ≤ b.exponent
  le_mantissa : b.exponent = -1074 ∨ 2 ^ 52 ≤ b.mantissa

variable {b c : Binary}

theorem value_nonneg (b : Binary) : 0 ≤ b.value := by
  unfold value
  positivity

private theorem value_eq_zero_iff : b.value = 0 ↔ b.mantissa = 0 := by
  have hpos : (2 : ℚ) ^ b.exponent ≠ 0 := by positivity
  simp [value, hpos]

private theorem value_pos (h : b.mantissa ≠ 0) : 0 < b.value :=
  lt_of_le_of_ne b.value_nonneg (Ne.symm (mt value_eq_zero_iff.1 h))

/-- With a greater exponent a number is greater, whatever the mantissas are. -/
theorem value_lt_of_exponent_lt (hb : b.Normal) (hc : c.Normal) (h : b.exponent < c.exponent) : b.value < c.value := by
  have hmantissa : (2 : ℚ) ^ 52 ≤ c.mantissa := by
    have hle := hc.le_mantissa.resolve_left (by have := hb.le_exponent; omega)
    exact_mod_cast hle
  calc b.value < 2 ^ 53 * 2 ^ b.exponent := by
        have hlt : (b.mantissa : ℚ) < 2 ^ 53 := by exact_mod_cast hb.mantissa_lt
        exact mul_lt_mul_of_pos_right hlt (by positivity)
    _ = 2 ^ 52 * 2 ^ (b.exponent + 1) := by
        rw [zpow_add_one₀ (by decide)]
        ring
    _ ≤ c.mantissa * 2 ^ c.exponent := by
        gcongr
        · norm_num
        · omega

theorem compare_value (hb : b.Normal) (hc : c.Normal) :
    (compare b.exponent c.exponent).then (compare b.mantissa c.mantissa) = compare b.value c.value := by
  rcases Int.lt_trichotomy b.exponent c.exponent with h | h | h
  · rw [Int.compare_eq_lt.2 h, compare_lt_iff_lt.2 (value_lt_of_exponent_lt hb hc h)]
    rfl
  · have hpos : (0 : ℚ) < 2 ^ c.exponent := by positivity
    have hvalue : b.value = b.mantissa * 2 ^ c.exponent := by rw [value, h]
    rw [h, compare_eq_iff_eq.2 rfl, Ordering.then, hvalue, value]
    rcases Nat.lt_trichotomy b.mantissa c.mantissa with hm | hm | hm
    · have hlt : (b.mantissa : ℚ) < c.mantissa := by exact_mod_cast hm
      rw [compare_lt_iff_lt.2 hm, compare_lt_iff_lt.2 (mul_lt_mul_of_pos_right hlt hpos)]
    · rw [hm, compare_eq_iff_eq.2 rfl, compare_eq_iff_eq.2 rfl]
    · have hlt : (c.mantissa : ℚ) < b.mantissa := by exact_mod_cast hm
      rw [compare_gt_iff_gt.2 hm, compare_gt_iff_gt.2 (mul_lt_mul_of_pos_right hlt hpos)]
  · rw [Int.compare_eq_gt.2 h, compare_gt_iff_gt.2 (value_lt_of_exponent_lt hc hb h)]
    rfl

/-- A size is a whole number if the rational number is one. -/
theorem whole?_eq_some_iff {n : Nat} : b.whole? = some n ↔ b.value = n := by
  unfold whole? unit value
  by_cases he : b.exponent ≥ 0
  · have hpow : (2 : ℚ) ^ b.exponent = ((2 ^ b.exponent.toNat : Nat) : ℚ) := by
      rw [Nat.cast_pow, Nat.cast_ofNat, ← zpow_natCast, Int.toNat_of_nonneg he]
    rw [if_pos he, hpow]
    dsimp only
    rw [if_pos (Nat.mod_one _), Nat.div_one, Option.some.injEq]
    norm_cast
  · have hpow : (2 : ℚ) ^ b.exponent = (((2 ^ (-b.exponent).toNat : Nat) : ℚ))⁻¹ := by
      rw [Nat.cast_pow, Nat.cast_ofNat, ← zpow_natCast, Int.toNat_of_nonneg (by omega), zpow_neg, inv_inv]
    have hpos : 0 < 2 ^ (-b.exponent).toNat := Nat.two_pow_pos _
    rw [if_neg he, hpow, ← div_eq_mul_inv, div_eq_iff (by positivity)]
    dsimp only
    rw [Nat.mul_one]
    norm_cast
    show (if b.mantissa % 2 ^ (-b.exponent).toNat = 0 then some (b.mantissa / 2 ^ (-b.exponent).toNat) else none) =
      some n ↔ _
    constructor
    · intro h
      split at h
      · rename_i hmod
        rw [← Option.some.inj h, Nat.div_mul_cancel (Nat.dvd_of_mod_eq_zero hmod)]
      · cases h
    · intro h
      rw [h, Nat.mul_mod_left, if_pos rfl, Nat.mul_div_cancel _ hpos]

end Binary

private theorem normal_binary (x : Float) : (binary x).Normal := by
  have hmantissa : (@unpackMantissa .binary64 x.toModel.toBits.toBitVec).toNat < 2 ^ 52 := BitVec.isLt _
  rw [binary_eq]
  split
  · exact ⟨Nat.lt_trans hmantissa (by decide), Int.le_refl _, .inl rfl⟩
  · rename_i hexponent
    refine ⟨?_, ?_, .inr ?_⟩
    · show fractionLimit + _ < _
      unfold fractionLimit
      omega
    · show (-1074 : Int) ≤ _ - 1075
      omega
    · exact Nat.le_add_right _ _

/-! ### Exact values -/

/-- A finite number as a rational one.  Both zeros are zero. -/
def exactValue (x : Float) : ℚ :=
  if isNegative x then -(binary x).value else (binary x).value

theorem exactValue_of_negative {x : Float} (h : isNegative x = true) : exactValue x = -(binary x).value :=
  if_pos h

theorem exactValue_of_positive {x : Float} (h : isNegative x = false) : exactValue x = (binary x).value := by
  rw [exactValue, h]
  rfl

theorem abs_exactValue (x : Float) : |exactValue x| = (binary x).value := by
  have hnonneg := (binary x).value_nonneg
  unfold exactValue
  split
  · rw [abs_neg, abs_of_nonneg hnonneg]
  · exact abs_of_nonneg hnonneg

theorem exactValue_eq_zero {x : Float} (h : (binary x).mantissa = 0) : exactValue x = 0 := by
  unfold exactValue
  rw [Binary.value_eq_zero_iff.2 h]
  split
  · exact neg_zero
  · rfl

private theorem compare_neg (v w : ℚ) : compare (-v) (-w) = (compare v w).swap := by
  rcases lt_trichotomy v w with h | rfl | h
  · rw [compare_lt_iff_lt.2 h, compare_gt_iff_gt.2 (neg_lt_neg h)]
    rfl
  · rw [compare_eq_iff_eq.2 rfl, compare_eq_iff_eq.2 rfl]
    rfl
  · rw [compare_gt_iff_gt.2 h, compare_lt_iff_lt.2 (neg_lt_neg h)]
    rfl

/-- Zero comes after the negative numbers and before the positive ones. -/
theorem order?_of_zero {x y : Float} (hx : x.isFinite) (hy : y.isFinite) (hzero : (binary x).mantissa = 0) :
    order? x y = some (compare 0 (exactValue y)) := by
  rw [order?, unpack_eq hx, unpack_eq hy, dif_pos hzero]
  by_cases hm : (binary y).mantissa = 0
  · rw [dif_pos hm, exactValue_eq_zero hm, compare_eq_iff_eq.2 rfl]
    rfl
  · have hpos := Binary.value_pos hm
    rw [dif_neg hm]
    cases hs : isNegative y with
    | true =>
      rw [sign_of_negative hs, exactValue_of_negative hs, compare_gt_iff_gt.2 (neg_neg_of_pos hpos)]
      rfl
    | false =>
      rw [sign_of_positive hs, exactValue_of_positive hs, compare_lt_iff_lt.2 hpos]
      rfl

/-- Numbers other than zero compare by their signs, and by their sizes if these are the same. -/
theorem order?_of_ne_zero {x y : Float} (hx : x.isFinite) (hy : y.isFinite) (hxm : (binary x).mantissa ≠ 0)
    (hym : (binary y).mantissa ≠ 0) : order? x y = some (compare (exactValue x) (exactValue y)) := by
  have hparts := Binary.compare_value (normal_binary x) (normal_binary y)
  have hxpos := Binary.value_pos hxm
  have hypos := Binary.value_pos hym
  rw [order?, unpack_eq hx, unpack_eq hy, dif_neg hxm, dif_neg hym]
  cases hs : isNegative x with
  | true =>
    rw [sign_of_negative hs, exactValue_of_negative hs]
    cases ht : isNegative y with
    | true =>
      rw [sign_of_negative ht, exactValue_of_negative ht, compare_neg, ← hparts]
      rfl
    | false =>
      rw [sign_of_positive ht, exactValue_of_positive ht, compare_lt_iff_lt.2 ((neg_neg_of_pos hxpos).trans hypos)]
      rfl
  | false =>
    rw [sign_of_positive hs, exactValue_of_positive hs]
    cases ht : isNegative y with
    | true =>
      rw [sign_of_negative ht, exactValue_of_negative ht, compare_gt_iff_gt.2 ((neg_neg_of_pos hypos).trans hxpos)]
      rfl
    | false =>
      rw [sign_of_positive ht, exactValue_of_positive ht, ← hparts]
      rfl

/-- Finite numbers compare as their values do. -/
theorem order?_eq_compare {x y : Float} (hx : x.isFinite) (hy : y.isFinite) :
    order? x y = some (compare (exactValue x) (exactValue y)) := by
  by_cases hxm : (binary x).mantissa = 0
  · rw [exactValue_eq_zero hxm]
    exact order?_of_zero hx hy hxm
  · by_cases hym : (binary y).mantissa = 0
    · rw [order?_swap, order?_of_zero hy hx hym, exactValue_eq_zero hym]
      exact congrArg some Std.OrientedCmp.eq_swap.symm
    · exact order?_of_ne_zero hx hy hxm hym

theorem lt_iff_exactValue {x y : Float} (hx : x.isFinite) (hy : y.isFinite) : x < y ↔ exactValue x < exactValue y := by
  rw [lt_iff, order?_eq_compare hx hy, Option.some.injEq, compare_lt_iff_lt]

/-- Size and sign make up the whole bit pattern. -/
theorem eq_of_binary_eq {x y : Float} (h : binary x = binary y) (hsign : isNegative x = isNegative y) : x = y := by
  have hparts : x.toBits.toNat % fractionLimit = y.toBits.toNat % fractionLimit ∧
      x.toBits.toNat / fractionLimit % 0x800 = y.toBits.toNat / fractionLimit % 0x800 := by
    unfold binary at h
    dsimp only at h
    split at h <;> split at h <;> rw [Binary.mk.injEq] at h <;> unfold fractionLimit at * <;> omega
  have hbit : x.toBits.toNat / 2 ^ 63 % 2 = 1 ↔ y.toBits.toNat / 2 ^ 63 % 2 = 1 := by
    rw [isNegative, isNegative, Nat.testBit_eq_decide_div_mod_eq, Nat.testBit_eq_decide_div_mod_eq] at hsign
    exact decide_eq_decide.1 hsign
  have hx : x.toBits.toNat < 2 ^ 64 := x.toBits.toNat_lt
  have hy : y.toBits.toNat < 2 ^ 64 := y.toBits.toNat_lt
  have hnat : x.toBits.toNat = y.toBits.toNat := by
    unfold fractionLimit at hparts
    omega
  have hbits : x.toBits = y.toBits := UInt64.toNat_inj.1 hnat
  obtain ⟨⟨bits, hvalid⟩⟩ := x
  obtain ⟨⟨bits', hvalid'⟩⟩ := y
  obtain rfl : bits = bits' := hbits
  rfl

/-- Numbers with the same value are the same, zeros apart. -/
theorem eq_of_exactValue_eq {x y : Float} (h : exactValue x = exactValue y) (hzero : exactValue x ≠ 0) : x = y := by
  have hvalues : (binary x).value = (binary y).value ∧ isNegative x = isNegative y := by
    have hxv := (binary x).value_nonneg
    have hyv := (binary y).value_nonneg
    cases hx : isNegative x with
    | true =>
      rw [exactValue_of_negative hx] at h hzero
      cases hy : isNegative y with
      | true =>
        rw [exactValue_of_negative hy] at h
        exact ⟨neg_inj.1 h, rfl⟩
      | false =>
        rw [exactValue_of_positive hy] at h
        exact absurd (by linarith) hzero
    | false =>
      rw [exactValue_of_positive hx] at h hzero
      cases hy : isNegative y with
      | true =>
        rw [exactValue_of_negative hy] at h
        exact absurd (by linarith) hzero
      | false =>
        rw [exactValue_of_positive hy] at h
        exact ⟨h, rfl⟩
  have hparts := Binary.compare_value (normal_binary x) (normal_binary y)
  rw [compare_eq_iff_eq.2 hvalues.1, Ordering.then_eq_eq, Int.compare_eq_eq, Nat.compare_eq_eq] at hparts
  exact eq_of_binary_eq (congrArg₂ Binary.mk hparts.2 hparts.1) hvalues.2

end Spreadsheet.Number
