import Spreadsheet.Proofs.Number.ExactValue

/-!
# Integers as floating-point numbers

A small integer is converted without rounding (`exactValue_ofInt`).  Its bits fill a mantissa when they are shifted to
the left; such a number is packed as it is (`unpack_pack`), and rounding only takes out the zeros that are shifted in
(`roundWithAccuracy_of_normal`).
-/

namespace Spreadsheet.Number

open Float.Model Float.Model.UnpackedFloat

/-! ### Packing and rounding without a loss -/

private theorem sign_packComponents (s : Sign) (e : BitVec 11) (m : BitVec 52) :
    Sign.ofBitVec (unpackSign (packComponents .binary64 s e m)) = s := by
  have hbit : unpackSign (packComponents .binary64 s e m) = s.toBitVec := by
    show (s.toBitVec ++ e ++ m).extractLsb' 63 1 = s.toBitVec
    rw [BitVec.extractLsb'_append_eq_of_le (by decide), BitVec.extractLsb'_append_eq_of_le (by decide)]
    exact BitVec.extractLsb'_eq_self
  rw [hbit]
  cases s <;> rfl

/-- A mantissa of 53 bits and an exponent of the format are packed as they are. -/
theorem unpack_pack {s : Sign} {m : Nat} {e : Int} (hm : 0 < m) (hlow : 2 ^ 52 ≤ m) (hhigh : m < 2 ^ 53)
    (he : -1074 ≤ e) (he' : e ≤ 971) : (Float.Model.pack (.finite s m e hm)).unpack = .finite s m e hm := by
  have hlog : m.log2 + 1 = 53 := by
    have hle : 52 ≤ m.log2 := (Nat.le_log2 (by omega)).2 hlow
    have hlt : m.log2 < 53 := (Nat.log2_lt (by omega)).2 hhigh
    omega
  have hexponent : (BitVec.ofNat 11 (e + 1023 + 52).toNat).toNat = (e + 1075).toNat := by
    rw [BitVec.toNat_ofNat, Nat.mod_eq_of_lt (by omega), Int.add_assoc]
    rfl
  have hexponent_ne : ∀ {b : BitVec 11}, b = -1#11 ∨ b = 0#11 → BitVec.ofNat 11 (e + 1023 + 52).toNat ≠ b := by
    rintro b hb rfl
    rcases hb with hb | hb
    · have hnat : (e + 1075).toNat = 2047 := hexponent.symm.trans (congrArg BitVec.toNat hb)
      omega
    · have hnat : (e + 1075).toNat = 0 := hexponent.symm.trans (congrArg BitVec.toNat hb)
      omega
  have hpack : UnpackedFloat.pack .binary64 (.finite s m e hm) =
      packComponents .binary64 s (BitVec.ofNat 11 (e + 1023 + 52).toNat) (BitVec.ofNat 52 m) := by
    unfold UnpackedFloat.pack
    dsimp only
    rw [exponentBias_binary64, mantissaBits_binary64, if_neg (by show ¬ 2 ^ 11 ≤ _; omega), if_pos (by rw [hlog]; rfl)]
  have hunpack : ∀ b : BitVec Format.binary64.numBits, unpackExponent b = BitVec.ofNat 11 (e + 1023 + 52).toNat →
      unpackMantissa b = BitVec.ofNat 52 m → Sign.ofBitVec (unpackSign b) = s →
      UnpackedFloat.unpack .binary64 b = .finite s m e hm := by
    intro b he hm hs
    unfold UnpackedFloat.unpack
    dsimp only
    rw [if_neg (he ▸ hexponent_ne (.inl rfl)), if_neg (he ▸ hexponent_ne (.inr rfl)), exponentBias_binary64, hs]
    refine finite_congr ?_ ?_
    · rw [hm, toNat_one_append, BitVec.toNat_ofNat]
      unfold fractionLimit
      omega
    · rw [he, hexponent]
      show _ - (1023 + 52) = e
      omega
  show UnpackedFloat.unpack .binary64 (UnpackedFloat.pack .binary64 (.finite s m e hm)) = _
  rw [hpack]
  exact hunpack _ (unpackExponent_packComponents ..) (unpackMantissa_packComponents ..) (sign_packComponents ..)

/-- Zeros at the end are shifted out without a trace. -/
theorem shiftRight_mul_two_pow (m k : Nat) :
    ExtendedMantissa.ofMantissaAndAccuracy (m * 2 ^ k) .exact >>> k = .ofMantissaAndAccuracy m .exact := by
  induction k generalizing m with
  | zero =>
    rw [Nat.pow_zero, Nat.mul_one]
    rfl
  | succ k ih =>
    have hshift : ExtendedMantissa.ofMantissaAndAccuracy (m * 2 ^ (k + 1)) .exact >>> (k + 1) =
        (ExtendedMantissa.ofMantissaAndAccuracy (m * 2 * 2 ^ k) .exact >>> k).shiftRightOne := by
      rw [Nat.pow_succ', ← Nat.mul_assoc]
      rfl
    rw [hshift, ih]
    simp [ExtendedMantissa.shiftRightOne, ExtendedMantissa.ofMantissaAndAccuracy]

private theorem targetExponent_of_normal {m : Nat} {e : Int} (hlow : 2 ^ 52 ≤ m) (hhigh : m < 2 ^ 53) (he : -1074 ≤ e)
    (k : Nat) : Format.binary64.targetExponent (totalExponent (m * 2 ^ k) (e - k)) = e := by
  have hlog : (m * 2 ^ k).log2 = 52 + k := by
    have hpos := Nat.two_pow_pos k
    refine (Nat.log2_eq_iff (by simp; omega)).2 ⟨?_, ?_⟩
    · rw [Nat.pow_add]
      exact Nat.mul_le_mul_right _ hlow
    · rw [show 52 + k + 1 = 53 + k by omega, Nat.pow_add]
      exact Nat.mul_lt_mul_of_pos_right hhigh hpos
  rw [targetExponent_binary64, totalExponent, hlog]
  omega

/-- Rounding keeps a number with a mantissa of 53 bits, whatever power of two is taken out of its exponent. -/
theorem roundWithAccuracy_of_normal {s : Sign} {m : Nat} {e : Int} (hm : 0 < m) (hlow : 2 ^ 52 ≤ m)
    (hhigh : m < 2 ^ 53) (he : -1074 ≤ e) (k : Nat) :
    roundWithAccuracy .binary64 s (m * 2 ^ k) (e - k) .exact = .finite s m e hm := by
  have hshift : shiftToTargetExponent .binary64 (m * 2 ^ k) (e - k) .exact = (.ofMantissaAndAccuracy m .exact, e) := by
    unfold shiftToTargetExponent shiftToExponent
    dsimp only
    rw [targetExponent_of_normal hlow hhigh he, show (e - (e - k)).toNat = k by omega, shiftRight_mul_two_pow,
      show e - k + k = e by omega]
  have hkeep : shiftToTargetExponent .binary64 m e .exact = (.ofMantissaAndAccuracy m .exact, e) := by
    have htarget := targetExponent_of_normal hlow hhigh he 0
    rw [Nat.pow_zero, Nat.mul_one, Int.natCast_zero, Int.sub_zero] at htarget
    unfold shiftToTargetExponent shiftToExponent
    dsimp only
    rw [htarget, Int.sub_self, Int.toNat_zero, Int.natCast_zero, Int.add_zero]
    rfl
  have hround : ∀ p q, shiftToTargetExponent .binary64 (m * 2 ^ k) (e - k) .exact = p →
      shiftToTargetExponent .binary64 p.1.roundedMantissa p.2 .exact = q →
      roundWithAccuracy .binary64 s (m * 2 ^ k) (e - k) .exact =
        if hm : q.1.mantissa = 0 then .zero s else .finite s q.1.mantissa q.2 (Nat.pos_of_ne_zero hm) := by
    rintro _ _ rfl rfl
    rfl
  exact (hround _ _ hshift hkeep).trans (dif_neg (Nat.ne_of_gt hm))

/-! ### Integers -/

/-- The bits of an integer fill a mantissa when they are shifted to the left. -/
theorem normal_shifted {n : Nat} (hpos : 0 < n) (hn : n < 2 ^ 53) :
    2 ^ 52 ≤ n * 2 ^ (52 - n.log2) ∧ n * 2 ^ (52 - n.log2) < 2 ^ 53 := by
  have hlog : n.log2 < 53 := (Nat.log2_lt (by omega)).2 hn
  have hlow : 2 ^ n.log2 ≤ n := Nat.log2_self_le (by omega)
  have hhigh : n < 2 ^ (n.log2 + 1) := Nat.lt_log2_self
  constructor
  · calc 2 ^ 52 = 2 ^ n.log2 * 2 ^ (52 - n.log2) := by rw [← Nat.pow_add]; congr 1; omega
      _ ≤ n * 2 ^ (52 - n.log2) := Nat.mul_le_mul_right _ hlow
  · calc n * 2 ^ (52 - n.log2) < 2 ^ (n.log2 + 1) * 2 ^ (52 - n.log2) :=
          Nat.mul_lt_mul_of_pos_right hhigh (Nat.two_pow_pos _)
      _ = 2 ^ 53 := by rw [← Nat.pow_add]; congr 1; omega

private theorem round_natural {n : Nat} (hpos : 0 < n) (hn : n < 2 ^ 53) : round .binary64 .positive n 0 =
    .finite .positive (n * 2 ^ (52 - n.log2)) ((n.log2 : Int) - 52) (Nat.mul_pos hpos (Nat.two_pow_pos _)) := by
  have hlog : n.log2 < 53 := (Nat.log2_lt (by omega)).2 hn
  obtain ⟨hlow, hhigh⟩ := normal_shifted hpos hn
  have htarget : Format.binary64.targetExponent (totalExponent n 0) = (n.log2 : Int) - 52 := by
    rw [targetExponent_binary64, totalExponent]
    omega
  have hround := roundWithAccuracy_of_normal (s := .positive) (e := (n.log2 : Int) - 52)
    (Nat.mul_pos hpos (Nat.two_pow_pos _)) hlow hhigh (by omega) 0
  rw [Nat.pow_zero, Nat.mul_one, Int.natCast_zero, Int.sub_zero] at hround
  unfold UnpackedFloat.round decreaseExponent
  dsimp only
  rw [htarget, show (0 - ((n.log2 : Int) - 52)).toNat = 52 - n.log2 by omega, Nat.shiftLeft_eq,
    show (0 : Int) - ((52 - n.log2 : Nat) : Int) = (n.log2 : Int) - 52 by omega]
  exact hround

/-- Natural numbers of up to 52 bits are floating-point numbers. -/
theorem unpack_ofNat {n : Nat} (hpos : 0 < n) (hn : n < 2 ^ 52) : (Float.ofNat n).toModel.unpack =
    .finite .positive (n * 2 ^ (52 - n.log2)) ((n.log2 : Int) - 52) (Nat.mul_pos hpos (Nat.two_pow_pos _)) := by
  have hlog : n.log2 < 52 := (Nat.log2_lt (by omega)).2 hn
  have hn' : n < 2 ^ 53 := Nat.lt_trans hn (by decide)
  obtain ⟨hlow, hhigh⟩ := normal_shifted hpos hn'
  have hword : n.toUInt64.toFloat.toModel.unpack =
      .finite .positive (n * 2 ^ (52 - n.log2)) ((n.log2 : Int) - 52) (Nat.mul_pos hpos (Nat.two_pow_pos _)) := by
    have hconvert : UnpackedFloat.ofNat .binary64 n = round .binary64 .positive n 0 := by
      unfold UnpackedFloat.ofNat UnpackedFloat.ofInt UnpackedFloat.normalize
      rw [Int.compare_eq_gt.2 (by omega)]
      rfl
    show (Float.Model.pack (.ofNat .binary64 n.toUInt64.toNat)).unpack = _
    rw [show n.toUInt64.toNat = n from UInt64.toNat_ofNat_of_lt' (Nat.lt_trans hn (by decide)), hconvert,
      round_natural hpos hn', unpack_pack _ hlow hhigh (by omega) (by omega)]
  rw [ofNat_eq hn]
  show (Float.Model.pack (.mul .binary64 n.toUInt64.toFloat.toModel.unpack (1 : Float).toModel.unpack)).unpack = _
  rw [hword, unpack_one]
  show (Float.Model.pack (roundWithAccuracy .binary64 .positive (n * 2 ^ (52 - n.log2) * 2 ^ 52)
    ((n.log2 : Int) - 52 - (52 : Nat)) .exact)).unpack = _
  rw [roundWithAccuracy_of_normal _ hlow hhigh (by omega), unpack_pack _ hlow hhigh (by omega) (by omega)]

/-- The value of a number that unpacks to a mantissa and an exponent. -/
theorem exactValue_of_unpack {x : Float} {s : Sign} {m : Nat} {e : Int} {hm : 0 < m}
    (h : x.toModel.unpack = .finite s m e hm) : exactValue x = s.apply 1 * (m * 2 ^ e) := by
  have hfinite : x.isFinite := by
    show x.toModel.unpack.isFinite = true
    rw [h]
    rfl
  rw [unpack_eq hfinite] at h
  by_cases hzero : (binary x).mantissa = 0
  · rw [dif_pos hzero] at h
    cases h
  · rw [dif_neg hzero] at h
    obtain ⟨rfl, rfl, rfl⟩ := UnpackedFloat.finite.inj h
    cases hs : isNegative x with
    | true =>
      rw [exactValue_of_negative hs, sign_of_negative hs]
      exact (neg_one_mul _).symm
    | false =>
      rw [exactValue_of_positive hs, sign_of_positive hs]
      exact (one_mul _).symm

private theorem shifted_value {n : Nat} (hn : n.log2 < 52) :
    ((n * 2 ^ (52 - n.log2) : Nat) : ℚ) * 2 ^ ((n.log2 : Int) - 52) = n := by
  have hpow : (2 : ℚ) ^ ((n.log2 : Int) - 52) = (2 ^ (52 - n.log2))⁻¹ := by
    rw [← zpow_natCast, ← zpow_neg]
    congr 1
    omega
  rw [hpow, Nat.cast_mul, Nat.cast_pow, Nat.cast_ofNat, mul_inv_cancel_right₀ (by positivity)]

/-- Small integers are converted exactly. -/
theorem exactValue_ofInt {n : Int} (hn : n.natAbs < 2 ^ 52) : exactValue (Float.ofInt n) = n := by
  match n with
  | .ofNat 0 => exact exactValue_eq_zero rfl
  | .ofNat (k + 1) =>
    have hpos : 0 < k + 1 := Nat.succ_pos k
    have hn : k + 1 < 2 ^ 52 := hn
    have hvalue := exactValue_of_unpack (unpack_ofNat hpos hn)
    rw [shifted_value ((Nat.log2_lt (by omega)).2 hn)] at hvalue
    exact hvalue.trans (one_mul _)
  | .negSucc k =>
    have hpos : 0 < k + 1 := Nat.succ_pos k
    have hn : k + 1 < 2 ^ 52 := hn
    have hlog : (k + 1).log2 < 52 := (Nat.log2_lt (by omega)).2 hn
    obtain ⟨hlow, hhigh⟩ := normal_shifted hpos (Nat.lt_trans hn (by decide))
    have hunpack : (Float.ofInt (.negSucc k)).toModel.unpack = .finite .negative ((k + 1) * 2 ^ (52 - (k + 1).log2))
        (((k + 1).log2 : Int) - 52) (Nat.mul_pos hpos (Nat.two_pow_pos _)) := by
      show (Float.Model.pack (Float.ofNat (k + 1)).toModel.unpack.neg).unpack = _
      rw [unpack_ofNat hpos hn]
      exact unpack_pack _ hlow hhigh (by omega) (by omega)
    have hvalue := exactValue_of_unpack hunpack
    rw [shifted_value hlog] at hvalue
    rw [hvalue, Int.cast_negSucc]
    exact neg_one_mul _

end Spreadsheet.Number
