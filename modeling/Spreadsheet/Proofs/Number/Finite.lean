import Mathlib.Algebra.Group.Nat.Defs
import Spreadsheet.Calendar.Reading

/-!
# Finite numbers

Which operations on numbers cannot leave the finite range: changing the sign, dividing by one hundred, and converting a
small integer, such as the serial number of a date (`isFinite_readSerial?`).  An unpacked number of the format fits an
exponent `E` if its own exponent is not greater.  Rounding gives a number that fits unless the exact one is too large
(`fits_roundWithAccuracy`), and packing keeps a number that fits (`fits_pack`).
-/

namespace Spreadsheet

namespace Number

open Float.Model Float.Model.UnpackedFloat

/-! ### Packed numbers -/

/-- A zero, or a finite number with a bounded exponent. -/
def Fits (E : Int) : UnpackedFloat → Prop
  | .zero _ => True
  | .finite _ _ e _ => e ≤ E
  | .infinity _ | .notANumber => False

private theorem isFinite_of_fits {E : Int} {u : UnpackedFloat} (h : Fits E u) : u.isFinite := by
  cases u with
  | zero | finite => rfl
  | infinity | notANumber => exact h.elim

theorem exponentBias_binary64 : ((Format.binary64.exponentBias : Nat) : Int) = 1023 := rfl

theorem mantissaBits_binary64 : ((Format.binary64.mantissaBitsWithoutImplicit : Nat) : Int) = 52 := rfl

/-- A zero, or a finite number with a mantissa of the format and with the exponent `e`. -/
def Regular (e : Int) : UnpackedFloat → Prop
  | .zero _ => True
  | .finite _ m e' _ => m < 2 ^ 53 ∧ e' = e
  | .infinity _ | .notANumber => False

/-- What a packed number unpacks to. The last exponent is that of infinity, and the first one is shared with the second
one. -/
theorem unpack_cases (b : BitVec Format.binary64.numBits) :
    (unpackExponent b).toNat = 2047 ∧ (UnpackedFloat.unpack .binary64 b).isFinite = false ∨
      (unpackExponent b).toNat ≠ 2047 ∧
        Regular (max ((unpackExponent b).toNat : Int) 1 - 1075) (UnpackedFloat.unpack .binary64 b) := by
  unfold UnpackedFloat.unpack
  dsimp only
  rw [exponentBias_binary64, mantissaBits_binary64]
  by_cases hlast : unpackExponent b = -1#11
  · rw [if_pos hlast]
    refine .inl ⟨congrArg BitVec.toNat hlast, ?_⟩
    by_cases hm : unpackMantissa b = 0#52
    · rw [if_pos hm]
      rfl
    · rw [if_neg hm]
      rfl
  · rw [if_neg hlast]
    refine .inr ⟨fun he => hlast (BitVec.eq_of_toNat_eq he), ?_⟩
    by_cases hzero : unpackExponent b = 0#11
    · have hexp : (unpackExponent b).toNat = 0 := congrArg BitVec.toNat hzero
      rw [if_pos hzero]
      by_cases hm : unpackMantissa b = 0#52
      · rw [dif_pos hm]
        trivial
      · rw [dif_neg hm]
        refine ⟨Nat.lt_trans (unpackMantissa b).isLt (by decide), ?_⟩
        omega
    · have hexp : (unpackExponent b).toNat ≠ 0 := fun he => hzero (BitVec.eq_of_toNat_eq he)
      rw [if_neg hzero]
      refine ⟨(1#1 ++ unpackMantissa b).isLt, ?_⟩
      omega

/-- A packed number fits unless it is infinite or no number. -/
theorem fits_unpack {E : Int} (hE : -1074 ≤ E) {b : BitVec Format.binary64.numBits}
    (hlast : (unpackExponent b).toNat ≠ 2047) (h : (unpackExponent b).toNat ≤ E + 1075) :
    Fits E (UnpackedFloat.unpack .binary64 b) := by
  rcases unpack_cases b with ⟨he, -⟩ | ⟨-, hregular⟩
  · exact absurd he hlast
  · cases hb : UnpackedFloat.unpack .binary64 b with
    | zero s => trivial
    | finite s m e hm =>
      rw [hb] at hregular
      obtain ⟨-, rfl⟩ := hregular
      show _ ≤ E
      omega
    | infinity | notANumber =>
      rw [hb] at hregular
      exact hregular.elim

private theorem mantissa_unpack_lt {b : BitVec Format.binary64.numBits} {s : Sign} {m : Nat} {e : Int} {hm : 0 < m}
    (h : UnpackedFloat.unpack .binary64 b = .finite s m e hm) : m < 2 ^ 53 := by
  rcases unpack_cases b with ⟨-, hfinite⟩ | ⟨-, hregular⟩
  · rw [h] at hfinite
    cases hfinite
  · rw [h] at hregular
    exact hregular.1

/-- A finite number fits the greatest exponent of the format. -/
theorem fits_of_isFinite {x : Float} (h : x.isFinite) : Fits 971 x.toModel.unpack := by
  have hfinite : (UnpackedFloat.unpack .binary64 x.toModel.toBits.toBitVec).isFinite = true := h
  have hlt : (@unpackExponent .binary64 x.toModel.toBits.toBitVec).toNat < 2048 := BitVec.isLt _
  rcases unpack_cases x.toModel.toBits.toBitVec with ⟨-, hinfinite⟩ | ⟨hlast, -⟩
  · rw [hfinite] at hinfinite
    cases hinfinite
  · exact fits_unpack (by decide) hlast (by omega)

theorem fits_pack {E : Int} (hE : -1074 ≤ E) (hE' : E ≤ 971) {u : UnpackedFloat} (h : Fits E u) :
    Fits E (Float.Model.pack u).unpack := by
  show Fits E (UnpackedFloat.unpack .binary64 (UnpackedFloat.pack .binary64 u))
  have hcomponents : ∀ s (b : BitVec 11) (m : BitVec 52), b.toNat ≠ 2047 → b.toNat ≤ E + 1075 →
      Fits E (UnpackedFloat.unpack .binary64 (packComponents .binary64 s b m)) := by
    intro s b m hlast hb
    refine fits_unpack hE ?_ ?_
    · rwa [unpackExponent_packComponents]
    · rwa [unpackExponent_packComponents]
  cases u with
  | infinity | notANumber => exact h.elim
  | zero s => exact hcomponents s 0 0 (by decide) (by simp; omega)
  | finite s m e hm =>
    have he : e ≤ E := h
    unfold UnpackedFloat.pack
    dsimp only
    rw [exponentBias_binary64, mantissaBits_binary64, if_neg (by show ¬ 2 ^ 11 ≤ _; omega)]
    split
    · have hnat : (BitVec.ofNat 11 (e + 1023 + 52).toNat).toNat = (e + 1023 + 52).toNat := by
        rw [BitVec.toNat_ofNat, Nat.mod_eq_of_lt (by omega)]
      exact hcomponents s _ _ (by rw [hnat]; omega) (by rw [hnat]; omega)
    · exact hcomponents s 0 _ (by decide) (by simp; omega)

/-! ### Rounding -/

private theorem mantissa_shiftRight (em : ExtendedMantissa) (n : Nat) : (em >>> n).mantissa = em.mantissa / 2 ^ n := by
  induction n with
  | zero => exact (Nat.div_one _).symm
  | succ n ih =>
    rw [Nat.pow_succ, ← Nat.div_div_eq_div_mul, ← ih]
    rfl

private theorem mantissa_ofMantissaAndAccuracy (m : Nat) (a : Accuracy) :
    (ExtendedMantissa.ofMantissaAndAccuracy m a).mantissa = m := by
  rcases a with _ | _ | _ | _ <;> rfl

private theorem roundToNearestEven_le (m : Nat) (a : Accuracy) : a.roundToNearestEven m ≤ m + 1 := by
  rcases a with _ | _ | _ | _ <;> simp only [Accuracy.roundToNearestEven] <;> omega

theorem targetExponent_binary64 (t : Int) : Format.binary64.targetExponent t = max (t - 53) (-1074) := rfl

/-- Rounding carries at most one place. -/
theorem log2_le_of_le_div {m n k : Nat} (h : n ≤ m / 2 ^ k + 1) : n.log2 ≤ m.log2 + 1 - k := by
  have hm : m < 2 ^ (m.log2 + 1) := Nat.lt_log2_self
  have hlt : n < 2 ^ (m.log2 + 1 - k + 1) := by
    by_cases hk : k ≤ m.log2 + 1
    · have hdiv : m / 2 ^ k < 2 ^ (m.log2 + 1 - k) := by
        rw [Nat.div_lt_iff_lt_mul (Nat.two_pow_pos k), ← Nat.pow_add, Nat.sub_add_cancel hk]
        exact hm
      have hpos := Nat.two_pow_pos (m.log2 + 1 - k)
      rw [Nat.pow_succ]
      omega
    · have hdiv : m / 2 ^ k = 0 :=
        Nat.div_eq_of_lt (Nat.lt_of_lt_of_le hm (Nat.pow_le_pow_right (by decide) (by omega)))
      have hone : 1 < 2 ^ (m.log2 + 1 - k + 1) := Nat.one_lt_two_pow (by omega)
      omega
  rcases Nat.eq_zero_or_pos n with rfl | hn
  · exact Nat.zero_le _
  · exact Nat.le_of_lt_succ ((Nat.log2_lt (by omega)).2 hlt)

/-- A mantissa that may have been rounded to zero. -/
theorem fits_ofMantissa {E e : Int} (h : e ≤ E) (s : Sign) (m : Nat) :
    Fits E (if hm : m = 0 then .zero s else .finite s m e (Nat.pos_of_ne_zero hm)) := by
  by_cases hm : m = 0
  · rw [dif_pos hm]
    trivial
  · rw [dif_neg hm]
    exact h

/-- The result of rounding fits unless the number was too large. -/
theorem fits_roundWithAccuracy {E : Int} (hE : -1074 ≤ E) (s : Sign) {m : Nat} {e : Int} (a : Accuracy) (he : e ≤ E)
    (ht : totalExponent m e ≤ E + 52) : Fits E (roundWithAccuracy .binary64 s m e a) := by
  unfold roundWithAccuracy shiftToTargetExponent shiftToExponent
  refine fits_ofMantissa ?_ s _
  simp only [targetExponent_binary64]
  generalize hk : (max (totalExponent m e - 53) (-1074) - e).toNat = k
  generalize hr : ExtendedMantissa.roundedMantissa _ = r
  -- The mantissa after the first shift and rounding.
  have hround : r ≤ m / 2 ^ k + 1 := by
    rw [← hr]
    unfold ExtendedMantissa.roundedMantissa
    rw [mantissa_shiftRight, mantissa_ofMantissaAndAccuracy]
    exact roundToNearestEven_le _ _
  -- It has at most 54 bits, so that the second shift moves it by at most one place.
  have hlog := log2_le_of_le_div hround
  unfold totalExponent at *
  omega

/-! ### Operations -/

private theorem fits_neg {E : Int} {u : UnpackedFloat} (h : Fits E u) : Fits E u.neg := by
  cases u with
  | infinity | notANumber => exact h.elim
  | zero => trivial
  | finite s m e hm => exact h

private theorem fits_zero_sub {E : Int} {u : UnpackedFloat} (h : Fits E u) :
    Fits E (.sub .binary64 (.zero .positive) u) := by
  cases u with
  | infinity | notANumber => exact h.elim
  | zero s => cases s <;> trivial
  | finite s m e hm => exact h

private theorem log2_mul_le (m n : Nat) : (m * n).log2 ≤ m.log2 + n.log2 + 1 := by
  rcases Nat.eq_zero_or_pos (m * n) with h | h
  · rw [h]
    exact Nat.zero_le _
  · have hlt : m * n < 2 ^ (m.log2 + n.log2 + 1 + 1) := by
      rw [show m.log2 + n.log2 + 1 + 1 = m.log2 + 1 + (n.log2 + 1) by omega, Nat.pow_add]
      exact Nat.mul_lt_mul'' Nat.lt_log2_self Nat.lt_log2_self
    exact Nat.le_of_lt_succ ((Nat.log2_lt (by omega)).2 hlt)

private theorem fits_mul {E : Int} (hE : -1074 ≤ E) {s₁ s₂ : Sign} {m₁ m₂ : Nat} {e₁ e₂ : Int} {h₁ : 0 < m₁}
    {h₂ : 0 < m₂} (he : e₁ + e₂ ≤ E) (ht : totalExponent m₁ e₁ + totalExponent m₂ e₂ ≤ E + 52) :
    Fits E (.mul .binary64 (.finite s₁ m₁ e₁ h₁) (.finite s₂ m₂ e₂ h₂)) := by
  refine fits_roundWithAccuracy hE _ _ he ?_
  have hlog := log2_mul_le m₁ m₂
  unfold totalExponent at *
  omega

private theorem log2_shiftLeft_div_le {m n : Nat} (hn : 0 < n) (k : Nat) (hq : 0 < (m <<< k) / n) :
    ((m <<< k) / n).log2 + n.log2 ≤ m.log2 + k := by
  have hle : 2 ^ (((m <<< k) / n).log2 + n.log2) ≤ m * 2 ^ k := by
    rw [Nat.pow_add, ← Nat.shiftLeft_eq m]
    exact Nat.le_trans (Nat.mul_le_mul (Nat.log2_self_le (Nat.ne_of_gt hq)) (Nat.log2_self_le (Nat.ne_of_gt hn)))
      (Nat.div_mul_le_self _ _)
  have hlt : m * 2 ^ k < 2 ^ (m.log2 + 1 + k) := by
    rw [Nat.pow_add]
    exact Nat.mul_lt_mul_of_pos_right Nat.lt_log2_self (Nat.two_pow_pos k)
  have hexp := (Nat.pow_lt_pow_iff_right (by decide : 1 < 2)).1 (Nat.lt_of_le_of_lt hle hlt)
  omega

private theorem fits_div {E : Int} (hE : -1074 ≤ E) {s₁ s₂ : Sign} {m₁ m₂ : Nat} {e₁ e₂ : Int} {h₁ : 0 < m₁}
    {h₂ : 0 < m₂} (ht : totalExponent m₁ e₁ - totalExponent m₂ e₂ ≤ E + 51) :
    Fits E (.div .binary64 (.finite s₁ m₁ e₁ h₁) (.finite s₂ m₂ e₂ h₂)) := by
  unfold UnpackedFloat.div divCore
  dsimp only
  rw [targetExponent_binary64]
  generalize htarget : min (e₁ - e₂) (max (totalExponent m₁ e₁ - totalExponent m₂ e₂ - 53) (-1074)) = target
  refine fits_roundWithAccuracy hE _ _ (by omega) ?_
  unfold totalExponent at *
  rcases Nat.eq_zero_or_pos ((m₁ <<< (e₁ - e₂ - target).toNat) / m₂) with hq | hq
  · rw [hq]
    have hzero : (0 : Nat).log2 = 0 := by decide
    omega
  · have hlog := log2_shiftLeft_div_le h₂ _ hq
    omega

private theorem isFinite_ofModel_pack {u : UnpackedFloat} (h : Fits 971 u) : (Float.ofModel (.pack u)).isFinite :=
  isFinite_of_fits (fits_pack (by decide) (by decide) h)

private theorem isFinite_neg {x : Float} (h : x.isFinite) : (-x).isFinite :=
  isFinite_ofModel_pack (fits_neg (fits_of_isFinite h))

private theorem isFinite_of_neg {x : Float} (h : (-x).isFinite) : x.isFinite := by
  have h' : (Float.Model.pack x.toModel.unpack.neg).unpack.isFinite := h
  show x.toModel.unpack.isFinite
  cases hu : x.toModel.unpack with
  | zero | finite => rfl
  | infinity s =>
    rw [hu] at h'
    cases s <;> cases h'
  | notANumber =>
    rw [hu] at h'
    cases h'

/-- Subtracting from zero only changes the sign. -/
theorem isFinite_zero_sub {x : Float} (h : x.isFinite) : (0 - x).isFinite :=
  isFinite_ofModel_pack (u := .sub .binary64 (.zero .positive) x.toModel.unpack) (fits_zero_sub (fits_of_isFinite h))

private theorem unpack_hundred :
    (100 : Float).toModel.unpack = .finite .positive (100 * 2 ^ 46) (-46) (by decide) := rfl

theorem isFinite_div_hundred {x : Float} (h : x.isFinite) : (x / 100).isFinite := by
  have hx := fits_of_isFinite h
  refine isFinite_ofModel_pack (u := .div .binary64 x.toModel.unpack (100 : Float).toModel.unpack) ?_
  rw [unpack_hundred]
  cases hu : x.toModel.unpack with
  | infinity | notANumber =>
    rw [hu] at hx
    exact hx.elim
  | zero s => trivial
  | finite s m e hm =>
    rw [hu] at hx
    have he : e ≤ 971 := hx
    have hlog : m.log2 < 53 := (Nat.log2_lt (by omega)).2 (mantissa_unpack_lt hu)
    have hhundred : (100 * 2 ^ 46).log2 = 52 := by decide
    refine fits_div (by decide) ?_
    unfold totalExponent
    rw [hhundred]
    omega

/-! ### Integers -/

private theorem fits_round {E : Int} (hE : 1 ≤ E) (s : Sign) {n : Nat} (hn : n.log2 ≤ 51) :
    Fits E (round .binary64 s n 0) := by
  unfold UnpackedFloat.round decreaseExponent
  dsimp only
  generalize (0 - Format.binary64.targetExponent (totalExponent n 0)).toNat = k
  refine fits_roundWithAccuracy (by omega) s _ (by omega) ?_
  have hlog := log2_mul_le n (2 ^ k)
  rw [Nat.log2_two_pow] at hlog
  rw [Nat.shiftLeft_eq]
  unfold totalExponent
  omega

private theorem fits_ofNat {E : Int} (hE : 1 ≤ E) {n : Nat} (hn : n < 2 ^ 52) : Fits E (.ofNat .binary64 n) := by
  rcases Nat.eq_zero_or_pos n with rfl | hpos
  · trivial
  · unfold UnpackedFloat.ofNat UnpackedFloat.ofInt UnpackedFloat.normalize
    rw [Int.compare_eq_gt.2 (by omega)]
    exact fits_round hE .positive (Nat.le_of_lt_succ ((Nat.log2_lt (by omega)).2 hn))

theorem unpack_one : (1 : Float).toModel.unpack = .finite .positive (2 ^ 52) (-52) (by decide) := rfl

/-- A small natural number becomes a float by way of a machine word. -/
theorem ofNat_eq {n : Nat} (hn : n < 2 ^ 52) : Float.ofNat n = n.toUInt64.toFloat * 1 := by
  show Float.ofScientific n false 0 = _
  unfold Float.ofScientific
  rw [dif_pos ⟨Nat.lt_trans hn (by decide), by decide⟩]
  rfl

private theorem isFinite_ofNat {n : Nat} (hn : n < 2 ^ 52) : (Float.ofNat n).isFinite := by
  have hword : n.toUInt64.toFloat = .ofModel (.pack (.ofNat .binary64 n)) := by
    show Float.ofModel (.pack (.ofNat .binary64 n.toUInt64.toNat)) = _
    rw [show n.toUInt64.toNat = n from UInt64.toNat_ofNat_of_lt' (Nat.lt_trans hn (by decide))]
  have hx : Fits 1 n.toUInt64.toFloat.toModel.unpack := by
    rw [hword]
    exact fits_pack (by decide) (by decide) (fits_ofNat (by decide) hn)
  rw [ofNat_eq hn]
  refine isFinite_ofModel_pack (u := .mul .binary64 n.toUInt64.toFloat.toModel.unpack (1 : Float).toModel.unpack) ?_
  rw [unpack_one]
  cases hu : n.toUInt64.toFloat.toModel.unpack with
  | infinity | notANumber =>
    rw [hu] at hx
    exact hx.elim
  | zero s => trivial
  | finite s m e hm =>
    rw [hu] at hx
    have he : e ≤ 1 := hx
    have hlog : m.log2 < 53 := (Nat.log2_lt (by omega)).2 (mantissa_unpack_lt hu)
    refine fits_mul (by decide) (by omega) ?_
    unfold totalExponent
    rw [Nat.log2_two_pow]
    omega

theorem isFinite_ofInt {n : Int} (hn : n.natAbs < 2 ^ 52) : (Float.ofInt n).isFinite := by
  cases n with
  | ofNat n => exact isFinite_ofNat hn
  | negSucc n => exact isFinite_neg (isFinite_ofNat hn)

/-- An integer and its negation are finite numbers together. -/
theorem isFinite_ofInt_neg {n : Int} (hn : (Float.ofInt n).isFinite) : (Float.ofInt (-n)).isFinite := by
  match n with
  | .ofNat 0 => exact hn
  | .ofNat (k + 1) => exact isFinite_neg hn
  | .negSucc k => exact isFinite_of_neg hn

/-! ### Numbers from text -/

theorem isFinite_ofText? {s : String} {x : Float} (h : ofText? s = some x) : x.isFinite := by
  unfold ofText? readChars? at h
  exact (Option.filter_eq_some_iff.1 h).2

end Number

namespace Calendar

private theorem daysBefore_le (month : Nat) : daysBefore month ≤ 334 := by
  unfold daysBefore
  split <;> decide

private theorem daysInMonth_le (year : Int) (month : Nat) : daysInMonth year month ≤ 31 := by
  unfold daysInMonth
  split
  · split <;> decide
  all_goals decide

/-- The years for which dates are read are few enough days. -/
theorem natAbs_dayNumber_lt {d : Date} (hyear : yearInRange d.year) (hd : d.Valid) : d.dayNumber.natAbs < 2 ^ 30 := by
  obtain ⟨hlow, hhigh⟩ := Bool.and_eq_true_iff.1 hyear
  have hlow := of_decide_eq_true hlow
  have hhigh := of_decide_eq_true hhigh
  have hmonth := daysBefore_le d.month
  have hday := Nat.le_trans hd.2.2.2 (daysInMonth_le d.year d.month)
  unfold Date.dayNumber daysBeforeYear
  dsimp only
  split <;> omega

theorem natAbs_serial_lt (sys : DateSystem) {d : Date} (hyear : yearInRange d.year) (hd : d.Valid) :
    (sys.serial d).natAbs < 2 ^ 52 := by
  have hdays := natAbs_dayNumber_lt hyear hd
  cases sys with
  | from1900 =>
    have hstart : (⟨1899, 12, 31⟩ : Date).dayNumber = 693595 := by decide
    unfold DateSystem.serial
    dsimp only
    split <;> omega
  | from1904 =>
    have hstart : (⟨1904, 1, 1⟩ : Date).dayNumber = 695056 := by decide
    unfold DateSystem.serial
    dsimp only
    omega

private theorem valid_of_readDateChars? {s : List Char} {d : Date} (h : readDateChars? s = some d) :
    yearInRange d.year ∧ d.Valid := by
  unfold readDateChars? at h
  obtain ⟨layout, -, hd⟩ := List.exists_of_findSome?_eq_some h
  simpa using (Option.filter_eq_some_iff.1 hd).2

theorem isFinite_readSerial? {sys : DateSystem} {s : String} {x : Float} (h : sys.readSerial? s = some x) :
    x.isFinite := by
  obtain ⟨d, hd, rfl⟩ := Option.map_eq_some_iff.1 h
  obtain ⟨hyear, hvalid⟩ := valid_of_readDateChars? hd
  exact Number.isFinite_ofInt (natAbs_serial_lt sys hyear hvalid)

end Calendar

end Spreadsheet
