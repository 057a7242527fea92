import Spreadsheet.Proofs.Number.Finite

/-!
# The order of floating-point numbers

Two numbers compare in one of three ways (`order?`), and the comparison the other way round is the reverse one
(`order?_swap`).  Only a NaN does not compare.  The distance of two numbers is the same in both directions
(`abs_sub_comm`), and zero if they are equal (`abs_sub_eq_zero`): rounding a difference and packing the result treat a
number and its negation alike.
-/

namespace Spreadsheet.Number

open Float.Model Float.Model.UnpackedFloat

/-- How two numbers compare, unless one of them is a NaN. -/
def order? (x y : Float) : Option Ordering :=
  x.toModel.unpack.compare y.toModel.unpack

/-! ### Comparing -/

private theorem swap_compare_parts (m n : Nat) (e f : Int) :
    ((compare e f).then (compare m n)).swap = (compare f e).then (compare n m) := by
  rw [Ordering.swap_then, ← Std.OrientedCmp.eq_swap, ← Std.OrientedCmp.eq_swap]

private theorem compare_swap (u v : UnpackedFloat) : v.compare u = (u.compare v).map Ordering.swap := by
  cases u with
  | notANumber => cases v <;> rfl
  | infinity s =>
    cases v with
    | infinity t => cases s <;> cases t <;> rfl
    | _ => cases s <;> rfl
  | zero s =>
    cases v with
    | notANumber | zero => rfl
    | infinity t | finite t => cases t <;> rfl
  | finite s m e hm =>
    cases v with
    | notANumber | zero => cases s <;> rfl
    | infinity t => cases s <;> cases t <;> rfl
    | finite t n f hn =>
      have hparts := swap_compare_parts m n e f
      cases s <;> cases t
      · exact congrArg (some ·.swap) hparts.symm
      · rfl
      · rfl
      · exact congrArg some hparts.symm

theorem order?_swap (x y : Float) : order? y x = (order? x y).map Ordering.swap :=
  compare_swap _ _

theorem isSome_compare {u v : UnpackedFloat} (hu : u ≠ .notANumber) (hv : v ≠ .notANumber) : (u.compare v).isSome := by
  cases u with
  | notANumber => exact absurd rfl hu
  | infinity s | zero s | finite s =>
    cases v with
    | notANumber => exact absurd rfl hv
    | infinity t | zero t | finite t => cases s <;> cases t <;> rfl

theorem unpack_ne_notANumber {x : Float} (h : x.isFinite) : x.toModel.unpack ≠ .notANumber := by
  intro hx
  have hfinite : x.toModel.unpack.isFinite := h
  rw [hx] at hfinite
  cases hfinite

theorem exists_order? {x y : Float} (hx : x.isFinite) (hy : y.isFinite) : ∃ o, order? x y = some o :=
  Option.isSome_iff_exists.1 (isSome_compare (unpack_ne_notANumber hx) (unpack_ne_notANumber hy))

theorem lt_iff {x y : Float} : x < y ↔ order? x y = some .lt := by
  show decide _ = true ↔ _
  rw [decide_eq_true_iff]
  show (x.toModel.unpack.compare y.toModel.unpack == some .lt) = true ↔ _
  exact beq_iff_eq

private theorem le_iff {x y : Float} : x ≤ y ↔ ∃ o, order? x y = some o ∧ o.isLE := by
  show decide _ = true ↔ _
  rw [decide_eq_true_iff]
  show Option.any _ _ = true ↔ _
  rw [Option.any_eq_true]
  rfl

theorem beq_iff {x y : Float} : (x == y) = true ↔ order? x y = some .eq := by
  show (x.toModel.unpack.compare y.toModel.unpack == some .eq) = true ↔ _
  exact beq_iff_eq

theorem lt_iff_of_order? {x y : Float} {o : Ordering} (h : order? x y = some o) : x < y ↔ o = .lt := by
  rw [lt_iff, h, Option.some.injEq]

theorem gt_iff_of_order? {x y : Float} {o : Ordering} (h : order? x y = some o) : x > y ↔ o = .gt := by
  show y < x ↔ _
  rw [lt_iff, order?_swap, h, Option.map_some, Option.some.injEq, Ordering.swap_eq_lt]

theorem le_iff_of_order? {x y : Float} {o : Ordering} (h : order? x y = some o) : x ≤ y ↔ o ≠ .gt := by
  rw [le_iff, h]
  cases o <;> simp

theorem ge_iff_of_order? {x y : Float} {o : Ordering} (h : order? x y = some o) : x ≥ y ↔ o ≠ .lt := by
  show y ≤ x ↔ _
  rw [le_iff, order?_swap, h]
  cases o <;> simp

/-! ### Packing and the sign -/

/-- The size of a packed number does not depend on its sign. -/
theorem abs_unpack_congr {b c : BitVec Format.binary64.numBits} (he : unpackExponent b = unpackExponent c)
    (hm : unpackMantissa b = unpackMantissa c) :
    (UnpackedFloat.unpack .binary64 b).abs = (UnpackedFloat.unpack .binary64 c).abs := by
  have hfinite : ∀ {s t : Sign} {m n : Nat} {e f : Int} {hm : 0 < m} {hn : 0 < n}, m = n → e = f →
      (UnpackedFloat.finite s m e hm).abs = (UnpackedFloat.finite t n f hn).abs := by
    rintro s t m _ e _ hm hn rfl rfl
    rfl
  unfold UnpackedFloat.unpack
  dsimp only
  by_cases hlast : unpackExponent c = -1#11
  · rw [if_pos (he.trans hlast), if_pos hlast]
    by_cases hzero : unpackMantissa c = 0#52
    · rw [if_pos (hm.trans hzero), if_pos hzero]
      rfl
    · rw [if_neg (hm ▸ hzero), if_neg hzero]
  · rw [if_neg (he ▸ hlast), if_neg hlast]
    by_cases hfirst : unpackExponent c = 0#11
    · rw [if_pos (he.trans hfirst), if_pos hfirst]
      by_cases hzero : unpackMantissa c = 0#52
      · rw [dif_pos (hm.trans hzero), dif_pos hzero]
        rfl
      · rw [dif_neg (hm ▸ hzero), dif_neg hzero]
        exact hfinite (by rw [hm]) (by rw [he])
    · rw [if_neg (he ▸ hfirst), if_neg hfirst]
      exact hfinite (by rw [hm]) (by rw [he])

/-- The parts of a packed number other than its sign depend on its size only, and are not those of a NaN. -/
theorem exists_packComponents {u : UnpackedFloat} (hu : u ≠ .notANumber) :
    ∃ (s : Sign) (e : BitVec 11) (m : BitVec 52), (e = -1#11 → m = 0#52) ∧
      UnpackedFloat.pack .binary64 u = packComponents .binary64 s e m ∧
      UnpackedFloat.pack .binary64 u.abs = packComponents .binary64 .positive e m := by
  cases u with
  | notANumber => exact absurd rfl hu
  | infinity s => exact ⟨s, _, _, fun _ => rfl, rfl, rfl⟩
  | zero s => exact ⟨s, 0, 0, fun _ => rfl, rfl, rfl⟩
  | finite s m e hm =>
    rw [UnpackedFloat.abs.eq_def (.finite s m e hm)]
    unfold UnpackedFloat.pack
    dsimp only
    rw [exponentBias_binary64, mantissaBits_binary64]
    split
    · exact ⟨s, _, _, fun _ => rfl, rfl, rfl⟩
    · rename_i hsmall
      split
      · refine ⟨s, _, _, fun hlast => ?_, rfl, rfl⟩
        have hnat := congrArg BitVec.toNat hlast
        rw [BitVec.toNat_ofNat, show (-1#11).toNat = 2047 from rfl] at hnat
        have hsmall : ¬ 2 ^ 11 ≤ (e + 1023 + 52).toNat + 1 := hsmall
        omega
      · exact ⟨s, 0#11, BitVec.ofNat 52 m, fun hlast => absurd hlast (by decide), rfl, rfl⟩

private theorem abs_unpack_pack (u : UnpackedFloat) :
    (Float.Model.pack u).unpack.abs = (Float.Model.pack u.abs).unpack.abs := by
  show (UnpackedFloat.unpack .binary64 (UnpackedFloat.pack .binary64 u)).abs =
    (UnpackedFloat.unpack .binary64 (UnpackedFloat.pack .binary64 u.abs)).abs
  by_cases hu : u = .notANumber
  · rw [hu]
    rfl
  · obtain ⟨s, e, m, -, h, habs⟩ := exists_packComponents hu
    rw [h, habs]
    refine abs_unpack_congr ?_ ?_
    · rw [unpackExponent_packComponents, unpackExponent_packComponents]
    · rw [unpackMantissa_packComponents, unpackMantissa_packComponents]

/-- Only the last exponent with a mantissa other than zero stands for a NaN. -/
theorem unpack_ne_notANumber_of_parts {b : BitVec Format.binary64.numBits}
    (h : unpackExponent b = -1#11 → unpackMantissa b = 0#52) :
    UnpackedFloat.unpack .binary64 b ≠ .notANumber := by
  unfold UnpackedFloat.unpack
  dsimp only
  by_cases hlast : unpackExponent b = -1#11
  · rw [if_pos hlast, if_pos (h hlast)]
    exact nofun
  · rw [if_neg hlast]
    by_cases hfirst : unpackExponent b = 0#11
    · rw [if_pos hfirst]
      by_cases hzero : unpackMantissa b = 0#52
      · rw [dif_pos hzero]
        exact nofun
      · rw [dif_neg hzero]
        exact nofun
    · rw [if_neg hfirst]
      exact nofun

/-- A number may become infinite when it is packed, but not a NaN. -/
theorem unpack_pack_ne_notANumber {u : UnpackedFloat} (hu : u ≠ .notANumber) :
    (Float.Model.pack u).unpack ≠ .notANumber := by
  obtain ⟨s, e, m, hlast, h, -⟩ := exists_packComponents hu
  show UnpackedFloat.unpack .binary64 (UnpackedFloat.pack .binary64 u) ≠ .notANumber
  refine unpack_ne_notANumber_of_parts ?_
  rw [h, unpackExponent_packComponents, unpackMantissa_packComponents]
  exact hlast

/-! ### Distances -/

/-- Rounding finds a mantissa and an exponent whatever the sign is. -/
theorem exists_round (m : Nat) (e : Int) :
    ∃ (n : Nat) (f : Int), ∀ s, UnpackedFloat.round .binary64 s m e =
      if h : n = 0 then .zero s else .finite s n f (Nat.pos_of_ne_zero h) :=
  ⟨_, _, fun _ => rfl⟩

private theorem abs_round (s : Sign) (m : Nat) (e : Int) :
    (UnpackedFloat.round .binary64 s m e).abs = (UnpackedFloat.round .binary64 .positive m e).abs := by
  obtain ⟨n, f, h⟩ := exists_round m e
  rw [h, h]
  by_cases hn : n = 0
  · rw [dif_pos hn, dif_pos hn]
    rfl
  · rw [dif_neg hn, dif_neg hn]
    rfl

private theorem round_ne_notANumber (s : Sign) (m : Nat) (e : Int) :
    UnpackedFloat.round .binary64 s m e ≠ .notANumber := by
  obtain ⟨n, f, h⟩ := exists_round m e
  rw [h]
  by_cases hn : n = 0
  · rw [dif_pos hn]
    exact nofun
  · rw [dif_neg hn]
    exact nofun

private theorem abs_normalize_neg (m e : Int) (s : Sign) :
    (UnpackedFloat.normalize .binary64 (-m) e s).abs = (UnpackedFloat.normalize .binary64 m e s).abs := by
  unfold UnpackedFloat.normalize
  rcases Int.lt_trichotomy m 0 with h | rfl | h
  · rw [Int.compare_eq_lt.2 h, Int.compare_eq_gt.2 (by omega)]
    exact (abs_round _ _ _).symm
  · rfl
  · rw [Int.compare_eq_gt.2 h, Int.compare_eq_lt.2 (by omega)]
    dsimp only
    rw [abs_round, Int.neg_neg]

private theorem abs_sub (u v : UnpackedFloat) :
    (UnpackedFloat.sub .binary64 u v).abs = (UnpackedFloat.sub .binary64 v u).abs := by
  cases u with
  | notANumber => cases v <;> rfl
  | infinity s =>
    cases v with
    | infinity t => cases s <;> cases t <;> rfl
    | _ => rfl
  | zero s =>
    cases v with
    | notANumber | infinity | finite => rfl
    | zero t => cases s <;> cases t <;> rfl
  | finite s m e hm =>
    cases v with
    | notANumber | infinity | zero => rfl
    | finite t n f hn =>
      unfold UnpackedFloat.sub
      dsimp only
      rw [Int.min_comm f e, ← Int.neg_sub, abs_normalize_neg]

private theorem sub_ne_notANumber {u v : UnpackedFloat} (hu : u.isFinite) (hv : v.isFinite) :
    UnpackedFloat.sub .binary64 u v ≠ .notANumber := by
  cases u with
  | notANumber | infinity => cases hu
  | zero s =>
    cases v with
    | notANumber | infinity => cases hv
    | zero t => cases s <;> cases t <;> exact nofun
    | finite t => exact nofun
  | finite s m e hm =>
    cases v with
    | notANumber | infinity => cases hv
    | zero t => exact nofun
    | finite t n f hn =>
      unfold UnpackedFloat.sub UnpackedFloat.normalize
      dsimp only
      split
      · exact round_ne_notANumber _ _ _
      · simp
      · exact round_ne_notANumber _ _ _

private theorem abs_sub_of_compare_eq {u v : UnpackedFloat} (hu : u.isFinite) (h : u.compare v = some .eq) :
    (UnpackedFloat.sub .binary64 u v).abs = .zero .positive := by
  have hsame : ∀ {m n : Nat} {e f : Int}, (compare e f).then (compare m n) = .eq → e = f ∧ m = n := by
    intro m n e f h
    rwa [Ordering.then_eq_eq, Int.compare_eq_eq, Nat.compare_eq_eq] at h
  cases u with
  | notANumber | infinity => cases hu
  | zero s =>
    cases v with
    | zero t => cases s <;> cases t <;> rfl
    | notANumber => cases h
    | infinity t | finite t => cases t <;> cases h
  | finite s m e hm =>
    cases v with
    | notANumber | zero => cases s <;> cases h
    | infinity t => cases s <;> cases t <;> cases h
    | finite t n f hn =>
      obtain ⟨rfl, rfl, rfl⟩ : s = t ∧ e = f ∧ m = n := by
        cases s <;> cases t
        · exact ⟨rfl, hsame (Ordering.swap_eq_eq.1 (Option.some.inj h))⟩
        · cases h
        · cases h
        · exact ⟨rfl, hsame (Option.some.inj h)⟩
      unfold UnpackedFloat.sub
      dsimp only
      rw [Int.sub_self]
      rfl

private theorem abs_ofModel_pack (u : UnpackedFloat) :
    (Float.ofModel (.pack u)).abs = (Float.ofModel (.pack u.abs)).abs :=
  congrArg (fun v => Float.ofModel (.pack v)) (abs_unpack_pack u)

private theorem abs_sub_eq (x y : Float) :
    (x - y).abs = (Float.ofModel (.pack (UnpackedFloat.sub .binary64 x.toModel.unpack y.toModel.unpack).abs)).abs :=
  abs_ofModel_pack _

theorem abs_sub_comm (x y : Float) : (x - y).abs = (y - x).abs := by
  rw [abs_sub_eq, abs_sub, ← abs_sub_eq]

theorem abs_sub_eq_zero {x y : Float} (hx : x.isFinite) (h : order? x y = some .eq) : (x - y).abs = 0 := by
  rw [abs_sub_eq, abs_sub_of_compare_eq hx h]
  rfl

/-- The distance of two finite numbers may be infinite, but it compares with all numbers. -/
theorem exists_order?_abs_sub {x y z : Float} (hx : x.isFinite) (hy : y.isFinite) (hz : z.isFinite) :
    ∃ o, order? (x - y).abs z = some o := by
  have habs : ∀ {u : UnpackedFloat}, u ≠ .notANumber → u.abs ≠ .notANumber := by
    intro u hu
    cases u with
    | notANumber => exact absurd rfl hu
    | _ => exact nofun
  refine Option.isSome_iff_exists.1 (isSome_compare ?_ (unpack_ne_notANumber hz))
  exact unpack_pack_ne_notANumber (habs (unpack_pack_ne_notANumber (sub_ne_notANumber hx hy)))

end Spreadsheet.Number
