import Mathlib.Data.List.Forall2
import Spreadsheet.Proofs.Text.Ascii
import Spreadsheet.Text.Case

/-!
# Folding and uppercase

On ASCII the two ways to ignore case agree (`fold_toUpper`, `toUpper_eq_toUpper_iff`).  Beyond ASCII a character and its
uppercase form may be told apart by folding, and the form may be longer; `keepsFold` singles out the characters for which
neither happens, and a text is its uppercase form up to case if it has no others (`sameFold_upper_iff`).  Signs other than
letters come from themselves only (`eq_of_mem_upperChar`).
-/

namespace Spreadsheet.Text

variable {c d : Char}

/-! ### ASCII -/

/-- All characters are ASCII. -/
def IsAscii (s : List Char) : Prop :=
  ∀ c ∈ s, c.toNat < 128

instance (s : List Char) : Decidable (IsAscii s) :=
  List.decidableBAll _ s

/-- A property of all ASCII characters, from its instances. -/
theorem forall_ascii {P : Char → Prop} (h : ∀ n < 128, P (Char.ofNat n)) (hc : c.toNat < 128) : P c := by
  have hn := h c.toNat hc
  rwa [Char.ofNat_toNat] at hn

private theorem upperChar_of_ascii (hc : c.toNat < 128) : upperChar c = [c.toUpper] :=
  if_pos hc

theorem fold_of_ascii (hc : c.toNat < 128) : fold c = c.toLower :=
  if_pos hc

theorem upper_of_isAscii {s : List Char} (hs : IsAscii s) : upper s = s.map Char.toUpper := by
  rw [upper, List.flatMap_congr fun c hc => upperChar_of_ascii (hs c hc)]
  exact (List.map_eq_flatMap ..).symm

private theorem toNat_toUpper_lt (hc : c.toNat < 128) : c.toUpper.toNat < 128 :=
  forall_ascii (P := fun c => c.toUpper.toNat < 128) (by decide) hc

private theorem toLower_toUpper (hc : c.toNat < 128) : c.toUpper.toLower = c.toLower :=
  forall_ascii (P := fun c => c.toUpper.toLower = c.toLower) (by decide) hc

private theorem toUpper_toLower (hc : c.toNat < 128) : c.toLower.toUpper = c.toUpper :=
  forall_ascii (P := fun c => c.toLower.toUpper = c.toUpper) (by decide) hc

/-- Uppercase neither makes nor unmakes a sign that is no letter. -/
theorem toUpper_eq_iff (hc : c.toNat < 128) (hd : d.isAlpha = false) : c.toUpper = d ↔ c = d := by
  have hsame : c.isAlpha = false ∨ c.toUpper.isAlpha = false → c.toUpper = c :=
    forall_ascii (P := fun c => c.isAlpha = false ∨ c.toUpper.isAlpha = false → c.toUpper = c) (by decide) hc
  constructor
  · rintro rfl
    exact (hsame (.inr hd)).symm
  · rintro rfl
    exact hsame (.inl hd)

theorem fold_toUpper (hc : c.toNat < 128) : fold c.toUpper = fold c := by
  rw [fold_of_ascii (toNat_toUpper_lt hc), fold_of_ascii hc, toLower_toUpper hc]

theorem toUpper_eq_toUpper_iff (hc : c.toNat < 128) (hd : d.toNat < 128) :
    c.toUpper = d.toUpper ↔ fold c = fold d := by
  rw [fold_of_ascii hc, fold_of_ascii hd]
  constructor <;> intro h
  · rw [← toLower_toUpper hc, h, toLower_toUpper hd]
  · rw [← toUpper_toLower hc, h, toUpper_toLower hd]

/-! ### Uppercase forms -/

theorem toNat_ofNat {n : Nat} (h : n.isValidChar) : (Char.ofNat n).toNat = n := by
  unfold Char.ofNat
  rw [dif_pos h]
  rfl

private theorem upperChar_of_not_ascii (hc : ¬ c.toNat < 128) :
    (∃ form, (c.toNat, form) ∈ upperExpansions.toList ∧ upperChar c = form.map Char.ofNat) ∨
      upperChar c = [CaseRun.apply upperRuns c] := by
  rw [upperChar, if_neg hc]
  cases hfind : upperExpansions.find? (·.1 == c.toNat) with
  | none => exact .inr rfl
  | some e =>
    obtain ⟨n, form⟩ := e
    obtain rfl : n = c.toNat := by simpa using Array.find?_some hfind
    exact .inl ⟨form, Array.mem_toList_iff.2 (Array.mem_of_find?_eq_some hfind), rfl⟩

private theorem upperChar_ne_nil (c : Char) : upperChar c ≠ [] := by
  have hforms : ∀ e ∈ upperExpansions.toList, e.2 ≠ [] := by decide +kernel
  by_cases hc : c.toNat < 128
  · rw [upperChar_of_ascii hc]
    exact List.cons_ne_nil _ _
  · obtain ⟨form, hmem, hform⟩ | hrun := upperChar_of_not_ascii hc
    · rw [hform]
      exact mt List.map_eq_nil_iff.1 (hforms _ hmem)
    · rw [hrun]
      exact List.cons_ne_nil _ _

theorem length_le_length_upper (s : List Char) : s.length ≤ (upper s).length := by
  induction s with
  | nil => exact Nat.le_refl 0
  | cons c s ih =>
    have hc := List.length_pos_iff.2 (upperChar_ne_nil c)
    show s.length + 1 ≤ (upperChar c ++ upper s).length
    rw [List.length_append]
    omega

/-- A single uppercase form of a character beyond ASCII is no ASCII character either, unless it is a capital letter. -/
theorem apply_upperRuns_cases (hc : ¬ c.toNat < 128) :
    128 ≤ (CaseRun.apply upperRuns c).toNat ∨ (CaseRun.apply upperRuns c).isUpper = true := by
  -- A run that leads to ASCII has one member; the others stay between the surrogates and the last code point.
  have hruns : ∀ r ∈ upperRuns.toList,
      r.first = r.last ∧ 65 ≤ r.first + r.shift ∧ r.first + r.shift ≤ 90 ∨
      128 ≤ r.first + r.shift ∧ (r.last + r.shift < 0xD800 ∨ 0xDFFF < r.first + r.shift ∧ r.last + r.shift < 0x110000) := by
    decide +kernel
  unfold CaseRun.apply
  cases hfind : upperRuns.find? (·.covers c.toNat) with
  | none => exact .inl (Nat.le_of_not_lt hc)
  | some r =>
    have hmem : r ∈ upperRuns.toList := Array.mem_toList_iff.2 (Array.mem_of_find?_eq_some hfind)
    have hcovers := Array.find?_some hfind
    simp only [CaseRun.covers, Bool.and_eq_true, decide_eq_true_eq] at hcovers
    have hvalid : (c.toNat + r.shift).toNat.isValidChar := by
      have := hruns r hmem
      unfold Nat.isValidChar
      omega
    dsimp only
    rw [isUpper_iff, toNat_ofNat hvalid]
    have := hruns r hmem
    omega

/-- Uppercase forms bring in letters only. -/
theorem eq_of_mem_upperChar (h : d ∈ upperChar c) (hascii : d.toNat < 128) (hletter : d.isAlpha = false) : d = c := by
  have hupper : d.isUpper = false := by
    cases hd : d.isUpper with
    | false => rfl
    | true => exact absurd (isAlpha_iff.2 (.inl hd)) (by simp [hletter])
  by_cases hc : c.toNat < 128
  · rw [upperChar_of_ascii hc, List.mem_singleton] at h
    have hsame : c.toUpper = c ∨ c.toUpper.isUpper = true :=
      forall_ascii (P := fun c => c.toUpper = c ∨ c.toUpper.isUpper = true) (by decide) hc
    rcases hsame with hsame | hsame
    · rw [h, hsame]
    · rw [← h, hupper] at hsame
      cases hsame
  · have hforms : ∀ e ∈ upperExpansions.toList, ∀ n ∈ e.2,
        128 ≤ (Char.ofNat n).toNat ∨ (Char.ofNat n).isUpper = true := by
      decide +kernel
    have hbeyond : 128 ≤ d.toNat ∨ d.isUpper = true := by
      obtain ⟨form, hmem, hform⟩ | hrun := upperChar_of_not_ascii hc
      · rw [hform] at h
        obtain ⟨n, hn, rfl⟩ := List.mem_map.1 h
        exact hforms _ hmem n hn
      · rw [hrun, List.mem_singleton] at h
        exact h ▸ apply_upperRuns_cases hc
    rcases hbeyond with hbeyond | hbeyond
    · omega
    · rw [hupper] at hbeyond
      cases hbeyond

/-! ### Agreement -/

/-- The texts have the same characters up to case. -/
abbrev SameFold : List Char → List Char → Prop :=
  List.Forall₂ fun c d => fold c = fold d

theorem sameFold_cons {s t : List Char} : SameFold (c :: s) (d :: t) ↔ fold c = fold d ∧ SameFold s t :=
  List.forall₂_cons

/-- The uppercase form is a single character, and folding does not tell the two apart. -/
def keepsFold (c : Char) : Bool :=
  match upperChar c with
  | [d] => fold d == fold c
  | _ => false

private theorem keepsFold_iff : keepsFold c = true ↔ ∃ d, upperChar c = [d] ∧ fold d = fold c := by
  unfold keepsFold
  split
  · rename_i d h
    simp [h]
  · rename_i h
    simp only [Bool.false_eq_true, false_iff, not_exists, not_and]
    exact fun d hd => absurd hd (h d)

/-- No character can make up for one whose uppercase form is too long. -/
theorem sameFold_upper_iff (s : List Char) : SameFold (upper s) s ↔ ∀ c ∈ s, keepsFold c = true := by
  induction s with
  | nil => exact ⟨fun _ => nofun, fun _ => .nil⟩
  | cons c s ih =>
    rw [List.forall_mem_cons, ← ih, keepsFold_iff]
    show SameFold (upperChar c ++ upper s) (c :: s) ↔ _
    constructor
    · obtain ⟨d, ds, hc⟩ := List.exists_cons_of_ne_nil (upperChar_ne_nil c)
      rw [hc, List.cons_append]
      rintro (_ | ⟨hd, hrest⟩)
      have hlength := hrest.length_eq
      have hs := length_le_length_upper s
      rw [List.length_append] at hlength
      obtain rfl : ds = [] := List.eq_nil_of_length_eq_zero (by omega)
      exact ⟨⟨d, rfl, hd⟩, hrest⟩
    · rintro ⟨⟨d, hc, hd⟩, hrest⟩
      rw [hc]
      exact .cons hd hrest

end Spreadsheet.Text
