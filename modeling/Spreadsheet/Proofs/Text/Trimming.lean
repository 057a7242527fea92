import Mathlib.Data.List.TakeWhile
import Spreadsheet.Proofs.Text.Ascii
import Spreadsheet.Text.Blank

/-!
# Texts without blanks around them

Trimming takes off exactly the blanks at both ends: what is left has none there (`exists_trim`), and a text without
blanks at its ends comes out of any blanks around it (`trim_append`).
-/

namespace Spreadsheet.Text

/-- Neither the first nor the last character is blank. -/
def Trimmed (s : List Char) : Prop :=
  (∀ c ∈ s.head?, isBlank c = false) ∧ ∀ c ∈ s.getLast?, isBlank c = false

theorem not_isBlank_of_isAlphanum {c : Char} (h : c.isAlphanum = true) : isBlank c = false := by
  have hcases : (65 ≤ c.toNat ∧ c.toNat ≤ 90 ∨ 97 ≤ c.toNat ∧ c.toNat ≤ 122) ∨ 48 ≤ c.toNat ∧ c.toNat ≤ 57 := by
    rw [isAlphanum_iff, isAlpha_iff, isUpper_iff, isLower_iff, Char.isDigit_iff_toNat] at h
    exact h
  have hblank : ¬ isBlank c = true := by
    simp only [isBlank, Bool.or_eq_true, Bool.and_eq_true, decide_eq_true_eq, beq_iff_eq]
    omega
  simpa using hblank

theorem trimmed_of_forall {s : List Char} (h : ∀ c ∈ s, isBlank c = false) : Trimmed s :=
  ⟨fun c hc => h c (List.mem_of_mem_head? hc), fun c hc => h c (List.mem_of_getLast? hc)⟩

/-- Of two texts one after the other, the first one has to begin and the second one to end without a blank. -/
theorem Trimmed.append {s t : List Char} (hs : Trimmed s) (ht : Trimmed t) (hne : s ≠ []) (hne' : t ≠ []) :
    Trimmed (s ++ t) := by
  constructor
  · intro c hc
    refine hs.1 c ?_
    rw [List.head?_append, List.head?_eq_some_head hne, Option.some_or] at hc
    rwa [List.head?_eq_some_head hne]
  · intro c hc
    refine ht.2 c ?_
    rw [List.getLast?_append, List.getLast?_eq_some_getLast hne', Option.some_or] at hc
    rwa [List.getLast?_eq_some_getLast hne']

private theorem dropWhile_eq_self {s : List Char} (h : ∀ c ∈ s.head?, isBlank c = false) : s.dropWhile isBlank = s := by
  cases s with
  | nil => rfl
  | cons c s =>
    have hc : ¬ isBlank c = true := by simp [h c (by simp)]
    rw [List.dropWhile_cons_of_neg hc]

/-- A trimmed text is what is left of it after trimming, whatever blanks were around it. -/
theorem trim_append {before s after : List Char} (hb : ∀ c ∈ before, isBlank c = true)
    (ha : ∀ c ∈ after, isBlank c = true) (hs : Trimmed s) : trim (before ++ s ++ after) = s := by
  obtain ⟨hfirst, hlast⟩ := hs
  have hafter : after.dropWhile isBlank = [] := List.dropWhile_eq_nil_iff.2 ha
  unfold trim trimLeft
  rw [List.append_assoc, List.dropWhile_append_of_pos hb]
  cases s with
  | nil => simp [hafter]
  | cons c s =>
    have hc : ¬ isBlank c = true := by simp [hfirst c (by simp)]
    have hrev : (c :: s).reverse.dropWhile isBlank = (c :: s).reverse :=
      dropWhile_eq_self (by rw [List.head?_reverse]; exact hlast)
    rw [List.cons_append, List.dropWhile_cons_of_neg hc, ← List.cons_append, List.reverse_append,
      List.dropWhile_append_of_pos (by simpa using ha), hrev, List.reverse_reverse]

theorem trim_eq_self {s : List Char} (hs : Trimmed s) : trim s = s := by
  have h : trim ([] ++ s ++ []) = s := trim_append (by simp) (by simp) hs
  simpa using h

/-- A text is what is left after trimming, with blanks around it. -/
theorem exists_trim (s : List Char) :
    ∃ before after, s = before ++ trim s ++ after ∧ (∀ c ∈ before, isBlank c = true) ∧
      (∀ c ∈ after, isBlank c = true) ∧ Trimmed (trim s) := by
  have hhead : ∀ l : List Char, ∀ c ∈ (l.dropWhile isBlank).head?, isBlank c = false := by
    intro l c hc
    have h := List.head?_dropWhile_not isBlank l
    rw [Option.mem_def.1 hc] at h
    exact h
  refine ⟨s.takeWhile isBlank, ((trimLeft s).reverse.takeWhile isBlank).reverse, ?_, ?_, ?_, ?_, ?_⟩
  · unfold trim
    rw [List.append_assoc, ← List.reverse_append, List.takeWhile_append_dropWhile, List.reverse_reverse, trimLeft,
      List.takeWhile_append_dropWhile]
  · exact fun c hc => List.mem_takeWhile_imp hc
  · exact fun c hc => List.mem_takeWhile_imp (List.mem_reverse.1 hc)
  · -- What trimming at the end leaves begins as the text did before, unless nothing is left.
    intro c hc
    have hprefix : trim s <+: trimLeft s := by
      unfold trim
      rw [← List.reverse_suffix, List.reverse_reverse]
      exact List.dropWhile_suffix _
    obtain ⟨t, ht⟩ := hprefix
    refine hhead s c ?_
    show c ∈ (trimLeft s).head?
    rw [← ht]
    cases htrim : trim s with
    | nil => simp [htrim] at hc
    | cons d u => simpa [htrim] using hc
  · intro c hc
    refine hhead (trimLeft s).reverse c ?_
    unfold trim at hc
    rwa [List.getLast?_reverse] at hc

theorem mem_of_mem_trim {s : List Char} {c : Char} (h : c ∈ trim s) : c ∈ s := by
  obtain ⟨before, after, hs, -⟩ := exists_trim s
  rw [hs]
  exact List.mem_append_left _ (List.mem_append_right _ h)

end Spreadsheet.Text
