import Spreadsheet.Text.Case

/-!
# Names that differ in more than the case of letters

In a list of names of which no two are equal up to the case of ASCII letters, each name stands at one position only, and
a search for any of its case variants finds this position (`Distinct.findIdx?_eq_some_iff`).
-/

namespace Spreadsheet.Text

theorem sameAscii_refl (a : String) : sameAscii a a = true :=
  sameAscii_iff.2 rfl

private theorem sameAscii_comm (a b : String) : sameAscii a b = sameAscii b a := by
  rw [Bool.eq_iff_iff, sameAscii_iff, sameAscii_iff, eq_comm]

private theorem sameAscii_congr {a b : String} (h : sameAscii a b = true) (c : String) :
    sameAscii a c = sameAscii b c := by
  rw [Bool.eq_iff_iff, sameAscii_iff, sameAscii_iff, sameAscii_iff.1 h]

/-- No two of the names are equal up to the case of ASCII letters. -/
def Distinct (names : List String) : Prop :=
  names.Pairwise fun a b => sameAscii a b = false

variable {names : List String}

theorem distinct_nil : Distinct [] :=
  .nil

/-- Equal names stand at one position. -/
theorem distinct_iff : Distinct names ↔
    ∀ (i j : Nat) (a b : String), names[i]? = some a → names[j]? = some b → sameAscii a b = true → i = j := by
  unfold Distinct
  rw [List.pairwise_iff_getElem]
  constructor
  · intro h i j a b ha hb hab
    obtain ⟨hi, rfl⟩ := List.getElem?_eq_some_iff.1 ha
    obtain ⟨hj, rfl⟩ := List.getElem?_eq_some_iff.1 hb
    rcases Nat.lt_trichotomy i j with hlt | heq | hgt
    · simp [h i j hi hj hlt] at hab
    · exact heq
    · rw [sameAscii_comm] at hab
      simp [h j i hj hi hgt] at hab
  · intro h i j hi hj hlt
    rw [← Bool.not_eq_true]
    intro hab
    have := h i j _ _ (List.getElem?_eq_getElem hi) (List.getElem?_eq_getElem hj) hab
    omega

/-- One more name at the end. -/
theorem Distinct.concat (h : Distinct names) {a : String} (ha : ∀ b ∈ names, sameAscii b a = false) :
    Distinct (names ++ [a]) := by
  unfold Distinct
  rw [List.pairwise_append]
  refine ⟨h, List.pairwise_singleton _ a, ?_⟩
  intro b hb c hc
  rw [List.mem_singleton.1 hc]
  exact ha b hb

private theorem getElem?_set_eq_some {i j : Nat} {a b : String} (h : (names.set i a)[j]? = some b) :
    j = i ∧ b = a ∨ j ≠ i ∧ names[j]? = some b := by
  rw [List.getElem?_set] at h
  by_cases hj : i = j
  · rw [if_pos hj] at h
    split at h
    · exact .inl ⟨hj.symm, (Option.some.inj h).symm⟩
    · cases h
  · rw [if_neg hj] at h
    exact .inr ⟨Ne.symm hj, h⟩

/-- Another name in the place of one.  It may be a case variant of the name that it replaces. -/
theorem Distinct.set (h : Distinct names) {i : Nat} {a : String}
    (ha : ∀ j b, names[j]? = some b → j ≠ i → sameAscii b a = false) : Distinct (names.set i a) := by
  rw [distinct_iff] at h ⊢
  intro j k b c hb hc hbc
  rcases getElem?_set_eq_some hb with ⟨hj, rfl⟩ | ⟨hj, hb'⟩
  · rcases getElem?_set_eq_some hc with ⟨hk, -⟩ | ⟨hk, hc'⟩
    · omega
    · rw [sameAscii_comm] at hbc
      simp [ha k c hc' hk] at hbc
  · rcases getElem?_set_eq_some hc with ⟨hk, rfl⟩ | ⟨hk, hc'⟩
    · simp [ha j b hb' hj] at hbc
    · exact h j k b c hb' hc' hbc

/-- A name is found where one of its case variants stands, and only there. -/
theorem Distinct.findIdx?_eq_some_iff (h : Distinct names) {name : String} {i : Nat} :
    names.findIdx? (fun a => sameAscii a name) = some i ↔ ∃ a, names[i]? = some a ∧ sameAscii a name = true := by
  rw [List.findIdx?_eq_some_iff_getElem]
  constructor
  · rintro ⟨hi, hname, -⟩
    exact ⟨names[i], List.getElem?_eq_getElem hi, hname⟩
  · rintro ⟨a, ha, hname⟩
    obtain ⟨hi, rfl⟩ := List.getElem?_eq_some_iff.1 ha
    refine ⟨hi, hname, fun j hji hj => ?_⟩
    -- Both names are variants of the one that is looked for, so that they stand at one position.
    have hsame : sameAscii names[j] names[i] = true := by
      rw [sameAscii_congr hj, sameAscii_comm]
      exact hname
    have := distinct_iff.1 h j i _ _ (List.getElem?_eq_getElem (by omega)) ha hsame
    omega

end Spreadsheet.Text
