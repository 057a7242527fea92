import Spreadsheet.Number.Text
import Spreadsheet.Proofs.Text.Ascii

/-!
# The characters of a number

A number is written with digits, a point and a sign only, unless it is infinite or a NaN (`mem_chars`).
-/

namespace Spreadsheet.Number

variable {c : Char}

private theorem isDigit_of_mem_fractionDigits {places n : Nat} (h : c ∈ fractionDigits places n) :
    c.isDigit = true := by
  rcases List.mem_append.1 h with h | h
  · rw [List.eq_of_mem_replicate h]
    rfl
  · exact Text.isDigit_of_mem_toDigits h

private theorem mem_of_mem_dropTrailingZeros {s : List Char} (h : c ∈ dropTrailingZeros s) : c ∈ s := by
  rw [dropTrailingZeros, List.mem_reverse] at h
  exact List.mem_reverse.1 ((List.dropWhile_sublist _).subset h)

private theorem Decimal.mem_positional {d : Decimal} (h : c ∈ d.positional) : c.isDigit = true ∨ c = '.' := by
  unfold Decimal.positional at h
  split at h
  · exact .inl (Text.isDigit_of_mem_toDigits h)
  · dsimp only at h
    split at h
    · exact .inl (Text.isDigit_of_mem_toDigits h)
    · rcases List.mem_append.1 h with h | h
      · exact .inl (Text.isDigit_of_mem_toDigits h)
      · rcases List.mem_cons.1 h with rfl | h
        · exact .inr rfl
        · exact .inl (isDigit_of_mem_fractionDigits (mem_of_mem_dropTrailingZeros h))

/-- Letters stand only in the names of the numbers that are not finite. -/
theorem mem_chars {x : Float} (h : c ∈ chars x) : c.isDigit = true ∨ c ∈ ['.', '-', 'N', 'a', 'i', 'n', 'f'] := by
  have hnan : "NaN".toList ⊆ ['.', '-', 'N', 'a', 'i', 'n', 'f'] := by decide
  have hinf : "inf".toList ⊆ ['.', '-', 'N', 'a', 'i', 'n', 'f'] := by decide
  have hsign : ∀ {s : List Char}, c ∈ (if isNegative x then ['-'] else []) ++ s → c = '-' ∨ c ∈ s := by
    intro s h
    rcases List.mem_append.1 h with h | h
    · split at h
      · exact .inl (List.mem_singleton.1 h)
      · cases h
    · exact .inr h
  unfold chars at h
  dsimp only at h
  split at h
  · exact .inr (hnan h)
  · split at h
    · rcases hsign h with rfl | h
      · exact .inr (by decide)
      · exact .inr (hinf h)
    · split at h
      · obtain rfl := List.mem_singleton.1 h
        exact .inl rfl
      · rcases hsign h with rfl | h
        · exact .inr (by decide)
        · exact .inl (Text.isDigit_of_mem_toDigits h)
      · rcases hsign h with rfl | h
        · exact .inr (by decide)
        · rcases Decimal.mem_positional h with h | rfl
          · exact .inl h
          · exact .inr (by decide)

end Spreadsheet.Number
