import Spreadsheet.Proofs.Criteria.Pieces

/-!
# A star at the end of an operand

An operand without signs is compared in uppercase with the uppercase text, but once a star follows it is matched with the
text itself up to folding.  So a text that the operand matches is matched with the star if and only if it is its own
uppercase form up to case (`Pattern.isMatch_star_iff`).  The `ß`, whose uppercase form is longer, is lost.
-/

namespace Spreadsheet.Criteria

variable {s t : List Char}

/-- No character of the operand has a meaning of its own. -/
def IsPlain (s : List Char) : Prop :=
  ∀ c ∈ s, c ∉ ['*', '?', '~', '%']

instance (s : List Char) : Decidable (IsPlain s) :=
  List.decidableBAll _ s

theorem IsPlain.upper (hs : IsPlain s) : IsPlain (Text.upper s) := by
  intro d hd hsign
  obtain ⟨c, hc, hd⟩ := List.mem_flatMap.1 hd
  have hascii : ∀ e ∈ ['*', '?', '~', '%'], e.toNat < 128 ∧ e.isAlpha = false := by
    simp only [List.mem_cons, List.not_mem_nil, or_false, forall_eq_or_imp, forall_eq]
    decide
  obtain rfl := Text.eq_of_mem_upperChar hd (hascii d hsign).1 (hascii d hsign).2
  exact hs d hc hsign

theorem IsPlain.isSpecial (hs : IsPlain s) : ∀ c ∈ s, isSpecial c = false := by
  intro c hc
  have hsigns := hs c hc
  simp only [List.mem_cons, List.not_mem_nil, or_false, not_or] at hsigns
  simp [Criteria.isSpecial, hsigns]

namespace Pattern

theorem ofChars_of_isPlain (hs : IsPlain s) : ofChars s = ⟨(Text.upper s).map .char⟩ := by
  have hlast : (Text.upper s).getLast? ≠ some '%' :=
    fun h => hs.upper '%' (List.mem_of_getLast? h) (by decide)
  have hread := readPieces_append_of_plain hs.upper.isSpecial []
  rw [List.append_nil] at hread
  rw [ofChars, ofUpper, if_neg hlast, hread]
  simp [readPieces]

private theorem ofChars_star (hs : IsPlain s) : ofChars (s ++ ['*']) = ⟨(Text.upper s).map .char ++ [.anyRun]⟩ := by
  have hupper : Text.upper (s ++ ['*']) = Text.upper s ++ ['*'] := Text.upper_append s ['*']
  have hlast : (Text.upper s ++ ['*']).getLast? ≠ some '%' := by simp
  rw [ofChars, hupper, ofUpper, if_neg hlast, readPieces_append_of_plain hs.upper.isSpecial]
  rfl

private theorem matchesChars_of_isPlain (hs : IsPlain s) :
    (ofChars s).matchesChars t = true ↔ Text.upper s = Text.upper t := by
  rw [ofChars_of_isPlain hs, matchesChars, hasWildcards_of_chars, if_neg Bool.false_ne_true, literal_of_chars, beq_iff_eq]

private theorem matchesChars_star (hs : IsPlain s) : (ofChars (s ++ ['*'])).matchesChars t = true ↔
    ∃ first rest, t = first ++ rest ∧ Text.SameFold (Text.upper s) first := by
  have hwild : (ofChars (s ++ ['*'])).hasWildcards = true := by
    rw [ofChars_star hs, hasWildcards, List.any_append]
    exact Bool.or_true _
  rw [matchesChars, if_pos hwild, headD_matchRests, ofChars_star hs, fits_append_of_chars]
  simp [fits_anyRun]

/-- A text that an operand without signs matches is matched by the operand with a star behind it, and so are all texts that
begin with it, if and only if none of its characters has a longer uppercase form or is told apart from it by folding. -/
theorem isMatch_star_iff {operand text : String} (hplain : IsPlain operand.toList)
    (hmatch : (ofText operand).isMatch text = true) :
    ((ofText (operand ++ "*")).isMatch text = true ∧
      ∀ suffix : String, (ofText (operand ++ "*")).isMatch (text ++ suffix) = true) ↔
    ∀ c ∈ text.toList, Text.keepsFold c = true := by
  have hupper : Text.upper operand.toList = Text.upper text.toList := (matchesChars_of_isPlain hplain).1 hmatch
  have hstar : ∀ t : String, (ofText (operand ++ "*")).isMatch t = true ↔
      ∃ first rest, t.toList = first ++ rest ∧ Text.SameFold (Text.upper text.toList) first := by
    intro t
    rw [← hupper, ← matchesChars_star hplain, ofText, String.toList_append]
    rfl
  rw [← Text.sameFold_upper_iff]
  constructor
  · rintro ⟨h, -⟩
    obtain ⟨first, rest, htext, hfirst⟩ := (hstar text).1 h
    -- The uppercase form is at least as long as the text, so that the star stands for nothing.
    have hlength := Text.length_le_length_upper text.toList
    rw [hfirst.length_eq, htext, List.length_append] at hlength
    obtain rfl : rest = [] := List.eq_nil_of_length_eq_zero (by omega)
    rw [List.append_nil] at htext
    rwa [← htext] at hfirst
  · intro h
    refine ⟨(hstar text).2 ⟨text.toList, [], (List.append_nil _).symm, h⟩, fun suffix => ?_⟩
    exact (hstar _).2 ⟨text.toList, suffix.toList, String.toList_append, h⟩

/-- The micro sign has the Greek letter as its uppercase form, and is one of the variants of that letter. -/
theorem isMatch_star_micro :
    IsPlain "µm".toList ∧ (ofText "µm").isMatch "µM" = true ∧ (ofText "µm*").isMatch ("µM" ++ "/s") = true := by
  have hplain : IsPlain "µm".toList := by decide
  have hmatch : (ofText "µm").isMatch "µM" = true := by decide +kernel
  have hkeeps : ∀ c ∈ "µM".toList, Text.keepsFold c = true := List.all_eq_true.1 (by decide +kernel)
  exact ⟨hplain, hmatch, ((isMatch_star_iff hplain hmatch).2 hkeeps).2 "/s"⟩

/-- The sharp s matches itself, but not with a star behind it. -/
theorem not_isMatch_star_sharpS :
    IsPlain "ß".toList ∧ (ofText "ß").isMatch "ß" = true ∧ (ofText "ß*").isMatch "ß" = false := by
  have hplain : IsPlain "ß".toList := by decide
  have hupper : Text.upper "ß".toList = ['S', 'S'] := by decide +kernel
  refine ⟨hplain, (matchesChars_of_isPlain hplain).2 rfl, eq_false_of_ne_true fun h => ?_⟩
  obtain ⟨first, rest, htext, hfirst⟩ := (matchesChars_star hplain).1 h
  have hlength := congrArg List.length htext
  rw [hupper] at hfirst
  rw [List.length_append, ← hfirst.length_eq] at hlength
  exact absurd hlength (by simp; omega)

end Pattern

end Spreadsheet.Criteria
