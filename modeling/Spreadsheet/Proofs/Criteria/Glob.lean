import Spreadsheet.Proofs.Criteria.Pieces

/-!
# Wildcard patterns are globs

An operand that is no percentage is read into its own pieces (`Pattern.ofUpper_eq`).  Uppercase changes nothing about which
texts these fit, as long as all is ASCII, and so the pattern matches the texts that the operand describes as a glob
(`Pattern.isMatch_iff_glob`).
-/

namespace Spreadsheet.Criteria

variable {ps : List Piece} {s t : List Char} {c : Char}

/-! ### Percentages -/

/-- Digits with at most one point among them. -/
def IsPlainDecimal (s : List Char) : Prop :=
  (∀ c ∈ s, c.isDigit = true ∨ c = '.') ∧ s.any Char.isDigit = true ∧ s.count '.' ≤ 1

/-- A plain decimal number with a percent sign behind it. -/
def IsPercentage (s : List Char) : Prop :=
  s.getLast? = some '%' ∧ IsPlainDecimal s.dropLast

instance (s : List Char) : Decidable (IsPercentage s) :=
  have : Decidable (∀ c ∈ s.dropLast, c.isDigit = true ∨ c = '.') := List.decidableBAll _ _
  inferInstanceAs (Decidable (_ ∧ _ ∧ _ ∧ _))

private theorem numeral?_char_eq_some {e : Char} :
    Piece.numeral? (.char c) = some e ↔ e = c ∧ (c.isDigit = true ∨ c = '.') := by
  have hdigit : (c.isDigit || c == '.') = true ↔ c.isDigit = true ∨ c = '.' := by
    rw [Bool.or_eq_true, beq_iff_eq]
  rw [Piece.numeral?]
  split
  · rename_i h
    exact ⟨fun he => ⟨(Option.some.inj he).symm, hdigit.1 h⟩, fun he => congrArg some he.1.symm⟩
  · rename_i h
    exact ⟨nofun, fun he => absurd (hdigit.2 he.2) h⟩

private theorem mapM_numeral?_cons {p : Piece} {n : List Char} : (p :: ps).mapM Piece.numeral? = some n ↔
    ∃ c rest, p.numeral? = some c ∧ ps.mapM Piece.numeral? = some rest ∧ n = c :: rest := by
  rw [List.mapM_cons]
  constructor
  · intro h
    obtain ⟨c, hc, h⟩ := Option.bind_eq_some_iff.1 h
    obtain ⟨rest, hrest, h⟩ := Option.bind_eq_some_iff.1 h
    exact ⟨c, rest, hc, hrest, (Option.some.inj h).symm⟩
  · rintro ⟨c, rest, hc, hrest, rfl⟩
    rw [hc, hrest]
    rfl

/-- Only digits and points are read as numerals, and these as they are. -/
private theorem eq_of_mapM_numeral? {n : List Char} (h : (readPieces s).mapM Piece.numeral? = some n) :
    n = s ∧ ∀ c ∈ s, c.isDigit = true ∨ c = '.' := by
  induction s using operand_induction generalizing n with
  | nil =>
    obtain rfl : n = [] := by simpa [readPieces] using h.symm
    exact ⟨rfl, by simp⟩
  | run s | one s =>
    rw [readPieces] at h
    obtain ⟨_, _, ⟨⟩, -⟩ := mapM_numeral?_cons.1 h
  | escaped c s hc ih =>
    rw [readPieces_escaped hc] at h
    obtain ⟨_, _, hnumeral, -⟩ := mapM_numeral?_cons.1 h
    simp only [isSpecial, Bool.or_eq_true, beq_iff_eq] at hc
    rcases hc with (rfl | rfl) | rfl <;> cases hnumeral
  | plain c s hc ih =>
    rw [readPieces_plain hc] at h
    obtain ⟨e, rest, hnumeral, hrest, rfl⟩ := mapM_numeral?_cons.1 h
    obtain ⟨rfl, he⟩ := numeral?_char_eq_some.1 hnumeral
    obtain ⟨rfl, hs⟩ := ih hrest
    exact ⟨rfl, List.forall_mem_cons.2 ⟨he, hs⟩⟩

private theorem count_point_of_digits (hs : ∀ c ∈ s, c.isDigit = true) : s.count '.' = 0 :=
  List.count_eq_zero.2 fun h => absurd (hs '.' h) (by decide)

/-- A number that has a hundredth part is a plain decimal. -/
private theorem isPlainDecimal_of_percentFraction? {n fraction : List Char} (hn : ∀ c ∈ n, c.isDigit = true ∨ c = '.')
    (h : Number.percentFraction? n = some fraction) : IsPlainDecimal n := by
  unfold Number.percentFraction? at h
  split at h
  · rename_i hdigit
    obtain ⟨f, hf, -⟩ := Option.map_eq_some_iff.1 h
    refine ⟨hn, hdigit, ?_⟩
    have hwhole : (n.takeWhile Char.isDigit).count '.' = 0 :=
      count_point_of_digits (List.all_eq_true.1 List.all_takeWhile)
    rw [← List.takeWhile_append_dropWhile (p := Char.isDigit) (l := n), List.count_append, hwhole, Nat.zero_add]
    unfold Number.Fixed.ofChars? Number.splitDigits at hf
    dsimp only at hf
    split at hf
    · cases hf
    · split at hf
      · rename_i hrest
        rw [hrest]
        exact Nat.zero_le 1
      · rename_i hrest
        split at hf
        · rename_i hfraction
          refine Nat.le_of_eq ?_
          rw [hrest, List.count_cons_self, count_point_of_digits (List.all_eq_true.1 hfraction)]
        · cases hf
      · cases hf
  · cases h

/-- An operand that is no percentage is read into its own pieces. -/
theorem Pattern.ofUpper_eq (hs : ¬ IsPercentage s) : Pattern.ofUpper s = ⟨readPieces s⟩ := by
  unfold Pattern.ofUpper
  split
  · rename_i hlast
    obtain ⟨front, rfl⟩ : ∃ front, s = front ++ ['%'] := ⟨s.dropLast, (List.dropLast_append_getLast? _ hlast).symm⟩
    rw [List.dropLast_concat, readPieces_concat rfl, applyPercent]
    cases hfraction : ((readPieces front).mapM Piece.numeral?).bind Number.percentFraction? with
    | none => rfl
    | some fraction =>
      obtain ⟨n, hn, hhundredth⟩ := Option.bind_eq_some_iff.1 hfraction
      obtain ⟨rfl, hchars⟩ := eq_of_mapM_numeral? hn
      refine absurd ⟨hlast, ?_⟩ hs
      rw [List.dropLast_concat]
      exact isPlainDecimal_of_percentFraction? hchars hhundredth
  · rfl

/-! ### Uppercase operands -/

/-- A piece with its character in uppercase. -/
def Piece.toUpper : Piece → Piece
  | char c => char c.toUpper
  | p => p

private theorem isAlpha_of_isSpecial (hc : isSpecial c = true) : c.isAlpha = false := by
  simp only [isSpecial, Bool.or_eq_true, beq_iff_eq] at hc
  rcases hc with (rfl | rfl) | rfl <;> rfl

private theorem isSpecial_toUpper (hc : c.toNat < 128) : isSpecial c.toUpper = isSpecial c := by
  rw [Bool.eq_iff_iff]
  simp only [isSpecial, Bool.or_eq_true, beq_iff_eq]
  rw [Text.toUpper_eq_iff hc rfl, Text.toUpper_eq_iff hc rfl, Text.toUpper_eq_iff hc rfl]

theorem StandsForItself.toUpper (h : StandsForItself c s) (hc : c.toNat < 128) (hs : Text.IsAscii s) :
    StandsForItself c.toUpper (s.map Char.toUpper) := by
  obtain ⟨hrun, hone, htilde⟩ := h
  refine ⟨mt (Text.toUpper_eq_iff hc rfl).1 hrun, mt (Text.toUpper_eq_iff hc rfl).1 hone, fun hc' d hd => ?_⟩
  rw [List.head?_map] at hd
  obtain ⟨e, he, rfl⟩ := Option.map_eq_some_iff.1 hd
  rw [isSpecial_toUpper (hs e (List.mem_of_mem_head? he))]
  exact htilde ((Text.toUpper_eq_iff hc rfl).1 hc') e he

private theorem readPieces_map_toUpper (hs : Text.IsAscii s) :
    readPieces (s.map Char.toUpper) = (readPieces s).map Piece.toUpper := by
  induction s using operand_induction with
  | nil => rfl
  | run s ih | one s ih => exact congrArg _ (ih (List.forall_mem_cons.1 hs).2)
  | escaped c s hc ih =>
    obtain ⟨hascii, hs⟩ := List.forall_mem_cons.1 (List.forall_mem_cons.1 hs).2
    have hupper : isSpecial c.toUpper = true := (isSpecial_toUpper hascii).trans hc
    show readPieces ('~' :: c.toUpper :: s.map Char.toUpper) = _
    rw [readPieces_escaped hupper, readPieces_escaped hc, ih hs]
    rfl
  | plain c s hc ih =>
    obtain ⟨hascii, hs⟩ := List.forall_mem_cons.1 hs
    rw [List.map_cons, readPieces_plain (hc.toUpper hascii hs), readPieces_plain hc, ih hs]
    rfl

/-- Pieces in uppercase fit the same texts. -/
private theorem fits_map_toUpper (hps : ∀ c, Piece.char c ∈ ps → c.toNat < 128) :
    Fits (ps.map Piece.toUpper) t ↔ Fits ps t := by
  induction ps generalizing t with
  | nil => rfl
  | cons p ps ih =>
    have htail : ∀ t, Fits (ps.map Piece.toUpper) t ↔ Fits ps t := fun t => ih fun c hc => hps c (List.mem_cons_of_mem _ hc)
    cases p with
    | char c =>
      have hc : Text.fold c.toUpper = Text.fold c := Text.fold_toUpper (hps c (List.mem_cons_self ..))
      simp only [List.map_cons, Piece.toUpper, Fits, htail, hc]
    | anyOne | anyRun => simp only [List.map_cons, Piece.toUpper, Fits, htail]

private theorem hasWildcards_map_toUpper (ps : List Piece) :
    (⟨ps.map Piece.toUpper⟩ : Pattern).hasWildcards = (⟨ps⟩ : Pattern).hasWildcards := by
  have hwild : ∀ p : Piece, p.toUpper.isWild = p.isWild := by
    intro p
    cases p <;> rfl
  rw [Pattern.hasWildcards, List.any_map]
  exact congrArg ps.any (funext hwild)

/-- Characters in uppercase are the text in uppercase if and only if they are its characters up to case. -/
theorem map_toUpper_eq_upper_iff (hs : Text.IsAscii s) (ht : Text.IsAscii t) :
    s.map Char.toUpper = Text.upper t ↔ Text.SameFold s t := by
  rw [Text.upper_of_isAscii ht]
  induction s generalizing t with
  | nil => cases t <;> simp
  | cons c s ih =>
    obtain ⟨hc, hs⟩ := List.forall_mem_cons.1 hs
    cases t with
    | nil => simp
    | cons d t =>
      obtain ⟨hd, ht⟩ := List.forall_mem_cons.1 ht
      rw [List.map_cons, List.map_cons, List.cons.injEq, Text.sameFold_cons, Text.toUpper_eq_toUpper_iff hc hd, ih hs ht]

/-- The pattern of ASCII characters in uppercase matches the ASCII texts that fit its pieces. -/
theorem matchesChars_iff_fits (hps : ∀ c, Piece.char c ∈ ps → c.toNat < 128) (ht : Text.IsAscii t) :
    (⟨ps.map Piece.toUpper⟩ : Pattern).matchesChars t = true ↔ Fits ps t := by
  unfold Pattern.matchesChars
  rw [hasWildcards_map_toUpper]
  split
  · rw [Pattern.headD_matchRests, fits_map_toUpper hps]
  · rename_i hwild
    obtain ⟨s, hs⟩ := Pattern.exists_chars (eq_false_of_ne_true hwild)
    obtain rfl : ps = s.map .char := congrArg Pattern.pieces hs
    have hascii : Text.IsAscii s := fun c hc => hps c (List.mem_map_of_mem hc)
    have hupper : (s.map Piece.char).map Piece.toUpper = (s.map Char.toUpper).map .char := by
      rw [List.map_map, List.map_map]
      rfl
    rw [hupper, Pattern.literal_of_chars, beq_iff_eq, map_toUpper_eq_upper_iff hascii ht, fits_chars]

/-! ### Globs -/

/-- A glob, read from left to right, and a text that it describes as a whole. -/
inductive Glob : List Char → List Char → Prop
  | nil : Glob [] []
  | run {p t : List Char} (u : List Char) : Glob p t → Glob ('*' :: p) (u ++ t)
  | one {p t : List Char} (d : Char) : Glob p t → Glob ('?' :: p) (d :: t)
  | escaped {c : Char} {p t : List Char} : isSpecial c = true → Glob p t → Glob ('~' :: c :: p) (c :: t)
  | plain {c d : Char} {p t : List Char} :
      StandsForItself c p → c.toLower = d.toLower → Glob p t → Glob (c :: p) (d :: t)

private theorem glob_iff_fits (hs : Text.IsAscii s) (ht : Text.IsAscii t) : Glob s t ↔ Fits (readPieces s) t := by
  constructor
  · intro h
    induction h with
    | nil => rfl
    | run u _ ih =>
      exact ⟨u, _, rfl, ih (List.forall_mem_cons.1 hs).2 (List.forall_mem_append.1 ht).2⟩
    | one d _ ih => exact ⟨d, _, rfl, ih (List.forall_mem_cons.1 hs).2 (List.forall_mem_cons.1 ht).2⟩
    | escaped hc _ ih =>
      rw [readPieces_escaped hc, fits_char_cons]
      exact ⟨rfl, ih (List.forall_mem_cons.1 (List.forall_mem_cons.1 hs).2).2 (List.forall_mem_cons.1 ht).2⟩
    | plain hc hsame _ ih =>
      obtain ⟨hfirst, hs⟩ := List.forall_mem_cons.1 hs
      obtain ⟨hfirst', ht⟩ := List.forall_mem_cons.1 ht
      rw [readPieces_plain hc, fits_char_cons, Text.fold_of_ascii hfirst, Text.fold_of_ascii hfirst']
      exact ⟨hsame, ih hs ht⟩
  · intro h
    induction s using operand_induction generalizing t with
    | nil =>
      obtain rfl : t = [] := h
      exact .nil
    | run s ih =>
      obtain ⟨u, rest, rfl, hrest⟩ := h
      exact .run u (ih (List.forall_mem_cons.1 hs).2 (List.forall_mem_append.1 ht).2 hrest)
    | one s ih =>
      obtain ⟨d, rest, rfl, hrest⟩ := h
      exact .one d (ih (List.forall_mem_cons.1 hs).2 (List.forall_mem_cons.1 ht).2 hrest)
    | escaped c s hc ih =>
      rw [readPieces_escaped hc] at h
      obtain ⟨d, rest, rfl, hd, hrest⟩ := h
      obtain ⟨hfirst, hrests⟩ := List.forall_mem_cons.1 (List.forall_mem_cons.1 hs).2
      obtain ⟨hfirst', hrestt⟩ := List.forall_mem_cons.1 ht
      have hsign := isAlpha_of_isSpecial hc
      obtain rfl : d = c := by
        rw [← Text.toUpper_eq_iff hfirst' hsign, ← (Text.toUpper_eq_toUpper_iff hfirst hfirst').2 hd]
        exact (Text.toUpper_eq_iff hfirst hsign).2 rfl
      exact .escaped hc (ih hrests hrestt hrest)
    | plain c s hc ih =>
      rw [readPieces_plain hc] at h
      obtain ⟨d, rest, rfl, hd, hrest⟩ := h
      obtain ⟨hfirst, hs⟩ := List.forall_mem_cons.1 hs
      obtain ⟨hfirst', ht⟩ := List.forall_mem_cons.1 ht
      rw [Text.fold_of_ascii hfirst, Text.fold_of_ascii hfirst'] at hd
      exact .plain hc hd (ih hs ht hrest)

/-! ### Wildcards that are not escaped -/

/-- How many tildes a text ends with. -/
def tildesAtEnd (s : List Char) : Nat :=
  (s.reverse.takeWhile (· == '~')).length

/-- A wildcard stands behind an even number of tildes; each two of these are one literal tilde. -/
def HasUnescaped (s : List Char) : Prop :=
  ∃ before w after, s = before ++ w :: after ∧ (w = '*' ∨ w = '?') ∧ tildesAtEnd before % 2 = 0

private theorem tildesAtEnd_append_cons (hc : c ≠ '~') (front s : List Char) :
    tildesAtEnd (front ++ c :: s) = tildesAtEnd s := by
  have hstop : (c :: front.reverse).takeWhile (· == '~') = [] :=
    List.takeWhile_cons_of_neg (by simpa using hc)
  unfold tildesAtEnd
  rw [List.reverse_append, List.reverse_cons, List.append_assoc, List.singleton_append, List.takeWhile_append, hstop]
  split
  · rename_i hall
    rw [List.append_nil, hall]
  · rfl

private theorem tildesAtEnd_tilde_tilde (s : List Char) : tildesAtEnd ('~' :: '~' :: s) % 2 = tildesAtEnd s % 2 := by
  unfold tildesAtEnd
  rw [List.reverse_cons, List.reverse_cons, List.append_assoc, List.takeWhile_append]
  split
  · rename_i hall
    rw [List.length_append, hall]
    exact Nat.add_mod_right _ 2
  · rfl

private theorem tildesAtEnd_escaped (c : Char) (s : List Char) :
    tildesAtEnd ('~' :: c :: s) % 2 = tildesAtEnd s % 2 := by
  by_cases htilde : c = '~'
  · rw [htilde, tildesAtEnd_tilde_tilde]
  · exact congrArg (· % 2) (tildesAtEnd_append_cons htilde ['~'] s)

/-- A character that stands for itself escapes no wildcard behind it. -/
theorem StandsForItself.tildesAtEnd_cons {before after : List Char} {w : Char}
    (hc : StandsForItself c (before ++ w :: after)) (hw : w = '*' ∨ w = '?') :
    tildesAtEnd (c :: before) = tildesAtEnd before := by
  by_cases htilde : c = '~'
  · cases before with
    | nil =>
      have hspecial := hc.2.2 htilde w rfl
      rcases hw with rfl | rfl <;> cases hspecial
    | cons e before =>
      have he : e ≠ '~' := by
        rintro rfl
        cases hc.2.2 htilde '~' rfl
      exact (tildesAtEnd_append_cons he [c] before).trans (tildesAtEnd_append_cons he [] before).symm
  · exact tildesAtEnd_append_cons htilde [] before

/-- What stands in front changes nothing if it neither escapes wildcards nor has any of its own. -/
private theorem hasUnescaped_append (front : List Char)
    (hescapes : ∀ before w after, s = before ++ w :: after → w = '*' ∨ w = '?' →
      tildesAtEnd (front ++ before) % 2 = tildesAtEnd before % 2)
    (hfront : ∀ before w after, front = before ++ w :: after → w = '*' ∨ w = '?' → tildesAtEnd before % 2 ≠ 0) :
    HasUnescaped (front ++ s) ↔ HasUnescaped s := by
  constructor
  · rintro ⟨before, w, after, h, hw, heven⟩
    obtain ⟨before, rfl, rfl⟩ | ⟨rest, hrest, hrest'⟩ := List.append_eq_append_iff.1 h
    · exact ⟨before, w, after, rfl, hw, (hescapes before w after rfl hw) ▸ heven⟩
    · cases rest with
      | nil =>
        have hsame := hescapes [] w after hrest'.symm hw
        rw [hrest, List.append_nil, List.append_nil, heven] at hsame
        exact ⟨[], w, after, hrest'.symm, hw, hsame.symm⟩
      | cons e rest =>
        obtain ⟨rfl, rfl⟩ := List.cons.inj hrest'
        exact absurd heven (hfront before w rest hrest hw)
  · rintro ⟨before, w, after, rfl, hw, heven⟩
    exact ⟨front ++ before, w, after, (List.append_assoc ..).symm, hw, (hescapes before w after rfl hw).trans heven⟩

/-- An operand is read with a wildcard if and only if one is not escaped. -/
theorem hasWildcards_readPieces (s : List Char) :
    (⟨readPieces s⟩ : Pattern).hasWildcards = true ↔ HasUnescaped s := by
  induction s using operand_induction with
  | nil =>
    refine ⟨nofun, ?_⟩
    rintro ⟨before, w, after, h, -⟩
    exact absurd h.symm (by simp)
  | run s ih => exact ⟨fun _ => ⟨[], '*', s, rfl, .inl rfl, rfl⟩, fun _ => rfl⟩
  | one s ih => exact ⟨fun _ => ⟨[], '?', s, rfl, .inr rfl, rfl⟩, fun _ => rfl⟩
  | escaped c s hc ih =>
    rw [readPieces_escaped hc]
    refine Iff.trans ih (hasUnescaped_append ['~', c] (fun before _ _ _ _ => tildesAtEnd_escaped c before)
      fun before w after h hw => ?_).symm
    match before with
    | [] =>
      obtain rfl : '~' = w := (List.cons.inj h).1
      rcases hw with hw | hw <;> cases hw
    | [e] =>
      obtain rfl : '~' = e := (List.cons.inj h).1
      decide
    | _ :: _ :: before => exact absurd (congrArg List.length h) (by simp)
  | plain c s hc ih =>
    rw [readPieces_plain hc]
    refine Iff.trans ih (hasUnescaped_append [c] (fun before w after h hw => ?_)
      fun before w after h hw => ?_).symm
    · rw [h] at hc
      exact congrArg (· % 2) (hc.tildesAtEnd_cons hw)
    · match before with
      | [] =>
        obtain rfl : c = w := (List.cons.inj h).1
        exact absurd hw (not_or.2 ⟨hc.1, hc.2.1⟩)
      | _ :: before => exact absurd (congrArg List.length h) (by simp)

/-! ### Operands that are no percentages -/

private theorem isPercentage_of_map_toUpper (hs : Text.IsAscii s) (h : IsPercentage (s.map Char.toUpper)) :
    IsPercentage s := by
  obtain ⟨hlast, hdecimal⟩ := h
  have hletter : ∀ d ∈ s.map Char.toUpper, d.isAlpha = false := by
    intro d hd
    rw [← List.dropLast_append_getLast? _ hlast] at hd
    rcases List.mem_append.1 hd with hd | hd
    · rcases hdecimal.1 d hd with hdigit | rfl
      · exact Text.not_isAlpha_of_isDigit hdigit
      · rfl
    · obtain rfl := List.mem_singleton.1 hd
      rfl
  have hsame : s.map Char.toUpper = s := by
    refine (List.map_congr_left fun c hc => ?_).trans (List.map_id' s)
    exact ((Text.toUpper_eq_iff (hs c hc) (hletter _ (List.mem_map_of_mem hc))).1 rfl).symm
  rw [hsame] at hlast hdecimal
  exact ⟨hlast, hdecimal⟩

/-- An operand of ASCII characters that is no plain decimal number with a percent sign matches the ASCII texts that it
describes as a glob, and it has wildcards if and only if one of its wildcards is not escaped. -/
theorem Pattern.isMatch_iff_glob {operand : String} (hascii : Text.IsAscii operand.toList)
    (hpercentage : ¬ IsPercentage operand.toList) :
    (∀ text : String, Text.IsAscii text.toList →
      ((ofText operand).isMatch text = true ↔ Glob operand.toList text.toList)) ∧
    ((ofText operand).hasWildcards = true ↔ HasUnescaped operand.toList) := by
  have hpattern : ofText operand = ⟨(readPieces operand.toList).map Piece.toUpper⟩ := by
    rw [ofText, ofChars, Text.upper_of_isAscii hascii, ofUpper_eq (mt (isPercentage_of_map_toUpper hascii) hpercentage),
      readPieces_map_toUpper hascii]
  refine ⟨fun text htext => ?_, ?_⟩
  · have hchars : ∀ c, Piece.char c ∈ readPieces operand.toList → c.toNat < 128 :=
      fun c hc => hascii c (mem_of_mem_readPieces hc)
    rw [hpattern, isMatch, matchesChars_iff_fits hchars htext, glob_iff_fits hascii htext]
  · rw [hpattern, hasWildcards_map_toUpper, hasWildcards_readPieces]

/-- A wildcard stands between a number and its percent sign, and an escaped one in front of it. -/
theorem Pattern.isMatch_iff_glob_starredPercent :
    let operand := "a~?1.5*%"
    Text.IsAscii operand.toList ∧ ¬ IsPercentage operand.toList ∧ Glob operand.toList "A?1.5\n%".toList ∧
      ¬ Glob operand.toList "AB1.5%".toList ∧ HasUnescaped operand.toList := by
  intro operand
  have hascii : Text.IsAscii operand.toList := by decide
  have hpercentage : ¬ IsPercentage operand.toList := by decide
  obtain ⟨hmatch, hwild⟩ := isMatch_iff_glob hascii hpercentage
  exact ⟨hascii, hpercentage, (hmatch "A?1.5\n%" (by decide)).1 (by decide),
    mt (hmatch "AB1.5%" (by decide)).2 (by decide), hwild.1 (by decide)⟩

end Spreadsheet.Criteria
