import Spreadsheet.Criteria.Pattern
import Spreadsheet.Proofs.Text.LetterCase

/-!
# Pieces of an operand

The table of matching rests decides whether a text consists of what the pieces stand for (`Pattern.headD_matchRests`), a
run being tried at every place of the text.  Operands are read from left to right (`operand_induction`).
-/

namespace Spreadsheet.Criteria

/-! ### Pieces and texts -/

/-- The whole text consists of what the pieces stand for, one after the other. -/
def Fits : List Piece → List Char → Prop
  | [], t => t = []
  | .char c :: ps, t => ∃ d rest, t = d :: rest ∧ Text.fold c = Text.fold d ∧ Fits ps rest
  | .anyOne :: ps, t => ∃ d rest, t = d :: rest ∧ Fits ps rest
  | .anyRun :: ps, t => ∃ run rest, t = run ++ rest ∧ Fits ps rest

variable {ps : List Piece} {s t : List Char} {c d : Char}

@[simp] theorem fits_nil : Fits [] t ↔ t = [] := Iff.rfl

@[simp] theorem fits_char_cons : Fits (.char c :: ps) (d :: t) ↔ Text.fold c = Text.fold d ∧ Fits ps t := by
  simp [Fits]

@[simp] theorem fits_anyOne_cons : Fits (.anyOne :: ps) (d :: t) ↔ Fits ps t := by
  simp [Fits]

theorem fits_anyRun : Fits (.anyRun :: ps) t ↔ ∃ run rest, t = run ++ rest ∧ Fits ps rest := Iff.rfl

private theorem fits_anyRun_cons : Fits (.anyRun :: ps) (d :: t) ↔ Fits ps (d :: t) ∨ Fits (.anyRun :: ps) t := by
  constructor
  · rintro ⟨run, rest, h, hrest⟩
    cases run with
    | nil => exact .inl (h ▸ hrest)
    | cons e run =>
      obtain ⟨-, rfl⟩ := List.cons.inj h
      exact .inr ⟨run, rest, rfl, hrest⟩
  · rintro (h | ⟨run, rest, rfl, hrest⟩)
    · exact ⟨[], d :: t, rfl, h⟩
    · exact ⟨d :: run, rest, rfl, hrest⟩

/-- Pieces that are characters fit the texts with these characters. -/
theorem fits_append_of_chars (s : List Char) : Fits (s.map .char ++ ps) t ↔
    ∃ first rest, t = first ++ rest ∧ Text.SameFold s first ∧ Fits ps rest := by
  induction s generalizing t with
  | nil => simp
  | cons c s ih =>
    cases t with
    | nil => simp [Fits]
    | cons d t =>
      rw [List.map_cons, List.cons_append, fits_char_cons, ih]
      constructor
      · rintro ⟨hc, first, rest, rfl, hfirst, hrest⟩
        exact ⟨d :: first, rest, rfl, .cons hc hfirst, hrest⟩
      · rintro ⟨first, rest, h, hfirst, hrest⟩
        cases hfirst with
        | cons hc hfirst =>
          obtain ⟨rfl, rfl⟩ := List.cons.inj h
          exact ⟨hc, _, rest, rfl, hfirst, hrest⟩

theorem fits_chars (s : List Char) :
    Fits (s.map .char) t ↔ Text.SameFold s t := by
  have h : Fits (s.map .char ++ []) t ↔ ∃ first rest, t = first ++ rest ∧ Text.SameFold s first ∧ Fits [] rest :=
    fits_append_of_chars s
  simpa using h

namespace Pattern

/-! ### The table of matching rests -/

/-- The table of a text without its first character is the rest of its table. -/
private theorem matchRests_cons (ps : List Piece) (d : Char) (t : List Char) :
    ∃ b, matchRests ps (d :: t) = b :: matchRests ps t := by
  induction ps with
  | nil => exact ⟨false, rfl⟩
  | cons p ps ih =>
    obtain ⟨b, hb⟩ := ih
    cases p with
    | char c | anyOne | anyRun =>
      rw [matchRests, hb]
      exact ⟨_, rfl⟩

private theorem matchRests_nil (ps : List Piece) : ∃ b, matchRests ps [] = [b] := by
  induction ps with
  | nil => exact ⟨true, rfl⟩
  | cons p ps ih =>
    obtain ⟨b, hb⟩ := ih
    cases p with
    | char c | anyOne | anyRun =>
      rw [matchRests, hb]
      exact ⟨_, rfl⟩

private theorem headD_stepRun (rests : List Bool) : (stepRun rests).headD false = rests.any id := by
  induction rests with
  | nil => rfl
  | cons b rests ih =>
    show (b || (stepRun rests).headD false) = _
    rw [ih]
    rfl

/-- The first entry of the table tells whether the whole text fits. -/
theorem headD_matchRests (ps : List Piece) (t : List Char) : (matchRests ps t).headD false = true ↔ Fits ps t := by
  induction ps generalizing t with
  | nil => cases t <;> simp [matchRests, List.replicate_succ]
  | cons p ps ih =>
    cases p with
    | char c =>
      cases t with
      | nil => simp [matchRests, stepOne, Fits]
      | cons d t =>
        obtain ⟨b, hb⟩ := matchRests_cons ps d t
        rw [matchRests, hb, stepOne, fits_char_cons, ← ih]
        simp
    | anyOne =>
      cases t with
      | nil => simp [matchRests, stepOne, Fits]
      | cons d t =>
        obtain ⟨b, hb⟩ := matchRests_cons ps d t
        rw [matchRests, hb, stepOne, fits_anyOne_cons, ← ih]
        simp
    | anyRun =>
      rw [matchRests, headD_stepRun]
      induction t with
      | nil =>
        obtain ⟨b, hb⟩ := matchRests_nil ps
        have h := ih []
        rw [hb] at h
        rw [hb, fits_anyRun]
        simpa using h
      | cons d t iht =>
        obtain ⟨b, hb⟩ := matchRests_cons ps d t
        have h := ih (d :: t)
        rw [hb] at h
        rw [hb, fits_anyRun_cons, ← iht, ← h]
        simp

end Pattern

/-! ### Reading operands -/

/-- The characters that a tilde makes literal. -/
def isSpecial (c : Char) : Bool :=
  c == '*' || c == '?' || c == '~'

/-- In front of a rest the character stands for itself: it is no wildcard and escapes nothing. -/
def StandsForItself (c : Char) (rest : List Char) : Prop :=
  c ≠ '*' ∧ c ≠ '?' ∧ (c = '~' → ∀ d ∈ rest.head?, isSpecial d = false)

private theorem standsForItself_of_not_isSpecial (hc : isSpecial c = false) : StandsForItself c s := by
  refine ⟨?_, ?_, ?_⟩
  all_goals
    rintro rfl
    cases hc

theorem readPieces_escaped (hc : isSpecial c = true) : readPieces ('~' :: c :: s) = .char c :: readPieces s := by
  simp only [isSpecial, Bool.or_eq_true, beq_iff_eq] at hc
  rcases hc with (rfl | rfl) | rfl <;> rfl

theorem readPieces_plain (hc : StandsForItself c s) : readPieces (c :: s) = .char c :: readPieces s := by
  obtain ⟨hrun, hone, htilde⟩ := hc
  have hnext : ∀ d, isSpecial d = true → ∀ rest, c = '~' → s = d :: rest → False := by
    rintro d hd rest hc rfl
    rw [htilde hc d rfl] at hd
    cases hd
  rw [readPieces]
  · exact hnext '*' rfl
  · exact hnext '?' rfl
  · exact hnext '~' rfl
  · exact hrun
  · exact hone

/-- Operands are read from left to right: a wildcard, an escaped character, or one that stands for itself. -/
@[elab_as_elim]
theorem operand_induction {motive : List Char → Prop} (nil : motive [])
    (run : ∀ s, motive s → motive ('*' :: s)) (one : ∀ s, motive s → motive ('?' :: s))
    (escaped : ∀ c s, isSpecial c = true → motive s → motive ('~' :: c :: s))
    (plain : ∀ c s, StandsForItself c s → motive s → motive (c :: s)) (s : List Char) : motive s := by
  fun_induction readPieces s with
  | case1 => exact nil
  | case2 s ih => exact escaped '*' s rfl ih
  | case3 s ih => exact escaped '?' s rfl ih
  | case4 s ih => exact escaped '~' s rfl ih
  | case5 s ih => exact run s ih
  | case6 s ih => exact one s ih
  | case7 c s h1 h2 h3 hrun hone ih =>
    refine plain c s ⟨hrun, hone, fun hc d hd => ?_⟩ ih
    obtain ⟨rest, rfl⟩ : ∃ rest, s = d :: rest := ⟨s.tail, (List.cons_head?_tail hd).symm⟩
    cases hspecial : isSpecial d with
    | false => rfl
    | true =>
      simp only [isSpecial, Bool.or_eq_true, beq_iff_eq] at hspecial
      rcases hspecial with (rfl | rfl) | rfl
      · exact (h1 rest hc rfl).elim
      · exact (h2 rest hc rfl).elim
      · exact (h3 rest hc rfl).elim

/-- Characters of an operand that are read as characters. -/
theorem mem_of_mem_readPieces (h : Piece.char c ∈ readPieces s) : c ∈ s := by
  induction s using operand_induction with
  | nil => cases h
  | run s ih =>
    rw [readPieces] at h
    exact List.mem_cons_of_mem _ (ih (by simpa using h))
  | one s ih =>
    rw [readPieces] at h
    exact List.mem_cons_of_mem _ (ih (by simpa using h))
  | escaped e s he ih =>
    rw [readPieces_escaped he] at h
    rcases List.mem_cons.1 h with h | h
    · cases h
      simp
    · exact List.mem_cons_of_mem _ (List.mem_cons_of_mem _ (ih h))
  | plain e s he ih =>
    rw [readPieces_plain he] at h
    rcases List.mem_cons.1 h with h | h
    · cases h
      simp
    · exact List.mem_cons_of_mem _ (ih h)

/-- A text without special characters is read as its characters. -/
theorem readPieces_append_of_plain (hs : ∀ c ∈ s, isSpecial c = false) (t : List Char) :
    readPieces (s ++ t) = s.map .char ++ readPieces t := by
  induction s with
  | nil => rfl
  | cons c s ih =>
    obtain ⟨hc, hs⟩ := List.forall_mem_cons.1 hs
    rw [List.cons_append, readPieces_plain (standsForItself_of_not_isSpecial hc), ih hs]
    rfl

/-- A sign that is not special is read as itself at the end. -/
theorem readPieces_concat (hc : isSpecial c = false) (s : List Char) :
    readPieces (s ++ [c]) = readPieces s ++ [.char c] := by
  induction s using operand_induction with
  | nil => exact readPieces_plain (standsForItself_of_not_isSpecial hc)
  | run s ih | one s ih => exact congrArg _ ih
  | escaped e s he ih =>
    rw [List.cons_append, List.cons_append, readPieces_escaped he, readPieces_escaped he, ih]
    rfl
  | plain e s he ih =>
    have hfront : StandsForItself e (s ++ [c]) := by
      obtain ⟨hrun, hone, htilde⟩ := he
      refine ⟨hrun, hone, fun h d hd => ?_⟩
      cases s with
      | nil =>
        obtain rfl : c = d := by simpa using hd
        exact hc
      | cons b s => exact htilde h d (by simpa using hd)
    rw [List.cons_append, readPieces_plain hfront, readPieces_plain he, ih]
    rfl

/-! ### Patterns without wildcards -/

namespace Pattern

theorem hasWildcards_of_chars (s : List Char) : (⟨s.map .char⟩ : Pattern).hasWildcards = false := by
  rw [hasWildcards, List.any_map]
  exact List.any_eq_false.2 fun _ _ => Bool.false_ne_true

theorem literal_of_chars (s : List Char) : (⟨s.map .char⟩ : Pattern).literal = s := by
  rw [literal, List.map_map]
  exact List.map_id s

theorem exists_chars {p : Pattern} (h : p.hasWildcards = false) : ∃ s : List Char, p = ⟨s.map .char⟩ := by
  refine ⟨p.literal, congrArg Pattern.mk ?_⟩
  have hchar : ∀ q ∈ p.pieces, (Piece.char ∘ Piece.written) q = q := by
    intro q hq
    have hwild := List.any_eq_false.1 h q hq
    cases q with
    | char c => rfl
    | anyRun | anyOne => exact absurd rfl hwild
  rw [literal, List.map_map, List.map_congr_left hchar, List.map_id']

end Pattern

end Spreadsheet.Criteria
