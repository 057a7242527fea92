import Mathlib.Data.String.Basic
import Spreadsheet.Proofs.Criteria.Relations

/-!
# Splitting a criteria text

A criteria text is split behind the longest run of relation characters at its front.  There is one way to do so
(`Splits.unique`), in which the rest is an operand (`Splits.isOperand`), and reading a criteria finds it
(`splits_ofText`).  The six relations and the empty front are all fronts that are read (`ofText?_eq_some_iff`); with any
other one the criteria selects nothing.
-/

namespace Spreadsheet.Criteria

/-- The front is the longest one of relation characters only, and the operand is the rest. -/
structure Splits (text front operand : String) : Prop where
  append_eq : front ++ operand = text
  isRelationChar : ∀ c ∈ front.toList, isRelationChar c = true
  longest : ∀ s, s <+: text.toList → (∀ c ∈ s, Criteria.isRelationChar c = true) → s.length ≤ front.length

variable {text front operand : String}

namespace Splits

private theorem toList_prefix (h : Splits text front operand) : front.toList <+: text.toList := by
  rw [← h.append_eq, String.toList_append]
  exact List.prefix_append _ _

/-- What follows on the front is an operand, or else the front would be longer. -/
theorem isOperand (h : Splits text front operand) : IsOperand operand := by
  intro c hc
  obtain ⟨s, hs⟩ := List.head?_eq_some_iff.1 hc
  rw [Bool.eq_false_iff]
  intro hrelation
  have hlonger : front.toList ++ [c] <+: text.toList := by
    rw [← h.append_eq, String.toList_append, hs]
    exact ⟨s, by simp⟩
  have hle := h.longest _ hlonger (List.forall_mem_append.2 ⟨h.isRelationChar, List.forall_mem_singleton.2 hrelation⟩)
  rw [List.length_append, String.length_toList, List.length_singleton] at hle
  omega

theorem unique {front' operand' : String} (h : Splits text front operand) (h' : Splits text front' operand') :
    front' = front ∧ operand' = operand := by
  have hle : front'.toList.length ≤ front.toList.length := h.longest _ h'.toList_prefix h'.isRelationChar
  have hge : front.toList.length ≤ front'.toList.length := h'.longest _ h.toList_prefix h.isRelationChar
  have hbegins : front'.toList <+: front.toList :=
    List.prefix_of_prefix_length_le h'.toList_prefix h.toList_prefix hle
  have hfront : front' = front := String.toList_injective (hbegins.eq_of_length (Nat.le_antisymm hle hge))
  have happend : (front' ++ operand').toList = (front ++ operand).toList := by rw [h.append_eq, h'.append_eq]
  rw [String.toList_append, String.toList_append, hfront] at happend
  exact ⟨hfront, String.toList_injective (List.append_cancel_left happend)⟩

end Splits

/-- An operand behind relation characters ends the longest run of these. -/
private theorem splits_append (hfront : ∀ c ∈ front.toList, isRelationChar c = true) (hoperand : IsOperand operand) :
    Splits (front ++ operand) front operand where
  append_eq := rfl
  isRelationChar := hfront
  longest s hprefix hs := by
    rw [String.toList_append] at hprefix
    rw [← String.length_toList]
    by_contra hlt
    have hfit : front.toList <+: s :=
      List.prefix_of_prefix_length_le (List.prefix_append _ _) hprefix (by omega)
    obtain ⟨rest, rfl⟩ := hfit
    obtain ⟨c, rest, rfl⟩ : ∃ c rest', rest = c :: rest' := by
      cases rest with
      | nil => simp at hlt
      | cons c rest => exact ⟨c, rest, rfl⟩
    obtain ⟨tail, htail⟩ := (List.prefix_append_right_inj _).1 hprefix
    have hc : isRelationChar c = false := hoperand c (by rw [← htail]; rfl)
    rw [hs c (by simp)] at hc
    cases hc

/-- The parts of a text that are read as its relation and its operand. -/
theorem splits_ofText (text : String) :
    Splits text (.ofList (text.toList.takeWhile isRelationChar)) (ofText text).operand := by
  have hfront : ∀ c ∈ (String.ofList (text.toList.takeWhile isRelationChar)).toList, isRelationChar c = true := by
    intro c hc
    rw [String.toList_ofList] at hc
    exact List.all_eq_true.1 List.all_takeWhile c hc
  have hoperand : IsOperand (.ofList (text.toList.dropWhile isRelationChar)) := by
    intro c hc
    have hhead := List.head?_dropWhile_not isRelationChar text.toList
    rw [String.toList_ofList] at hc
    rwa [hc] at hhead
  have hsplit := splits_append hfront hoperand
  rwa [← String.ofList_append, List.takeWhile_append_dropWhile, String.ofList_toList] at hsplit

private theorem isRelationChar_text (r : Relation) : ∀ c ∈ r.text.toList, isRelationChar c = true := by
  cases r <;> exact List.all_eq_true.1 rfl

/-- Relation characters are encoded in one byte each. -/
theorem utf8ByteSize_of_isRelationChar (hfront : ∀ c ∈ front.toList, isRelationChar c = true) :
    front.utf8ByteSize = front.length := by
  have hlen : ∀ s : List Char, (∀ c ∈ s, isRelationChar c = true) → String.utf8Len s = s.length := by
    intro s hs
    induction s with
    | nil => rfl
    | cons c s ih =>
      obtain ⟨hc, hs⟩ := List.forall_mem_cons.1 hs
      have hsize : c.utf8Size = 1 := by
        simp only [isRelationChar, Bool.or_eq_true, beq_iff_eq] at hc
        rcases hc with (rfl | rfl) | rfl <;> rfl
      rw [String.utf8Len_cons, ih hs, hsize, List.length_cons]
  rw [← String.utf8Len_toList, hlen _ hfront, String.length_toList]

namespace Relation

/-- A relation is read from its own text, and that of equality from the empty text, too. -/
theorem ofText?_eq_some_iff {r : Relation} : ofText? front = some r ↔ front = r.text ∨ front = "" ∧ r = equal := by
  constructor
  · intro h
    unfold ofText? ofChars? at h
    split at h <;> rename_i hs <;> cases h <;> rw [← String.ofList_toList (s := front), hs]
    · exact .inr ⟨rfl, rfl⟩
    all_goals exact .inl rfl
  · rintro (rfl | ⟨rfl, rfl⟩)
    · exact ofText?_text r
    · rfl

private theorem isSome_ofText?_iff : (ofText? front).isSome ↔ front ∈ ["", "=", "<>", "<", "<=", ">", ">="] := by
  rw [Option.isSome_iff_exists]
  simp only [ofText?_eq_some_iff, List.mem_cons, List.not_mem_nil, or_false]
  constructor
  · rintro ⟨r, rfl | ⟨rfl, -⟩⟩
    · cases r <;> simp [text]
    · exact .inl rfl
  · rintro (rfl | rfl | rfl | rfl | rfl | rfl | rfl)
    · exact ⟨equal, .inr ⟨rfl, rfl⟩⟩
    · exact ⟨equal, .inl rfl⟩
    · exact ⟨notEqual, .inl rfl⟩
    · exact ⟨lessThan, .inl rfl⟩
    · exact ⟨lessEqual, .inl rfl⟩
    · exact ⟨greaterThan, .inl rfl⟩
    · exact ⟨greaterEqual, .inl rfl⟩

end Relation

/-- Each text splits in one way.  The relation is known by its front, which has to be empty or one of the six relations,
and the criteria is prepared from its operand; without a relation it selects nothing.  Whatever is put together from a
relation and an operand is split into these again, and selects the values that the relation holds of. -/
theorem splits_uniquely (text : String) :
    (∃ front operand, Splits text front operand ∧
      (∀ front' operand', Splits text front' operand' → front' = front ∧ operand' = operand) ∧
      relationLength text = front.utf8ByteSize ∧
      (ofText text).operand = operand ∧ (ofText text).pattern = .ofText operand ∧
      (∀ r, (ofText text).relation = some r ↔ front = r.text ∨ front = "" ∧ r = .equal) ∧
      ((ofText text).relation.isSome ↔ front ∈ ["", "=", "<>", "<", "<=", ">", ">="]) ∧
      ((ofText text).relation = none → ∀ dates v, (ofText text).selects dates v = false)) ∧
    ∀ (r : Relation) (operand : String), IsOperand operand →
      Splits (r.text ++ operand) r.text operand ∧ ofText (r.text ++ operand) = ⟨some r, operand, .ofText operand⟩ ∧
      ∀ v, (ofText (r.text ++ operand)).selects .from1900 v = compareWith v operand r := by
  have hsplits := splits_ofText text
  have hrelation : (ofText text).relation = Relation.ofText? (.ofList (text.toList.takeWhile isRelationChar)) := by
    rw [Relation.ofText?, String.toList_ofList]
    rfl
  refine ⟨⟨_, _, hsplits, fun _ _ => hsplits.unique, ?_, rfl, rfl, fun r => ?_, ?_, fun hnone dates v => ?_⟩,
    fun r operand hoperand => ⟨splits_append (isRelationChar_text r) hoperand, ofText_append r hoperand, fun v => ?_⟩⟩
  · rw [utf8ByteSize_of_isRelationChar hsplits.isRelationChar, String.length_ofList]
    rfl
  · rw [hrelation, Relation.ofText?_eq_some_iff]
  · rw [hrelation, Relation.isSome_ofText?_iff]
  · rw [selects, hnone]
    rfl
  · rw [ofText_append r hoperand]
    rfl

/-- Three relation characters in front make up no relation, and a percentage behind one is an operand. -/
theorem splits_uniquely_crowded :
    Splits "<>=5" "<>=" "5" ∧ (∀ v, (ofText "<>=5").selects .from1900 v = false) ∧
    IsOperand "é%" ∧ ofText ">=é%" = ⟨some .greaterEqual, "é%", .ofText "é%"⟩ := by
  obtain ⟨⟨front, operand, hsplits, hunique, -, -, -, -, hsome, hnone⟩, -⟩ := splits_uniquely "<>=5"
  have hfront : ∀ c ∈ "<>=".toList, isRelationChar c = true := List.all_eq_true.1 rfl
  have hcrowded : Splits ("<>=" ++ "5") "<>=" "5" := splits_append hfront (by decide)
  obtain ⟨rfl, rfl⟩ := hunique _ _ hcrowded
  have hoperand : IsOperand "é%" := by decide
  refine ⟨hcrowded, hnone ?_ _, hoperand, ((splits_uniquely "").2 .greaterEqual "é%" hoperand).2.1⟩
  rw [← Option.not_isSome_iff_eq_none, hsome]
  decide

end Spreadsheet.Criteria
