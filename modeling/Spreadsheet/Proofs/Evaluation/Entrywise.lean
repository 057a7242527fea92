import Spreadsheet.Evaluation.Operators
import Spreadsheet.Proofs.Value.Tables

/-!
# Operators on tables

An operator combines tables entry by entry (`Operator.isEntrywise`), by the rule that it has for scalars.  There are two
ways to its result for an entry: the operator applied to the entry on its own, where an error is passed on before the rule
comes into play (`applyBinary_of_scalars`), and the rule applied to all entries of a table, errors included
(`applyBinary_of_denotes`).  Both give the same (`applyOperator_tables`).
-/

namespace Spreadsheet

/-! ### Operands that are written out -/

namespace Token

variable {σ : Type} {t : Token} {v : Value}

/-- The rows of a table. -/
def rows? : Token → Option (List (List Scalar))
  | array rows => some rows
  | _ => none

/-- Tables with an entry, and scalars that are no errors. -/
def isCombinable : Token → Bool
  | array rows => !rows.flatten.isEmpty
  | number _ | integer _ | text _ | boolean _ | missing | blank => true
  | _ => false

/-- Entry `i` of a table, row by row.  Any other operand goes with all entries. -/
def entry (i : Nat) : Token → Token
  | array rows => ofScalar (rows.flatten[i]?.getD .empty)
  | t => t

/-- An operand that is written out as a scalar or a table, and its value. -/
inductive Denotes : Token → Value → Prop
  | number (x : Float) : Denotes (number x) (.number x)
  | integer (n : Int) : Denotes (integer n) (.number (Float.ofInt n))
  | text (s : String) : Denotes (text s) (.text s)
  | boolean (b : Bool) : Denotes (boolean b) (.boolean b)
  | error (e : ErrorCode) : Denotes (ofCode e) (.error e)
  | missing : Denotes missing .empty
  | blank : Denotes blank .empty
  | array (rows : List (List Scalar)) : Denotes (array rows) (.ofRows rows)

private theorem Denotes.value_eq (h : Denotes t v) (s : Scope σ) : t.value s = pure v := by
  cases h <;> rfl

private theorem denotes_ofScalar (x : Scalar) : Denotes (ofScalar x) (.ofScalar x) := by
  cases x <;> constructor

private theorem ofScalar_ne_integer (x : Scalar) (n : Int) : ofScalar x ≠ .integer n := by
  cases x <;> simp [ofScalar]

theorem Denotes.entry (h : Denotes t v) (i : Nat) : Denotes (t.entry i) (v.entry i) := by
  cases h with
  | array rows =>
    rw [Value.entry_ofRows]
    exact denotes_ofScalar _
  | _ => constructor

/-- There are no tables inside of tables. -/
theorem Denotes.isArray_entry (h : Denotes t v) (i : Nat) : (v.entry i).isArray = false := by
  cases h with
  | array rows => rw [Value.entry_ofRows, Value.isArray_ofScalar]
  | _ => rfl

theorem Denotes.isArray_eq (h : Denotes t v) : v.isArray = t.rows?.isSome := by
  cases h <;> rfl

private theorem Denotes.eq_ofRows {rows : List (List Scalar)} (h : Denotes t v) (hrows : t.rows? = some rows) :
    v = .ofRows rows := by
  cases h with
  | array rows' => exact congrArg Value.ofRows (Option.some.inj hrows)
  | _ => cases hrows

/-- Only an error has the value of an error. -/
theorem Denotes.find?_isError (h : Denotes t v) : [t].find? isError = v.error?.map ofCode := by
  cases h <;> rfl

private theorem exists_denotes (h : t.isCombinable = true) :
    ∃ v, Denotes t v ∧ v.error? = none ∧ Comparison.isEmptyTable v = false := by
  cases t with
  | array rows => exact ⟨_, .array rows, rfl, by simpa [Value.ofRows, Comparison.isEmptyTable, isCombinable] using h⟩
  | number | integer | text | boolean | missing | blank => exact ⟨_, by constructor, rfl, rfl⟩
  | _ => cases h

/-- A value that is no table is an operand that a table can have as an entry. -/
theorem ofValue_of_scalar (hv : v.isArray = false) : ofValue v = ofScalar v.toScalar := by
  cases v with
  | array rows => cases hv
  | _ => rfl

end Token

/-! ### The rules for scalars -/

variable {settings : Settings} {op : Operator} {v w : Value}

private theorem Arithmetic.isArray_checked (r : Except ErrorCode Float) : (checked r).isArray = false := by
  unfold checked
  split
  · split <;> rfl
  · rfl

private theorem Arithmetic.isArray_unary : (unary settings op v).isArray = false := by
  unfold unary
  split
  · rfl
  · split <;> rfl

namespace Operator

/-- The operators that combine tables entry by entry: arithmetic, comparisons, the minus sign and the percent sign. -/
def isEntrywise : Operator → Bool
  | add | subtract | multiply | divide | power | unaryMinus | percent => true
  | op => op.isComparison

/-- The rule by which an operator combines two scalars. -/
def rule (settings : Settings) (op : Operator) : Value → Value → Value :=
  if op.isComparison then Comparison.scalars op else Arithmetic.binary settings op

private theorem isArray_rule : (op.rule settings v w).isArray = false := by
  unfold rule
  split
  · unfold Comparison.scalars
    split
    · rfl
    · dsimp only
      split <;> rfl
  · unfold Arithmetic.binary
    split
    · rfl
    · split
      · exact Arithmetic.isArray_checked _
      · rfl

/-- The rule passes the error of the left operand on, or else that of the right one; only a power makes its own of it. -/
theorem rule_of_error {e : ErrorCode} (h : v.error?.or w.error? = some e) :
    op.rule settings v w = .error (if op = .power then .value else e) := by
  unfold rule
  split
  · rename_i hop
    rw [if_neg (by rintro rfl; cases hop), Comparison.scalars, h]
  · rw [Arithmetic.binary, h]

private theorem onValues_eq_broadcast (hop : op.isEntrywise = true) (hbinary : op.isUnary = false)
    (hv : Comparison.isEmptyTable v = false) (hw : Comparison.isEmptyTable w = false) :
    op.onValues settings v w = .ofValue (Value.broadcast (op.rule settings) v w) := by
  have hcompare : Comparison.values op v w = Value.broadcast (Comparison.scalars op) v w := by
    unfold Comparison.values
    rw [hv, hw, Bool.or_self, Bool.and_false]
    rfl
  cases op with
  | add | subtract | multiply | divide | power => rfl
  | lessThan | lessEqual | equal | greaterEqual | greaterThan | notEqual => exact congrArg Token.ofValue hcompare
  | unaryMinus | percent => cases hbinary
  | _ => cases hop

end Operator

/-! ### Operators on operands that are written out -/

variable {σ : Type} {s : Scope σ} {a b : Token}

private theorem Operator.isReference_of_isEntrywise (hop : op.isEntrywise = true) : op.isReference = false := by
  cases op with
  | intersect | union | range => cases hop
  | _ => rfl

theorem Comparison.isEmptyTable_of_scalar (hv : v.isArray = false) : isEmptyTable v = false := by
  cases v with
  | array rows => cases hv
  | _ => rfl

private theorem find?_isError_of_denotes (ha : Token.Denotes a v) (hb : Token.Denotes b w) :
    [a, b].find? Token.isError = (v.error?.or w.error?).map Token.ofCode := by
  show ([a] ++ [b]).find? Token.isError = _
  rw [List.find?_append, ha.find?_isError, hb.find?_isError]
  cases v.error? <;> rfl

/-- Without errors and empty tables the rule is applied to all entries. -/
theorem applyBinary_of_denotes (hop : op.isEntrywise = true) (hbinary : op.isUnary = false)
    (ha : Token.Denotes a v) (hb : Token.Denotes b w) (he : v.error?.or w.error? = none)
    (hv : Comparison.isEmptyTable v = false) (hw : Comparison.isEmptyTable w = false) :
    applyBinary s op a b = pure (.ofValue (Value.broadcast (op.rule s.settings) v w)) := by
  unfold applyBinary applyToValues
  rw [if_neg (by simp [op.isReference_of_isEntrywise hop]), find?_isError_of_denotes ha hb, he]
  dsimp only [Option.map_none]
  rw [ha.value_eq, hb.value_eq, pure_bind, pure_bind,
    Operator.onValues_eq_broadcast hop hbinary hv hw]

/-- For scalars the errors are found before the rule comes into play, with the same outcome. -/
theorem applyBinary_of_scalars (hop : op.isEntrywise = true) (hbinary : op.isUnary = false)
    (ha : Token.Denotes a v) (hb : Token.Denotes b w) (hv : v.isArray = false) (hw : w.isArray = false) :
    applyBinary s op a b = pure (.ofValue (op.rule s.settings v w)) := by
  cases he : v.error?.or w.error? with
  | none =>
    rw [applyBinary_of_denotes hop hbinary ha hb he (Comparison.isEmptyTable_of_scalar hv)
      (Comparison.isEmptyTable_of_scalar hw), Value.broadcast_of_scalars _ hv hw]
  | some e =>
    unfold applyBinary
    rw [if_neg (by simp [op.isReference_of_isEntrywise hop]), find?_isError_of_denotes ha hb, he,
      Operator.rule_of_error he]
    dsimp only [Option.map_some]
    split <;> rfl

/-- A sign looks at the value of its operand, but for an integer. -/
theorem applyUnary_of_denotes (hop : op.isEntrywise = true) (hunary : op.isUnary = true) (ha : Token.Denotes a v)
    (hinteger : ∀ n, a ≠ .integer n) :
    applyUnary s op a = pure (.ofValue (v.mapElements (Arithmetic.unary s.settings op))) := by
  have hplus : op ≠ .unaryPlus := by
    rintro rfl
    cases hop
  unfold applyUnary
  cases he : a.isError with
  | true =>
    rw [if_pos (by simp)]
    cases ha with
    | error e => rfl
    | _ => cases he
  | false =>
    rw [if_neg (by simp [hplus])]
    split
    · rename_i n
      exact absurd rfl (hinteger n)
    · rw [applySign, ha.value_eq, pure_bind]

/-! ### Operators on tables -/

variable {lead : List (List Scalar)} {rest : List (List (List Scalar))}

/-- The operator gives a table in the shape of `lead`, and the entries of this table are what it gives for the entries of
the operands. -/
def GivesEntries (s : Scope σ) (op : Operator) (args : List Token) (lead : List (List Scalar)) : Prop :=
  ∃ g : Nat → Value, (∀ i, (g i).isArray = false) ∧
    applyOperator s op args = pure (.ofValue ((Value.ofRows lead).tabulate g)) ∧
    ∀ i, applyOperator s op (args.map (Token.entry i)) = pure (.ofValue (g i))

/-- The table that the operator gives. -/
theorem GivesEntries.exists_result {args : List Token} (h : GivesEntries s op args lead) :
    ∃ result, applyOperator s op args = pure (.array result) ∧ result.flatten.length = lead.flatten.length ∧
      (∀ i x, result.flatten[i]? = some x →
        applyOperator s op (args.map (Token.entry i)) = pure (.ofScalar x)) ∧
      ∀ cols, 0 < cols → (∀ row ∈ lead, row.length = cols) → result.map List.length = lead.map List.length := by
  obtain ⟨g, hscalar, htable, hentries⟩ := h
  obtain ⟨rows, hrows, hflatten, hshape⟩ := Value.exists_tabulate_eq lead g
  have hresult : (rows.map (·.map Value.toScalar)).flatten =
      (List.range lead.flatten.length).map fun i => (g i).toScalar := by
    rw [← List.map_flatten, hflatten, List.map_map]
    rfl
  refine ⟨rows.map (·.map Value.toScalar), ?_, ?_, fun i x hx => ?_, fun cols hcols hlead => ?_⟩
  · rw [htable, hrows]
    rfl
  · rw [hresult, List.length_map, List.length_range]
  · rw [hresult, List.getElem?_map, Option.map_eq_some_iff] at hx
    obtain ⟨j, hj, rfl⟩ := hx
    obtain ⟨_, hj⟩ := List.getElem?_eq_some_iff.1 hj
    rw [List.getElem_range] at hj
    rw [hj, hentries, Token.ofValue_of_scalar (hscalar _)]
  · rw [← hshape cols hcols hlead, List.map_map]
    refine List.map_congr_left fun row _ => List.length_map ..

theorem applyOperator_unary (hop : op.isUnary = true) : applyOperator s op [a] = applyUnary s op a := by
  unfold applyOperator
  rw [hop]

theorem applyOperator_binary (hop : op.isUnary = false) : applyOperator s op [a, b] = applyBinary s op a b := by
  unfold applyOperator
  rw [hop]

/-- An operator on values resolves its operands if neither is an error. -/
theorem applyOperator_of_not_isError (hbinary : op.isUnary = false) (hop : op.isReference = false)
    (ha : a.isError = false) (hb : b.isError = false) : applyOperator s op [a, b] = applyToValues s op a b := by
  have hfind : [a, b].find? Token.isError = none := by simp [ha, hb]
  rw [applyOperator_binary hbinary, applyBinary, if_neg (by simp [hop]), hfind]

/-- A sign goes to each entry of a table. -/
theorem givesEntries_unary (hop : op.isEntrywise = true) (hunary : op.isUnary = true) :
    GivesEntries s op [.array lead] lead := by
  have hdenotes := Token.Denotes.array lead
  refine ⟨fun i => Arithmetic.unary s.settings op ((Value.ofRows lead).entry i), fun i => Arithmetic.isArray_unary, ?_,
    fun i => ?_⟩
  · rw [applyOperator_unary hunary, applyUnary_of_denotes hop hunary hdenotes (by simp),
      Value.mapElements_eq_tabulate _ rfl]
  · have hinteger : ∀ n, Token.entry i (.array lead) ≠ .integer n := fun n => Token.ofScalar_ne_integer _ n
    rw [List.map_singleton, applyOperator_unary hunary, applyUnary_of_denotes hop hunary (hdenotes.entry i) hinteger,
      Value.mapElements_of_scalar _ (hdenotes.isArray_entry i)]

/-- Operands at least one of which is a table. -/
theorem applyBinary_tables (hop : op.isEntrywise = true) (hbinary : op.isUnary = false) (ha : a.isCombinable = true)
    (hb : b.isCombinable = true) (htables : [a, b].filterMap Token.rows? = lead :: rest) :
    ((∃ rows ∈ rest, rows.flatten.length ≠ lead.flatten.length) →
      applyOperator s op [a, b] = pure (.ofCode .value)) ∧
    ((∀ rows ∈ rest, rows.flatten.length = lead.flatten.length) → GivesEntries s op [a, b] lead) := by
  obtain ⟨v, hv, hev, htv⟩ := Token.exists_denotes ha
  obtain ⟨w, hw, hew, htw⟩ := Token.exists_denotes hb
  have hall : applyOperator s op [a, b] = pure (.ofValue (Value.broadcast (op.rule s.settings) v w)) := by
    rw [applyOperator_binary hbinary, applyBinary_of_denotes hop hbinary hv hw (by rw [hev, hew]; rfl) htv htw]
  have hentries : ∀ i, applyOperator s op ([a, b].map (Token.entry i)) =
      pure (.ofValue (op.rule s.settings (v.entry i) (w.entry i))) := by
    intro i
    rw [List.map_cons, List.map_singleton, applyOperator_binary hbinary]
    exact applyBinary_of_scalars hop hbinary (hv.entry i) (hw.entry i) (hv.isArray_entry i) (hw.isArray_entry i)
  have hgives : Value.broadcast (op.rule s.settings) v w =
      (Value.ofRows lead).tabulate (fun i => op.rule s.settings (v.entry i) (w.entry i)) →
      GivesEntries s op [a, b] lead :=
    fun h => ⟨_, fun i => op.isArray_rule, by rw [hall, h], hentries⟩
  cases hra : a.rows? with
  | none =>
    -- The right operand is the only table.
    cases hrb : b.rows? with
    | none => simp [hra, hrb] at htables
    | some rows =>
      obtain ⟨rfl, rfl⟩ : rows = lead ∧ [] = rest := by simpa [hra, hrb] using htables
      obtain rfl := hw.eq_ofRows hrb
      refine ⟨fun ⟨_, h, _⟩ => (List.not_mem_nil h).elim, fun _ => hgives ?_⟩
      exact Value.broadcast_right _ (by rw [hv.isArray_eq, hra]; rfl) rfl
  | some rows =>
    obtain rfl := hv.eq_ofRows hra
    cases hrb : b.rows? with
    | none =>
      obtain ⟨rfl, rfl⟩ : rows = lead ∧ [] = rest := by simpa [hra, hrb] using htables
      refine ⟨fun ⟨_, h, _⟩ => (List.not_mem_nil h).elim, fun _ => hgives ?_⟩
      exact Value.broadcast_left _ rfl fun h => by simp [hw.isArray_eq, hrb] at h
    | some rows' =>
      obtain ⟨rfl, rfl⟩ : rows = lead ∧ [rows'] = rest := by simpa [hra, hrb] using htables
      obtain rfl := hw.eq_ofRows hrb
      simp only [List.mem_singleton, exists_eq_left, forall_eq, ← Value.length_elements_ofRows]
      refine ⟨fun hne => ?_, fun hsame => hgives (Value.broadcast_left _ rfl fun _ => hsame)⟩
      rw [hall, Value.broadcast_of_length_ne _ rfl rfl hne]
      rfl

/-- An operator is applied to operands at least one of which is a table.  Two tables with different numbers of entries are
a value of the wrong type.  Otherwise the entries of the result are, row by row, what the operator gives for the entries
of the operands, errors included, where a scalar goes with all entries; and the result has the rows of the first table if
these are equally long and not empty. -/
theorem applyOperator_tables (s : Scope σ) (hop : op.isEntrywise = true) {args : List Token}
    (hlength : args.length = op.arity) (hargs : ∀ t ∈ args, t.isCombinable = true)
    (htables : args.filterMap Token.rows? = lead :: rest) :
    ((∃ rows ∈ rest, rows.flatten.length ≠ lead.flatten.length) →
      applyOperator s op args = pure (.ofCode .value)) ∧
    ((∀ rows ∈ rest, rows.flatten.length = lead.flatten.length) →
      ∃ result, applyOperator s op args = pure (.array result) ∧ result.flatten.length = lead.flatten.length ∧
        (∀ i x, result.flatten[i]? = some x →
          applyOperator s op (args.map (Token.entry i)) = pure (.ofScalar x)) ∧
        ∀ cols, 0 < cols → (∀ row ∈ lead, row.length = cols) →
          result.map List.length = lead.map List.length) := by
  cases hunary : op.isUnary with
  | true =>
    have harity : op.arity = 1 := if_pos hunary
    obtain ⟨t, rfl⟩ := List.length_eq_one_iff.1 (hlength.trans harity)
    cases t with
    | array rows =>
      obtain ⟨rfl, rfl⟩ : rows = lead ∧ [] = rest := by simpa [Token.rows?] using htables
      exact ⟨fun ⟨_, h, _⟩ => (List.not_mem_nil h).elim, fun _ => (givesEntries_unary hop hunary).exists_result⟩
    | _ => cases htables
  | false =>
    have harity : op.arity = 2 := if_neg (by rw [hunary]; decide)
    match args, hlength.trans harity with
    | [a, b], _ =>
      obtain ⟨hdiffer, hsame⟩ := applyBinary_tables (s := s) hop hunary (hargs a (by simp)) (hargs b (by simp)) htables
      exact ⟨hdiffer, fun h => (hsame h).exists_result⟩

/-- A power of two tables of different shapes, with errors and blanks in them. -/
theorem applyOperator_power :
    ∃ result, applyOperator ⟨{}, Resolver.blank (σ := Unit), none⟩ .power
        [.array [[.boolean true, .error .na], [.empty, .text "x"]],
          .array [[.text "1", .empty, .error .div0, .boolean false]]] = pure (.array result) ∧
      result.map List.length = [2, 2] ∧
      ∀ x, result.flatten[1]? = some x →
        applyOperator ⟨{}, Resolver.blank (σ := Unit), none⟩ .power [.ofCode .na, .blank] = pure (.ofScalar x) := by
  have hcombinable : ∀ t ∈ [Token.array [[.boolean true, .error .na], [.empty, .text "x"]],
      .array [[.text "1", .empty, .error .div0, .boolean false]]], t.isCombinable = true := by decide
  have hop : Operator.power.isEntrywise = true := rfl
  obtain ⟨result, hresult, -, hentries, hshape⟩ := (applyOperator_tables _ hop rfl hcombinable rfl).2 (by decide)
  exact ⟨result, hresult, hshape 2 (by decide) (by decide), fun x hx => hentries 1 x hx⟩

end Spreadsheet
