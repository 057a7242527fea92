import Spreadsheet.Evaluation.Functions
import Spreadsheet.Evaluation.Operators
import Spreadsheet.Proofs.Number.Finite
import Spreadsheet.Proofs.Value.Tables

/-!
# The numbers in a value

`Value.Within N` says that all numbers in a value, the entries of a table included, have the property `N`, and likewise
for scalars and for operands.  Taking values apart and putting them together, selecting and replacing entries and
comparing them keep this up whatever `N` is.  Arithmetic keeps it up if finite numbers have the property and changing
the sign or taking the hundredth part of a number does not lose it.
-/

namespace Spreadsheet

variable {N : Float → Prop}

/-- The number, if the scalar is one, has the property. -/
def Scalar.Within (N : Float → Prop) : Scalar → Prop
  | .number x => N x
  | _ => True

/-- All numbers in the value have the property. -/
inductive Value.Within (N : Float → Prop) : Value → Prop
  | empty : Within N .empty
  | boolean (b : Bool) : Within N (.boolean b)
  | number {x : Float} (h : N x) : Within N (.number x)
  | text (s : String) : Within N (.text s)
  | error (e : ErrorCode) : Within N (.error e)
  | array {rows : List (List Value)} (h : ∀ row ∈ rows, ∀ v ∈ row, Within N v) : Within N (.array rows)

/-- All numbers in the operand have the property. -/
def Token.Within (N : Float → Prop) : Token → Prop
  | .number x => N x
  | .integer n => N (Float.ofInt n)
  | .array rows => ∀ row ∈ rows, ∀ v ∈ row, v.Within N
  | _ => True

theorem Scalar.within_true (v : Scalar) : v.Within fun _ => True := by
  cases v <;> exact trivial

theorem Token.within_true (t : Token) : t.Within fun _ => True := by
  cases t with
  | array rows => exact fun row _ v _ => v.within_true
  | _ => exact trivial

/-! ### Scalars, tables and operands -/

namespace Value

theorem Within.of_number {x : Float} (h : (Value.number x).Within N) : N x := by
  cases h with
  | number h => exact h

theorem within_ofScalar {v : Scalar} (h : v.Within N) : (ofScalar v).Within N := by
  cases v with
  | empty => exact .empty
  | boolean b => exact .boolean b
  | number x => exact .number h
  | text s => exact .text s
  | error e => exact .error e

theorem within_ofRows {rows : List (List Scalar)} (h : ∀ row ∈ rows, ∀ v ∈ row, v.Within N) :
    (ofRows rows).Within N := by
  refine .array fun row hrow v hv => ?_
  obtain ⟨row', hrow', rfl⟩ := List.mem_map.1 hrow
  obtain ⟨v', hv', rfl⟩ := List.mem_map.1 hv
  exact within_ofScalar (h row' hrow' v' hv')

theorem Within.toScalar {v : Value} (h : v.Within N) : v.toScalar.Within N := by
  cases h with
  | number h => exact h
  | _ => exact trivial

theorem Within.corner {v : Value} (h : v.Within N) : v.corner.Within N := by
  induction h with
  | @array rows h ih =>
    match rows with
    | [] | [] :: _ =>
      rw [Value.corner]
      · exact .empty
      · simp
    | (v :: row) :: rows =>
      rw [Value.corner]
      exact ih _ (List.mem_cons_self ..) _ (List.mem_cons_self ..)
  | empty => exact .empty
  | boolean b => exact .boolean b
  | number h => exact .number h
  | text s => exact .text s
  | error e => exact .error e

theorem Within.elements {v : Value} (h : v.Within N) : ∀ x ∈ v.elements, x.Within N := by
  intro x hx
  cases h with
  | array h =>
    obtain ⟨row, hrow, hx⟩ := List.mem_flatten.1 hx
    exact h row hrow x hx
  | empty => exact List.mem_singleton.1 hx ▸ .empty
  | boolean b => exact List.mem_singleton.1 hx ▸ .boolean b
  | number h => exact List.mem_singleton.1 hx ▸ .number h
  | text s => exact List.mem_singleton.1 hx ▸ .text s
  | error e => exact List.mem_singleton.1 hx ▸ .error e

private theorem mem_of_mem_splitRows {width : Nat} {vs : List Value} {row : List Value} {v : Value}
    (hrow : row ∈ splitRows width vs) (hv : v ∈ row) : v ∈ vs := by
  rw [← flatten_splitRows width vs]
  exact List.mem_flatten.2 ⟨row, hrow, hv⟩

private theorem within_ofElements {vs : List Value} (h : ∀ v ∈ vs, v.Within N) (cols : Nat) :
    (ofElements vs cols).Within N :=
  .array fun _ hrow v hv => h v (mem_of_mem_splitRows hrow hv)

theorem Within.mapElements {f : Value → Value} (hf : ∀ x, x.Within N → (f x).Within N) {v : Value} (h : v.Within N) :
    (v.mapElements f).Within N := by
  unfold Value.mapElements
  split
  · refine within_ofElements (fun x hx => ?_) _
    obtain ⟨y, hy, rfl⟩ := List.mem_map.1 hx
    exact hf y (h.elements y hy)
  · exact hf v h

private theorem mem_zipWith {α β γ : Type} {f : α → β → γ} {xs : List α} {ys : List β} {z : γ}
    (h : z ∈ xs.zipWith f ys) : ∃ x y, z = f x y := by
  rw [← List.map_uncurry_zip_eq_zipWith] at h
  obtain ⟨⟨x, y⟩, -, rfl⟩ := List.mem_map.1 h
  exact ⟨x, y, rfl⟩

/-- A rule whose results have the property gives tables with the property. -/
theorem within_broadcast {f : Value → Value → Value} (hf : ∀ x y, (f x y).Within N) (v w : Value) :
    (broadcast f v w).Within N := by
  unfold broadcast
  split
  · split
    · exact .error _
    · refine within_ofElements (fun z hz => ?_) _
      obtain ⟨x, y, rfl⟩ := mem_zipWith hz
      exact hf x y
  · refine within_ofElements (fun z hz => ?_) _
    obtain ⟨x, -, rfl⟩ := List.mem_map.1 hz
    exact hf x _
  · refine within_ofElements (fun z hz => ?_) _
    obtain ⟨y, -, rfl⟩ := List.mem_map.1 hz
    exact hf _ y
  · exact hf v w

end Value

namespace Token

theorem within_ofScalar {v : Scalar} (h : v.Within N) : (ofScalar v).Within N := by
  cases v with
  | number x => exact h
  | _ => exact trivial

theorem within_ofValue {v : Value} (h : v.Within N) : (ofValue v).Within N := by
  cases h with
  | number h => exact h
  | array h =>
    intro row hrow v hv
    obtain ⟨row', hrow', rfl⟩ := List.mem_map.1 hrow
    obtain ⟨v', hv', rfl⟩ := List.mem_map.1 hv
    exact (h row' hrow' v' hv').toScalar
  | _ => exact trivial

theorem within_ofReference (ref : Reference) : (ofReference ref).Within N := by
  cases ref <;> exact trivial

end Token

/-! ### Arithmetic -/

/-- Finite numbers have the property, and changing the sign and taking the hundredth part do not lose it. -/
structure SignClosed (N : Float → Prop) : Prop where
  finite : ∀ x, x.isFinite → N x
  negated : ∀ x, N x → N (0 - x)
  hundredth : ∀ x, N x → N (x / 100)
  integer : ∀ n, N (Float.ofInt n) → N (Float.ofInt (-n))

theorem signClosed_true : SignClosed fun _ => True :=
  ⟨fun _ _ => trivial, fun _ _ => trivial, fun _ _ => trivial, fun _ _ => trivial⟩

theorem signClosed_isFinite : SignClosed fun x => x.isFinite = true :=
  ⟨fun _ => id, fun _ => Number.isFinite_zero_sub, fun _ => Number.isFinite_div_hundred,
    fun _ => Number.isFinite_ofInt_neg⟩

namespace SignClosed

variable (hN : SignClosed N)
include hN

theorem zero : N 0 :=
  hN.finite 0 rfl

theorem truth (b : Bool) : N (if b then 1 else 0) := by
  cases b <;> exact hN.finite _ rfl

theorem blank {b : Bool} {x : Float} (h : (if b then some 0 else none) = some x) : N x := by
  cases b with
  | false => cases h
  | true =>
    obtain rfl := Option.some.inj h
    exact hN.zero

theorem coerce? {settings : Settings} {v : Value} (hv : v.Within N) {x : Float} (h : v.coerce? settings = some x) :
    N x := by
  cases hv with
  | number hv =>
    obtain rfl := Option.some.inj h
    exact hv
  | boolean b =>
    obtain rfl := Option.some.inj h
    exact hN.truth b
  | empty => exact hN.blank h
  | text s =>
    unfold Value.coerce? at h
    dsimp only at h
    split at h
    · exact hN.blank h
    · rcases Option.or_eq_some_iff.1 h with h | ⟨-, h⟩
      · exact hN.finite x (Number.isFinite_ofText? h)
      · exact hN.finite x (Calendar.isFinite_readSerial? h)
  | error | array => cases h

theorem checked (r : Except ErrorCode Float) : (Arithmetic.checked r).Within N := by
  unfold Arithmetic.checked
  split
  · split
    · rename_i x hx
      exact .number (hN.finite x hx)
    · exact .error _
  · exact .error _

/-- Whatever the operands are, arithmetic checks its result. -/
theorem binary (settings : Settings) (op : Operator) (a b : Value) :
    (Arithmetic.binary settings op a b).Within N := by
  unfold Arithmetic.binary
  split
  · exact .error _
  · split
    · exact hN.checked _
    · exact .error _

theorem unary (settings : Settings) (op : Operator) {a : Value} (ha : a.Within N) :
    (Arithmetic.unary settings op a).Within N := by
  unfold Arithmetic.unary
  split
  · exact .error _
  · split
    · rename_i x hx
      have hx := hN.coerce? ha hx
      refine .number ?_
      split
      · exact hN.hundredth x hx
      · exact hN.negated x hx
    · exact .error _

theorem negateInteger {n : Int} (hn : N (Float.ofInt n)) : (Spreadsheet.negateInteger n).Within N := by
  unfold Spreadsheet.negateInteger
  split
  · exact hN.integer n hn
  · exact hN.integer n hn

end SignClosed

/-! ### Comparison and choice -/

private theorem Comparison.within_scalars (op : Operator) (a b : Value) : (Comparison.scalars op a b).Within N := by
  unfold Comparison.scalars
  split
  · exact .error _
  · dsimp only
    split
    · exact .boolean _
    · exact .error _

private theorem Comparison.within_values (op : Operator) (a b : Value) : (Comparison.values op a b).Within N := by
  unfold Comparison.values
  split
  · refine .array fun row hrow v hv => ?_
    obtain rfl := List.mem_singleton.1 hrow
    obtain rfl := List.mem_singleton.1 hv
    exact .boolean _
  · exact Value.within_broadcast (Comparison.within_scalars op) a b

private theorem within_concatenate (a b : Value) : (concatenate a b).Within N := by
  unfold concatenate
  split
  · trivial
  · split <;> trivial

theorem SignClosed.onValues (hN : SignClosed N) (settings : Settings) (op : Operator) (a b : Value) :
    (op.onValues settings a b).Within N := by
  unfold Operator.onValues
  split
  · exact Token.within_ofValue (Value.within_broadcast (hN.binary settings _) a b)
  · exact Token.within_ofValue (Value.within_broadcast (hN.binary settings _) a b)
  · exact Token.within_ofValue (Value.within_broadcast (hN.binary settings _) a b)
  · exact Token.within_ofValue (Value.within_broadcast (hN.binary settings _) a b)
  · exact Token.within_ofValue (Value.within_broadcast (hN.binary settings _) a b)
  · exact within_concatenate a b
  · exact Token.within_ofValue (Comparison.within_values _ a b)

namespace Logic

private theorem within_pick {branch : Value} (h : branch.Within N) (i : Nat) : (pick branch i).Within N := by
  unfold pick
  split
  · rw [List.getD_eq_getElem?_getD]
    cases hi : (Value.elements _)[i]? with
    | some v => exact h.elements v (List.mem_of_getElem? hi)
    | none => exact .error _
  · exact h

theorem within_mapIndexed {f : Value → Nat → Value} {v : Value} (hf : ∀ x ∈ v.elements, ∀ i, (f x i).Within N) :
    (mapIndexed f v).Within N := by
  refine Value.within_ofElements (fun y hy => ?_) _
  obtain ⟨⟨x, i⟩, hx, rfl⟩ := List.mem_map.1 hy
  exact hf x (List.mem_of_getElem? (List.mem_zipIdx_iff_getElem?.1 hx)) i

theorem within_select {ifTrue ifFalse : Value} (htrue : ifTrue.Within N) (hfalse : ifFalse.Within N)
    (condition : Value) (i : Nat) : (select ifTrue ifFalse condition i).Within N := by
  unfold select
  split
  · exact .error _
  · split
    · exact within_pick htrue i
    · exact within_pick hfalse i

theorem within_replaceError {replacement : Value} (hr : replacement.Within N) {v : Value} (hv : v.Within N) (i : Nat) :
    (replaceError replacement v i).Within N := by
  unfold replaceError
  split
  · exact within_pick hr i
  · exact hv

theorem within_branch (hN : SignClosed N) {args : List Token} (hargs : ∀ t ∈ args, t.Within N) (i : Nat) :
    (branch args[i]?).Within N := by
  unfold branch
  split
  · exact hN.zero
  · exact hN.zero
  · rename_i t _ ht
    exact hargs t (List.mem_of_getElem? ht)

end Logic

end Spreadsheet
