import Spreadsheet.Criteria.Basic
import Spreadsheet.Proofs.Number.Order

/-!
# Relations of a criteria

A relation in front of an operand is split off as it was written (`ofText_append`).  An operand compares with every value
other than blanks, error values and NaN (`isSome_compareValue`), and each such comparison selects by exactly one of less,
equal and greater, so that the values are partitioned by these three (`countP_accepts`).
-/

namespace Spreadsheet

/-! ### Numbers that are no NaN -/

private theorem Number.unpack_ne_notANumber_of_isNaN {x : Float} (h : x.isNaN = false) :
    x.toModel.unpack ≠ .notANumber := by
  intro hx
  have hnan : x.toModel.unpack.isNaN = false := h
  rw [hx] at hnan
  cases hnan

private theorem Number.isFinite_readChars? {s : List Char} {x : Float} (h : readChars? s = some x) : x.isFinite :=
  (Option.filter_eq_some_iff.1 h).2

namespace Criteria

/-! ### Relations in front of operands -/

/-- The text does not begin with a relation. -/
def IsOperand (x : String) : Prop :=
  ∀ c ∈ x.toList.head?, isRelationChar c = false

instance (x : String) : Decidable (IsOperand x) :=
  decidable_of_iff (x.toList.head?.all (!isRelationChar ·) = true) (by simp [IsOperand, Option.all_eq_true])

variable {x : String}

theorem IsOperand.takeWhile (hx : IsOperand x) : x.toList.takeWhile isRelationChar = [] := by
  unfold IsOperand at hx
  cases hlist : x.toList with
  | nil => rfl
  | cons c s =>
    rw [hlist] at hx
    exact List.takeWhile_cons_of_neg (by simp [hx c rfl])

theorem IsOperand.dropWhile (hx : IsOperand x) : x.toList.dropWhile isRelationChar = x.toList := by
  unfold IsOperand at hx
  cases hlist : x.toList with
  | nil => rfl
  | cons c s =>
    rw [hlist] at hx
    exact List.dropWhile_cons_of_neg (by simp [hx c rfl])

theorem ofText_of_isOperand (hx : IsOperand x) : ofText x = ⟨some .equal, x, Pattern.ofText x⟩ := by
  rw [ofText, hx.takeWhile, hx.dropWhile, String.ofList_toList]
  rfl

theorem ofText_append (r : Relation) (hx : IsOperand x) : ofText (r.text ++ x) = ⟨some r, x, Pattern.ofText x⟩ := by
  have hr : ∀ c ∈ r.text.toList, isRelationChar c = true := by
    cases r <;> exact List.all_eq_true.1 rfl
  have hread : Relation.ofChars? r.text.toList = some r := r.ofText?_text
  rw [ofText, String.toList_append, List.takeWhile_append_of_pos hr, List.dropWhile_append_of_pos hr, hx.takeWhile,
    hx.dropWhile, List.append_nil, hread, String.ofList_toList]

/-! ### Comparing operands with values -/

theorem compareNumbers_eq (x y : Float) : compareNumbers x y = Number.order? x y := by
  unfold compareNumbers
  have hgt : x > y ↔ Number.order? x y = some .gt := by
    show y < x ↔ _
    rw [Number.lt_iff, Number.order?_swap, Option.map_eq_some_iff]
    simp [Ordering.swap_eq_lt]
  simp only [Number.lt_iff, hgt, Number.beq_iff]
  cases Number.order? x y with
  | none => rfl
  | some o => cases o <;> rfl

private theorem isSome_compareNumbers {x y : Float} (hx : x.isFinite) (hy : y.isNaN = false) :
    (compareNumbers x y).isSome := by
  rw [compareNumbers_eq]
  exact Number.isSome_compare (Number.unpack_ne_notANumber hx) (Number.unpack_ne_notANumber_of_isNaN hy)

/-- Only blanks and error values compare with nothing, and NaN. -/
theorem isSome_compareValue (dates : Calendar.DateSystem) (operand : String) (p : Pattern) {v : Scalar}
    (hnan : ∀ y, v = .number y → y.isNaN = false) :
    (compareValue dates operand p v).isSome = (!v.isEmpty && !v.isError) := by
  cases v with
  | empty | error => rfl
  | boolean b => rfl
  | text s =>
    rw [compareValue]
    split <;> rfl
  | number y =>
    rw [compareValue]
    split
    · rename_i wanted hwanted
      refine isSome_compareNumbers ?_ (hnan y rfl)
      rcases Option.or_eq_some_iff.1 hwanted with h | ⟨-, h⟩
      · exact Number.isFinite_readChars? h
      · exact Calendar.isFinite_readSerial? h
    · rfl

/-! ### Counting by relations -/

/-- The numbers of values selected by the six relations fit together, `total` being the number of all. -/
structure Partitions (count : Relation → Nat) (total : Nat) : Prop where
  total_eq : count .lessThan + count .equal + count .greaterThan = total
  lessEqual : count .lessEqual = count .lessThan + count .equal
  greaterEqual : count .greaterEqual = count .greaterThan + count .equal
  notEqual : count .notEqual = count .lessThan + count .greaterThan

theorem Partitions.zero : Partitions (fun _ => 0) 0 :=
  ⟨rfl, rfl, rfl, rfl⟩

theorem Partitions.add {m n : Relation → Nat} {k l : Nat} (hm : Partitions m k) (hn : Partitions n l) :
    Partitions (fun r => m r + n r) (k + l) := by
  obtain ⟨h₁, h₂, h₃, h₄⟩ := hm
  obtain ⟨h₁', h₂', h₃', h₄'⟩ := hn
  constructor <;> omega

/-- What does not compare is not selected at all, and everything else by one of less, equal and greater. -/
private theorem partitions_accepts (o : Option Ordering) :
    Partitions (fun r => if o.any r.accepts then 1 else 0) (if o.isSome then 1 else 0) := by
  rcases o with _ | _ | _ | _ <;> constructor <;> rfl

theorem countP_accepts {α : Type} (f : α → Option Ordering) (xs : List α) :
    Partitions (fun r => xs.countP fun x => (f x).any r.accepts) (xs.countP fun x => (f x).isSome) := by
  induction xs with
  | nil => exact .zero
  | cons x xs ih =>
    simp only [List.countP_cons]
    exact ih.add (partitions_accepts (f x))

end Criteria

end Spreadsheet
