import QueryTree.Proofs.Safety.Conversion

/-!
# Operators on values of their types

Each operator, applied to values of the types it is meant for, yields a value of the type of its
result or fails for the numbers.  Null is looked at once for all operators but the comparisons.
-/

namespace QueryTree.Value

variable {value left right : Value} {op : BinaryOp} {type : Ty}

/-- What the values of a kind without parts look like, as far as operators tell them apart. -/
def OfAtom (value : Value) : Atom → Prop
  | .boolean => ∃ b, value = boolean b
  | .integral _ => ∃ n, value = integral n
  | .single => ∃ x, value = single x
  | .double => ∃ x, value = double x
  | .decimal => ∃ d, value = decimal d
  | .dateTime => ∃ moment, value = dateTime moment
  | .timeSpan => ∃ span, value = timeSpan span
  | _ => True

theorem HasKind.ofAtom {a : Atom} (kind : value.HasKind (.atom a)) : value.OfAtom a := by
  have natural : value.naturalType = .atom a := Ty.eq_of_same rfl kind.2
  cases value with
  | null => cases kind.1
  | array items =>
      rw [naturalType] at natural
      split at natural
      next => cases natural
      next => cases natural
  | enum => cases natural
  | boolean b => cases natural; exact ⟨b, rfl⟩
  | integral n => cases natural; exact ⟨n, rfl⟩
  | single x => cases natural; exact ⟨x, rfl⟩
  | double x => cases natural; exact ⟨x, rfl⟩
  | decimal d => cases natural; exact ⟨d, rfl⟩
  | dateTime moment => cases natural; exact ⟨moment, rfl⟩
  | timeSpan span => cases natural; exact ⟨span, rfl⟩
  | _ => cases natural; trivial

theorem hasKind_boolean (b : Bool) : (boolean b).HasKind .boolean := ⟨rfl, BEq.rfl⟩

theorem integerArithmetic_computes {m n : Int} (left_int : left.toInt? = some m)
    (right_int : right.toInt? = some n) :
    (integerArithmetic op type left right).Computes (·.HasKind type.core) := by
  rw [integerArithmetic, left_int, right_int]
  simp only
  split
  next => trivial
  next =>
    refine .require (fun result made => ?_) fun _ => trivial
    obtain ⟨k, -, fits⟩ := Option.bind_eq_some_iff.mp made
    exact ofInt?_kind fits

/-- Numbers of one type make a number of this type. -/
theorem arithmetic_computes {a : Atom} (numeric : a.isNumeric = true)
    (left_kind : left.HasKind (.atom a)) (right_kind : right.HasKind (.atom a)) :
    (arithmetic op (.atom a) left right).Computes (·.HasKind (.atom a)) := by
  have left_shape := left_kind.ofAtom
  have right_shape := right_kind.ofAtom
  cases a with
  | integral kind =>
      obtain ⟨m, rfl⟩ := left_shape
      obtain ⟨n, rfl⟩ := right_shape
      exact integerArithmetic_computes (show (integral m).toInt? = some m.val from rfl)
        (show (integral n).toInt? = some n.val from rfl)
  | single =>
      obtain ⟨x, rfl⟩ := left_shape
      obtain ⟨y, rfl⟩ := right_shape
      exact ⟨rfl, BEq.rfl⟩
  | double =>
      obtain ⟨x, rfl⟩ := left_shape
      obtain ⟨y, rfl⟩ := right_shape
      exact ⟨rfl, BEq.rfl⟩
  | decimal =>
      obtain ⟨x, rfl⟩ := left_shape
      obtain ⟨y, rfl⟩ := right_shape
      rw [arithmetic]
      split
      next => trivial
      next =>
        refine .require (fun result made => ?_) fun _ => trivial
        obtain ⟨d, -, rfl⟩ := Option.map_eq_some_iff.mp made
        exact ⟨rfl, BEq.rfl⟩
  | _ => cases numeric

/-- The kinds that a sum or a difference with moments and durations has. -/
def spanKind? (op : BinaryOp) (left right : Atom) : Option Atom :=
  match left, right with
  | .dateTime, .timeSpan => some .dateTime
  | .timeSpan, .timeSpan => some .timeSpan
  | .dateTime, .dateTime => if op = .subtract then some .timeSpan else none
  | _, _ => none

theorem arithmetic_span_computes {a b c : Atom} (kinds : spanKind? op a b = some c)
    (left_kind : left.HasKind (.atom a)) (right_kind : right.HasKind (.atom b)) :
    (arithmetic op type left right).Computes (·.HasKind (.atom c)) := by
  have left_shape := left_kind.ofAtom
  have right_shape := right_kind.ofAtom
  unfold spanKind? at kinds
  split at kinds
  next =>
    obtain ⟨moment, rfl⟩ := left_shape
    obtain ⟨span, rfl⟩ := right_shape
    obtain rfl := Option.some.inj kinds
    refine Evaluation.Meets.require (fun result made => ?_) fun _ => trivial
    obtain ⟨_, -, rfl⟩ := Option.map_eq_some_iff.mp made
    exact ⟨rfl, BEq.rfl⟩
  next =>
    obtain ⟨moment, rfl⟩ := left_shape
    obtain ⟨span, rfl⟩ := right_shape
    obtain rfl := Option.some.inj kinds
    refine Evaluation.Meets.require (fun result made => ?_) fun _ => trivial
    obtain ⟨_, -, rfl⟩ := Option.map_eq_some_iff.mp made
    exact ⟨rfl, BEq.rfl⟩
  next =>
    obtain ⟨first, rfl⟩ := left_shape
    obtain ⟨second, rfl⟩ := right_shape
    split at kinds
    next isDifference =>
      obtain rfl := Option.some.inj kinds
      rw [arithmetic, if_pos isDifference]
      exact ⟨rfl, BEq.rfl⟩
    next => cases kinds
  next => cases kinds

theorem bitwise_computes {a : Atom} (kinds : a = .boolean ∨ ∃ kind, a = .integral kind)
    (left_kind : left.HasKind (.atom a)) (right_kind : right.HasKind (.atom a)) :
    (bitwise op (.atom a) left right).Computes (·.HasKind (.atom a)) := by
  have left_shape := left_kind.ofAtom
  have right_shape := right_kind.ofAtom
  obtain rfl | ⟨kind, rfl⟩ := kinds
  · obtain ⟨x, rfl⟩ := left_shape
    obtain ⟨y, rfl⟩ := right_shape
    exact hasKind_boolean _
  · obtain ⟨m, rfl⟩ := left_shape
    obtain ⟨n, rfl⟩ := right_shape
    exact ⟨rfl, BEq.rfl⟩

theorem shift_computes {kind count : IntKind} (left_kind : left.HasKind (.integral kind))
    (right_kind : right.HasKind (.integral count)) :
    (shift op (.integral kind) left right).Computes (·.HasKind (.integral kind)) := by
  obtain ⟨m, rfl⟩ := left_kind.ofAtom
  obtain ⟨n, rfl⟩ := right_kind.ofAtom
  exact ⟨rfl, BEq.rfl⟩

/-- A comparison always has an outcome. -/
theorem applyBinary_comparison (isComparison : op.isComparison = true) :
    ∃ b, applyBinary op type left right = .ok (boolean b) := by
  unfold applyBinary
  split
  next => exact ⟨_, rfl⟩
  next =>
    split
    next => exact ⟨_, rfl⟩
    next => exact ⟨_, rfl⟩

/-- What an operator that does not compare does with values other than null. -/
def applyDirect (op : BinaryOp) (type : Ty) (left right : Value) : Evaluation Value :=
  match op with
  | .and | .or => bitwise op type left right
  | .leftShift | .rightShift => shift op type left right
  | _ => arithmetic op type left right

/-- An operator that does not compare yields null for null, and otherwise what it does for the
kinds of its operands. -/
theorem applyBinary_computes {left_type right_type : Ty}
    (left_conforms : left.conformsTo left_type = true)
    (right_conforms : right.conformsTo right_type = true)
    (left_null : left_type.admitsNull = true → type.admitsNull = true)
    (right_null : right_type.admitsNull = true → type.admitsNull = true)
    (isOther : op.isComparison = false)
    (direct : left.isNull = false → right.isNull = false →
      (applyDirect op type.core left right).Computes (·.HasKind type.core)) :
    (applyBinary op type left right).Computes (·.conformsTo type = true) := by
  have notEqual : op ≠ .equal ∧ op ≠ .notEqual := by
    constructor
    · rintro rfl
      cases isOther
    · rintro rfl
      cases isOther
  unfold applyBinary
  rw [if_neg notEqual.1, if_neg notEqual.2, if_neg (by simp [isOther])]
  cases left_isNull : left.isNull with
  | true =>
      exact conformsTo_null (left_null (admitsNull_of_conformsTo left_conforms left_isNull))
  | false =>
      cases right_isNull : right.isNull with
      | true =>
          exact conformsTo_null (right_null (admitsNull_of_conformsTo right_conforms right_isNull))
      | false => exact (direct left_isNull right_isNull).imp fun _ kind => kind.conformsTo

theorem negated_computes {a : Atom} (numeric : a.isNumeric = true)
    (isNumber : type.core = .atom a) (conforms : value.conformsTo type = true) :
    (value.negated type).Computes (·.conformsTo type = true) := by
  cases isNull : value.isNull with
  | true =>
      cases value with
      | null => exact conforms
      | _ => cases isNull
  | false =>
      have kind : value.HasKind (.atom a) := by
        obtain isObject | kind := kind_of_conformsTo conforms isNull
        · rw [isNumber] at isObject
          obtain rfl := Ty.atom.inj (Ty.eq_of_same rfl isObject)
          cases numeric
        · rwa [isNumber] at kind
      suffices computes : (value.negated type).Computes (·.HasKind type.core) from
        computes.imp fun _ kind => kind.conformsTo
      rw [isNumber]
      have shape := kind.ofAtom
      cases a with
      | integral width =>
          obtain ⟨n, rfl⟩ := shape
          refine Evaluation.Meets.require (fun result made => ?_) fun _ => trivial
          exact isNumber ▸ ofInt?_kind made
      | single =>
          obtain ⟨x, rfl⟩ := shape
          exact ⟨rfl, BEq.rfl⟩
      | double =>
          obtain ⟨x, rfl⟩ := shape
          exact ⟨rfl, BEq.rfl⟩
      | decimal =>
          obtain ⟨d, rfl⟩ := shape
          exact ⟨rfl, BEq.rfl⟩
      | _ => cases numeric

/-- The values of the types of truth values are truth values and null. -/
theorem truth_of_conformsTo (isTruth : type.core = .boolean)
    (conforms : value.conformsTo type = true) :
    (value = null ∧ type.admitsNull = true) ∨ ∃ b, value = boolean b := by
  cases isNull : value.isNull with
  | true =>
      have admits := admitsNull_of_conformsTo conforms isNull
      cases value with
      | null => exact .inl ⟨rfl, admits⟩
      | _ => cases isNull
  | false =>
      obtain isObject | kind := kind_of_conformsTo conforms isNull
      · rw [isTruth] at isObject
        cases isObject
      · rw [isTruth] at kind
        exact .inr kind.ofAtom

theorem boolean_conformsTo (isTruth : type.core = .boolean) (b : Bool) :
    (boolean b).conformsTo type = true :=
  HasKind.conformsTo (isTruth ▸ hasKind_boolean b)

theorem inverted_computes (isTruth : type.core = .boolean)
    (conforms : value.conformsTo type = true) :
    value.inverted.Computes (·.conformsTo type = true) := by
  obtain ⟨rfl, -⟩ | ⟨b, rfl⟩ := truth_of_conformsTo isTruth conforms
  · exact conforms
  · exact boolean_conformsTo isTruth !b

/-- A conjunction of truth values is null only if one of them is. -/
theorem conjoin_conformsTo (isTruth : type.core = .boolean)
    (notFalse : left.isBoolean false = false)
    (left_conforms : left.conformsTo type = true) (right_conforms : right.conformsTo type = true) :
    (conjoin left right).conformsTo type = true := by
  obtain ⟨rfl, -⟩ | ⟨a, rfl⟩ := truth_of_conformsTo isTruth left_conforms
  · obtain ⟨rfl, -⟩ | ⟨b, rfl⟩ := truth_of_conformsTo isTruth right_conforms
    · exact left_conforms
    · cases b with
      | true => exact left_conforms
      | false => exact right_conforms
  · obtain rfl : a = true := by simpa [isBoolean] using notFalse
    obtain ⟨rfl, -⟩ | ⟨b, rfl⟩ := truth_of_conformsTo isTruth right_conforms
    · exact right_conforms
    · cases b <;> exact right_conforms

/-- A disjunction of truth values is null only if one of them is. -/
theorem disjoin_conformsTo (isTruth : type.core = .boolean) (notTrue : left.isBoolean true = false)
    (left_conforms : left.conformsTo type = true) (right_conforms : right.conformsTo type = true) :
    (disjoin left right).conformsTo type = true := by
  obtain ⟨rfl, -⟩ | ⟨a, rfl⟩ := truth_of_conformsTo isTruth left_conforms
  · obtain ⟨rfl, -⟩ | ⟨b, rfl⟩ := truth_of_conformsTo isTruth right_conforms
    · exact left_conforms
    · cases b with
      | true => exact right_conforms
      | false => exact left_conforms
  · obtain rfl : a = false := by simpa [isBoolean] using notTrue
    obtain ⟨rfl, -⟩ | ⟨b, rfl⟩ := truth_of_conformsTo isTruth right_conforms
    · exact right_conforms
    · cases b <;> exact right_conforms

end QueryTree.Value
