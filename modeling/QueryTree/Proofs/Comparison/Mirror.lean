import QueryTree.Proofs.Comparison.Operand
import QueryTree.Proofs.Grouping.Equality

/-!
# Mirrored comparisons

A comparison and the one with the sides of the operands and the direction of the operator changed.
-/

namespace QueryTree

/-- The operator that asks the same from the other side. -/
def BinaryOp.mirror : BinaryOp → BinaryOp
  | lessThan => greaterThan
  | greaterThan => lessThan
  | lessThanOrEqual => greaterThanOrEqual
  | greaterThanOrEqual => lessThanOrEqual
  | op => op

theorem BinaryOp.isEquality_mirror (op : BinaryOp) : op.mirror.isEquality = op.isEquality := by
  cases op <;> rfl

theorem BinaryOp.isComparison_mirror (op : BinaryOp) :
    op.mirror.isComparison = op.isComparison := by
  cases op <;> rfl

namespace Value

/-- Whether a comparison of two values holds. -/
def compares (op : BinaryOp) (v w : Value) : Bool :=
  match op with
  | .equal => v.equal w
  | .notEqual => !v.equal w
  | _ => !v.isNull && !w.isNull && (v.compare? w).any (orderSatisfies op)

theorem applyBinary_eq_compares {op : BinaryOp} (isComparison : op.isComparison = true) (type : Ty)
    (v w : Value) : applyBinary op type v w = .ok (.boolean (v.compares op w)) := by
  cases op <;> first | rfl | cases isComparison

theorem orderSatisfies_mirror {op : BinaryOp} (isComparison : op.isComparison = true)
    (isOrder : op.isEquality = false) (order : Ordering) :
    orderSatisfies op.mirror order.swap = orderSatisfies op order := by
  cases op with
  | equal | notEqual => cases isOrder
  | lessThan | greaterThan | lessThanOrEqual | greaterThanOrEqual => cases order <;> rfl
  | _ => cases isComparison

theorem compares_eq_order {op : BinaryOp} (isOrder : op.isEquality = false) (v w : Value) :
    v.compares op w =
      (!v.isNull && !w.isNull && (v.compare? w).any (orderSatisfies op)) := by
  cases op <;> first | rfl | cases isOrder

/-- A comparison holds of two values if and only if the mirrored one does. -/
theorem compares_mirror {op : BinaryOp} (isComparison : op.isComparison = true) (v w : Value) :
    w.compares op.mirror v = v.compares op w := by
  cases isEquality : op.isEquality with
  | true =>
      cases op with
      | equal => exact equal_comm w v
      | notEqual => exact congrArg not (equal_comm w v)
      | _ => cases isEquality
  | false =>
      have swapped : (w.compare? v).any (orderSatisfies op.mirror) =
          (v.compare? w).any (orderSatisfies op) := by
        rw [compare?_swap v w]
        cases v.compare? w with
        | none => rfl
        | some order => exact orderSatisfies_mirror isComparison isEquality order
      rw [compares_eq_order isEquality, compares_eq_order (op.isEquality_mirror.trans isEquality),
        swapped, Bool.and_comm (!w.isNull)]

/-- An order does not hold beside null. -/
theorem compares_null {op : BinaryOp} (isOrder : op.isEquality = false) {v w : Value}
    (isNull : v.isNull = true ∨ w.isNull = true) : v.compares op w = false := by
  rw [compares_eq_order isOrder]
  obtain isNull | isNull := isNull <;> simp [isNull]

theorem compares_of_equal {op : BinaryOp} (isEquality : op.isEquality = true) {v w v' w' : Value}
    (same : v.equal w = v'.equal w') : v.compares op w = v'.compares op.mirror w' := by
  cases op with
  | equal => exact same
  | notEqual => exact congrArg not same
  | _ => cases isEquality

/-- Integers are compared by their numbers. -/
theorem compares_integral {op : BinaryOp} (isOrder : op.isEquality = false) {i i' j j' : Integer}
    (left : i.val = i'.val) (right : j.val = j'.val) :
    (integral i).compares op (integral j) = (integral i').compares op (integral j') := by
  have order (i j : Integer) : (integral i).compare? (integral j) =
      some (Ord.compare i.val j.val) := rfl
  rw [compares_eq_order isOrder, compares_eq_order isOrder, order, order, left, right]
  rfl

theorem equal_null (v : Value) : v.equal .null = v.isNull ∧ equal .null v = v.isNull := by
  cases v <;> exact ⟨rfl, rfl⟩

end Value

namespace Expr

variable {table : ClassTable} {operator : BinaryOp} {op op' : Token} {e e' a b a' b' : Expr}
  {values : EvalContext}

section Outcome

variable {left right : Expr} {method : Option String}

/-- A comparison has a value if both operands have one, and then it is a truth value. -/
theorem evaluate_comparison_iff (isComparison : operator.isComparison = true) {value : Value} :
    (binary .boolean operator left right method).evaluate values = .ok value ↔
      ∃ v w, left.evaluate values = .ok v ∧ right.evaluate values = .ok w ∧
        value = .boolean (v.compares operator w) := by
  have isStrict : operator ≠ .andAlso ∧ operator ≠ .orElse := by
    constructor <;> rintro rfl <;> cases isComparison
  rw [evaluate_strict isStrict, bind_eq_ok_iff]
  simp only [bind_eq_ok_iff, Value.applyBinary_eq_compares isComparison, Except.ok.injEq]
  constructor
  · rintro ⟨v, left_value, w, right_value, same⟩
    exact ⟨v, w, left_value, right_value, same.symm⟩
  · rintro ⟨v, w, left_value, right_value, same⟩
    exact ⟨v, left_value, w, right_value, same.symm⟩

end Outcome

section Underlying

theorem Twin.toUnderlying (twin : e.Twin e') : e.toUnderlying.Twin e'.toUnderlying := by
  rw [Expr.toUnderlying, Expr.toUnderlying, twin.type_eq]
  split
  next => exact twin
  next => exact twin.convert _

theorem evaluate_toUnderlying_null (isNull : e.isNullConstant = true) (values : EvalContext) :
    e.toUnderlying.evaluate values = .ok .null := by
  have value := evaluate_isNullConstant isNull values
  rw [toUnderlying]
  split
  next => exact value
  next =>
    rw [evaluate, value]
    rfl

theorem core_underlyingType (enum : EnumType) :
    enum.underlyingType.core = .integral enum.underlying := by
  unfold EnumType.underlyingType
  split <;> rfl

/-- The number of a member of an enumeration stays what it is. -/
theorem convertTo_member {type : Ty} {kind : IntKind} {enum : EnumType} {n : Int} {v : Value}
    (core : type.core = .integral kind)
    (outcome : Value.convertTo type (.enum enum n) = .ok v) :
    ∃ number : Integer, v = .integral number ∧ number.val = n := by
  rw [Value.convertTo_eq, core] at outcome
  change Evaluation.require _ ((Integer.ofInt? kind n).map Value.integral) = _ at outcome
  cases made : Integer.ofInt? kind n with
  | none =>
      rw [made] at outcome
      cases outcome
  | some number =>
      rw [made] at outcome
      exact ⟨number, (Except.ok.inj outcome).symm, Integer.val_of_ofInt? made⟩

theorem evaluate_toUnderlying_member {enum : EnumType} {n : Int} {v : Value}
    (isMember : e.type.isEnum = true) (value : e.evaluate values = .ok (.enum enum n))
    (outcome : e.toUnderlying.evaluate values = .ok v) :
    ∃ number : Integer, v = .integral number ∧ number.val = n := by
  obtain ⟨own, isEnum⟩ := Option.isSome_iff_exists.mp isMember
  have core : (if e.type.isNullable then own.underlyingType.lift
      else own.underlyingType).core = .integral own.underlying := by
    split
    next => rw [Ty.core_lift, core_underlyingType]
    next => exact core_underlyingType own
  simp only [toUnderlying, isEnum, evaluate, value, bind, Except.bind] at outcome
  exact convertTo_member core outcome

end Underlying

section Operands

/-- What is compared of two operands. -/
def operandsOf (table : ClassTable) (operator : BinaryOp) (op : Token) (a b : Expr) :
    Option (Expr × Expr) :=
  (compared table operator op a b).toOption.map fun c => (c.left, c.right)

/-- Members of an enumeration are compared by their numbers if their order is asked for. -/
def numbered (operator : BinaryOp) (pair : Expr × Expr) : Expr × Expr :=
  if operator.isEquality then pair else (pair.1.toUnderlying, pair.2.toUnderlying)

theorem comparison_operands {test : Expr} (outcome : comparison table operator op a b = .ok test) :
    ∃ left right method, operandsOf table operator op a b = some (left, right) ∧
      test = binary .boolean operator left right method := by
  obtain ⟨c, isCompared, made⟩ := bind_eq_ok_iff.mp outcome
  refine ⟨c.left, c.right, c.method, ?_, (Except.ok.inj made).symm⟩
  rw [operandsOf, isCompared]
  rfl

theorem exists_comparison_iff :
    (∃ test, comparison table operator op a b = .ok test) ↔
      (operandsOf table operator op a b).isSome = true := by
  rw [operandsOf, comparison]
  cases compared table operator op a b with
  | error error =>
      refine ⟨?_, fun isSome => absurd isSome Bool.false_ne_true⟩
      rintro ⟨test, ⟨⟩⟩
  | ok c => exact ⟨fun _ => rfl, fun _ => ⟨_, rfl⟩⟩

theorem operandsOf_references (isEquality : operator.isEquality = true)
    (references : comparesReferences a b = true) :
    operandsOf table operator op a b = (compareReferences table op a b).toOption := by
  unfold comparesReferences at references
  simp only [operandsOf, compared, isEquality, references]
  cases compareReferences table op a b <;> rfl

theorem operandsOf_members (isMember : a.type.isEnum = true ∨ b.type.isEnum = true) :
    operandsOf table operator op a b =
      (alignEnums table op a b).toOption.map (numbered operator) := by
  have values := comparesReferences_of_isEnum isMember
  unfold comparesReferences at values
  have isMember : (a.type.isEnum || b.type.isEnum) = true := by simpa using isMember
  simp only [operandsOf, compared, values, isMember, Bool.and_false]
  cases alignEnums table op a b with
  | error => rfl
  | ok pair =>
      cases isEquality : operator.isEquality <;>
        simp [numbered, isEquality, bind, Except.bind, pure, Except.pure, Except.toOption]

theorem operandsOf_values (values : (operator.isEquality && comparesReferences a b) = false)
    (noMember : (a.type.isEnum || b.type.isEnum) = false) :
    operandsOf table operator op a b =
      (compareValues table operator op a b).toOption.map fun c => (c.left, c.right) := by
  unfold comparesReferences at values
  simp only [operandsOf, compared, values, noMember]
  rfl

end Operands

section Pairs

/-- Both operands of a pair have a value. -/
def Evaluates (values : EvalContext) (pair : Expr × Expr) : Prop :=
  ∃ v w, pair.1.evaluate values = .ok v ∧ pair.2.evaluate values = .ok w

/-- Where two pairs have values, the comparison of the first one and the mirrored comparison of the
second one agree. -/
def Agree (operator : BinaryOp) (values : EvalContext) (first second : Expr × Expr) : Prop :=
  ∀ v w v' w', first.1.evaluate values = .ok v → first.2.evaluate values = .ok w →
    second.1.evaluate values = .ok v' → second.2.evaluate values = .ok w' →
      v.compares operator w = v'.compares operator.mirror w'

variable {first second : Expr × Expr}

theorem Exchanged.agree (isComparison : operator.isComparison = true)
    (exchanged : Exchanged first second) (values : EvalContext) :
    Agree operator values first second := by
  intro v w v' w' first_left first_right second_left second_right
  rw [exchanged.1, second_right] at first_left
  rw [exchanged.2, second_left] at first_right
  rw [← Except.ok.inj first_left, ← Except.ok.inj first_right,
    Value.compares_mirror isComparison]

theorem Exchanged.evaluates_iff (exchanged : Exchanged first second) (values : EvalContext) :
    Evaluates values first ↔ Evaluates values second := by
  rw [Evaluates, Evaluates, exchanged.1, exchanged.2]
  constructor
  · rintro ⟨v, w, left, right⟩
    exact ⟨w, v, right, left⟩
  · rintro ⟨v, w, left, right⟩
    exact ⟨w, v, right, left⟩

theorem Exchanged.of_crossed {first second : Option (Expr × Expr)}
    (crossed : Option.Rel Crossed first second) : Option.Rel Exchanged first second := by
  cases crossed with
  | none => exact .none
  | some crossed => exact .some crossed.exchanged

theorem Crossed.numbered {first second : Option (Expr × Expr)}
    (crossed : Option.Rel Crossed first second) (operator : BinaryOp) :
    Option.Rel Crossed (first.map (numbered operator)) (second.map (numbered operator.mirror)) := by
  cases crossed with
  | none => exact .none
  | some crossed =>
      refine .some ?_
      rw [Expr.numbered, Expr.numbered, operator.isEquality_mirror]
      split
      next => exact crossed
      next => exact ⟨crossed.1.toUnderlying, crossed.2.toUnderlying⟩

/-- What an operand may be taken for beside an operand of a type. -/
inductive TakenFor (table : ClassTable) (type : Ty) (e : Expr) : Expr → Prop where
  | itself : TakenFor table type e e
  | promoted {promoted : Expr} (outcome : e.promote? table .exactly type = some promoted) :
      TakenFor table type e promoted
  | member {member : Expr} {position : Nat} (outcome : enumConstant type position e = .ok member) :
      TakenFor table type e member

theorem TakenFor.of_toOption {type : Ty} {member : Expr} {position : Nat}
    (outcome : (enumConstant type position e).toOption = some member) :
    TakenFor table type e member := by
  cases made : enumConstant type position e with
  | error =>
      rw [made] at outcome
      cases outcome
  | ok e' =>
      rw [made] at outcome
      exact .member (Option.some.inj outcome ▸ made)

/-- All members that an operand may be taken for beside an operand of a type have numbers in the
range of their enumeration. -/
def InRange (table : ClassTable) (values : EvalContext) (type : Ty) (e : Expr) : Prop :=
  ∀ taken, TakenFor table type e taken → ∃ v, taken.toUnderlying.evaluate values = .ok v

end Pairs

section Null

variable {promotedA promotedA' promotedB : Expr}

/-- The values of the operands of both comparisons beside null. -/
theorem values_of_null
    (null : NullBeside a promotedA b promotedB ∨ NullBeside b promotedB a promotedA) {v w : Value}
    (a_value : a.evaluate values = .ok v) (b_value : b.evaluate values = .ok w) :
    ∃ v' w', promotedA.evaluate values = .ok v' ∧ promotedB.evaluate values = .ok w' ∧
      v.equal w' = w.equal v' := by
  obtain ⟨a_null, promoted_null, keeps⟩ | ⟨b_null, promoted_null, keeps⟩ := null
  · obtain ⟨w', promoted_value, alike⟩ := keeps values w b_value
    rw [evaluate_isNullConstant a_null] at a_value
    refine ⟨.null, w', evaluate_isNullConstant promoted_null values, promoted_value, ?_⟩
    rw [← Except.ok.inj a_value, (Value.equal_null w').2, (Value.equal_null w).1, alike]
  · obtain ⟨v', promoted_value, alike⟩ := keeps values v a_value
    rw [evaluate_isNullConstant b_null] at b_value
    refine ⟨v', .null, promoted_value, evaluate_isNullConstant promoted_null values, ?_⟩
    rw [← Except.ok.inj b_value, (Value.equal_null v').2, (Value.equal_null v).1, alike]

/-- Beside null both comparisons agree. -/
theorem agree_null
    (null : NullBeside a promotedA b promotedB ∨ NullBeside b promotedB a promotedA)
    (right : b.Twin b') (twin : promotedA.Twin promotedA')
    {v w : Value} (a_value : a.evaluate values = .ok v) (b_value : b.evaluate values = .ok w) :
    Agree operator values (numbered operator (a, promotedB))
      (numbered operator.mirror (b', promotedA')) := by
  intro x y x' y' x_value y_value x'_value y'_value
  rw [numbered] at x_value y_value
  rw [numbered, operator.isEquality_mirror] at x'_value y'_value
  cases isEquality : operator.isEquality with
  | true =>
      simp only [isEquality, if_true] at x_value y_value x'_value y'_value
      rw [← right.evaluate_eq, b_value] at x'_value
      rw [← twin.evaluate_eq] at y'_value
      obtain ⟨v', w', promotedA_value, promotedB_value, same⟩ := values_of_null null a_value b_value
      rw [a_value] at x_value
      rw [promotedB_value] at y_value
      rw [promotedA_value] at y'_value
      cases x_value
      cases y_value
      cases x'_value
      cases y'_value
      exact Value.compares_of_equal isEquality same
  | false =>
      simp only [isEquality, Bool.false_eq_true, if_false] at x_value y_value x'_value y'_value
      rw [← right.toUnderlying.evaluate_eq] at x'_value
      rw [← twin.toUnderlying.evaluate_eq] at y'_value
      have mirrored := operator.isEquality_mirror.trans isEquality
      have isNull {e : Expr} {u : Value} (null : e.isNullConstant = true)
          (value : e.toUnderlying.evaluate values = .ok u) : u.isNull = true := by
        rw [evaluate_toUnderlying_null null] at value
        exact Except.ok.inj value ▸ rfl
      obtain ⟨a_null, promoted_null, -⟩ | ⟨b_null, promoted_null, -⟩ := null
      · rw [Value.compares_null isEquality (.inl (isNull a_null x_value)),
          Value.compares_null mirrored (.inr (isNull promoted_null y'_value))]
      · rw [Value.compares_null isEquality (.inr (isNull promoted_null y_value)),
          Value.compares_null mirrored (.inl (isNull b_null x'_value))]

/-- Beside null both comparisons have a value, unless a member is out of range where order is asked
for. -/
theorem evaluates_null (left : a.promote? table .exactly b.type = some promotedA)
    (right : b.promote? table .exactly a.type = some promotedB)
    (null : NullBeside a promotedA b promotedB ∨ NullBeside b promotedB a promotedA)
    (b_twin : b.Twin b') (twin : promotedA.Twin promotedA')
    (steady : operator.isEquality = true ∨
      (InRange table values b.type a ∧ InRange table values a.type b))
    {v w : Value} (a_value : a.evaluate values = .ok v) (b_value : b.evaluate values = .ok w) :
    Evaluates values (numbered operator (a, promotedB)) ∧
      Evaluates values (numbered operator.mirror (b', promotedA')) := by
  rw [numbered, numbered, operator.isEquality_mirror]
  cases isEquality : operator.isEquality with
  | true =>
      obtain ⟨v', w', promotedA_value, promotedB_value, -⟩ := values_of_null null a_value b_value
      rw [b_twin.evaluate_eq] at b_value
      rw [twin.evaluate_eq] at promotedA_value
      exact ⟨⟨v, w', a_value, promotedB_value⟩, ⟨w, v', b_value, promotedA_value⟩⟩
  | false =>
      obtain ⟨a_range, b_range⟩ := steady.resolve_left (by simp [isEquality])
      obtain ⟨x, x_value⟩ := a_range a .itself
      obtain ⟨y, y_value⟩ := b_range promotedB (.promoted right)
      obtain ⟨x', x'_value⟩ := b_range b .itself
      obtain ⟨y', y'_value⟩ := a_range promotedA (.promoted left)
      rw [b_twin.toUnderlying.evaluate_eq] at x'_value
      rw [twin.toUnderlying.evaluate_eq] at y'_value
      exact ⟨⟨x, y, x_value, y_value⟩, ⟨x', y', x'_value, y'_value⟩⟩

end Null

section Unaligned

/-- A constant of an enumeration type is null or a member. -/
theorem Proper.member_cases (proper : e.Proper) (isConstant : e.isConstant = true)
    (isMember : e.type.isEnum = true) :
    (e.isNullConstant = true ∧ e.type.admitsNull = true) ∨
      ∃ enum n, e.isNullConstant = false ∧ e.value? = some (.enum enum n) ∧
        Value.fitsInt64 n = true := by
  obtain ⟨v, isValue⟩ := Option.isSome_iff_exists.mp isConstant
  obtain ⟨rfl, admits⟩ | ⟨enum, n, rfl, fits⟩ := proper.member v isValue isMember
  · exact .inl ⟨by simp [isNullConstant, isValue, Value.isNull], admits⟩
  · exact .inr ⟨enum, n, by simp [isNullConstant, isValue, Value.isNull], isValue, fits⟩

theorem enumConstant_null {type : Ty} (isNull : e.isNullConstant = true) (position : Nat) :
    (enumConstant type position e).toOption = none := by
  cases e with
  | constant _ value _ =>
      obtain rfl : value = .null := Value.eq_null_of_isNull isNull
      cases isEnum : type.enum? with
      | none => rw [enumConstant, isEnum]; rfl
      | some enum => rw [enumConstant_eq isEnum]; rfl
  | _ => cases isNull

theorem enumConstant_member {type : Ty} {own enum : EnumType} {n : Int}
    (isEnum : type.enum? = some own) (isValue : e.value? = some (.enum enum n))
    (fits : Value.fitsInt64 n = true) (position : Nat) :
    (enumConstant type position e).toOption = some (ofValue type (.enum own n)) := by
  rw [enumConstant_eq isEnum]
  have named : e.memberOf? own = some n := by
    rw [memberOf?, isValue]
    simp [Value.toInt?, fits]
  rw [named]
  rfl

theorem evaluate_of_value? {v : Value} (isValue : e.value? = some v) :
    e.evaluate values = .ok v := by
  cases e with
  | constant => exact congrArg Except.ok (Option.some.inj isValue)
  | _ => cases isValue

/-- A constant is the member of an enumeration with a number. -/
def HoldsMember (e : Expr) (n : Int) : Prop := ∃ enum, e.value? = some (.enum enum n)

/-- Two members of different enumerations, each with the one that is taken for the other one. -/
structure MemberPairs (a b memberA memberB : Expr) : Prop where
  members : ∃ m n, HoldsMember a m ∧ HoldsMember b n ∧ HoldsMember memberA m ∧ HoldsMember memberB n
  left_member : a.type.isEnum = true
  right_member : b.type.isEnum = true
  left_type : memberA.type = b.type
  right_type : memberB.type = a.type

variable {memberA memberB : Expr}

/-- Members of different enumerations are compared by their numbers on either side. -/
theorem MemberPairs.agree (isComparison : operator.isComparison = true)
    (pairs : MemberPairs a b memberA memberB) (values : EvalContext) :
    Agree operator values (numbered operator (a, memberB))
      (numbered operator.mirror (b, memberA)) := by
  intro x y x' y' x_value y_value x'_value y'_value
  rw [numbered] at x_value y_value
  rw [numbered, operator.isEquality_mirror] at x'_value y'_value
  obtain ⟨m, n, ⟨_, a_value⟩, ⟨_, b_value⟩, ⟨_, memberA_value⟩, ⟨_, memberB_value⟩⟩ := pairs.members
  cases isEquality : operator.isEquality with
  | true =>
      simp only [isEquality, if_true] at x_value y_value x'_value y'_value
      rw [evaluate_of_value? a_value] at x_value
      rw [evaluate_of_value? memberB_value] at y_value
      rw [evaluate_of_value? b_value] at x'_value
      rw [evaluate_of_value? memberA_value] at y'_value
      cases x_value
      cases y_value
      cases x'_value
      cases y'_value
      exact Value.compares_of_equal isEquality
        (Value.equal_comm (.enum _ m) (.enum _ n))
  | false =>
      simp only [isEquality, Bool.false_eq_true, if_false] at x_value y_value x'_value y'_value
      obtain ⟨i, rfl, i_val⟩ :=
        evaluate_toUnderlying_member pairs.left_member (evaluate_of_value? a_value) x_value
      obtain ⟨j, rfl, j_val⟩ := evaluate_toUnderlying_member (pairs.right_type ▸ pairs.left_member)
        (evaluate_of_value? memberB_value) y_value
      obtain ⟨j', rfl, j'_val⟩ :=
        evaluate_toUnderlying_member pairs.right_member (evaluate_of_value? b_value) x'_value
      obtain ⟨i', rfl, i'_val⟩ := evaluate_toUnderlying_member
        (pairs.left_type ▸ pairs.right_member) (evaluate_of_value? memberA_value) y'_value
      rw [Value.compares_mirror isComparison]
      exact Value.compares_integral isEquality (i_val.trans i'_val.symm) (j_val.trans j'_val.symm)

/-- Both comparisons of members of different enumerations have a value, unless a member is out of
range where order is asked for. -/
theorem MemberPairs.evaluates (pairs : MemberPairs a b memberA memberB)
    (steady : operator.isEquality = true ∨
      ∀ e ∈ [a, b, memberA, memberB], ∃ v, e.toUnderlying.evaluate values = .ok v) :
    Evaluates values (numbered operator (a, memberB)) ∧
      Evaluates values (numbered operator.mirror (b, memberA)) := by
  rw [numbered, numbered, operator.isEquality_mirror]
  obtain ⟨m, n, ⟨_, a_value⟩, ⟨_, b_value⟩, ⟨_, memberA_value⟩, ⟨_, memberB_value⟩⟩ := pairs.members
  cases isEquality : operator.isEquality with
  | true =>
      exact ⟨⟨_, _, evaluate_of_value? a_value, evaluate_of_value? memberB_value⟩,
        ⟨_, _, evaluate_of_value? b_value, evaluate_of_value? memberA_value⟩⟩
  | false =>
      have range := steady.resolve_left (by simp [isEquality])
      obtain ⟨x, x_value⟩ := range a (by simp)
      obtain ⟨y, y_value⟩ := range memberB (by simp)
      obtain ⟨x', x'_value⟩ := range b (by simp)
      obtain ⟨y', y'_value⟩ := range memberA (by simp)
      exact ⟨⟨x, y, x_value, y_value⟩, ⟨x', y', x'_value, y'_value⟩⟩

end Unaligned

section Mirrored

/-- A null of an enumeration type beside a member of another enumeration, whose type has no null. -/
structure NullApart (a b : Expr) : Prop extends MembersApart a b where
  left_null : a.isNullConstant = true
  excludes : b.type.admitsNull = false

example : NullApart (.nullOf (.nullable (.enum ⟨"Size", none, .int32, false, [("Small", 0)]⟩)))
    (.ofValue (.enum ⟨"Shade", none, .int32, false, [("Red", 0)]⟩)
      (.enum ⟨"Shade", none, .int32, false, [("Red", 0)]⟩ 0)) :=
  ⟨by constructor <;> rfl, rfl, rfl⟩

/-- Operands for which a comparison fails if and only if the mirrored one does. -/
inductive Steady (table : ClassTable) (operator : BinaryOp) (a b : Expr) (values : EvalContext) :
    Prop where
  /-- They are tested for equality. -/
  | equality (isEquality : operator.isEquality = true)
  /-- They are of no enumeration type. -/
  | plain (noMember : (a.type.isEnum || b.type.isEnum) = false)
  /-- None of them is null, and they are no constants of two enumerations. -/
  | written (left : a.isNullConstant = false) (right : b.isNullConstant = false)
      (together : ¬ MembersApart a b)
  /-- The members that they may be taken for are in the range of their enumerations. -/
  | inRange (left : InRange table values b.type a) (right : InRange table values a.type b)

theorem Steady.of_null {promotedA promotedB : Expr} (steady : Steady table operator a b values)
    (isMember : a.type.isEnum = true ∨ b.type.isEnum = true)
    (null : NullBeside a promotedA b promotedB ∨ NullBeside b promotedB a promotedA) :
    operator.isEquality = true ∨
      (InRange table values b.type a ∧ InRange table values a.type b) := by
  cases steady with
  | equality isEquality => exact .inl isEquality
  | plain noMember => simp_all
  | written left right =>
      obtain ⟨isNull, -⟩ | ⟨isNull, -⟩ := null
      · simp [left] at isNull
      · simp [right] at isNull
  | inRange left right => exact .inr ⟨left, right⟩

/-- The operands of a comparison and of the mirrored one come to the same: both are accepted or both
are refused, both comparisons agree wherever they have values, and for steady operands both have
values or none.  Only a null beside a member of another enumeration is accepted on the left and
refused on the right. -/
structure Mirrored (table : ClassTable) (operator : BinaryOp) (a b : Expr)
    (first second : Option (Expr × Expr)) : Prop where
  accepts : ¬ NullApart a b → ¬ NullApart b a → (first.isSome = true ↔ second.isSome = true)
  left_only : NullApart a b → first.isSome = true ∧ second = none
  right_only : NullApart b a → first = none ∧ second.isSome = true
  agree : ∀ p q values v w, first = some p → second = some q → a.evaluate values = .ok v →
    b.evaluate values = .ok w → Agree operator values p q
  evaluates : ∀ p q values v w, first = some p → second = some q → a.evaluate values = .ok v →
    b.evaluate values = .ok w → Steady table operator a b values →
      (Evaluates values p ↔ Evaluates values q)

theorem MembersApart.promote?_eq_none (apart : MembersApart a b)
    (left_plain : a.type.DeclaresNothing table) (right_plain : b.type.DeclaresNothing table)
    (excludes : a.isNullConstant = true → b.type.admitsNull = false) :
    a.promote? table .exactly b.type = none := by
  cases outcome : a.promote? table .exactly b.type with
  | none => rfl
  | some promoted =>
      exfalso
      cases promotedBeside left_plain right_plain (.inl apart.left_member) apart.differ outcome with
      | null isNull admits => simp [excludes isNull] at admits
      | boxed _ isObject => exact absurd apart.right_member (by rw [isObject]; decide)
      | lifted _ cores => simp [apart.apart] at cores
      | literal noMember => simp [apart.left_member] at noMember

theorem promote?_null_ne_none {mode : Promotion} {target : Ty} (isNull : e.isNullConstant = true)
    (admits : target.admitsNull = true) : e.promote? table mode target ≠ none := by
  cases e with
  | constant type value _ =>
      obtain rfl : value = .null := Value.eq_null_of_isNull isNull
      simp only [promote?, promoteConstant?, admits]
      split <;> exact Option.some_ne_none _
  | _ => cases isNull

theorem NullApart.unaligned (apart : NullApart a b) (left_plain : a.type.DeclaresNothing table)
    (right_plain : b.type.DeclaresNothing table) (right_proper : b.Proper) :
    Unaligned table a b := by
  have written : b.isNullConstant = false := by
    obtain ⟨-, admits⟩ | ⟨_, _, written, -⟩ :=
      right_proper.member_cases apart.right_constant apart.right_member
    · simp [apart.excludes] at admits
    · exact written
  refine ⟨apart.toMembersApart,
    apart.toMembersApart.promote?_eq_none left_plain right_plain fun _ => apart.excludes,
    apart.toMembersApart.symm.promote?_eq_none right_plain left_plain fun isNull => ?_⟩
  simp [written] at isNull

theorem Unaligned.nullApart (unaligned : Unaligned table a b) (isNull : a.isNullConstant = true) :
    NullApart a b := by
  refine ⟨unaligned.toMembersApart, isNull, Bool.eq_false_iff.mpr fun admits => ?_⟩
  exact promote?_null_ne_none isNull admits unaligned.left_kept

variable {first second : Option (Expr × Expr)}

theorem Mirrored.of_exchanged (isComparison : operator.isComparison = true)
    (left_apart : ¬ NullApart a b) (right_apart : ¬ NullApart b a)
    (exchanged : Option.Rel Exchanged first second) : Mirrored table operator a b first second := by
  cases exchanged with
  | none => exact ⟨fun _ _ => .rfl, fun apart => absurd apart left_apart,
      fun apart => absurd apart right_apart, nofun, nofun⟩
  | some exchanged =>
      refine ⟨fun _ _ => .rfl, fun apart => absurd apart left_apart,
        fun apart => absurd apart right_apart, ?_, ?_⟩
      · rintro p q values v w ⟨⟩ ⟨⟩ - -
        exact exchanged.agree isComparison values
      · rintro p q values v w ⟨⟩ ⟨⟩ - - -
        exact exchanged.evaluates_iff values

theorem unaligned_mirrored (isComparison : operator.isComparison = true)
    (unaligned : Unaligned table a b) (left_proper : a.Proper) (right_proper : b.Proper) :
    Mirrored table operator a b (operandsOf table operator op a b)
      (operandsOf table operator.mirror op' b a) := by
  obtain ⟨a_enum, a_type⟩ := Option.isSome_iff_exists.mp unaligned.left_member
  obtain ⟨b_enum, b_type⟩ := Option.isSome_iff_exists.mp unaligned.right_member
  rw [operandsOf_members (.inl unaligned.left_member),
    operandsOf_members (.inl unaligned.right_member), alignEnums_unaligned unaligned,
    alignEnums_unaligned unaligned.symm]
  obtain ⟨a_null, a_admits⟩ | ⟨enum, m, a_written, a_value, a_fits⟩ :=
    left_proper.member_cases unaligned.left_constant unaligned.left_member
  · have apart := unaligned.nullApart a_null
    rw [enumConstant_null a_null]
    obtain ⟨b_null, b_admits⟩ | ⟨enum', n, b_written, b_value, b_fits⟩ :=
      right_proper.member_cases unaligned.right_constant unaligned.right_member
    · simp [apart.excludes] at b_admits
    · rw [enumConstant_member a_type b_value b_fits]
      refine ⟨fun notLeft => absurd apart notLeft, fun _ => ⟨rfl, rfl⟩, fun other => ?_,
        nofun, nofun⟩
      simp [other.left_null] at b_written
  · obtain ⟨b_null, b_admits⟩ | ⟨enum', n, b_written, b_value, b_fits⟩ :=
      right_proper.member_cases unaligned.right_constant unaligned.right_member
    · have apart := unaligned.symm.nullApart b_null
      rw [enumConstant_null b_null, enumConstant_member b_type a_value a_fits]
      refine ⟨fun _ notRight => absurd apart notRight, fun other => ?_, fun _ => ⟨rfl, rfl⟩,
        nofun, nofun⟩
      simp [other.left_null] at a_written
    · rw [enumConstant_member a_type b_value b_fits, enumConstant_member b_type a_value a_fits]
      have pairs : MemberPairs a b (ofValue b.type (.enum b_enum m))
          (ofValue a.type (.enum a_enum n)) :=
        ⟨⟨m, n, ⟨_, a_value⟩, ⟨_, b_value⟩, ⟨_, rfl⟩, ⟨_, rfl⟩⟩, unaligned.left_member,
          unaligned.right_member, rfl, rfl⟩
      refine ⟨fun _ _ => .rfl, fun other => ?_, fun other => ?_, ?_, ?_⟩
      · simp [other.left_null] at a_written
      · simp [other.left_null] at b_written
      · rintro p q values v w ⟨⟩ ⟨⟩ - -
        exact pairs.agree isComparison values
      · rintro p q values v w ⟨⟩ ⟨⟩ - - steady
        have steady : operator.isEquality = true ∨
            ∀ e ∈ [a, b, ofValue b.type (.enum b_enum m), ofValue a.type (.enum a_enum n)],
              ∃ v, e.toUnderlying.evaluate values = .ok v := by
          cases steady with
          | equality isEquality => exact .inl isEquality
          | plain noMember => simp [unaligned.left_member] at noMember
          | written _ _ together => exact absurd unaligned.toMembersApart together
          | inRange left right =>
              refine .inr ?_
              simp only [List.forall_mem_cons, List.not_mem_nil, false_implies, implies_true,
                and_true]
              exact ⟨left a .itself, right b .itself,
                left _ (.of_toOption (enumConstant_member b_type a_value a_fits 0)),
                right _ (.of_toOption (enumConstant_member a_type b_value b_fits 0))⟩
        exact iff_of_true (pairs.evaluates steady).1 (pairs.evaluates steady).2

/-- Which operands a comparison accepts and whether it holds does not depend on the side, but for
the members of different enumerations. -/
theorem operandsOf_mirrored (isComparison : operator.isComparison = true) (left : a.Twin a')
    (right : b.Twin b') (left_plain : a.type.DeclaresNothing table)
    (right_plain : b.type.DeclaresNothing table) (left_proper : a.Proper)
    (right_proper : b.Proper) :
    Mirrored table operator a b (operandsOf table operator op a b)
      (operandsOf table operator.mirror op' b' a') := by
  -- only for constants of two enumerations it counts which of them stands on the left
  by_cases unaligned : Unaligned table a b
  · rw [left.eq_of_isConstant unaligned.left_constant,
      right.eq_of_isConstant unaligned.right_constant]
    exact unaligned_mirrored isComparison unaligned left_proper right_proper
  have left_apart : ¬ NullApart a b := fun apart =>
    unaligned (apart.unaligned left_plain right_plain right_proper)
  have right_apart : ¬ NullApart b a := fun apart =>
    unaligned (apart.unaligned right_plain left_plain left_proper).symm
  have references_eq : comparesReferences b' a' = comparesReferences a b := by
    rw [comparesReferences, comparesReferences, ← left.type_eq, ← right.type_eq,
      Bool.and_comm (!b.type.isValue), Bool.and_comm (b.type == .guid)]
  have member_eq : (b'.type.isEnum || a'.type.isEnum) = (a.type.isEnum || b.type.isEnum) := by
    rw [← left.type_eq, ← right.type_eq, Bool.or_comm]
  cases isMember : a.type.isEnum || b.type.isEnum with
  | true =>
      have isMember : a.type.isEnum = true ∨ b.type.isEnum = true := by simpa using isMember
      have isMember' : b'.type.isEnum = true ∨ a'.type.isEnum = true :=
        left.type_eq ▸ right.type_eq ▸ isMember.symm
      have realigned : Realigned table a b b' (alignEnums table op a b).toOption
          (alignEnums table op' b' a').toOption :=
        alignEnums_sides left right left_plain right_plain isMember unaligned
      rw [operandsOf_members isMember, operandsOf_members isMember']
      cases realigned with
      | crossed crossed =>
          exact .of_exchanged isComparison left_apart right_apart
            (Exchanged.of_crossed (Crossed.numbered crossed operator))
      | null a_promotes b_promotes null twin isFirst isSecond =>
          rw [isFirst, isSecond]
          refine ⟨fun _ _ => .rfl, fun apart => absurd apart left_apart,
            fun apart => absurd apart right_apart, ?_, ?_⟩
          · rintro p q values v w ⟨⟩ ⟨⟩ a_value b_value
            exact agree_null null right twin a_value b_value
          · rintro p q values v w ⟨⟩ ⟨⟩ a_value b_value steady
            have outcome := evaluates_null a_promotes b_promotes null right twin
              (steady.of_null isMember null) a_value b_value
            exact iff_of_true outcome.1 outcome.2
  | false =>
      refine .of_exchanged isComparison left_apart right_apart ?_
      cases references : operator.isEquality && comparesReferences a b with
      | true =>
          obtain ⟨isEquality, references⟩ := (Bool.and_eq_true _ _).mp references
          rw [operandsOf_references isEquality references,
            operandsOf_references (operator.isEquality_mirror.trans isEquality)
              (references_eq.trans references)]
          exact compareReferences_sides left right left_plain right_plain references
      | false =>
          rw [operandsOf_values references isMember, operandsOf_values
            (by rw [operator.isEquality_mirror, references_eq, references])
            (member_eq.trans isMember)]
          exact Exchanged.of_crossed (compareValues_sides operator.isEquality_mirror left right
            left_plain right_plain left_proper)

theorem exists_evaluate_comparison_iff (isComparison : operator.isComparison = true)
    {left right : Expr} {method : Option String} :
    (∃ u, (binary .boolean operator left right method).evaluate values = .ok u) ↔
      Evaluates values (left, right) := by
  simp only [evaluate_comparison_iff isComparison, Evaluates]
  constructor
  · rintro ⟨_, v, w, left_value, right_value, -⟩
    exact ⟨v, w, left_value, right_value⟩
  · rintro ⟨v, w, left_value, right_value⟩
    exact ⟨_, v, w, left_value, right_value, rfl⟩

/-- Comparisons of such operands have one truth value, and for steady operands both have a value or
none. -/
theorem Mirrored.comparison (isComparison : operator.isComparison = true)
    (mirrored : Mirrored table operator a b (operandsOf table operator op a b)
      (operandsOf table operator.mirror op' b' a')) {test test' : Expr} {v w : Value}
    (outcome : Expr.comparison table operator op a b = .ok test)
    (outcome' : Expr.comparison table operator.mirror op' b' a' = .ok test')
    (a_value : a.evaluate values = .ok v) (b_value : b.evaluate values = .ok w) :
    (∀ u u', test.evaluate values = .ok u → test'.evaluate values = .ok u' →
        ∃ holds, u = .boolean holds ∧ u' = .boolean holds) ∧
      (Steady table operator a b values →
        ((∃ u, test.evaluate values = .ok u) ↔ ∃ u, test'.evaluate values = .ok u)) := by
  have isComparison' := operator.isComparison_mirror.trans isComparison
  obtain ⟨left, right, method, first, rfl⟩ := comparison_operands outcome
  obtain ⟨left', right', method', second, rfl⟩ := comparison_operands outcome'
  constructor
  · intro u u' u_value u'_value
    obtain ⟨x, y, x_value, y_value, rfl⟩ := (evaluate_comparison_iff isComparison).mp u_value
    obtain ⟨x', y', x'_value, y'_value, rfl⟩ := (evaluate_comparison_iff isComparison').mp u'_value
    have agree := mirrored.agree _ _ values v w first second a_value b_value
    exact ⟨_, rfl, congrArg _ (agree x y x' y' x_value y_value x'_value y'_value).symm⟩
  · intro steady
    rw [exists_evaluate_comparison_iff isComparison, exists_evaluate_comparison_iff isComparison']
    exact mirrored.evaluates _ _ values v w first second a_value b_value steady

end Mirrored

end Expr

end QueryTree
