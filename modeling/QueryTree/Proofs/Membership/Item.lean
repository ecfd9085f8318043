import QueryTree.Proofs.Membership.Widening

/-!
# Items and equalities

The test whether a value is an item of a list, beside the test whether the two are equal.  Both come
to the same for the operands that both bring to one type in one way.  They differ where only the
comparison converts an operand: where it promotes one operand to the enumeration type of the other
one, converts a reference to the type of another one, or reads a text as a value of another type.
-/

namespace QueryTree.Expr

variable {table : ClassTable} {op op' : Token} {x e : Expr}

section Paths

/-- Whether two operands are compared as references, as identifiers are as well. -/
def comparesReferences (left right : Expr) : Bool :=
  (!left.type.isValue && !right.type.isValue) || (left.type == .guid && right.type == .guid)

theorem comparison_of_references (references : comparesReferences x e = true) :
    comparison table .equal op x e =
      (compareReferences table op x e).map fun pair => test .equal pair.1 pair.2 := by
  unfold comparesReferences at references
  simp only [comparison, compared, BinaryOp.isEquality, references]
  cases compareReferences table op x e <;> rfl

theorem comparison_of_members (values : comparesReferences x e = false)
    (isMember : (x.type.isEnum || e.type.isEnum) = true) :
    comparison table .equal op x e =
      (alignEnums table op x e).map fun pair => test .equal pair.1 pair.2 := by
  unfold comparesReferences at values
  simp only [comparison, compared, BinaryOp.isEquality, values, isMember]
  cases alignEnums table op x e <;> rfl

theorem comparison_of_values (values : comparesReferences x e = false)
    (noMember : (x.type.isEnum || e.type.isEnum) = false) :
    comparison table .equal op x e =
      (compareValues table .equal op x e).map fun c =>
        binary .boolean .equal c.left c.right c.method := by
  unfold comparesReferences at values
  simp only [comparison, compared, BinaryOp.isEquality, values, noMember]
  cases compareValues table .equal op x e <;> rfl

/-- An expression is no text that can be read as a value of a type. -/
def Unreadable (e : Expr) (target : Ty) : Prop :=
  ∀ text, e.text? = some text → Value.ofText target text = .unreadable

theorem unreadable_of_text? {target : Ty} (noText : e.text? = none) : e.Unreadable target := by
  intro text isText
  rw [noText] at isText
  cases isText

theorem Unreadable.readText? {target : Ty} (unreadable : e.Unreadable target) (position : Nat) :
    e.readText? target position = .ok none := by
  unfold Expr.readText?
  cases isText : e.text? with
  | none => rfl
  | some text => simp only [unreadable text isText]

/-- Operands that are no readable texts are brought to one type by the group of the operator, unless
there is an operator method. -/
theorem compareValues_unread {operator : BinaryOp} {group : OperatorGroup}
    (isGroup : (if operator.isEquality then OperatorGroup.equality else .relational) = group)
    (x_text : x.Unreadable e.type) (e_text : e.Unreadable x.type) :
    compareValues table operator op x e =
      if x.type == e.type && hasOperator table x.type operator then
        .ok ⟨x, e, some operator.methodName⟩
      else
        (group.operands table op.text op.position x e).map fun pair => ⟨pair.1, pair.2, none⟩ := by
  rw [compareValues, e_text.readText?, x_text.readText?]
  change (if _ then _ else _) = _
  rw [isGroup]
  split
  next => rfl
  next => cases group.operands table op.text op.position x e <;> rfl

theorem compareValues_unreadable (x_text : x.Unreadable e.type) (e_text : e.Unreadable x.type) :
    compareValues table .equal op x e =
      if x.type == e.type && hasOperator table x.type .equal then
        .ok ⟨x, e, some BinaryOp.equal.methodName⟩
      else
        (OperatorGroup.equality.operands table op.text op.position x e).map fun pair =>
          ⟨pair.1, pair.2, none⟩ :=
  compareValues_unread rfl x_text e_text

theorem isItem_of_same (same : (x.type == e.type) = true) :
    isItem table op x e = .ok (test .equal x e) := by
  rw [isItem, if_pos same]

theorem isItem_of_member (differ : (x.type == e.type) = false) (isMember : x.type.isEnum = true) :
    isItem table op x e =
      if e.isConstant then (enumConstant x.type op.position e).map fun e => test .equal x e
      else .error ⟨op.position, .typeExpected x.type⟩ := by
  simp [isItem, differ, isMember]

theorem isItem_of_value (differ : (x.type == e.type) = false) (noMember : x.type.isEnum = false) :
    isItem table op x e =
      (OperatorGroup.equality.operands table "==" op.position x e).map fun pair =>
        test .equal pair.1 pair.2 := by
  simp only [isItem, differ, noMember, Bool.false_eq_true, if_false]
  cases OperatorGroup.equality.operands table "==" op.position x e <;> rfl

end Paths

section Outcome

/-- Two tests of operands come to the same: both are refused, or both are made and have the same
truth value wherever the operands have values. -/
def ComeToSame (x e : Expr) (first second : Except CompileError Expr) : Prop :=
  (∃ error error', first = .error error ∧ second = .error error') ∨
    ∃ test test', first = .ok test ∧ second = .ok test' ∧
      ∀ ctx v w, x.HasValue ctx v → e.HasValue ctx w →
        ∃ holds, test.evaluate ctx = .ok (.boolean holds) ∧
          test'.evaluate ctx = .ok (.boolean holds)

namespace ComeToSame

variable {first second : Except CompileError Expr} (same : ComeToSame x e first second)

include same

theorem isOk_iff : (∃ test, first = .ok test) ↔ ∃ test, second = .ok test := by
  obtain ⟨error, error', rfl, rfl⟩ | ⟨test, test', rfl, rfl, -⟩ := same
  · simp
  · simp

theorem evaluate {left right : Expr} (first_eq : first = .ok left) (second_eq : second = .ok right)
    {ctx : EvalContext} {v w : Value} (x_value : x.HasValue ctx v) (e_value : e.HasValue ctx w) :
    ∃ holds, left.evaluate ctx = .ok (.boolean holds) ∧
      right.evaluate ctx = .ok (.boolean holds) := by
  obtain ⟨error, error', isError, -⟩ | ⟨test, test', isTest, isTest', values⟩ := same
  · cases isError.symm.trans first_eq
  · obtain rfl := Except.ok.inj (isTest.symm.trans first_eq)
    obtain rfl := Except.ok.inj (isTest'.symm.trans second_eq)
    exact values ctx v w x_value e_value

end ComeToSame

theorem evaluate_equal {ctx : EvalContext} {left right : Expr} {method : Option String}
    {v w : Value} (left_value : left.evaluate ctx = .ok v)
    (right_value : right.evaluate ctx = .ok w) :
    (binary .boolean .equal left right method).evaluate ctx = .ok (.boolean (v.equal w)) := by
  simp only [evaluate, left_value, right_value, combine, bind, Except.bind]
  rfl

/-- Equalities come to the same if their operands have values that are equal alike. -/
theorem comeToSame_of_equal {first second : Except CompileError Expr}
    {left right left' right' : Expr} {method : Option String}
    (first_eq : first = .ok (test .equal left right))
    (second_eq : second = .ok (binary .boolean .equal left' right' method))
    (alike : ∀ ctx v w, x.HasValue ctx v → e.HasValue ctx w → ∃ a b a' b',
      left.evaluate ctx = .ok a ∧ right.evaluate ctx = .ok b ∧ left'.evaluate ctx = .ok a' ∧
        right'.evaluate ctx = .ok b' ∧ a.equal b = a'.equal b') :
    ComeToSame x e first second := by
  refine .inr ⟨_, _, first_eq, second_eq, fun ctx v w x_value e_value => ?_⟩
  obtain ⟨a, b, a', b', left_eq, right_eq, left'_eq, right'_eq, same⟩ :=
    alike ctx v w x_value e_value
  exact ⟨a.equal b, evaluate_equal left_eq right_eq, same ▸ evaluate_equal left'_eq right'_eq⟩

/-- Equalities of the operands themselves come to the same. -/
theorem comeToSame_of_operands {first second : Except CompileError Expr} {method : Option String}
    (first_eq : first = .ok (test .equal x e))
    (second_eq : second = .ok (binary .boolean .equal x e method)) :
    ComeToSame x e first second := by
  refine comeToSame_of_equal first_eq second_eq fun ctx v w x_value e_value => ?_
  exact ⟨v, w, v, w, x_value.1, e_value.1, x_value.1, e_value.1, rfl⟩

end Outcome

section OneType

theorem compareReferences_of_same (same : (x.type == e.type) = true) :
    compareReferences table op x e = .ok (x, e) := by
  rw [compareReferences, if_pos same]

theorem alignEnums_of_same (same : (x.type == e.type) = true) :
    alignEnums table op x e = .ok (x, e) := by
  rw [alignEnums, if_pos same]

/-- References, identifiers and members of one type are compared as they are. -/
theorem comparison_of_same (same : (x.type == e.type) = true)
    (direct : comparesReferences x e = true ∨ x.type.isEnum = true) :
    comparison table .equal op x e = .ok (test .equal x e) := by
  cases references : comparesReferences x e with
  | true => rw [comparison_of_references references, compareReferences_of_same same]; rfl
  | false =>
      have isMember : (x.type.isEnum || e.type.isEnum) = true := by
        simp [direct.resolve_left (by simp [references])]
      rw [comparison_of_members references isMember, alignEnums_of_same same]
      rfl

/-- Values of one type for which there is an operator method are compared as they are. -/
theorem comparison_of_hasOperator (same : (x.type == e.type) = true)
    (x_text : x.Unreadable e.type) (e_text : e.Unreadable x.type)
    (hasMethod : hasOperator table x.type .equal = true) :
    ∃ method, comparison table .equal op x e = .ok (binary .boolean .equal x e method) := by
  by_cases direct : comparesReferences x e = true ∨ x.type.isEnum = true
  · exact ⟨none, comparison_of_same same direct⟩
  · obtain ⟨values, noMember⟩ := not_or.mp direct
    rw [Bool.not_eq_true] at values noMember
    have noMembers : (x.type.isEnum || e.type.isEnum) = false := by
      rw [← Ty.isEnum_same same, noMember]
      rfl
    rw [comparison_of_values values noMembers, compareValues_unreadable x_text e_text, same,
      hasMethod]
    exact ⟨_, rfl⟩

/-- The simple value types that operators are made for are the operand types of a test of equality
and the narrow types. -/
theorem signature_or_narrow {t : Ty} (isOperand : t.isOperand = true) (isValue : t.isValue = true)
    (noMember : t.isEnum = false) :
    [t, t] ∈ OperatorGroup.equality.signatures ∨ t ∈ Ty.narrowTypes := by
  have atomic {a : Atom} (isValue : a.isValue = true) :
      ([.atom a, .atom a] ∈ OperatorGroup.equality.signatures ∨ .atom a ∈ Ty.narrowTypes) ∧
        ([.nullable (.atom a), .nullable (.atom a)] ∈ OperatorGroup.equality.signatures ∨
          .nullable (.atom a) ∈ Ty.narrowTypes) := by
    cases a with
    | object | string | type | dynamic => cases isValue
    | integral kind =>
        cases kind <;> simp [OperatorGroup.signatures, OperatorGroup.pairs,
          OperatorGroup.withNullable, OperatorGroup.arithmeticTypes, Ty.narrowTypes, Ty.lift,
          Ty.isNullable, Ty.isValue, Atom.isValue]
    | _ =>
        simp [OperatorGroup.signatures, OperatorGroup.pairs, OperatorGroup.withNullable,
          OperatorGroup.arithmeticTypes, Ty.lift, Ty.isNullable, Ty.isValue, Atom.isValue]
  cases t with
  | atom a => exact (atomic isValue).1
  | nullable inner =>
      cases inner with
      | atom a => exact (atomic isOperand).2
      | enum => cases noMember
      | _ => cases isOperand
  | enum => cases noMember
  | _ => cases isOperand

/-- Values of one type that operators are made for come to the same.  Narrow integers are widened
by the comparison only. -/
theorem comeToSame_of_isOperand (same : (x.type == e.type) = true) (x_text : x.Unreadable e.type)
    (e_text : e.Unreadable x.type) (isOperand : x.type.isOperand = true)
    (isWritten : x.isNullConstant = false ∨ e.isNullConstant = false) :
    ComeToSame x e (isItem table op x e) (comparison table .equal op' x e) := by
  by_cases direct : comparesReferences x e = true ∨ x.type.isEnum = true
  · exact comeToSame_of_operands (isItem_of_same same) (comparison_of_same same direct)
  obtain ⟨values, noMember⟩ := not_or.mp direct
  rw [Bool.not_eq_true] at values noMember
  have noMembers : (x.type.isEnum || e.type.isEnum) = false := by
    rw [← Ty.isEnum_same same, noMember]
    rfl
  have isValue : x.type.isValue = true := by
    have notBoth := (Bool.or_eq_false_iff.mp values).1
    rw [← Ty.isValue_same same] at notBoth
    simpa using notBoth
  have comparison_eq : comparison table .equal op' x e = _ :=
    comparison_of_values values noMembers
  rw [compareValues_unreadable x_text e_text, same, Bool.true_and] at comparison_eq
  cases hasMethod : hasOperator table x.type .equal with
  | true =>
      rw [hasMethod] at comparison_eq
      exact comeToSame_of_operands (isItem_of_same same) comparison_eq
  | false =>
      rw [hasMethod] at comparison_eq
      obtain isSignature | narrow := signature_or_narrow isOperand isValue noMember
      · rw [OperatorGroup.operands_exact isSignature BEq.rfl (BEq.symm same)] at comparison_eq
        exact comeToSame_of_operands (isItem_of_same same) comparison_eq
      · have type_eq : e.type = x.type :=
          Ty.eq_of_same (Ty.of_narrow Ty.isSimple rfl narrow) (BEq.symm same)
        obtain ⟨x', e', operands, equal⟩ := OperatorGroup.operands_narrow (.inl rfl)
          table op'.text op'.position narrow type_eq isWritten
        rw [operands] at comparison_eq
        refine comeToSame_of_equal (isItem_of_same same) comparison_eq
          fun ctx v w x_value e_value => ?_
        obtain ⟨v', w', x'_value, e'_value, same⟩ := equal ctx v w x_value e_value
        exact ⟨v, w, v', w', x_value.1, e_value.1, x'_value, e'_value, same⟩

end OneType

section Values

/-- Operands of different types, not both of reference types and none of an enumeration type, are
promoted in one way. -/
theorem comeToSame_of_values (differ : (x.type == e.type) = false)
    (isValue : x.type.isValue = true ∨ e.type.isValue = true) (x_noMember : x.type.isEnum = false)
    (e_noMember : e.type.isEnum = false) (x_text : x.Unreadable e.type)
    (e_text : e.Unreadable x.type) (x_undeclared : x.type.Undeclared table)
    (e_undeclared : e.type.Undeclared table) :
    ComeToSame x e (isItem table op x e) (comparison table .equal op' x e) := by
  have values : comparesReferences x e = false := by
    have notGuids : (x.type == .guid && e.type == .guid) = false := by
      refine Bool.and_eq_false_imp.mpr fun x_guid => Bool.eq_false_iff.mpr fun e_guid => ?_
      rw [BEq.trans x_guid (BEq.symm e_guid)] at differ
      cases differ
    rw [comparesReferences, notGuids, Bool.or_false]
    obtain isValue | isValue := isValue <;> simp [isValue]
  rw [isItem_of_value differ x_noMember,
    comparison_of_values values (by rw [x_noMember, e_noMember]; rfl),
    compareValues_unreadable x_text e_text, differ]
  obtain ⟨⟨x', e'⟩, item, equality⟩ | ⟨error, error', item, equality⟩ :=
    OperatorGroup.equality.operands_written "==" op'.text op.position op'.position
  · rw [item]
    simp only [Bool.false_and, Bool.false_eq_true, if_false, equality]
    refine comeToSame_of_equal rfl rfl fun ctx v w x_value e_value => ?_
    obtain ⟨t, isOperand, x_eq, e_eq⟩ := OperatorGroup.equality_operands_eq_ok item
    obtain ⟨v', x'_value⟩ := x_value.of_promote? x_undeclared isOperand x_eq
    obtain ⟨w', e'_value⟩ := e_value.of_promote? e_undeclared isOperand e_eq
    exact ⟨v', w', v', w', x'_value, e'_value, x'_value, e'_value, rfl⟩
  · rw [item]
    simp only [Bool.false_and, Bool.false_eq_true, if_false, equality]
    exact .inl ⟨_, _, rfl, rfl⟩

/-- Operands of different kinds of which the value is no member of an enumeration are refused by the
test for an item. -/
theorem isItem_refused (op : Token) (noMember : x.type.isEnum = false)
    (apart : ¬ x.type.SameKind e.type) (x_written : x.isNullConstant = false)
    (e_written : e.isNullConstant = false)
    (x_undeclared : x.type.Undeclared table) (e_undeclared : e.type.Undeclared table) :
    ∃ error, isItem table op x e = .error error := by
  have differ : (x.type == e.type) = false :=
    Bool.eq_false_iff.mpr fun same => apart (.inl (Ty.core_same same))
  obtain ⟨error, refused⟩ := OperatorGroup.equality_operands_refused "==" op.position x_written
    e_written x_undeclared e_undeclared apart
  refine ⟨error, ?_⟩
  rw [isItem_of_value differ noMember, refused]
  rfl

end Values

section Texts

/-- An expression is a text that is not the text form of any value of a type that has text forms. -/
structure Misread (e : Expr) (target : Ty) : Prop where
  isString : e.type = .string
  invalid : ∃ text, e.text? = some text ∧ Value.ofText target text = .invalid

namespace Misread

variable {target : Ty} (misread : e.Misread target)

include misread

theorem readText? (position : Nat) : ∃ error, e.readText? target position = .error error := by
  obtain ⟨text, isText, invalid⟩ := misread.invalid
  refine ⟨⟨position, .cannotConvert e.type target⟩, ?_⟩
  simp only [Expr.readText?, isText, invalid]

theorem isWritten : e.isNullConstant = false := by
  obtain ⟨text, isText, -⟩ := misread.invalid
  obtain ⟨value, isConstant, isString⟩ := Option.bind_eq_some_iff.mp isText
  rw [isNullConstant, isConstant]
  cases value with
  | string => rfl
  | _ => cases isString

/-- The types that have text forms are simple value types, and texts are no values of them. -/
theorem target_cases : target.isValue = true ∧ target.isEnum = false ∧
    target.core.class? = none ∧ ¬ Ty.string.SameKind target := by
  obtain ⟨text, -, invalid⟩ := misread.invalid
  unfold Value.ofText at invalid
  split at invalid
  next => cases invalid
  next read isReader =>
    have other : (Ty.string == target.core) = false ∧ target.isValue = true ∧
        target.isEnum = false ∧ target.core.class? = none := by
      cases target with
      | atom a => cases a <;> first | exact ⟨rfl, rfl, rfl, rfl⟩ | cases isReader
      | nullable inner =>
          cases inner with
          | atom a => cases a <;> first | exact ⟨rfl, rfl, rfl, rfl⟩ | cases isReader
          | _ => cases isReader
      | _ => cases isReader
    refine ⟨other.2.1, other.2.2.1, other.2.2.2, ?_⟩
    rintro (cores | ⟨isNumber, -⟩)
    · exact Bool.false_ne_true (other.1.symm.trans cores)
    · cases isNumber

/-- A text and an operand of such a type are compared as values. -/
theorem compared (isTarget : x.type = target) :
    comparesReferences x e = false ∧ comparesReferences e x = false ∧
      x.type.isEnum = false ∧ e.type.isEnum = false := by
  obtain ⟨isValue, noMember, -, -⟩ := misread.target_cases
  have noGuid : (e.type == .guid) = false := by rw [misread.isString]; rfl
  have noText : e.type.isEnum = false := by rw [misread.isString]; rfl
  simp [comparesReferences, isTarget, isValue, noMember, noGuid, noText]

end Misread

/-- A text that is no text form of any value of the other type is refused by both tests. -/
theorem comeToSame_of_misread
    (misread : e.Misread x.type ∧ x.isNullConstant = false ∨
      x.Misread e.type ∧ e.isNullConstant = false) :
    ComeToSame x e (isItem table op x e) (comparison table .equal op' x e) := by
  have undeclared {text : Expr} {target : Ty} (misread : text.Misread target) :
      text.type.Undeclared table :=
    Ty.undeclared_of_class? (by rw [misread.isString]; rfl)
  obtain ⟨misread, x_written⟩ | ⟨misread, e_written⟩ := misread
  · obtain ⟨values, -, x_noMember, e_noMember⟩ := misread.compared rfl
    obtain ⟨-, -, noClass, apart⟩ := misread.target_cases
    rw [← misread.isString] at apart
    obtain ⟨error, item⟩ := isItem_refused op x_noMember (apart ∘ .symm) x_written
      misread.isWritten (Ty.undeclared_of_class? noClass) (undeclared misread)
    obtain ⟨error', unread⟩ := misread.readText? op'.position
    refine .inl ⟨error, error', item, ?_⟩
    rw [comparison_of_values values (by rw [x_noMember, e_noMember]; rfl), compareValues, unread]
    rfl
  · obtain ⟨-, values, e_noMember, x_noMember⟩ := misread.compared rfl
    obtain ⟨-, -, noClass, apart⟩ := misread.target_cases
    rw [← misread.isString] at apart
    obtain ⟨error, item⟩ := isItem_refused op x_noMember apart misread.isWritten e_written
      (undeclared misread) (Ty.undeclared_of_class? noClass)
    obtain ⟨error', unread⟩ := misread.readText? op'.position
    have unreadable : e.Unreadable x.type := fun text _ => by rw [misread.isString]; rfl
    refine .inl ⟨error, error', item, ?_⟩
    rw [comparison_of_values values (by rw [x_noMember, e_noMember]; rfl), compareValues,
      unreadable.readText?, unread]
    rfl

end Texts

section References

/-- A text beside null that has no type yet is tested as a text. -/
theorem comeToSame_of_textAndNull
    (textAndNull : x.type = .string ∧ e.isUntypedNull = true ∨
      x.isUntypedNull = true ∧ e.type = .string) :
    ComeToSame x e (isItem table op x e) (comparison table .equal op' x e) := by
  obtain ⟨isText, isNull⟩ | ⟨isNull, isText⟩ := textAndNull
  · obtain rfl := eq_nullLiteral isNull
    have differ : (x.type == nullLiteral.type) = false := by rw [isText]; rfl
    have references : comparesReferences x nullLiteral = true := by
      rw [comparesReferences, isText]
      rfl
    have operands := (OperatorGroup.equality_operands_text table "==" op.position isText).1
    have compared : compareReferences table op' x nullLiteral = .ok (x, nullOf .string) := by
      rw [compareReferences, differ, isText]
      rfl
    rw [isItem_of_value differ (by rw [isText]; rfl), operands,
      comparison_of_references references, compared]
    refine comeToSame_of_equal rfl rfl fun ctx v w x_value e_value => ?_
    exact ⟨v, .null, v, .null, x_value.1, rfl, x_value.1, rfl, rfl⟩
  · obtain rfl := eq_nullLiteral isNull
    have differ : (nullLiteral.type == e.type) = false := by rw [isText]; rfl
    have references : comparesReferences nullLiteral e = true := by
      rw [comparesReferences, isText]
      rfl
    have operands := (OperatorGroup.equality_operands_text table "==" op.position isText).2
    have noNull : e.isUntypedNull = false := by
      rw [isUntypedNull, isText]
      exact Bool.and_false _
    have compared : compareReferences table op' nullLiteral e = .ok (nullOf .string, e) := by
      rw [compareReferences, differ, noNull, isText]
      rfl
    rw [isItem_of_value differ rfl, operands, comparison_of_references references, compared]
    refine comeToSame_of_equal rfl rfl fun ctx v w x_value e_value => ?_
    exact ⟨.null, w, .null, w, rfl, e_value.1, rfl, e_value.1, rfl⟩

/-- References of types of which none is assignable to the other are refused by both tests. -/
theorem comeToSame_of_unrelated (x_reference : x.type.isValue = false)
    (e_reference : e.type.isValue = false) (x_written : x.isNullConstant = false)
    (e_written : e.isNullConstant = false) (x_undeclared : x.type.Undeclared table)
    (e_undeclared : e.type.Undeclared table)
    (x_unassignable : x.type.isAssignable table e.type = false)
    (e_unassignable : e.type.isAssignable table x.type = false) :
    ComeToSame x e (isItem table op x e) (comparison table .equal op' x e) := by
  have differ : (x.type == e.type) = false := by
    refine Bool.eq_false_iff.mpr fun same => ?_
    rw [Ty.isAssignable_iff.mpr (.same same)] at x_unassignable
    cases x_unassignable
  have apart := Ty.not_sameKind_of_references x_reference e_reference differ
  have noMember := Ty.isEnum_of_reference x_reference
  obtain ⟨error, item⟩ := isItem_refused op noMember apart x_written e_written x_undeclared
    e_undeclared
  have references : comparesReferences x e = true := by
    simp [comparesReferences, x_reference, e_reference]
  have forth := Ty.hasDeclaredConversion_of_undeclared x_undeclared e_undeclared
  have back := Ty.hasDeclaredConversion_of_undeclared e_undeclared x_undeclared
  have compared : compareReferences table op' x e = .error (incompatible op' x e) := by
    simp [compareReferences, differ, isUntypedNull_of_written x_written,
      isUntypedNull_of_written e_written, x_unassignable, e_unassignable, forth, back]
  refine .inl ⟨error, incompatible op' x e, item, ?_⟩
  rw [comparison_of_references references, compared]
  rfl

end References

section Members

/-- The member of an enumeration that a constant stands for. -/
def memberOf? (enum : EnumType) (e : Expr) : Option Int :=
  match e.value? with
  | some (.string name) => enum.valueOf? name
  | some other => other.toInt?.filter Value.fitsInt64
  | none => none

theorem enumConstant_eq {enum : EnumType} {type : Ty} (isEnum : type.enum? = some enum)
    (position : Nat) :
    enumConstant type position e =
      match e.memberOf? enum with
      | some n => .ok (ofValue type (.enum enum n))
      | none => .error
          ⟨position, .enumValueNotDefined ((e.value?.map Value.text).getD "") enum.name⟩ := by
  rewrite [enumConstant, isEnum]
  rfl

theorem alignEnums_refused (op : Token) (differ : (x.type == e.type) = false)
    (x_kept : x.promote? table .exactly e.type = none)
    (e_kept : e.promote? table .exactly x.type = none)
    (isVariable : x.type.isEnum = true → e.isConstant = false)
    (unnamed : ∀ enum, e.type.enum? = some enum → x.memberOf? enum = none) :
    ∃ error, alignEnums table op x e = .error error := by
  have noItem : (x.type.isEnum && e.isConstant) = false := Bool.and_eq_false_imp.mpr isVariable
  rw [alignEnums, differ, e_kept, x_kept, noItem]
  simp only [Bool.false_eq_true, if_false]
  split
  next isConstant =>
    cases isEnum : e.type.enum? with
    | none => simp [enumConstant, isEnum, Except.map]
    | some enum => simp [enumConstant_eq isEnum, unnamed enum isEnum, Except.map]
  next => exact ⟨_, rfl⟩

/-- An operand of an enumeration type is compared as a member. -/
theorem comparesReferences_of_isEnum (isMember : x.type.isEnum = true ∨ e.type.isEnum = true) :
    comparesReferences x e = false := by
  have noGuid {t : Ty} (isEnum : t.isEnum = true) : (t == .guid) = false :=
    Ty.beq_false_of_isEnum (by rw [isEnum]; decide)
  obtain isMember | isMember := isMember <;>
    simp [comparesReferences, Ty.isValue_of_isEnum isMember, noGuid isMember]

/-- A value of an enumeration type and an item that is no constant are refused by both tests where
neither of them is promoted to the type of the other. -/
theorem comeToSame_of_variable (isMember : x.type.isEnum = true)
    (differ : (x.type == e.type) = false) (isVariable : e.isConstant = false)
    (x_kept : x.promote? table .exactly e.type = none)
    (e_kept : e.promote? table .exactly x.type = none)
    (unnamed : ∀ enum, e.type.enum? = some enum → x.memberOf? enum = none) :
    ComeToSame x e (isItem table op x e) (comparison table .equal op' x e) := by
  obtain ⟨error, refused⟩ := alignEnums_refused op' differ x_kept e_kept
    (fun _ => isVariable) unnamed
  have item : isItem table op x e = .error ⟨op.position, .typeExpected x.type⟩ := by
    rw [isItem_of_member differ isMember, if_neg (by simp [isVariable])]
  refine .inl ⟨_, error, item, ?_⟩
  rw [comparison_of_members (comparesReferences_of_isEnum (.inl isMember)) (by simp [isMember]),
    refused]
  rfl

/-- An item of an enumeration type is refused by both tests where the value neither is promoted to
that type nor is a constant for one of its members. -/
theorem comeToSame_of_noMember (isMember : e.type.isEnum = true) (noMember : x.type.isEnum = false)
    (e_written : e.isNullConstant = false) (x_kept : x.promote? table .exactly e.type = none)
    (e_kept : e.promote? table .exactly x.type = none)
    (unnamed : ∀ enum, e.type.enum? = some enum → x.memberOf? enum = none) :
    ComeToSame x e (isItem table op x e) (comparison table .equal op' x e) := by
  have differ : (x.type == e.type) = false :=
    Ty.beq_false_of_isEnum (by simp [isMember, noMember])
  obtain ⟨error', refused⟩ := alignEnums_refused op' differ x_kept e_kept
    (fun isMember => by rw [noMember] at isMember; cases isMember) unnamed
  have unpromoted : ∃ error, OperatorGroup.equality.operands table "==" op.position x e =
      .error error := by
    cases outcome : OperatorGroup.equality.operands table "==" op.position x e with
    | error error => exact ⟨error, rfl⟩
    | ok pair =>
        obtain ⟨t, isOperand, -, e_eq⟩ := OperatorGroup.equality_operands_eq_ok outcome
        have noEnum : t.isEnum = false :=
          Ty.isEnum_of_isSimple ((Bool.and_eq_true _ _).mp isOperand).1
        have undeclared : e.type.Undeclared table := by
          obtain ⟨enum, core⟩ := Ty.exists_core_eq isMember
          exact Ty.undeclared_of_class? (by rw [core]; rfl)
        exact absurd (sameKind_of_promote? e_written undeclared isOperand e_eq)
          (Ty.not_sameKind_of_isEnum isMember noEnum)
  obtain ⟨error, unpromoted⟩ := unpromoted
  refine .inl ⟨error, error', ?_, ?_⟩
  · rw [isItem_of_value differ noMember, unpromoted]
    rfl
  · rw [comparison_of_members (comparesReferences_of_isEnum (.inr isMember)) (by simp [isMember]),
      refused]
    rfl

/-- The text of a literal spells a value: a text is spelled by itself, and an integer by no text of
another integer. -/
def SpelledBy (value : Value) (text : String) : Prop :=
  (∀ s, value = .string s → s = text) ∧
    ∀ n m, value = .integral n → Numeral.int? text = some m → m = n.val

section Constant

variable {enum : EnumType} {type : Ty} {value : Value} {literal? : Option String}

/-- A literal that is read again as a member of an enumeration stands for this member. -/
theorem member_of_reread? {text : String} {read : Value} (kind : value.HasKind type.core)
    (spelled : SpelledBy value text) (outcome : reread? type text (.enum enum) = some read) :
    ∃ n, read = .enum enum n ∧ (constant type value literal?).memberOf? enum = some n := by
  obtain ⟨own, n, rfl⟩ := Value.eq_enum_of_hasKind (reread?_kind outcome)
  obtain ⟨same, ⟨rfl, named⟩ | ⟨⟨width, rfl⟩, isText, -, fits⟩⟩ := reread?_member outcome
  all_goals
    obtain rfl : enum = own := Ty.enum.inj same
    refine ⟨n, rfl, ?_⟩
  · obtain ⟨s, rfl⟩ := Value.eq_string_of_hasKind kind
    obtain rfl := spelled.1 s rfl
    exact named
  · obtain ⟨i, rfl⟩ : ∃ i, value = .integral i := kind.ofAtom
    obtain rfl := spelled.2 i n rfl isText
    change Option.filter Value.fitsInt64 (some i.val) = some i.val
    simp [fits]

/-- A value that converts implicitly to an enumeration type without null is a member of the
enumeration. -/
theorem hasKind_of_isCompatible (isEnum : x.type.enum? = some enum) (kind : value.HasKind type.core)
    (compatible : type.isCompatible table x.type = true) : value.HasKind x.type.core := by
  have core := Ty.core_of_enum? isEnum
  have isMember : x.type.isEnum = true := by rw [Ty.isEnum, isEnum]; rfl
  have unconverted : Ty.hasDeclaredConversion table type x.type false = false :=
    Ty.hasDeclaredConversion_of_undeclared (Ty.undeclared_of_class? kind.class?)
      (Ty.undeclared_of_class? (by rw [core]; rfl))
  simp only [Ty.isCompatible, Ty.isValue_of_isEnum isMember, unconverted, Bool.not_true,
    Bool.false_eq_true, if_false, Bool.or_false] at compatible
  split at compatible
  next same => exact ⟨kind.1, BEq.trans kind.2 (Ty.core_same same)⟩
  next =>
    split at compatible
    next => cases compatible
    next =>
      obtain cores | ⟨a, b, -, isAtom, -⟩ := Ty.widensTo_iff.mp compatible
      · exact ⟨kind.1, BEq.trans kind.2 cores⟩
      · rw [core] at isAtom
        cases isAtom

/-- A constant that is promoted to an enumeration type has the member that it stands for as its
value. -/
theorem member_of_promote? {promoted : Expr} (isEnum : x.type.enum? = some enum)
    (differ : (x.type == type) = false) (kind : value.HasKind type.core)
    (spelled : ∀ text, literal? = some text → SpelledBy value text)
    (fits : ∀ f n, value = .enum f n → Value.fitsInt64 n = true)
    (outcome : (constant type value literal?).promote? table .exactly x.type = some promoted) :
    ∃ f n, (constant type value literal?).memberOf? enum = some n ∧
      ∀ ctx, promoted.evaluate ctx = .ok (.enum f n) := by
  have core := Ty.core_of_enum? isEnum
  obtain ⟨-, same⟩ | ⟨_, _, constant, -⟩ | ⟨rfl, compatible⟩ | ⟨-, -, loose, -⟩ :=
    promote?_cases outcome
  · have unlike : (x.type == type) = true := BEq.symm same
    rw [differ] at unlike
    cases unlike
  · cases promotedConstant constant with
    | null => cases kind.1
    | reread _ read =>
        rw [core] at read
        obtain ⟨n, rfl, isNamed⟩ := member_of_reread? kind (spelled _ rfl) read
        exact ⟨enum, n, isNamed, fun ctx => rfl⟩
  · have isMember := hasKind_of_isCompatible isEnum kind compatible
    obtain ⟨f, n, rfl⟩ := Value.eq_enum_of_hasKind (core ▸ isMember)
    refine ⟨f, n, ?_, fun ctx => ?_⟩
    · change Option.filter Value.fitsInt64 (some n) = some n
      simp [fits f n rfl]
    · change Value.convertTo x.type (.enum f n) = _
      rw [Value.convertTo_eq, isMember.2, Bool.or_true]
      rfl
  · cases loose

/-- A constant beside a value of an enumeration type is taken for the same member by both tests. -/
theorem comeToSame_of_constant (isMember : x.type.isEnum = true)
    (differ : (x.type == type) = false) (kind : value.HasKind type.core)
    (spelled : ∀ text, literal? = some text → SpelledBy value text)
    (fits : ∀ f n, value = .enum f n → Value.fitsInt64 n = true)
    (kept : x.promote? table .exactly type = none) :
    ComeToSame x (.constant type value literal?)
      (isItem table op x (.constant type value literal?))
      (comparison table .equal op' x (.constant type value literal?)) := by
  obtain ⟨enum, isEnum⟩ := Option.isSome_iff_exists.mp isMember
  have unlike : (x.type == (constant type value literal?).type) = false := differ
  have isConstant : (constant type value literal?).isConstant = true := rfl
  rw [isItem_of_member unlike isMember, if_pos isConstant, enumConstant_eq isEnum,
    comparison_of_members (comparesReferences_of_isEnum (.inl isMember)) (by simp [isMember]),
    alignEnums, unlike]
  simp only [Bool.false_eq_true, if_false]
  cases promotes : (constant type value literal?).promote? table .exactly x.type with
  | some promoted =>
      obtain ⟨f, n, isNamed, evaluates⟩ :=
        member_of_promote? isEnum differ kind spelled fits promotes
      rw [isNamed]
      refine comeToSame_of_equal rfl rfl fun ctx v w x_value e_value => ?_
      exact ⟨v, .enum enum n, v, .enum f n, x_value.1, rfl, x_value.1, evaluates ctx,
        Value.equal_enum v enum f n⟩
  | none =>
      have x_kept : x.promote? table .exactly (constant type value literal?).type = none := kept
      simp only [x_kept, isMember, isConstant, Bool.and_self, if_true, enumConstant_eq isEnum]
      cases (constant type value literal?).memberOf? enum with
      | none => exact .inl ⟨_, _, rfl, rfl⟩
      | some n =>
          refine comeToSame_of_equal rfl rfl fun ctx v w x_value e_value => ?_
          exact ⟨v, _, v, _, x_value.1, rfl, x_value.1, rfl, rfl⟩

end Constant

end Members

/-- Operands that both tests bring to one type in one way, or that both refuse. -/
inductive TestedAlike (table : ClassTable) (x e : Expr) : Prop where
  /-- References, identifiers or members of one type. -/
  | direct (same : (x.type == e.type) = true)
      (direct : comparesReferences x e = true ∨ x.type.isEnum = true)
  /-- Values of one type that has an operator method. -/
  | declared (same : (x.type == e.type) = true) (x_text : x.Unreadable e.type)
      (e_text : e.Unreadable x.type) (hasMethod : hasOperator table x.type .equal = true)
  /-- Values of one type that operators are made for, not both of them null. -/
  | builtin (same : (x.type == e.type) = true) (x_text : x.Unreadable e.type)
      (e_text : e.Unreadable x.type) (isOperand : x.type.isOperand = true)
      (isWritten : x.isNullConstant = false ∨ e.isNullConstant = false)
  /-- Operands of two types, of which one has values. -/
  | values (differ : (x.type == e.type) = false)
      (isValue : x.type.isValue = true ∨ e.type.isValue = true) (x_noMember : x.type.isEnum = false)
      (e_noMember : e.type.isEnum = false) (x_text : x.Unreadable e.type)
      (e_text : e.Unreadable x.type) (x_undeclared : x.type.Undeclared table)
      (e_undeclared : e.type.Undeclared table)
  /-- A value beside a text that is the text form of no value of its type. -/
  | misread
      (misread : e.Misread x.type ∧ x.isNullConstant = false ∨
        x.Misread e.type ∧ e.isNullConstant = false)
  /-- A text beside null. -/
  | textAndNull
      (textAndNull : x.type = .string ∧ e.isUntypedNull = true ∨
        x.isUntypedNull = true ∧ e.type = .string)
  /-- References of types of which none is assignable to the other. -/
  | unrelated (x_reference : x.type.isValue = false) (e_reference : e.type.isValue = false)
      (x_written : x.isNullConstant = false) (e_written : e.isNullConstant = false)
      (x_undeclared : x.type.Undeclared table) (e_undeclared : e.type.Undeclared table)
      (x_unassignable : x.type.isAssignable table e.type = false)
      (e_unassignable : e.type.isAssignable table x.type = false)
  /-- A member of an enumeration and a constant for a member. -/
  | constant {type : Ty} {value : Value} {literal? : Option String}
      (isConstant : e = .constant type value literal?) (isMember : x.type.isEnum = true)
      (differ : (x.type == type) = false) (kind : value.HasKind type.core)
      (spelled : ∀ text, literal? = some text → SpelledBy value text)
      (fits : ∀ f n, value = .enum f n → Value.fitsInt64 n = true)
      (kept : x.promote? table .exactly type = none)
  /-- A member of an enumeration and an item that is neither a constant nor a member. -/
  | unnamed (isMember : x.type.isEnum = true) (differ : (x.type == e.type) = false)
      (isVariable : e.isConstant = false) (x_kept : x.promote? table .exactly e.type = none)
      (e_kept : e.promote? table .exactly x.type = none)
      (unnamed : ∀ enum, e.type.enum? = some enum → x.memberOf? enum = none)
  /-- A value that is no member beside an item that is one. -/
  | noMember (isMember : e.type.isEnum = true) (noMember : x.type.isEnum = false)
      (e_written : e.isNullConstant = false) (x_kept : x.promote? table .exactly e.type = none)
      (e_kept : e.promote? table .exactly x.type = none)
      (unnamed : ∀ enum, e.type.enum? = some enum → x.memberOf? enum = none)

/-- For such operands the test for an item comes to the same as the test of equality. -/
theorem TestedAlike.comeToSame (alike : TestedAlike table x e) (op op' : Token) :
    ComeToSame x e (isItem table op x e) (comparison table .equal op' x e) := by
  cases alike with
  | direct same direct =>
      exact comeToSame_of_operands (isItem_of_same same) (comparison_of_same same direct)
  | declared same x_text e_text hasMethod =>
      obtain ⟨method, comparison_eq⟩ :=
        comparison_of_hasOperator same x_text e_text hasMethod
      exact comeToSame_of_operands (isItem_of_same same) comparison_eq
  | builtin same x_text e_text isOperand isWritten =>
      exact comeToSame_of_isOperand same x_text e_text isOperand isWritten
  | values differ isValue x_noMember e_noMember x_text e_text x_undeclared e_undeclared =>
      exact comeToSame_of_values differ isValue x_noMember e_noMember x_text e_text x_undeclared
        e_undeclared
  | misread misread => exact comeToSame_of_misread misread
  | textAndNull textAndNull => exact comeToSame_of_textAndNull textAndNull
  | unrelated x_reference e_reference x_written e_written x_undeclared e_undeclared x_unassignable
      e_unassignable =>
      exact comeToSame_of_unrelated x_reference e_reference x_written e_written x_undeclared
        e_undeclared x_unassignable e_unassignable
  | constant isConstant isMember differ kind spelled fits kept =>
      subst isConstant
      exact comeToSame_of_constant isMember differ kind spelled fits kept
  | unnamed isMember differ isVariable x_kept e_kept unnamed =>
      exact comeToSame_of_variable isMember differ isVariable x_kept e_kept unnamed
  | noMember isMember noMember e_written x_kept e_kept unnamed =>
      exact comeToSame_of_noMember isMember noMember e_written x_kept e_kept unnamed

end QueryTree.Expr
