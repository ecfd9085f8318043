import QueryTree.Proofs.Compile.Adaptation
import QueryTree.Proofs.Outcome
import QueryTree.Proofs.Overload.Signature
import QueryTree.Compile.Level

/-!
# The nodes that operations make

What each operation of the grammar makes of its operands: the node that it puts on top, the operands
adapted below it, and the types that these have.
-/

namespace QueryTree

namespace CompileContext

variable {token : Token} {operator : BinaryOp}

theorem productOperator?_eq_some (isOperator : productOperator? token = some operator) :
    operator = .multiply ∨ operator = .divide ∨ operator = .modulo := by
  unfold productOperator? at isOperator
  split at isOperator <;> cases isOperator <;> simp

theorem shiftOperator?_eq_some (isOperator : shiftOperator? token = some operator) :
    operator = .leftShift ∨ operator = .rightShift := by
  unfold shiftOperator? at isOperator
  split at isOperator <;> cases isOperator <;> simp

theorem logicalOperator_cases
    (isOperator : andOperator? token = some operator ∨ orOperator? token = some operator) :
    operator = .andAlso ∨ operator = .orElse := by
  unfold andOperator? orOperator? at isOperator
  obtain isOperator | isOperator := isOperator
  all_goals
    split at isOperator <;> cases isOperator
    simp

theorem isComparison_of_comparisonOperator?
    (isOperator : comparisonOperator? token = some operator) : operator.isComparison = true := by
  unfold comparisonOperator? at isOperator
  split at isOperator <;> cases isOperator <;> rfl

end CompileContext

namespace Expr

variable {table : ClassTable} {op : Token}

theorem sign_cases {operand e : Expr}
    (outcome : CompileContext.applySign table op operand = .ok e) :
    ∃ operand', Adapted table operand operand' ∧
      (e = negate operand'.type operand' ∨ e = not operand'.type operand') := by
  rw [CompileContext.applySign] at outcome
  split at outcome
  next =>
    obtain ⟨operand', promoted, same⟩ := bind_eq_ok_iff.mp outcome
    obtain ⟨t, -, fits⟩ := OperatorGroup.operand_eq_ok promoted
    exact ⟨operand', Adapted.of_promote? fits, .inl (pure_eq_ok_iff.mp same).symm⟩
  next =>
    obtain ⟨operand', promoted, same⟩ := bind_eq_ok_iff.mp outcome
    obtain ⟨t, -, fits⟩ := OperatorGroup.operand_eq_ok promoted
    exact ⟨operand', Adapted.of_promote? fits, .inr (pure_eq_ok_iff.mp same).symm⟩

/-- The operands of a group have the types of one of its signatures. -/
def InGroup (group : OperatorGroup) (left right : Expr) : Prop :=
  [left.type, right.type] ∈ group.signatures

theorem operands_cases {group : OperatorGroup} {symbol : String} {position : Nat}
    {left right left' right' : Expr}
    (outcome : group.operands table symbol position left right = .ok (left', right')) :
    Adapted table left left' ∧ Adapted table right right' ∧
      (table.DeclaresNoConversion → InGroup group left' right') := by
  obtain ⟨t, u, isSignature, left_eq, right_eq⟩ := OperatorGroup.operands_eq_ok outcome
  refine ⟨Adapted.of_promote? left_eq, Adapted.of_promote? right_eq, fun plain => ?_⟩
  have operand {w : Ty} (member : w ∈ [t, u]) := group.isOperandType_of_mem isSignature member
  have undeclared (source : Ty) := Ty.hasDeclaredConversion_eq_false plain source .string false
  have left_type := OperatorGroup.type_of_promote? (operand (by simp)) (undeclared _) left_eq
  have right_type := OperatorGroup.type_of_promote? (operand (by simp)) (undeclared _) right_eq
  rw [InGroup]
  rw [left_type, right_type]
  exact isSignature

theorem ofGroup_cases {group : OperatorGroup} {operator : BinaryOp} {left right e : Expr}
    (outcome : ofGroup table group operator op left right = .ok e) :
    ∃ left' right', e = binary left'.type operator left' right' none ∧ Adapted table left left' ∧
      Adapted table right right' ∧ (table.DeclaresNoConversion → InGroup group left' right') := by
  obtain ⟨⟨left', right'⟩, operands, same⟩ := bind_eq_ok_iff.mp outcome
  exact ⟨left', right', (pure_eq_ok_iff.mp same).symm, operands_cases operands⟩

/-- The concatenation of two values as texts. -/
def concatMethod : Method := .staticMethod "String" "Concat" [.object, .object] .string

/-- Only one method of texts answers to the name of the concatenation. -/
theorem eq_concatMethod {m : Method} (isMethod : m ∈ Ty.methods table .string)
    (named : Ty.answersTo m "Concat" = true) : m = concatMethod := by
  have only : (Ty.methods table .string).filter (Ty.answersTo · "Concat") = [concatMethod] := rfl
  have member : m ∈ (Ty.methods table .string).filter (Ty.answersTo · "Concat") :=
    List.mem_filter.mpr ⟨isMethod, named⟩
  rwa [only, List.mem_singleton] at member

/-- An expression is the concatenation of two others as texts. -/
def Concatenates (table : ClassTable) (left right e : Expr) : Prop :=
  ∃ args, e = staticCall .string concatMethod args ∧
    List.Forall₂ (Adapted table) [left, right] args ∧
    (table.DeclaresNoConversion → List.Forall₂ (Fits table) concatMethod.params args)

theorem concat_eq_ok {left right e : Expr} (outcome : concat table op left right = .ok e) :
    ∃ args, e = staticCall .string concatMethod args ∧
      promoteAll? table .argument concatMethod.params [left, right] = some args := by
  rw [concat] at outcome
  split at outcome
  next method args found =>
    obtain ⟨isMethod, -, named, fits⟩ := Ty.resolveMethod_found found
    obtain rfl := eq_concatMethod isMethod named
    exact ⟨args, (Except.ok.inj outcome).symm, fits⟩
  next => cases outcome

theorem concat_cases {left right e : Expr} (outcome : concat table op left right = .ok e) :
    Concatenates table left right e := by
  obtain ⟨args, rfl, fits⟩ := concat_eq_ok outcome
  exact ⟨args, rfl, promoteAll?_adapted fits, fun plain => promoteAll?_fits plain fits⟩

theorem sum_cases {left right e : Expr} (outcome : sum table op left right = .ok e) :
    Concatenates table left right e ∨
      ∃ left' right', e = binary left'.type .add left' right' none ∧ Adapted table left left' ∧
        Adapted table right right' ∧ (table.DeclaresNoConversion → InGroup .add left' right') := by
  rw [sum] at outcome
  split at outcome
  next => exact .inl (concat_cases outcome)
  next => exact .inr (ofGroup_cases outcome)

theorem adapted_toUnderlying (e : Expr) : Adapted table e e.toUnderlying := by
  rw [toUnderlying]
  split
  next => exact .same
  next => exact .convert .same

theorem toUnderlying_of_noMember {e : Expr} (noMember : e.type.isEnum = false) :
    e.toUnderlying = e := by
  simp only [Ty.isEnum, Option.isSome_eq_false_iff, Option.isNone_iff_eq_none] at noMember
  rw [toUnderlying, noMember]

theorem adapted_integerBeside (left right : Expr) :
    Adapted table left (integerBeside left right).1 ∧
      Adapted table right (integerBeside left right).2 := by
  rw [integerBeside]
  split
  next holds => exact ⟨.integer .same (Option.filter_eq_some_iff.mp holds).1, .same⟩
  next =>
    split
    next holds => exact ⟨.same, .integer .same (Option.filter_eq_some_iff.mp holds).1⟩
    next => exact ⟨.same, .same⟩

theorem adapted_widen (left right : Expr) :
    Adapted table left (widen left right).1 ∧ Adapted table right (widen left right).2 := by
  have widened (target : Ty) (e : Expr) :
      Adapted table e (if e.type == target then e else convert target e) := by
    split
    next => exact .same
    next => exact .convert .same
  rw [widen]
  split
  next => exact ⟨.same, .same⟩
  next =>
    split
    next => exact ⟨.same, .same⟩
    next target _ => exact ⟨widened target left, widened target right⟩

theorem bitwise_cases {operator : BinaryOp} {left right e : Expr}
    (outcome : bitwise operator op left right = .ok e) :
    ∃ left' right', e = binary left'.type operator left' right' none ∧ Adapted table left left' ∧
      Adapted table right right' ∧ (left'.type == right'.type) = true ∧
      (left'.type.isIntegral = true ∨ (left'.type.core == .boolean) = true) := by
  rw [bitwise] at outcome
  obtain ⟨left_adapted, right_adapted⟩ := adapted_widen left right
  simp only at outcome
  split at outcome
  next accepted =>
    obtain ⟨same, kind⟩ := (Bool.and_eq_true _ _).mp accepted
    exact ⟨_, _, (Except.ok.inj outcome).symm, left_adapted, right_adapted, same,
      (Bool.or_eq_true _ _).mp kind⟩
  next => cases outcome

theorem conjunction_cases {left right e : Expr}
    (outcome : conjunction table op left right = .ok e) :
    ∃ left₁ right₁, Adapted table left left₁ ∧ Adapted table right right₁ ∧
      (Concatenates table left₁ right₁ e ∨
        ∃ left' right', e = binary left'.type .and left' right' none ∧ Adapted table left₁ left' ∧
          Adapted table right₁ right' ∧ (left'.type == right'.type) = true ∧
          (left'.type.isIntegral = true ∨ (left'.type.core == .boolean) = true)) := by
  obtain ⟨left_adapted, right_adapted⟩ := adapted_integerBeside left.toUnderlying right.toUnderlying
  refine ⟨_, _, (adapted_toUnderlying left).trans left_adapted,
    (adapted_toUnderlying right).trans right_adapted, ?_⟩
  rw [conjunction] at outcome
  simp only at outcome
  split at outcome
  next => exact .inl (concat_cases outcome)
  next => exact .inr (bitwise_cases outcome)

theorem disjunction_cases (table : ClassTable) {left right e : Expr}
    (outcome : disjunction op left right = .ok e) :
    ∃ left' right', e = binary left'.type .or left' right' none ∧ Adapted table left left' ∧
      Adapted table right right' ∧ (left'.type == right'.type) = true ∧
      (left'.type.isIntegral = true ∨ (left'.type.core == .boolean) = true) := by
  obtain ⟨left', right', same, left_adapted, right_adapted, types⟩ := bitwise_cases outcome
  exact ⟨left', right', same, (adapted_toUnderlying left).trans left_adapted,
    (adapted_toUnderlying right).trans right_adapted, types⟩

theorem difference_cases {left right e : Expr}
    (outcome : difference table op left right = .ok e) :
    ∃ left' right',
      e = binary (differenceType left'.type right'.type) .subtract left' right' none ∧
      Adapted table left left' ∧ Adapted table right right' ∧
      (table.DeclaresNoConversion → InGroup .subtract left' right') := by
  obtain ⟨⟨left', right'⟩, operands, same⟩ := bind_eq_ok_iff.mp outcome
  exact ⟨left', right', (pure_eq_ok_iff.mp same).symm, operands_cases operands⟩

/-- Two references become operands of a test of equality: null without a type is given the type of
the other one, or one of them is converted to the type of the other. -/
inductive ReferencesCompared (table : ClassTable) (left right : Expr) : Expr → Expr → Prop where
  | same (same : (left.type == right.type) = true) : ReferencesCompared table left right left right
  | nullRight : ReferencesCompared table left right left (.nullOf left.type)
  | nullLeft : ReferencesCompared table left right (.nullOf right.type) right
  | toLeft (converts : (left.type.isAssignable table right.type ||
        right.type.hasDeclaredConversion table left.type false) = true) :
      ReferencesCompared table left right left (.convert left.type right)
  | toRight (converts : (right.type.isAssignable table left.type ||
        left.type.hasDeclaredConversion table right.type false) = true) :
      ReferencesCompared table left right (.convert right.type left) right

theorem referencesCompared {left right left' right' : Expr}
    (outcome : compareReferences table op left right = .ok (left', right')) :
    ReferencesCompared table left right left' right' := by
  rw [compareReferences] at outcome
  split at outcome
  next same =>
    obtain ⟨rfl, rfl⟩ := Prod.mk.inj (Except.ok.inj outcome)
    exact .same same
  next =>
    split at outcome
    next =>
      obtain ⟨rfl, rfl⟩ := Prod.mk.inj (Except.ok.inj outcome)
      exact .nullRight
    next =>
      split at outcome
      next =>
        obtain ⟨rfl, rfl⟩ := Prod.mk.inj (Except.ok.inj outcome)
        exact .nullLeft
      next =>
        split at outcome
        next converts =>
          obtain ⟨rfl, rfl⟩ := Prod.mk.inj (Except.ok.inj outcome)
          exact .toLeft converts
        next =>
          split at outcome
          next converts =>
            obtain ⟨rfl, rfl⟩ := Prod.mk.inj (Except.ok.inj outcome)
            exact .toRight converts
          next => cases outcome

theorem compareReferences_cases {left right left' right' : Expr}
    (outcome : compareReferences table op left right = .ok (left', right')) :
    Adapted table left left' ∧ Adapted table right right' ∧ (left'.type == right'.type) = true := by
  cases referencesCompared outcome with
  | same same => exact ⟨.same, .same, same⟩
  | nullRight => exact ⟨.same, .null, BEq.rfl⟩
  | nullLeft => exact ⟨.null, .same, BEq.rfl⟩
  | toLeft => exact ⟨.same, .convert .same, BEq.rfl⟩
  | toRight => exact ⟨.convert .same, .same, BEq.rfl⟩

/-- Two operands, one of them of an enumeration type, are brought to one type: one of them is
promoted, or a constant is taken for a member of the enumeration. -/
inductive EnumsAligned (table : ClassTable) (position : Nat) (left right : Expr) :
    Expr → Expr → Prop where
  | same (same : (left.type == right.type) = true) :
      EnumsAligned table position left right left right
  | promotedRight {promoted : Expr}
      (promotes : right.promote? table .exactly left.type = some promoted) :
      EnumsAligned table position left right left promoted
  | promotedLeft {promoted : Expr}
      (promotes : left.promote? table .exactly right.type = some promoted) :
      EnumsAligned table position left right promoted right
  | memberRight {member : Expr} (isEnum : left.type.isEnum = true)
      (taken : enumConstant left.type position right = .ok member) :
      EnumsAligned table position left right left member
  | memberLeft {member : Expr} (isEnum : right.type.isEnum = true)
      (taken : enumConstant right.type position left = .ok member) :
      EnumsAligned table position left right member right

theorem enumsAligned {left right left' right' : Expr}
    (outcome : alignEnums table op left right = .ok (left', right')) :
    EnumsAligned table op.position left right left' right' := by
  rw [alignEnums] at outcome
  split at outcome
  next same =>
    obtain ⟨rfl, rfl⟩ := Prod.mk.inj (Except.ok.inj outcome)
    exact .same same
  next =>
    split at outcome
    next promotes =>
      obtain ⟨rfl, rfl⟩ := Prod.mk.inj (Except.ok.inj outcome)
      exact .promotedRight promotes
    next =>
      split at outcome
      next promotes =>
        obtain ⟨rfl, rfl⟩ := Prod.mk.inj (Except.ok.inj outcome)
        exact .promotedLeft promotes
      next =>
        split at outcome
        next accepted =>
          obtain ⟨member, taken, same⟩ := map_eq_ok_iff.mp outcome
          obtain ⟨rfl, rfl⟩ := Prod.mk.inj same
          exact .memberRight ((Bool.and_eq_true _ _).mp accepted).1 taken
        next =>
          split at outcome
          next accepted =>
            obtain ⟨member, taken, same⟩ := map_eq_ok_iff.mp outcome
            obtain ⟨rfl, rfl⟩ := Prod.mk.inj same
            exact .memberLeft ((Bool.and_eq_true _ _).mp accepted).1 taken
          next => cases outcome

theorem alignEnums_cases {left right left' right' : Expr}
    (outcome : alignEnums table op left right = .ok (left', right')) :
    Adapted table left left' ∧ Adapted table right right' ∧ (left'.type == right'.type) = true := by
  cases enumsAligned outcome with
  | same same => exact ⟨.same, .same, same⟩
  | promotedRight promotes =>
      exact ⟨.same, Adapted.of_promote? promotes, BEq.symm (promote?_type (.inl rfl) promotes)⟩
  | promotedLeft promotes =>
      exact ⟨Adapted.of_promote? promotes, .same, promote?_type (.inl rfl) promotes⟩
  | memberRight _ taken =>
      obtain ⟨enum, n, -, rfl⟩ := enumConstant_eq_ok taken
      exact ⟨.same, .member .same ⟨op, taken, .inl outcome⟩, BEq.rfl⟩
  | memberLeft _ taken =>
      obtain ⟨enum, n, -, rfl⟩ := enumConstant_eq_ok taken
      exact ⟨.member .same ⟨op, taken, .inr (.inl outcome)⟩, .same, BEq.rfl⟩

/-- What can be seen of each signature of a group can be seen of the operands. -/
theorem InGroup.check {group : OperatorGroup} {left right : Expr} (holds : Ty → Ty → Bool)
    (all : group.allPairs holds = true) (inGroup : InGroup group left right) :
    holds left.type right.type = true ∧ left.type.isSimple = true ∧
      right.type.isSimple = true := by
  have operand {t : Ty} (member : t ∈ [left.type, right.type]) : t.isSimple = true :=
    ((Bool.and_eq_true _ _).mp (group.isOperandType_of_mem inGroup member)).1
  exact ⟨List.all_eq_true.mp all _ inGroup, operand (by simp), operand (by simp)⟩

/-- The operators of these groups take two operands of one type. -/
theorem InGroup.same {group : OperatorGroup} {left right : Expr}
    (inGroup : InGroup group left right)
    (joins : group = .logical ∨ group = .arithmetic ∨ group = .relational ∨ group = .equality) :
    left.type = right.type := by
  have all : group.allPairs (fun t u => u == t) = true := by
    obtain rfl | rfl | rfl | rfl := joins <;> rfl
  obtain ⟨same, left_simple, -⟩ := inGroup.check _ all
  exact (Ty.eq_of_same left_simple same).symm

/-- Two values become operands of a comparison: a text is read as a value of the type beside it, a
method that the type has for the operator is called, or both are promoted. -/
inductive ValuesCompared (table : ClassTable) (operator : BinaryOp) (op : Token)
    (left right : Expr) : Compared → Prop where
  | textRight {read : Expr} (outcome : right.readText? left.type op.position = .ok (some read)) :
      ValuesCompared table operator op left right ⟨left, read, none⟩
  | textLeft {read : Expr} (outcome : left.readText? right.type op.position = .ok (some read)) :
      ValuesCompared table operator op left right ⟨read, right, none⟩
  | declared (same : (left.type == right.type) = true)
      (has : hasOperator table left.type operator = true) :
      ValuesCompared table operator op left right ⟨left, right, some operator.methodName⟩
  | builtIn {left' right' : Expr}
      (operands : OperatorGroup.operands table (if operator.isEquality then .equality
        else .relational) op.text op.position left right = .ok (left', right')) :
      ValuesCompared table operator op left right ⟨left', right', none⟩

theorem valuesCompared {operator : BinaryOp} {left right : Expr} {c : Compared}
    (outcome : compareValues table operator op left right = .ok c) :
    ValuesCompared table operator op left right c := by
  obtain ⟨rightText, right_eq, outcome⟩ := bind_eq_ok_iff.mp outcome
  split at outcome
  next =>
    obtain rfl := pure_eq_ok_iff.mp outcome
    exact .textRight right_eq
  next =>
    obtain ⟨leftText, left_eq, outcome⟩ := bind_eq_ok_iff.mp outcome
    split at outcome
    next =>
      obtain rfl := pure_eq_ok_iff.mp outcome
      exact .textLeft left_eq
    next =>
      split at outcome
      next declared =>
        obtain rfl := pure_eq_ok_iff.mp outcome
        obtain ⟨same, has⟩ := (Bool.and_eq_true _ _).mp declared
        exact .declared same has
      next =>
        obtain ⟨⟨left', right'⟩, operands, outcome⟩ := bind_eq_ok_iff.mp outcome
        obtain rfl := pure_eq_ok_iff.mp outcome
        exact .builtIn operands

theorem compareValues_cases {operator : BinaryOp} {left right : Expr} {c : Compared}
    (outcome : compareValues table operator op left right = .ok c) :
    Adapted table left c.left ∧ Adapted table right c.right ∧
      (table.DeclaresNoConversion → (c.left.type == c.right.type) = true) := by
  cases valuesCompared outcome with
  | textRight read =>
      obtain ⟨text, value, -, -, rfl⟩ := readText?_eq_ok read
      exact ⟨.same, .read .same read, fun _ => BEq.rfl⟩
  | textLeft read =>
      obtain ⟨text, value, -, -, rfl⟩ := readText?_eq_ok read
      exact ⟨.read .same read, .same, fun _ => BEq.rfl⟩
  | declared same => exact ⟨.same, .same, fun _ => same⟩
  | builtIn operands =>
      obtain ⟨left_adapted, right_adapted, inGroup⟩ := operands_cases operands
      refine ⟨left_adapted, right_adapted, fun plain => ?_⟩
      rw [(inGroup plain).same (by cases operator.isEquality <;> simp)]
      exact BEq.rfl

/-- Two operands of an ordering are the integers of two members of one enumeration.  Enumerations
are told apart by name, so that the integers need not have one width. -/
def OrdersMembers (op : BinaryOp) (left right : Expr) : Prop :=
  op.isEquality = false ∧ ∃ l r : Expr, (l.type == r.type) = true ∧ l.type.isEnum = true ∧
    left = l.toUnderlying ∧ right = r.toUnderlying

/-- Two operands are compared as references, as members of enumerations or as values.  An ordering
compares the integers of members. -/
inductive OperandsCompared (table : ClassTable) (operator : BinaryOp) (op : Token)
    (left right : Expr) : Compared → Prop where
  | references {left' right' : Expr} (isEquality : operator.isEquality = true)
      (outcome : compareReferences table op left right = .ok (left', right')) :
      OperandsCompared table operator op left right ⟨left', right', none⟩
  | members {left' right' : Expr} (isEquality : operator.isEquality = true)
      (isMember : left.type.isEnum = true ∨ right.type.isEnum = true)
      (outcome : alignEnums table op left right = .ok (left', right')) :
      OperandsCompared table operator op left right ⟨left', right', none⟩
  | integers {left' right' : Expr} (isOrdering : operator.isEquality = false)
      (isMember : left.type.isEnum = true ∨ right.type.isEnum = true)
      (outcome : alignEnums table op left right = .ok (left', right')) :
      OperandsCompared table operator op left right ⟨left'.toUnderlying, right'.toUnderlying, none⟩
  | values {c : Compared} (outcome : compareValues table operator op left right = .ok c) :
      OperandsCompared table operator op left right c

theorem operandsCompared {operator : BinaryOp} {left right : Expr} {c : Compared}
    (outcome : compared table operator op left right = .ok c) :
    OperandsCompared table operator op left right c := by
  rw [compared] at outcome
  simp only at outcome
  split at outcome
  next accepted =>
    obtain ⟨⟨left', right'⟩, references, same⟩ := bind_eq_ok_iff.mp outcome
    obtain rfl := pure_eq_ok_iff.mp same
    exact .references ((Bool.and_eq_true _ _).mp accepted).1 references
  next =>
    split at outcome
    next isMember =>
      rw [Bool.or_eq_true] at isMember
      obtain ⟨⟨left', right'⟩, aligned, outcome⟩ := bind_eq_ok_iff.mp outcome
      split at outcome
      next isEquality =>
        obtain rfl := pure_eq_ok_iff.mp outcome
        exact .members isEquality isMember aligned
      next isOrdering =>
        obtain rfl := pure_eq_ok_iff.mp outcome
        exact .integers (by simpa using isOrdering) isMember aligned
    next => exact .values outcome

theorem compared_cases {operator : BinaryOp} {left right : Expr} {c : Compared}
    (outcome : compared table operator op left right = .ok c) :
    Adapted table left c.left ∧ Adapted table right c.right ∧
      (table.DeclaresNoConversion →
        (c.left.type == c.right.type) = true ∨ OrdersMembers operator c.left c.right) := by
  cases operandsCompared outcome with
  | references _ references =>
      obtain ⟨left_adapted, right_adapted, types⟩ := compareReferences_cases references
      exact ⟨left_adapted, right_adapted, fun _ => .inl types⟩
  | members _ _ aligned =>
      obtain ⟨left_adapted, right_adapted, types⟩ := alignEnums_cases aligned
      exact ⟨left_adapted, right_adapted, fun _ => .inl types⟩
  | @integers left' right' isOrdering _ aligned =>
      obtain ⟨left_adapted, right_adapted, types⟩ := alignEnums_cases aligned
      refine ⟨left_adapted.trans (adapted_toUnderlying _),
        right_adapted.trans (adapted_toUnderlying _), fun _ => ?_⟩
      cases isMember : left'.type.isEnum with
      | true => exact .inr ⟨isOrdering, left', right', types, isMember, rfl, rfl⟩
      | false =>
          rw [toUnderlying_of_noMember isMember,
            toUnderlying_of_noMember (Ty.isEnum_same types ▸ isMember)]
          exact .inl types
  | values outcome =>
      obtain ⟨left_adapted, right_adapted, types⟩ := compareValues_cases outcome
      exact ⟨left_adapted, right_adapted, fun plain => .inl (types plain)⟩

theorem comparison_cases {operator : BinaryOp} {left right e : Expr}
    (outcome : comparison table operator op left right = .ok e) :
    ∃ left' right' method, e = binary .boolean operator left' right' method ∧
      Adapted table left left' ∧ Adapted table right right' ∧
      (table.DeclaresNoConversion →
        (left'.type == right'.type) = true ∨ OrdersMembers operator left' right') := by
  obtain ⟨c, outcome, same⟩ := bind_eq_ok_iff.mp outcome
  exact ⟨c.left, c.right, c.method, (pure_eq_ok_iff.mp same).symm, compared_cases outcome⟩

/-- A value and an item become operands of a test of equality: a constant beside a member of an
enumeration is taken for a member of it, and others are promoted. -/
inductive ItemTested (table : ClassTable) (position : Nat) (left right : Expr) :
    Expr → Expr → Prop where
  | same (same : (left.type == right.type) = true) : ItemTested table position left right left right
  | member {member : Expr} (taken : enumConstant left.type position right = .ok member) :
      ItemTested table position left right left member
  | promoted {left' right' : Expr}
      (operands : OperatorGroup.operands table .equality "==" position left right =
        .ok (left', right')) : ItemTested table position left right left' right'

theorem itemTested {left right e : Expr} (outcome : isItem table op left right = .ok e) :
    ∃ left' right', e = test .equal left' right' ∧
      ItemTested table op.position left right left' right' := by
  rw [isItem] at outcome
  split at outcome
  next same => exact ⟨left, right, (Except.ok.inj outcome).symm, .same same⟩
  next =>
    split at outcome
    next =>
      split at outcome
      next =>
        obtain ⟨member, taken, rfl⟩ := map_eq_ok_iff.mp outcome
        exact ⟨left, member, rfl, .member taken⟩
      next => cases outcome
    next =>
      obtain ⟨⟨left', right'⟩, operands, same⟩ := bind_eq_ok_iff.mp outcome
      exact ⟨left', right', (pure_eq_ok_iff.mp same).symm, .promoted operands⟩

theorem isItem_cases {left right e : Expr} (outcome : isItem table op left right = .ok e) :
    ∃ left' right', e = test .equal left' right' ∧
      Adapted table left left' ∧ Adapted table right right' ∧
      (table.DeclaresNoConversion → (left'.type == right'.type) = true) := by
  obtain ⟨left', right', rfl, tested⟩ := itemTested outcome
  refine ⟨left', right', rfl, ?_⟩
  cases tested with
  | same same => exact ⟨.same, .same, fun _ => same⟩
  | member taken =>
      obtain ⟨enum, n, -, rfl⟩ := enumConstant_eq_ok taken
      exact ⟨.same, .member .same ⟨op, taken, .inr (.inr outcome)⟩, fun _ => BEq.rfl⟩
  | promoted operands =>
      obtain ⟨left_adapted, right_adapted, inGroup⟩ := operands_cases operands
      refine ⟨left_adapted, right_adapted, fun plain => ?_⟩
      rw [(inGroup plain).same (by simp)]
      exact BEq.rfl

theorem isContained_cases {item sequence e : Expr}
    (outcome : isContained table op item sequence = .ok e) :
    ∃ element item', sequence.type.element? table = some element ∧ Adapted table item item' ∧
      e = aggregate .boolean .contains sequence [element] [item'] := by
  rw [isContained] at outcome
  split at outcome
  next => cases outcome
  next element elements =>
    split at outcome
    next item' promotes =>
      exact ⟨element, item', elements, Adapted.of_promote? promotes, (Except.ok.inj outcome).symm⟩
    next => cases outcome

theorem promoteToward?_cases {other e promoted : Expr}
    (outcome : promoteToward? table other e = some promoted) :
    Adapted table e promoted ∧ (promoted.type == other.type) = true := by
  rw [promoteToward?] at outcome
  split at outcome
  next => cases outcome
  next => exact ⟨Adapted.of_promote? outcome, promote?_type (.inl rfl) outcome⟩

theorem choose_cases {position : Nat} {condition ifTrue ifFalse e : Expr}
    (outcome : choose table position condition ifTrue ifFalse = .ok e) :
    ∃ ifTrue' ifFalse', e = conditional condition ifTrue' ifFalse' ∧
      condition.type = .boolean ∧ Adapted table ifTrue ifTrue' ∧ Adapted table ifFalse ifFalse' ∧
      (ifTrue'.type == ifFalse'.type) = true := by
  rw [choose] at outcome
  split at outcome
  next => cases outcome
  next isBoolean =>
    have test_type : condition.type = .boolean :=
      Ty.eq_of_same rfl (by simpa [bne] using isBoolean)
    split at outcome
    next same =>
      exact ⟨_, _, (Except.ok.inj outcome).symm, test_type, .same, .same, same⟩
    next =>
      split at outcome
      next =>
        exact ⟨_, _, (Except.ok.inj outcome).symm, test_type, .null, .convert .same, BEq.rfl⟩
      next =>
        split at outcome
        next =>
          exact ⟨_, _, (Except.ok.inj outcome).symm, test_type, .convert .same, .null,
            BEq.rfl⟩
        next =>
          split at outcome
          next converted forth _ =>
            obtain ⟨isAdapted, type⟩ := promoteToward?_cases forth
            exact ⟨_, _, (Except.ok.inj outcome).symm, test_type, isAdapted, .same, type⟩
          next converted _ back =>
            obtain ⟨isAdapted, type⟩ := promoteToward?_cases back
            exact ⟨_, _, (Except.ok.inj outcome).symm, test_type, .same, isAdapted, BEq.symm type⟩
          next => cases outcome
          next => cases outcome

/-- Two operands are coalesced: the right one is promoted to what the left one is when it is not
null, or to its type, or the left one is converted to the type of the right one. -/
inductive Coalesced (table : ClassTable) (left right : Expr) : Expr → Prop where
  | core {inner : Ty} {promoted : Expr} (isNullable : left.type = .nullable inner)
      (promotes : right.promote? table .exactly inner = some promoted) :
      Coalesced table left right (.coalesce inner left promoted)
  | promoted {promoted : Expr} (promotes : right.promote? table .exactly left.type = some promoted) :
      Coalesced table left right (.coalesce left.type left promoted)
  | converted (compatible : left.type.core.isCompatible table right.type = true) :
      Coalesced table left right (.coalesce right.type (.convert right.type.lift left) right)

theorem coalesced {position : Nat} {left right e : Expr}
    (outcome : orElseValue table position left right = .ok e) : Coalesced table left right e := by
  rw [orElseValue] at outcome
  split at outcome
  next => cases outcome
  next =>
    split at outcome
    next toCore =>
      obtain rfl := Except.ok.inj outcome
      rw [promoteToCore?] at toCore
      split at toCore
      next inner isNullable =>
        obtain ⟨promoted, promotes, same⟩ := Option.map_eq_some_iff.mp toCore
        obtain ⟨rfl, rfl⟩ := Prod.mk.inj same
        exact .core isNullable promotes
      next => cases toCore
    next =>
      split at outcome
      next promotes => exact Except.ok.inj outcome ▸ .promoted promotes
      next =>
        split at outcome
        next compatible => exact Except.ok.inj outcome ▸ .converted compatible
        next => cases outcome

theorem orElseValue_cases {position : Nat} {left right e : Expr}
    (outcome : orElseValue table position left right = .ok e) :
    ∃ type left' right', e = coalesce type left' right' ∧ Adapted table left left' ∧
      Adapted table right right' ∧ (right'.type == type) = true ∧
      ((left'.type == type) = true ∨ (left'.type == .nullable type) = true) := by
  cases coalesced outcome with
  | @core inner promoted isNullable promotes =>
      refine ⟨inner, left, promoted, rfl, .same, Adapted.of_promote? promotes,
        promote?_type (.inl rfl) promotes, .inr ?_⟩
      rw [isNullable]
      exact BEq.rfl
  | promoted promotes =>
      exact ⟨left.type, left, _, rfl, .same, Adapted.of_promote? promotes,
        promote?_type (.inl rfl) promotes, .inl BEq.rfl⟩
  | converted =>
      refine ⟨right.type, _, right, rfl, .convert .same, .same, BEq.rfl, ?_⟩
      change (right.type.lift == _) = true ∨ (right.type.lift == _) = true
      rw [Ty.lift]
      split
      next => exact .inl BEq.rfl
      next => exact .inr BEq.rfl

theorem convertTo_adapted {target : Ty} {position : Nat} {operand e : Expr}
    (outcome : convertTo table target position operand = .ok e) : Adapted table operand e := by
  unfold convertTo at outcome
  simp only at outcome
  split at outcome
  next => exact pure_eq_ok_iff.mp outcome ▸ .same
  next =>
    split at outcome
    next => exact pure_eq_ok_iff.mp outcome ▸ .null
    next =>
      split at outcome
      next => exact pure_eq_ok_iff.mp outcome ▸ .convert .same
      next =>
        split at outcome
        next => exact pure_eq_ok_iff.mp outcome ▸ .convert .same
        next =>
          obtain ⟨read, read_eq, outcome⟩ := bind_eq_ok_iff.mp outcome
          split at outcome
          next converted =>
            obtain rfl := pure_eq_ok_iff.mp outcome
            exact .read .same read_eq
          next =>
            split at outcome
            next => exact pure_eq_ok_iff.mp outcome ▸ .convert .same
            next => cases outcome

/-- A type applied to arguments converts a single one of them or makes a call of a constructor. -/
theorem constructOf_eq_ok {type : Ty} {position : Nat} {args : List Expr} {e : Expr}
    (outcome : constructOf table type position args = .ok e) :
    (∃ arg, args = [arg] ∧ convertTo table type position arg = .ok e) ∨
      ∃ params promoted, type.resolveConstructor table args = .found params promoted ∧
        e = construct type promoted := by
  unfold constructOf at outcome
  simp only at outcome
  split at outcome
  next arg isDirect =>
    obtain ⟨isSingle, -⟩ := Option.filter_eq_some_iff.mp isDirect
    split at isSingle
    next => exact .inl ⟨arg, by rw [Option.some.inj isSingle], outcome⟩
    next => cases isSingle
  next =>
    split at outcome
    next params promoted found =>
      exact .inr ⟨params, promoted, found, (Except.ok.inj outcome).symm⟩
    next => cases outcome
    next =>
      split at outcome
      next arg isArg =>
        split at isArg
        next => exact .inl ⟨arg, by rw [Option.some.inj isArg], outcome⟩
        next => cases isArg
      next => cases outcome

theorem constructOf_cases {type : Ty} {position : Nat} {args : List Expr} {e : Expr}
    (outcome : constructOf table type position args = .ok e) :
    (∃ arg, args = [arg] ∧ Adapted table arg e) ∨
      ∃ params args', e = construct type args' ∧ List.Forall₂ (Adapted table) args args' ∧
        params ∈ type.constructors table ∧
        (table.DeclaresNoConversion → List.Forall₂ (Fits table) params args') := by
  obtain ⟨arg, isSingle, converted⟩ | ⟨params, promoted, found, rfl⟩ := constructOf_eq_ok outcome
  · exact .inl ⟨arg, isSingle, convertTo_adapted converted⟩
  · obtain ⟨isConstructor, fits⟩ := Ty.resolveConstructor_found found
    exact .inr ⟨params, promoted, rfl, promoteAll?_adapted fits, isConstructor,
      fun plain => promoteAll?_fits plain fits⟩

theorem guarded_eq {chain e : Expr} (isGuarded : e ∈ chain.guarded) :
    e = chain ∨ e ∈ chain.chainReceivers := by
  obtain ⟨part, -⟩ := List.mem_filter.mp isGuarded
  obtain receiver | itself := List.mem_append.mp part
  · exact .inr (List.mem_reverse.mp receiver)
  · exact .inl (List.mem_singleton.mp itself)

/-- The receivers of a chain are nodes of it. -/
theorem Everywhere.chainReceivers {rule : Expr → Prop} {chain : Expr}
    (everywhere : chain.Everywhere rule) :
    ∀ e ∈ chain.chainReceivers, e.Everywhere rule := by
  induction everywhere with
  | @node chain here below ih =>
      have receivers (target : Expr) (isChild : target ∈ chain.children) :
          ∀ e ∈ (if target.receiver?.isSome then target :: target.chainReceivers else []),
            e.Everywhere rule := by
        split
        next => exact List.forall_mem_cons.mpr ⟨below target isChild, ih target isChild⟩
        next => simp
      cases chain with
      | member _ target _ | methodCall _ _ target _ | aggregate _ _ target _ _
      | invoke _ target _ => exact receivers target (by simp [children])
      | _ => simp [Expr.chainReceivers]

/-- A chain protected against null is left as it is, or chosen if none of its parts is null. -/
theorem propagateNull_cases {position : Nat} {chain e : Expr} {default? : Option Expr}
    (outcome : chain.propagateNull table position default? = .ok e) :
    e = chain ∨ ∃ first others, first :: others = chain.guarded.map isNotNull ∧
      choose table position (others.foldl (test .andAlso) first) chain
        (default?.getD nullLiteral) = .ok e := by
  rw [propagateNull] at outcome
  split at outcome
  next => exact .inl (Except.ok.inj outcome).symm
  next =>
    split at outcome
    next => exact .inl (Except.ok.inj outcome).symm
    next first others guards => exact .inr ⟨first, others, guards.symm, outcome⟩

end Expr

namespace CompileContext

open QueryTree.Expr (Adapted Fits)

variable {ctx : CompileContext}

theorem methodCall_cases {receiver : Receiver} {name : String} {position : Nat}
    {args : List Expr} {e : Expr} (outcome : ctx.methodCall receiver name position args = .ok e) :
    ∃ method type args', e = receiver.call type method args' ∧
      method ∈ receiver.memberType.methods ctx.env.classes ∧
      method.isStatic = receiver.isStatic ∧ method.result = some type ∧
      List.Forall₂ (Adapted ctx.env.classes) args args' ∧
      (ctx.env.classes.DeclaresNoConversion →
        List.Forall₂ (Fits ctx.env.classes) method.params args') ∧
      ctx.mayCall method = true := by
  unfold methodCall at outcome
  simp only at outcome
  split at outcome
  next => cases outcome
  next => cases outcome
  next method promoted found =>
    obtain ⟨isMethod, isStatic, -, fits⟩ := Ty.resolveMethod_found found
    split at outcome
    next => cases outcome
    next known =>
      split at outcome
      next => cases outcome
      next type yields =>
        exact ⟨method, type, promoted, (Except.ok.inj outcome).symm, isMethod, isStatic, yields,
          Expr.promoteAll?_adapted fits, fun plain => Expr.promoteAll?_fits plain fits,
          by simpa using known⟩

theorem enumMember?_eq_some {receiver : Receiver} {name : String} {e : Expr}
    (isMember : enumMember? receiver name = some e) :
    ∃ type enum n, receiver = .type type ∧ type.enum? = some enum ∧
      enum.valueOf? name = some n ∧ e = .ofValue type (.enum enum n) := by
  unfold enumMember? at isMember
  split at isMember
  next type =>
    obtain ⟨enum, isEnum, isMember⟩ := Option.bind_eq_some_iff.mp isMember
    obtain ⟨n, isValue, rfl⟩ := Option.map_eq_some_iff.mp isMember
    exact ⟨type, enum, n, rfl, isEnum, isValue, rfl⟩
  next => cases isMember

/-- A named member is a constant of an enumeration, a declared member, or an index by name. -/
theorem namedMember_cases {receiver : Receiver} {name : String} {position : Nat} {e : Expr}
    (outcome : ctx.namedMember receiver name position = .ok e) :
    (∃ type enum n, type.enum? = some enum ∧ enum.valueOf? name = some n ∧
        e = .ofValue type (.enum enum n)) ∨
      (∃ m ∈ receiver.memberType.members ctx.env.classes, m.isStatic = receiver.isStatic ∧
        e = receiver.access m) ∨
      ∃ target, ∃ indexer ∈ target.type.indexers ctx.env.classes,
        receiver.value? = some target ∧ Ty.sameAll indexer.params [.string] = true ∧
          e = indexByName indexer.type target name := by
  rw [namedMember] at outcome
  split at outcome
  next constant isConstant =>
    obtain rfl := Except.ok.inj outcome
    obtain ⟨type, enum, n, -, isEnum, isValue, rfl⟩ := enumMember?_eq_some isConstant
    exact .inl ⟨type, enum, n, isEnum, isValue, rfl⟩
  next =>
    split at outcome
    next target isDynamic =>
      obtain rfl := Except.ok.inj outcome
      obtain ⟨isValue, dynamic⟩ := Option.filter_eq_some_iff.mp isDynamic
      have dynamic : target.type = .dynamic := Ty.eq_of_same rfl dynamic
      refine .inr (.inr ⟨target, ⟨[.string], .object⟩, ?_, isValue, rfl, rfl⟩)
      rw [dynamic]
      exact List.mem_singleton_self _
    next =>
      split at outcome
      next found isFound =>
        obtain rfl := Except.ok.inj outcome
        have either : ctx.declaredMember? receiver name = some found ∨
            ctx.indexedMember? receiver name = some found := by
          rw [Option.orElse_eq_orElse, Option.orElse_eq_or] at isFound
          exact (Option.or_eq_some_iff.mp isFound).imp_right And.right
        obtain declared | indexed := either
        · obtain ⟨m, isMember, rfl⟩ := Option.map_eq_some_iff.mp declared
          have suits := List.find?_some isMember
          exact .inr (.inl ⟨m, List.mem_of_find?_eq_some isMember,
            beq_iff_eq.mp ((Bool.and_eq_true _ _).mp suits).1, rfl⟩)
        · rw [indexedMember?] at indexed
          split at indexed
          next => cases indexed
          next =>
            obtain ⟨target, isValue, found⟩ := Option.bind_eq_some_iff.mp indexed
            obtain ⟨indexer, isIndexer, rfl⟩ := Option.map_eq_some_iff.mp found
            have takesName := List.find?_some isIndexer
            exact .inr (.inr ⟨target, indexer, List.mem_of_find?_eq_some isIndexer, isValue,
              takesName, rfl⟩)
      next => cases outcome

theorem indexAccess_cases {position : Nat} {target e : Expr} {args : List Expr}
    (outcome : ctx.indexAccess position target args = .ok e) :
    ∃ type args', e = .index type target args' ∧ List.Forall₂ (Adapted ctx.env.classes) args args' ∧
      ((∃ arg, target.type = .array type ∧ args' = [arg] ∧ arg.type = .int32) ∨
        ∃ indexer ∈ target.type.indexers ctx.env.classes, indexer.type = type ∧
          (ctx.env.classes.DeclaresNoConversion →
            List.Forall₂ (Fits ctx.env.classes) indexer.params args')) := by
  rw [indexAccess] at outcome
  split at outcome
  next element isArray =>
    split at outcome
    next arg =>
      split at outcome
      next promoted promotes =>
        refine ⟨element, [promoted], (Except.ok.inj outcome).symm,
          .cons (Adapted.of_promote? promotes) .nil, .inl ⟨promoted, isArray, rfl, ?_⟩⟩
        exact Ty.eq_of_same rfl (Expr.promote?_type (.inl rfl) promotes)
      next => cases outcome
    next => cases outcome
  next =>
    split at outcome
    next indexer promoted found =>
      obtain ⟨isIndexer, fits⟩ := Ty.resolveIndexer_found found
      exact ⟨indexer.type, promoted, (Except.ok.inj outcome).symm, Expr.promoteAll?_adapted fits,
        .inr ⟨indexer, isIndexer, rfl, fun plain => Expr.promoteAll?_fits plain fits⟩⟩
    next => cases outcome
    next => cases outcome

theorem arrayItems_cases {element : Ty} {position : Nat} {items converted : List Expr}
    (outcome : ctx.arrayItems element position items = .ok converted) :
    List.Forall₂ (Adapted ctx.env.classes) items converted ∧
      ∀ item ∈ converted, (item.type == element) = true := by
  induction items generalizing converted with
  | nil =>
      cases outcome
      exact ⟨.nil, by simp⟩
  | cons e rest ih =>
      rw [arrayItems] at outcome
      split at outcome
      next item promotes =>
        obtain ⟨others, others_eq, rfl⟩ := map_eq_ok_iff.mp outcome
        obtain ⟨adapted, types⟩ := ih others_eq
        exact ⟨.cons (Adapted.of_promote? promotes) adapted,
          List.forall_mem_cons.mpr ⟨Expr.promote?_type (.inl rfl) promotes, types⟩⟩
      next => cases outcome

theorem newArray_cases {element? : Option Ty} {position : Nat} {items : List Expr} {e : Expr}
    (outcome : ctx.newArray element? position items = .ok e) :
    ∃ element items', e = .newArray (.array element) items' ∧
      List.Forall₂ (Adapted ctx.env.classes) items items' ∧
      ∀ item ∈ items', (item.type == element) = true := by
  unfold newArray at outcome
  split at outcome
  next element =>
    obtain ⟨converted, converted_eq, rfl⟩ := map_eq_ok_iff.mp outcome
    obtain ⟨adapted, types⟩ := arrayItems_cases converted_eq
    exact ⟨element, converted, rfl, adapted, types⟩
  next =>
    split at outcome
    next element shared =>
      obtain ⟨-, all⟩ := Option.filter_eq_some_iff.mp shared
      exact ⟨element, items, (Except.ok.inj outcome).symm, List.forall₂_same.mpr fun _ _ => .same,
        List.all_eq_true.mp all⟩
    next =>
      refine ⟨.object, _, (Except.ok.inj outcome).symm, ?_, ?_⟩
      · rw [List.forall₂_map_right_iff]
        refine List.forall₂_same.mpr fun e _ => ?_
        split
        next => exact .same
        next => exact .convert .same
      · intro item isItem
        obtain ⟨e, -, rfl⟩ := List.mem_map.mp isItem
        split
        next isObject => exact isObject
        next => exact BEq.rfl

theorem bindings_cases {type : Ty} {items : List NewItem} {members : List (String × Expr)}
    (outcome : ctx.bindings type items = .ok members) :
    ∀ entry ∈ members, (∃ item ∈ items, Adapted ctx.env.classes item.value entry.2) ∧
      ∃ m ∈ type.members ctx.env.classes, m.isStatic = false ∧ m.name = entry.1 ∧
        (entry.2.type == m.type) = true := by
  induction items generalizing members with
  | nil =>
      cases outcome
      simp
  | cons item rest ih =>
      unfold bindings at outcome
      simp only at outcome
      split at outcome
      next => cases outcome
      next member isMember =>
        split at outcome
        next => cases outcome
        next value promotes =>
          obtain ⟨others, others_eq, same⟩ := bind_eq_ok_iff.mp outcome
          obtain rfl := pure_eq_ok_iff.mp same
          have suits := List.find?_some isMember
          refine List.forall_mem_cons.mpr ⟨⟨⟨item, by simp, Adapted.of_promote? promotes⟩,
            member, List.mem_of_find?_eq_some isMember, ?_, rfl,
            Expr.promote?_type (.inl rfl) promotes⟩, fun entry isEntry => ?_⟩
          · simpa using ((Bool.and_eq_true _ _).mp suits).1
          · obtain ⟨⟨item, isItem, isAdapted⟩, typed⟩ := ih others_eq entry isEntry
            exact ⟨⟨item, List.mem_cons_of_mem _ isItem, isAdapted⟩, typed⟩

theorem newOfType_cases {type : Ty} {position : Nat} {items : List NewItem} {e : Expr}
    (outcome : ctx.newOfType type position items = .ok e) :
    Expr.constructOf ctx.env.classes type position (items.map (·.value)) = .ok e ∨
      ∃ members, e = .record type .bindings members ∧ ctx.bindings type items = .ok members := by
  rw [newOfType] at outcome
  split at outcome
  next => exact .inl outcome
  next =>
    split at outcome
    next => cases outcome
    next =>
      obtain ⟨members, bound, rfl⟩ := map_eq_ok_iff.mp outcome
      exact .inr ⟨members, rfl, bound⟩

end CompileContext

end QueryTree
