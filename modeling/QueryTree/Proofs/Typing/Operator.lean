import QueryTree.Proofs.Compile.Operation

/-!
# Typing of nodes

The typing rule of each kind of node, and the operands that operators promote to obey theirs.
-/

namespace QueryTree

/-! ## Typing rules

The rule that each kind of node obeys: which types its parts have and which type it has itself.
-/

/-- The operand types of a sum with a duration and the type of the sum. -/
def durationSums : List (Ty × Ty × Ty) :=
  [(.dateTime, .timeSpan, .dateTime),
    (.nullable .dateTime, .nullable .timeSpan, .nullable .dateTime),
    (.timeSpan, .timeSpan, .timeSpan),
    (.nullable .timeSpan, .nullable .timeSpan, .nullable .timeSpan)]

/-- The operand types of a difference with a moment or a duration and the type of the
difference. -/
def durationDifferences : List (Ty × Ty × Ty) :=
  durationSums ++
    [(.dateTime, .dateTime, .timeSpan),
      (.nullable .dateTime, .nullable .dateTime, .nullable .timeSpan)]

/-- The operand types of a shift and its type. -/
def shiftTypes : List (Ty × Ty × Ty) :=
  [Ty.int32, .integral .uint32, .int64, .integral .uint64].flatMap fun t =>
    [(t, .int32, t), (.nullable t, .nullable .int32, .nullable t)]

namespace Expr

/-- The types that a binary operation and its operands have. -/
def BinaryTyped (type : Ty) (op : BinaryOp) (left right : Expr) : Prop :=
  match op with
  | .andAlso | .orElse =>
    left.type = type ∧ right.type = type ∧ (type = .boolean ∨ type = .nullable .boolean)
  | .add =>
    (left.type = type ∧ right.type = type) ∨ (left.type, right.type, type) ∈ durationSums
  | .subtract =>
    (left.type = type ∧ right.type = type) ∨ (left.type, right.type, type) ∈ durationDifferences
  | .multiply | .divide | .modulo => left.type = type ∧ right.type = type
  | .and | .or => left.type = type ∧ (right.type == type) = true
  | .leftShift | .rightShift => (left.type, right.type, type) ∈ shiftTypes
  | .equal | .notEqual | .lessThan | .greaterThan | .lessThanOrEqual | .greaterThanOrEqual =>
    type = .boolean ∧ ((left.type == right.type) = true ∨ OrdersMembers op left right)

/-- The type that a type test has. -/
def TestTyped (type wanted : Ty) : TypeTest → Prop
  | .is => type = .boolean
  | .as => type = wanted ∧ wanted.admitsNull = true
  | .cast => type = wanted

/-- The types that an operation on a sequence and its parts have.  `bodies` are the types of the
arguments, or of what they yield for an element. -/
def SequenceTyped (table : ClassTable) (type : Ty) (operation : Aggregate) (source : Ty)
    (typeArgs bodies : List Ty) : Prop :=
  ∃ element, source.element? table = some element ∧
    match operation with
    | .ofType | .cast => ∃ wanted, type = .sequence wanted ∧ typeArgs = [wanted] ∧ bodies = []
    | _ => operation.typing? table element bodies = some (type, typeArgs)

/-- The type of an argument of a sequence operation, or of what it yields for an element. -/
def bodyType (operation : Aggregate) (arg : Expr) : Ty :=
  match operation.takesValues, arg with
  | false, lambda _ body => body.type
  | _, _ => arg.type

/-- The types that a node and its parts have. -/
def NodeTyped (table : ClassTable) : Expr → Prop
  | constant _ _ _ | parameter _ | convert _ _ | lambda _ _ => True
  | staticMember type name =>
    ∃ owner : Ty, ∃ m ∈ owner.members table, m.isStatic = true ∧ m.name = name ∧ m.type = type
  | member type target name =>
    ∃ m ∈ target.type.members table, m.isStatic = false ∧ m.name = name ∧ m.type = type
  | index type target args =>
    (∃ arg, target.type = .array type ∧ args = [arg] ∧ arg.type = .int32) ∨
      ∃ indexer ∈ target.type.indexers table, indexer.type = type ∧
        List.Forall₂ (Fits table) indexer.params args
  | staticCall type method args =>
    method.isStatic = true ∧ method.result = some type ∧
      List.Forall₂ (Fits table) method.params args
  | methodCall type method target args =>
    method ∈ target.type.methods table ∧ method.isStatic = false ∧ method.result = some type ∧
      List.Forall₂ (Fits table) method.params args
  | aggregate type operation source typeArgs args =>
    SequenceTyped table type operation source.type typeArgs (args.map (bodyType operation))
  | invoke type target args =>
    ∃ params, target.type = .lambda params type ∧
      List.Forall₂ (fun param arg => (arg.type == param) = true) params args
  | binary type op left right _ => BinaryTyped type op left right
  | negate type operand => operand.type = type
  | not type operand => operand.type = type
  | conditional test ifTrue ifFalse =>
    test.type = .boolean ∧ (ifTrue.type == ifFalse.type) = true
  | coalesce type left right =>
    (right.type == type) = true ∧
      ((left.type == type) = true ∨ (left.type == .nullable type) = true)
  | construct type args =>
    ∃ params ∈ type.constructors table, List.Forall₂ (Fits table) params args
  | record type .bindings members =>
    ∀ entry ∈ members, ∃ m ∈ type.members table, m.isStatic = false ∧ m.name = entry.1 ∧
      (entry.2.type == m.type) = true
  | record type .anonymous members =>
    type = .dynamic ∨ ∃ id held, type = .record id (members.map (·.1)) held ∧
      Ty.sameAll held (members.map (·.2.type)) = true
  | newArray type items =>
    ∃ element, type = .array element ∧ ∀ item ∈ items, (item.type == element) = true
  | typeTest type _ wanted test => TestTyped type wanted test

/-- Every node of a tree has the types that its rule asks for. -/
abbrev WellTyped (table : ClassTable) (e : Expr) : Prop := e.Everywhere (NodeTyped table)

theorem nodeTyped_allowsRecast (table : ClassTable) : AllowsRecast (NodeTyped table) where
  constant _ _ _ := trivial
  convert _ _ := trivial

end Expr

end QueryTree

namespace QueryTree.Expr

/-! ## Typing of operators

The promoted operands of an operator have the types that the rule for the operator asks for.
-/

variable {left right : Expr}

/-- Whether the types of two operands and of the result are listed. -/
def isListed (listed : List (Ty × Ty × Ty)) (left right type : Ty) : Bool :=
  type.isSimple && listed.any fun entry =>
    entry.1 == left && (entry.2.1 == right && entry.2.2 == type)

theorem mem_of_isListed {listed : List (Ty × Ty × Ty)} {left right type : Ty}
    (left_simple : left.isSimple = true) (right_simple : right.isSimple = true)
    (found : isListed listed left right type = true) : (left, right, type) ∈ listed := by
  obtain ⟨type_simple, some⟩ := (Bool.and_eq_true _ _).mp found
  obtain ⟨⟨l, r, t⟩, member, same⟩ := List.any_eq_true.mp some
  simp only [Bool.and_eq_true] at same
  rwa [Ty.eq_of_same left_simple same.1, Ty.eq_of_same right_simple same.2.1,
    Ty.eq_of_same type_simple same.2.2] at member

theorem product_typed {token : Token} {operator : BinaryOp}
    (isOperator : CompileContext.productOperator? token = some operator)
    (inGroup : InGroup .arithmetic left right) : BinaryTyped left.type operator left right := by
  have same := inGroup.same (by simp)
  obtain rfl | rfl | rfl := CompileContext.productOperator?_eq_some isOperator
  all_goals exact ⟨rfl, same.symm⟩

theorem sum_typed (inGroup : InGroup .add left right) :
    BinaryTyped left.type .add left right := by
  obtain ⟨typed, left_simple, right_simple⟩ :=
    inGroup.check (fun t u => t == u || isListed durationSums t u t) rfl
  obtain same | listed := (Bool.or_eq_true _ _).mp typed
  · exact .inl ⟨rfl, (Ty.eq_of_same right_simple same).symm⟩
  · exact .inr (mem_of_isListed left_simple right_simple listed)

theorem difference_typed (inGroup : InGroup .subtract left right) :
    BinaryTyped (differenceType left.type right.type) .subtract left right := by
  obtain ⟨typed, left_simple, right_simple⟩ :=
    inGroup.check (fun t u => (t == u && t == differenceType t u) ||
      isListed durationDifferences t u (differenceType t u)) rfl
  obtain same | listed := (Bool.or_eq_true _ _).mp typed
  · obtain ⟨operands, result⟩ := (Bool.and_eq_true _ _).mp same
    have operands_eq := Ty.eq_of_same right_simple operands
    have result_eq := Ty.eq_of_same left_simple (BEq.symm result)
    exact .inl ⟨result_eq.symm, operands_eq.symm.trans result_eq.symm⟩
  · exact .inr (mem_of_isListed left_simple right_simple listed)

theorem shift_typed {token : Token} {operator : BinaryOp}
    (isOperator : CompileContext.shiftOperator? token = some operator)
    (inGroup : InGroup .shift left right) : BinaryTyped left.type operator left right := by
  obtain ⟨typed, left_simple, right_simple⟩ :=
    inGroup.check (fun t u => isListed shiftTypes t u t) rfl
  have listed := mem_of_isListed left_simple right_simple typed
  obtain rfl | rfl := CompileContext.shiftOperator?_eq_some isOperator
  · exact listed
  · exact listed

theorem logical_typed {token : Token} {operator : BinaryOp}
    (isOperator : CompileContext.andOperator? token = some operator ∨
      CompileContext.orOperator? token = some operator)
    (inGroup : InGroup .logical left right) : BinaryTyped left.type operator left right := by
  have same := inGroup.same (by simp)
  have truth : left.type = .boolean ∨ left.type = .nullable .boolean := by
    obtain ⟨typed, -, -⟩ :=
      inGroup.check (fun t _ => t == .boolean || t == .nullable .boolean) rfl
    exact ((Bool.or_eq_true _ _).mp typed).imp (Ty.eq_of_same rfl) (Ty.eq_of_same rfl)
  obtain rfl | rfl := CompileContext.logicalOperator_cases isOperator
  · exact ⟨rfl, same.symm, truth⟩
  · exact ⟨rfl, same.symm, truth⟩

theorem comparison_typed {token : Token} {operator : BinaryOp}
    (isOperator : CompileContext.comparisonOperator? token = some operator)
    (same : (left.type == right.type) = true ∨ OrdersMembers operator left right) :
    BinaryTyped .boolean operator left right := by
  rw [CompileContext.comparisonOperator?] at isOperator
  split at isOperator
  any_goals cases isOperator
  all_goals exact ⟨rfl, same⟩

end QueryTree.Expr
