import Mathlib.Tactic.SplitIfs
import QueryTree.Compile.Function
import QueryTree.Compile.Level
import QueryTree.Proofs.Independence.Expressions

/-!
# Operations under other numbers

The steps that make an expression of others, without a look at the text, succeed for expressions
that differ in no more than numbers or fail for all of them, and their results differ in no more.
-/

namespace QueryTree

section Outcomes

variable {ε α β : Type}

theorem toOption_bind (outcome : Except ε α) (next : α → Except ε β) :
    (outcome >>= next).toOption = outcome.toOption.bind fun a => (next a).toOption := by
  cases outcome <;> rfl

theorem toOption_map (outcome : Except ε α) (f : α → β) :
    (outcome.map f).toOption = outcome.toOption.map f := by
  cases outcome <;> rfl

theorem toOption_pure (a : α) : (pure a : Except ε α).toOption = some a := rfl

end Outcomes

namespace Expr

variable {number : Nat → Nat} (table : ClassTable) (op : Token) (position : Nat)

/-! ## Conversions -/

@[simp] theorem convertsByValue_unnumbered (source target : Ty) :
    convertsByValue source.unnumbered target.unnumbered = convertsByValue source target := by
  simp [convertsByValue]

@[simp] theorem ofText_unnumbered (target : Ty) (text : String) :
    Value.ofText target.unnumbered text = Value.ofText target text := by
  have reader : Value.reader? target.core.unnumbered = Value.reader? target.core := by
    cases target.core <;> rfl
  rw [Value.ofText, Value.ofText, Ty.core_unnumbered, reader]

theorem readText?_renumbered (target : Ty) (e : Expr) :
    ((e.renumbered number).readText? target.unnumbered position).toOption
      = (e.readText? target position).toOption.map (·.map (renumbered number)) := by
  simp only [readText?, text?_renumbered, ofText_unnumbered]
  cases e.text? with
  | none => rfl
  | some text =>
      simp only
      cases Value.ofText target text <;> rfl

theorem convertTo_renumbered (target : Ty) (e : Expr) :
    ((e.renumbered number).convertTo table.unnumbered target.unnumbered position).toOption
      = (e.convertTo table target position).toOption.map (renumbered number) := by
  have read := @readText?_renumbered number position target e
  simp only [convertTo, type_renumbered, Ty.unnumbered_beq_left, Ty.unnumbered_beq_right,
    isNullLiteral_renumbered, Ty.admitsNull_unnumbered, convertsByValue_unnumbered,
    Ty.isAssignable_unnumbered, Ty.isConvertible_unnumbered]
  split_ifs with same isNull byValue assigned converts
  · rfl
  · rfl
  · rfl
  · rfl
  · simp only [toOption_bind, read]
    obtain none | none | converted := (e.readText? target position).toOption <;> rfl
  · simp only [toOption_bind, read]
    obtain none | none | converted := (e.readText? target position).toOption <;> rfl

theorem constructOf_renumbered (type : Ty) (args : List Expr) :
    (constructOf table.unnumbered type.unnumbered position
        (args.map (renumbered number))).toOption
      = (constructOf table type position args).toOption.map (renumbered number) := by
  have converted := @convertTo_renumbered number table position type
  have chosen := @Ty.resolveConstructor_renumbered number table args type
  match args with
  | [arg] =>
      rw [List.map_cons, List.map_nil] at chosen ⊢
      simp only [constructOf, Option.filter, isConstant_renumbered, type_renumbered,
        Ty.isValue_unnumbered]
      split_ifs
      · exact converted arg
      · rw [chosen]
        cases type.resolveConstructor table [arg] with
        | found _ args => simp [Resolution.renumbered, Except.toOption, renumbered]
        | notFound => exact converted arg
        | ambiguous count => rfl
  | [] | _ :: _ :: _ =>
      simp only [constructOf, List.map_cons, List.map_nil, Option.filter] at chosen ⊢
      rw [chosen]
      generalize type.resolveConstructor table _ = outcome
      cases outcome with
      | found _ args => simp [Resolution.renumbered, Except.toOption, renumbered]
      | notFound | ambiguous _ => rfl

/-! ## Operands -/

@[simp] theorem underlyingType_unnumbered (enum : EnumType) :
    enum.underlyingType.unnumbered = enum.underlyingType := by
  unfold EnumType.underlyingType
  split <;> rfl

@[simp] theorem toUnderlying_renumbered (e : Expr) :
    (e.renumbered number).toUnderlying = e.toUnderlying.renumbered number := by
  simp only [toUnderlying, type_renumbered, Ty.enum?_unnumbered, Ty.isNullable_unnumbered]
  cases e.type.enum? with
  | none => rfl
  | some enum =>
      simp only [renumbered, apply_ite Ty.unnumbered, ← Ty.lift_unnumbered,
        underlyingType_unnumbered]

theorem ofGroup_renumbered (group : OperatorGroup) (operator : BinaryOp) (left right : Expr) :
    (ofGroup table.unnumbered group operator op (left.renumbered number)
        (right.renumbered number)).toOption
      = (ofGroup table group operator op left right).toOption.map (renumbered number) := by
  simp only [ofGroup, toOption_bind, OperatorGroup.operands_renumbered]
  cases (group.operands table op.text op.position left right).toOption with
  | none => rfl
  | some sides => simp [renumbered, toOption_pure]

theorem concat_renumbered (left right : Expr) :
    (concat table.unnumbered op (left.renumbered number) (right.renumbered number)).toOption
      = (concat table op left right).toOption.map (renumbered number) := by
  have chosen := @Ty.resolveMethod_renumbered number table [left, right] .string "Concat" true
  simp only [List.map_cons, List.map_nil] at chosen
  rw [concat, concat, show Ty.string = Ty.string.unnumbered from rfl, chosen]
  match Ty.resolveMethod table .string "Concat" true [left, right] with
  | .found method args => simp [Resolution.renumbered, Except.toOption, renumbered, Ty.unnumbered]
  | .notFound | .ambiguous _ => rfl

@[simp] theorem joinsText_renumbered (left right : Expr) :
    joinsText (left.renumbered number) (right.renumbered number) = joinsText left right := by
  simp [joinsText]

theorem sum_renumbered (left right : Expr) :
    (sum table.unnumbered op (left.renumbered number) (right.renumbered number)).toOption
      = (sum table op left right).toOption.map (renumbered number) := by
  rw [sum, sum, joinsText_renumbered]
  split
  · exact concat_renumbered table op left right
  · exact ofGroup_renumbered table op .add .add left right

@[simp] theorem differenceType_unnumbered (left right : Ty) :
    differenceType left.unnumbered right.unnumbered = (differenceType left right).unnumbered := by
  have isMoment (t : Ty) : t.unnumbered = .dateTime ↔ t = .dateTime := by
    cases t <;> simp [Ty.unnumbered]
  unfold differenceType
  split
  next leftMoment rightMoment =>
    rw [Ty.core_unnumbered, isMoment] at leftMoment rightMoment
    simp only [leftMoment, rightMoment, Ty.isNullable_unnumbered]
    split <;> rfl
  next other =>
    split
    next leftMoment rightMoment =>
      refine (other ?_ ?_).elim
      · rw [Ty.core_unnumbered, leftMoment]
        rfl
      · rw [Ty.core_unnumbered, rightMoment]
        rfl
    next => rfl

theorem difference_renumbered (left right : Expr) :
    (difference table.unnumbered op (left.renumbered number) (right.renumbered number)).toOption
      = (difference table op left right).toOption.map (renumbered number) := by
  simp only [difference, toOption_bind, OperatorGroup.operands_renumbered]
  cases (OperatorGroup.operands table .subtract op.text op.position left right).toOption with
  | none => rfl
  | some sides => simp [renumbered, toOption_pure]

@[simp] theorem integerText?_renumbered (e : Expr) :
    (e.renumbered number).integerText? = e.integerText? := by
  simp [integerText?]

@[simp] theorem commonIntegral?_unnumbered (left right : Ty) :
    commonIntegral? left.unnumbered right.unnumbered
      = (commonIntegral? left right).map Ty.unnumbered := by
  simp only [commonIntegral?, Ty.intKind?_unnumbered, Ty.isNullable_unnumbered]
  cases left.intKind? with
  | none => rfl
  | some leftKind =>
      cases right.intKind? with
      | none => rfl
      | some rightKind =>
          simp only [Option.bind_eq_bind, Option.bind_some]
          cases widestFirst.find? fun kind => kind == leftKind || kind == rightKind with
          | none => rfl
          | some kind =>
              simp only [Option.bind_some]
              split <;> rfl

@[simp] theorem widen_renumbered (left right : Expr) :
    widen (left.renumbered number) (right.renumbered number)
      = Prod.map (renumbered number) (renumbered number) (widen left right) := by
  simp only [widen, type_renumbered, Ty.unnumbered_beq_left, Ty.unnumbered_beq_right,
    commonIntegral?_unnumbered]
  split
  · rfl
  · cases commonIntegral? left.type right.type with
    | none => rfl
    | some target =>
        simp only [Option.map_some, Ty.unnumbered_beq_right, Prod.map, apply_ite (renumbered number)]
        rfl

theorem bitwise_renumbered (operator : BinaryOp) (left right : Expr) :
    (bitwise operator op (left.renumbered number) (right.renumbered number)).toOption
      = (bitwise operator op left right).toOption.map (renumbered number) := by
  simp only [bitwise, widen_renumbered, Prod.map_fst, Prod.map_snd, type_renumbered,
    Ty.unnumbered_beq_left, Ty.unnumbered_beq_right, Ty.isIntegral_unnumbered, Ty.core_unnumbered]
  split <;> rfl

@[simp] theorem integerBeside_renumbered (left right : Expr) :
    integerBeside (left.renumbered number) (right.renumbered number)
      = Prod.map (renumbered number) (renumbered number) (integerBeside left right) := by
  simp only [integerBeside, integerText?_renumbered, type_renumbered, Ty.isNumeric_unnumbered]
  split
  next => rfl
  next => split <;> rfl

theorem conjunction_renumbered (left right : Expr) :
    (conjunction table.unnumbered op (left.renumbered number) (right.renumbered number)).toOption
      = (conjunction table op left right).toOption.map (renumbered number) := by
  simp only [conjunction, toUnderlying_renumbered, integerBeside_renumbered, Prod.map_fst,
    Prod.map_snd, joinsText_renumbered]
  split
  · exact concat_renumbered table op _ _
  · exact bitwise_renumbered op .and _ _

theorem disjunction_renumbered (left right : Expr) :
    (disjunction op (left.renumbered number) (right.renumbered number)).toOption
      = (disjunction op left right).toOption.map (renumbered number) := by
  rw [disjunction, disjunction, toUnderlying_renumbered, toUnderlying_renumbered]
  exact bitwise_renumbered op .or _ _

/-! ## Comparisons -/

theorem enumConstant_renumbered (type : Ty) (e : Expr) :
    (enumConstant type.unnumbered position (e.renumbered number)).toOption
      = (enumConstant type position e).toOption.map (renumbered number) := by
  simp only [enumConstant, Ty.enum?_unnumbered, value?_renumbered]
  cases type.enum? with
  | none => rfl
  | some enum =>
      simp only
      split <;> rfl

/-- Operands of a comparison with other numbers. -/
def Compared.renumbered (number : Nat → Nat) (c : Compared) : Compared :=
  ⟨c.left.renumbered number, c.right.renumbered number, c.method⟩

theorem compareReferences_renumbered (left right : Expr) :
    (compareReferences table.unnumbered op (left.renumbered number)
        (right.renumbered number)).toOption
      = (compareReferences table op left right).toOption.map
          (Prod.map (renumbered number) (renumbered number)) := by
  simp only [compareReferences, type_renumbered, Ty.unnumbered_beq_left, Ty.unnumbered_beq_right,
    isUntypedNull_renumbered, Ty.isAssignable_unnumbered, Ty.hasDeclaredConversion_unnumbered]
  split_ifs <;> rfl

theorem alignEnums_renumbered (left right : Expr) :
    (alignEnums table.unnumbered op (left.renumbered number) (right.renumbered number)).toOption
      = (alignEnums table op left right).toOption.map
          (Prod.map (renumbered number) (renumbered number)) := by
  simp only [alignEnums, type_renumbered, Ty.unnumbered_beq_left, Ty.unnumbered_beq_right,
    promote?_renumbered, Ty.isEnum_unnumbered, isConstant_renumbered]
  split
  next => rfl
  next =>
    cases right.promote? table .exactly left.type with
    | some _ => rfl
    | none =>
        cases left.promote? table .exactly right.type with
        | some _ => rfl
        | none =>
            simp only [Option.map_none]
            split_ifs
            · rw [toOption_map, toOption_map, enumConstant_renumbered]
              cases (enumConstant left.type op.position right).toOption <;> rfl
            · rw [toOption_map, toOption_map, enumConstant_renumbered]
              cases (enumConstant right.type op.position left).toOption <;> rfl
            · rfl

@[simp] theorem hasOperator_unnumbered (type : Ty) (operator : BinaryOp) :
    hasOperator table.unnumbered type.unnumbered operator = hasOperator table type operator := by
  simp only [hasOperator, Ty.operators_unnumbered, List.any_map]
  rfl

theorem compareValues_renumbered (operator : BinaryOp) (left right : Expr) :
    (compareValues table.unnumbered operator op (left.renumbered number)
        (right.renumbered number)).toOption
      = (compareValues table operator op left right).toOption.map
          (Compared.renumbered number) := by
  simp only [compareValues, toOption_bind, type_renumbered, readText?_renumbered]
  obtain none | none | converted := (right.readText? left.type op.position).toOption
  · rfl
  · simp only [Option.map_some, Option.map_none, Option.bind_some, toOption_bind,
      readText?_renumbered]
    obtain none | none | converted := (left.readText? right.type op.position).toOption
    · rfl
    · simp only [Option.map_some, Option.map_none, Option.bind_some, Ty.unnumbered_beq_left,
        Ty.unnumbered_beq_right, hasOperator_unnumbered]
      split
      · rfl
      · simp only [toOption_bind, OperatorGroup.operands_renumbered]
        obtain none | sides := (OperatorGroup.operands table
          (if operator.isEquality then .equality else .relational) op.text op.position left
          right).toOption <;> rfl
    · rfl
  · rfl

theorem compared_renumbered (operator : BinaryOp) (left right : Expr) :
    (compared table.unnumbered operator op (left.renumbered number)
        (right.renumbered number)).toOption
      = (compared table operator op left right).toOption.map (Compared.renumbered number) := by
  simp only [compared, type_renumbered, Ty.isValue_unnumbered, Ty.unnumbered_beq_left,
    Ty.isEnum_unnumbered]
  split
  · simp only [toOption_bind, compareReferences_renumbered]
    cases (compareReferences table op left right).toOption <;> rfl
  · split
    · simp only [toOption_bind, alignEnums_renumbered]
      cases (alignEnums table op left right).toOption with
      | none => rfl
      | some sides =>
          simp only [Option.map_some, Option.bind_some, Prod.map_fst, Prod.map_snd,
            toUnderlying_renumbered]
          split <;> rfl
    · exact compareValues_renumbered table op operator left right

theorem comparison_renumbered (operator : BinaryOp) (left right : Expr) :
    (comparison table.unnumbered operator op (left.renumbered number)
        (right.renumbered number)).toOption
      = (comparison table operator op left right).toOption.map (renumbered number) := by
  simp only [comparison, toOption_bind, compared_renumbered]
  cases (compared table operator op left right).toOption <;> rfl

theorem isItem_renumbered (left right : Expr) :
    (isItem table.unnumbered op (left.renumbered number) (right.renumbered number)).toOption
      = (isItem table op left right).toOption.map (renumbered number) := by
  simp only [isItem, type_renumbered, Ty.unnumbered_beq_left, Ty.unnumbered_beq_right,
    Ty.isEnum_unnumbered, isConstant_renumbered]
  split_ifs
  · rfl
  · rw [toOption_map, toOption_map, enumConstant_renumbered]
    cases (enumConstant left.type op.position right).toOption <;> rfl
  · rfl
  · simp only [toOption_bind, OperatorGroup.operands_renumbered]
    cases (OperatorGroup.operands table .equality "==" op.position left right).toOption <;> rfl

theorem isContained_renumbered (item sequence : Expr) :
    (isContained table.unnumbered op (item.renumbered number)
        (sequence.renumbered number)).toOption
      = (isContained table op item sequence).toOption.map (renumbered number) := by
  simp only [isContained, type_renumbered, Ty.element?_unnumbered]
  cases sequence.type.element? table with
  | none => rfl
  | some element =>
      simp only [Option.map_some, promote?_renumbered]
      cases item.promote? table .exactly element with
      | none => rfl
      | some item => simp [Except.toOption, renumbered, Ty.unnumbered]

/-! ## Signs -/

theorem applySign_renumbered (e : Expr) :
    (CompileContext.applySign table.unnumbered op (e.renumbered number)).toOption
      = (CompileContext.applySign table op e).toOption.map (renumbered number) := by
  unfold CompileContext.applySign
  split_ifs
  · simp only [toOption_bind, OperatorGroup.operand_renumbered]
    cases (OperatorGroup.operand table .negation op.text op.position e).toOption with
    | none => rfl
    | some operand => simp [renumbered, toOption_pure]
  · simp only [toOption_bind, OperatorGroup.operand_renumbered]
    cases (OperatorGroup.operand table .not op.text op.position e).toOption with
    | none => rfl
    | some operand => simp [renumbered, toOption_pure]

/-! ## Functions of the language -/

@[simp] theorem excludesNull_renumbered (e : Expr) :
    (e.renumbered number).excludesNull = e.excludesNull := by
  simp [excludesNull]

theorem promoteToward?_renumbered (other e : Expr) :
    promoteToward? table.unnumbered (other.renumbered number) (e.renumbered number)
      = (promoteToward? table other e).map (renumbered number) := by
  simp only [promoteToward?, isUntypedNull_renumbered, type_renumbered, promote?_renumbered]
  split <;> rfl

theorem choose_renumbered (test ifTrue ifFalse : Expr) :
    (choose table.unnumbered position (test.renumbered number) (ifTrue.renumbered number)
        (ifFalse.renumbered number)).toOption
      = (choose table position test ifTrue ifFalse).toOption.map (renumbered number) := by
  simp only [choose, bne, type_renumbered, Ty.unnumbered_beq_left, Ty.unnumbered_beq_right,
    isUntypedNull_renumbered, excludesNull_renumbered, promoteToward?_renumbered]
  split_ifs
  · rfl
  · rfl
  · simp [Except.toOption, renumbered]
  · simp [Except.toOption, renumbered]
  · obtain none | converted := promoteToward? table ifFalse ifTrue <;>
      obtain none | converted' := promoteToward? table ifTrue ifFalse <;> rfl

theorem promoteToCore?_renumbered (left right : Expr) :
    promoteToCore? table.unnumbered (left.renumbered number) (right.renumbered number)
      = (promoteToCore? table left right).map (Prod.map Ty.unnumbered (renumbered number)) := by
  simp only [promoteToCore?, type_renumbered]
  cases left.type with
  | nullable inner =>
      simp only [Ty.unnumbered, promote?_renumbered, Option.map_map]
      rfl
  | _ => rfl

theorem orElseValue_renumbered (left right : Expr) :
    (orElseValue table.unnumbered position (left.renumbered number)
        (right.renumbered number)).toOption
      = (orElseValue table position left right).toOption.map (renumbered number) := by
  simp only [orElseValue, excludesNull_renumbered, type_renumbered, promoteToCore?_renumbered,
    promote?_renumbered, Ty.core_unnumbered, Ty.isCompatible_unnumbered]
  split
  · rfl
  · obtain none | ⟨type, converted⟩ := promoteToCore? table left right
    · obtain none | converted := right.promote? table .exactly left.type
      · simp only [Option.map_none]
        split
        · simp [Except.toOption, renumbered]
        · rfl
      · rfl
    · rfl

theorem chainReceivers_renumbered (e : Expr) :
    (e.renumbered number).chainReceivers = e.chainReceivers.map (renumbered number) := by
  fun_induction chainReceivers e with
  | case9 e noMember noCall noAggregate noInvoke =>
      cases e with
      | member type target name => exact (noMember _ _ _ rfl).elim
      | methodCall type method target args => exact (noCall _ _ _ _ rfl).elim
      | aggregate type operation source typeArgs args => exact (noAggregate _ _ _ _ _ rfl).elim
      | invoke type target args => exact (noInvoke _ _ _ rfl).elim
      | _ => rfl
  | _ => simp_all [renumbered, chainReceivers]

theorem guarded_renumbered (e : Expr) :
    (e.renumbered number).guarded = e.guarded.map (renumbered number) := by
  have all : (e.renumbered number).chainReceivers.reverse ++ [e.renumbered number]
      = (e.chainReceivers.reverse ++ [e]).map (renumbered number) := by
    simp [chainReceivers_renumbered]
  rw [guarded, guarded, all, List.filter_map]
  simp only [Function.comp_def, type_renumbered, Ty.admitsNull_unnumbered]

theorem foldl_test_renumbered (first : Expr) (others : List Expr) :
    (others.map (renumbered number)).foldl (test .andAlso) (first.renumbered number)
      = (others.foldl (test .andAlso) first).renumbered number := by
  induction others generalizing first with
  | nil => rfl
  | cons other rest ih => exact ih (test .andAlso first other)

theorem propagateNull_renumbered (chain : Expr) (default? : Option Expr) :
    ((chain.renumbered number).propagateNull table.unnumbered position
        (default?.map (renumbered number))).toOption
      = (chain.propagateNull table position default?).toOption.map (renumbered number) := by
  have tests : (chain.renumbered number).guarded.map isNotNull
      = (chain.guarded.map isNotNull).map (renumbered number) := by
    simp only [guarded_renumbered, List.map_map]
    refine List.map_congr_left fun e _ => ?_
    simp [isNotNull, test, renumbered, Ty.unnumbered]
  have other : (default?.map (renumbered number)).getD nullLiteral
      = (default?.getD nullLiteral).renumbered number := by
    cases default? <;> rfl
  simp only [propagateNull, tests, other, chainReceivers_renumbered, List.isEmpty_map,
    isCall_renumbered]
  split
  · rfl
  · cases chain.guarded.map isNotNull with
    | nil => rfl
    | cons first others =>
        simp only [List.map_cons, foldl_test_renumbered]
        exact choose_renumbered table position _ _ _

@[simp] theorem typeTestType_unnumbered (test : TypeTest) (wanted : Ty) :
    (CompileContext.typeTestType test wanted.unnumbered position).toOption
      = (CompileContext.typeTestType test wanted position).toOption.map Ty.unnumbered := by
  cases test with
  | as =>
      simp only [CompileContext.typeTestType, Ty.admitsNull_unnumbered]
      split <;> rfl
  | _ => rfl

end Expr

end QueryTree
