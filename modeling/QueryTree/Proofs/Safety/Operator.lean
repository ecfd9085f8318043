import QueryTree.Proofs.Branch.Unification
import QueryTree.Proofs.Safety.Operand

/-!
# Safe operations and branches

What the operations and conditionals of the grammar make of safe expressions is safe.
-/

/-!
## Operations

What each operation of the grammar makes of safe operands is safe.
-/

namespace QueryTree.Expr

open Evaluation (Computes)

variable {ctx : EvalContext} {table : ClassTable} {op : Token}

namespace SafeIn

variable {left right e : Expr}

theorem kind_of_core {value : Value} {type : Ty} {a : Atom} (core_eq : type.core = .atom a)
    (isValue : a.isValue = true) (conforms : value.conformsTo type = true)
    (notNull : value.isNull = false) : value.HasKind (.atom a) := by
  obtain isObject | kind := Value.kind_of_conformsTo conforms notNull
  · rw [core_eq] at isObject
    obtain rfl := Ty.atom.inj (Ty.eq_of_same rfl isObject)
    cases isValue
  · rwa [core_eq] at kind

/-- An operation that yields null for null, by the kinds of its operands and of its result. -/
theorem lifted {operator : BinaryOp} {type : Ty} {a b c : Atom}
    (isStrict : operator ≠ .andAlso ∧ operator ≠ .orElse) (isOther : operator.isComparison = false)
    (left_safe : left.SafeIn ctx) (right_safe : right.SafeIn ctx)
    (isOperand : type.isOperand = true)
    (left_core : left.type.core = .atom a) (right_core : right.type.core = .atom b)
    (type_core : type.core = .atom c)
    (left_value : a.isValue = true) (right_value : b.isValue = true)
    (left_null : left.type.admitsNull = true → type.admitsNull = true)
    (right_null : right.type.admitsNull = true → type.admitsNull = true)
    (direct : ∀ l r : Value, l.HasKind (.atom a) → r.HasKind (.atom b) →
      (Value.applyDirect operator (.atom c) l r).Computes (·.HasKind (.atom c))) :
    (binary type operator left right none).SafeIn ctx := by
  refine .strict isStrict left_safe right_safe isOperand fun l r l_conforms r_conforms => ?_
  refine Value.applyBinary_computes l_conforms r_conforms left_null right_null isOther ?_
  intro l_notNull r_notNull
  rw [type_core]
  exact direct l r (kind_of_core left_core left_value l_conforms l_notNull)
    (kind_of_core right_core right_value r_conforms r_notNull)

theorem isValue_of_isNumeric {a : Atom} (numeric : a.isNumeric = true) : a.isValue = true := by
  cases a <;> first | rfl | cases numeric

/-- An operation on two operands of one number type. -/
theorem numeric {operator : BinaryOp}
    (isArithmetic : operator ∈ [.add, .subtract, .multiply, .divide, .modulo])
    (left_safe : left.SafeIn ctx) (right_safe : right.SafeIn ctx) (same : right.type = left.type)
    (isNumeric : left.type.isNumeric = true) :
    (binary left.type operator left right none).SafeIn ctx := by
  obtain ⟨a, core_eq, numeric⟩ : ∃ a, left.type.core = .atom a ∧ a.isNumeric = true := by
    rw [Ty.isNumeric] at isNumeric
    split at isNumeric
    next a core_eq => exact ⟨a, core_eq, isNumeric⟩
    next => cases isNumeric
  have isValue := isValue_of_isNumeric numeric
  have direct (l r : Value) (l_kind : l.HasKind (.atom a)) (r_kind : r.HasKind (.atom a)) :
      (Value.arithmetic operator (.atom a) l r).Computes (·.HasKind (.atom a)) :=
    Value.arithmetic_computes numeric l_kind r_kind
  have safe (isStrict : operator ≠ .andAlso ∧ operator ≠ .orElse)
      (isOther : operator.isComparison = false)
      (isDirect : Value.applyDirect operator = Value.arithmetic operator) :
      (binary left.type operator left right none).SafeIn ctx :=
    .lifted isStrict isOther left_safe right_safe left_safe.isOperand core_eq (same ▸ core_eq)
      core_eq isValue isValue id (fun admits => same ▸ admits) (isDirect ▸ direct)
  simp only [List.mem_cons, List.not_mem_nil, or_false] at isArithmetic
  obtain rfl | rfl | rfl | rfl | rfl := isArithmetic <;> exact safe (by simp) rfl rfl

/-- Whether the types are those of the operands and of the result of an operation with moments and
durations. -/
def isSpanTyped (operator : BinaryOp) (left right type : Ty) : Bool :=
  match left.core, right.core, type.core with
  | .atom a, .atom b, .atom c =>
    Value.spanKind? operator a b == some c && type.isOperand
      && left.isNullable == type.isNullable && right.isNullable == type.isNullable
  | _, _, _ => false

theorem admitsNull_of_core {t : Ty} {a : Atom} (core_eq : t.core = .atom a)
    (isValue : a.isValue = true) : t.admitsNull = t.isNullable := by
  cases t with
  | atom b =>
      obtain rfl := Ty.atom.inj core_eq
      simp [Ty.admitsNull, Ty.isValue, Ty.isNullable, isValue]
  | nullable inner => rfl
  | _ => cases core_eq

theorem span {operator : BinaryOp} {type : Ty}
    (isAdditive : operator = .add ∨ operator = .subtract)
    (left_safe : left.SafeIn ctx) (right_safe : right.SafeIn ctx)
    (typed : isSpanTyped operator left.type right.type type = true) :
    (binary type operator left right none).SafeIn ctx := by
  rw [isSpanTyped] at typed
  split at typed
  next a b c left_core right_core type_core =>
    simp only [Bool.and_eq_true, beq_iff_eq] at typed
    obtain ⟨⟨⟨kinds, isOperand⟩, left_null⟩, right_null⟩ := typed
    have values : a.isValue = true ∧ b.isValue = true ∧ c.isValue = true := by
      unfold Value.spanKind? at kinds
      split at kinds
      next => exact Option.some.inj kinds ▸ ⟨rfl, rfl, rfl⟩
      next => exact Option.some.inj kinds ▸ ⟨rfl, rfl, rfl⟩
      next =>
        split at kinds
        next => exact Option.some.inj kinds ▸ ⟨rfl, rfl, rfl⟩
        next => cases kinds
      next => cases kinds
    have type_null := admitsNull_of_core type_core values.2.2
    have left_admits : left.type.admitsNull = true → type.admitsNull = true := by
      rw [admitsNull_of_core left_core values.1, left_null, type_null]
      exact id
    have right_admits : right.type.admitsNull = true → type.admitsNull = true := by
      rw [admitsNull_of_core right_core values.2.1, right_null, type_null]
      exact id
    have direct (l r : Value) (l_kind : l.HasKind (.atom a)) (r_kind : r.HasKind (.atom b)) :
        (Value.arithmetic operator (.atom c) l r).Computes (·.HasKind (.atom c)) :=
      Value.arithmetic_span_computes kinds l_kind r_kind
    obtain rfl | rfl := isAdditive
    · exact .lifted (by simp) rfl left_safe right_safe isOperand left_core right_core type_core
        values.1 values.2.1 left_admits right_admits direct
    · exact .lifted (by simp) rfl left_safe right_safe isOperand left_core right_core type_core
        values.1 values.2.1 left_admits right_admits direct
  next => cases typed

theorem sum_inGroup (left_safe : left.SafeIn ctx) (right_safe : right.SafeIn ctx)
    (inGroup : InGroup .add left right) : (binary left.type .add left right none).SafeIn ctx := by
  obtain ⟨typed, left_simple, -⟩ := inGroup.check
    (fun t u => (u == t && t.isNumeric) || isSpanTyped .add t u t) rfl
  obtain isNumber | isSpan := (Bool.or_eq_true _ _).mp typed
  · obtain ⟨same, isNumeric⟩ := (Bool.and_eq_true _ _).mp isNumber
    exact .numeric (by simp) left_safe right_safe (Ty.eq_of_same left_simple same) isNumeric
  · exact .span (.inl rfl) left_safe right_safe isSpan

theorem difference_inGroup (left_safe : left.SafeIn ctx) (right_safe : right.SafeIn ctx)
    (inGroup : InGroup .subtract left right) :
    (binary (differenceType left.type right.type) .subtract left right none).SafeIn ctx := by
  obtain ⟨typed, left_simple, -⟩ := inGroup.check
    (fun t u => (u == t && (t.isNumeric && differenceType t u == t)) ||
      isSpanTyped .subtract t u (differenceType t u)) rfl
  obtain isNumber | isSpan := (Bool.or_eq_true _ _).mp typed
  · simp only [Bool.and_eq_true] at isNumber
    obtain ⟨same, isNumeric, result⟩ := isNumber
    rw [Ty.eq_of_same left_simple result]
    exact .numeric (by simp) left_safe right_safe (Ty.eq_of_same left_simple same) isNumeric
  · exact .span (.inr rfl) left_safe right_safe isSpan

theorem product_inGroup {token : Token} {operator : BinaryOp}
    (isOperator : CompileContext.productOperator? token = some operator)
    (left_safe : left.SafeIn ctx) (right_safe : right.SafeIn ctx)
    (inGroup : InGroup .arithmetic left right) :
    (binary left.type operator left right none).SafeIn ctx := by
  obtain ⟨typed, left_simple, -⟩ := inGroup.check (fun t u => u == t && t.isNumeric) rfl
  obtain ⟨same, isNumeric⟩ := (Bool.and_eq_true _ _).mp typed
  refine .numeric ?_ left_safe right_safe (Ty.eq_of_same left_simple same) isNumeric
  obtain rfl | rfl | rfl := CompileContext.productOperator?_eq_some isOperator <;> simp

/-- Whether the types are those of the operands of a shift. -/
def isShiftTyped (left right : Ty) : Bool :=
  match left.core, right.core with
  | .integral _, .integral _ => left.isNullable == right.isNullable
  | _, _ => false

theorem shift_inGroup {token : Token} {operator : BinaryOp}
    (isOperator : CompileContext.shiftOperator? token = some operator)
    (left_safe : left.SafeIn ctx) (right_safe : right.SafeIn ctx)
    (inGroup : InGroup .shift left right) :
    (binary left.type operator left right none).SafeIn ctx := by
  obtain ⟨typed, -, -⟩ := inGroup.check isShiftTyped rfl
  rw [isShiftTyped] at typed
  split at typed
  next kind count left_core right_core =>
    have admits : right.type.admitsNull = true → left.type.admitsNull = true := by
      rw [admitsNull_of_core left_core rfl, admitsNull_of_core right_core rfl,
        beq_iff_eq.mp typed]
      exact id
    have direct (l r : Value) (l_kind : l.HasKind (.integral kind))
        (r_kind : r.HasKind (.integral count)) :
        (Value.shift operator (.integral kind) l r).Computes (·.HasKind (.integral kind)) :=
      Value.shift_computes l_kind r_kind
    obtain rfl | rfl := CompileContext.shiftOperator?_eq_some isOperator
    all_goals
      exact .lifted (by simp) rfl left_safe right_safe left_safe.isOperand left_core right_core
        left_core rfl rfl id admits direct
  next => cases typed

theorem logical_inGroup {token : Token} {operator : BinaryOp}
    (isOperator : CompileContext.andOperator? token = some operator ∨
      CompileContext.orOperator? token = some operator)
    (left_safe : left.SafeIn ctx) (right_safe : right.SafeIn ctx)
    (inGroup : InGroup .logical left right) :
    (binary left.type operator left right none).SafeIn ctx := by
  obtain ⟨typed, left_simple, -⟩ := inGroup.check (fun t u => u == t && t.core == .boolean) rfl
  obtain ⟨same, isTruth⟩ := (Bool.and_eq_true _ _).mp typed
  exact .logical (CompileContext.logicalOperator_cases isOperator) (Ty.eq_of_same rfl isTruth) rfl
    (Ty.eq_of_same left_simple same) left_safe right_safe

theorem ofGroup {group : OperatorGroup} {operator : BinaryOp}
    (left_safe : left.SafeIn ctx) (right_safe : right.SafeIn ctx)
    (outcome : Expr.ofGroup table group operator op left right = .ok e) :
    ∃ l r : Expr, e = binary l.type operator l r none ∧ l.SafeIn ctx ∧ r.SafeIn ctx ∧
      InGroup group l r := by
  obtain ⟨⟨l, r⟩, promoted, same⟩ := bind_eq_ok_iff.mp outcome
  exact ⟨l, r, (pure_eq_ok_iff.mp same).symm, left_safe.operands right_safe promoted⟩

theorem sign {operand : Expr} (safe : operand.SafeIn ctx)
    (outcome : CompileContext.applySign table op operand = .ok e) : e.SafeIn ctx := by
  rw [CompileContext.applySign] at outcome
  split at outcome
  next =>
    obtain ⟨operand', promoted, same⟩ := bind_eq_ok_iff.mp outcome
    obtain rfl := pure_eq_ok_iff.mp same
    obtain ⟨t, isSignature, fits⟩ := OperatorGroup.operand_eq_ok promoted
    obtain ⟨operand_safe, rfl⟩ := safe.promote_type isSignature (by simp) fits
    have all : (OperatorGroup.negation.signatures.all fun signature =>
        signature.all Ty.isNumeric) = true := rfl
    have isNumeric := List.all_eq_true.mp (List.all_eq_true.mp all _ isSignature) _
      (List.mem_singleton_self _)
    rw [Ty.isNumeric] at isNumeric
    split at isNumeric
    next core_eq => exact operand_safe.negate isNumeric core_eq
    next => cases isNumeric
  next =>
    obtain ⟨operand', promoted, same⟩ := bind_eq_ok_iff.mp outcome
    obtain rfl := pure_eq_ok_iff.mp same
    obtain ⟨t, isSignature, fits⟩ := OperatorGroup.operand_eq_ok promoted
    obtain ⟨operand_safe, rfl⟩ := safe.promote_type isSignature (by simp) fits
    have all : (OperatorGroup.not.signatures.all fun signature =>
        signature.all (·.core == .boolean)) = true := rfl
    have isTruth := List.all_eq_true.mp (List.all_eq_true.mp all _ isSignature) _
      (List.mem_singleton_self _)
    exact operand_safe.not (Ty.eq_of_same rfl isTruth)

theorem concat (left_safe : left.SafeIn ctx) (right_safe : right.SafeIn ctx)
    (outcome : Expr.concat table op left right = .ok e) : e.SafeIn ctx := by
  obtain ⟨args, rfl, fits⟩ := concat_eq_ok outcome
  have args_safe : ∀ a ∈ args, a.SafeIn ctx :=
    promoteAll (by simp [left_safe, right_safe]) (by decide) fits
  exact ⟨rfl, (evaluateAll_meets fun a isArg => (args_safe a isArg).runs).bind fun values _ => rfl⟩

theorem sum (left_safe : left.SafeIn ctx) (right_safe : right.SafeIn ctx)
    (outcome : Expr.sum table op left right = .ok e) : e.SafeIn ctx := by
  rw [Expr.sum] at outcome
  split at outcome
  next => exact left_safe.concat right_safe outcome
  next =>
    obtain ⟨l, r, rfl, l_safe, r_safe, inGroup⟩ := left_safe.ofGroup right_safe outcome
    exact l_safe.sum_inGroup r_safe inGroup

theorem difference (left_safe : left.SafeIn ctx) (right_safe : right.SafeIn ctx)
    (outcome : Expr.difference table op left right = .ok e) : e.SafeIn ctx := by
  obtain ⟨⟨l, r⟩, promoted, same⟩ := bind_eq_ok_iff.mp outcome
  obtain rfl := pure_eq_ok_iff.mp same
  obtain ⟨l_safe, r_safe, inGroup⟩ := left_safe.operands right_safe promoted
  exact l_safe.difference_inGroup r_safe inGroup

theorem intKind?_eq_some {t : Ty} {kind : IntKind} (isIntegral : t.intKind? = some kind) :
    t.core = .integral kind := by
  rw [Ty.intKind?] at isIntegral
  split at isIntegral
  next core_eq => rw [core_eq, Option.some.inj isIntegral]
  next => cases isIntegral

theorem commonIntegral?_eq_some {t u target : Ty} (common : commonIntegral? t u = some target) :
    ∃ j k kind, t.core = .integral j ∧ u.core = .integral k ∧
      target = if t.isNullable || u.isNullable then .nullable (.integral kind)
        else .integral kind := by
  obtain ⟨j, t_kind, common⟩ := Option.bind_eq_some_iff.mp common
  obtain ⟨k, u_kind, common⟩ := Option.bind_eq_some_iff.mp common
  obtain ⟨kind, -, same⟩ := Option.bind_eq_some_iff.mp common
  exact ⟨j, k, kind, intKind?_eq_some t_kind, intKind?_eq_some u_kind, (Option.some.inj same).symm⟩

/-- An integer is widened to an integral type that admits null if the integer may be null. -/
theorem widenTo {j kind : IntKind} {withNull : Bool} {target : Ty} (safe : e.SafeIn ctx)
    (core_eq : e.type.core = .integral j) (kept : e.type.isNullable = true → withNull = true)
    (target_eq : target = if withNull then .nullable (.integral kind) else .integral kind) :
    (if e.type == target then e else Expr.convert target e).SafeIn ctx := by
  have isNumber : e.type.core.isNumberLike = true := by
    rw [core_eq]
    rfl
  have admits := admitsNull_of_core core_eq rfl
  split
  next => exact safe
  next =>
    subst target_eq
    cases withNull with
    | true => exact safe.convert rfl ⟨fun _ => rfl, .inr (.inr ⟨isNumber, rfl, rfl⟩)⟩
    | false =>
        refine safe.convert rfl ⟨fun admitted => ?_, .inr (.inr ⟨isNumber, rfl, rfl⟩)⟩
        cases kept (admits ▸ admitted)

theorem widen (left_safe : left.SafeIn ctx) (right_safe : right.SafeIn ctx) :
    (Expr.widen left right).1.SafeIn ctx ∧ (Expr.widen left right).2.SafeIn ctx := by
  rw [Expr.widen]
  split
  next => exact ⟨left_safe, right_safe⟩
  next =>
    split
    next => exact ⟨left_safe, right_safe⟩
    next target common =>
      obtain ⟨j, k, kind, left_core, right_core, target_eq⟩ := commonIntegral?_eq_some common
      exact ⟨left_safe.widenTo left_core (by simp +contextual) target_eq,
        right_safe.widenTo right_core (by simp +contextual) target_eq⟩

theorem core_of_bitwise {t : Ty} (kind : t.isIntegral = true ∨ (t.core == .boolean) = true) :
    ∃ a : Atom, t.core = .atom a ∧ a.isValue = true ∧
      (a = .boolean ∨ ∃ kind, a = .integral kind) := by
  obtain isIntegral | isTruth := kind
  · obtain ⟨kind, isKind⟩ := Option.isSome_iff_exists.mp isIntegral
    exact ⟨_, intKind?_eq_some isKind, rfl, .inr ⟨kind, rfl⟩⟩
  · exact ⟨.boolean, Ty.eq_of_same rfl isTruth, rfl, .inl rfl⟩

theorem bitwise {operator : BinaryOp} (isBitwise : operator = .and ∨ operator = .or)
    (left_safe : left.SafeIn ctx) (right_safe : right.SafeIn ctx)
    (outcome : Expr.bitwise operator op left right = .ok e) : e.SafeIn ctx := by
  obtain ⟨l_safe, r_safe⟩ := left_safe.widen right_safe
  rw [Expr.bitwise] at outcome
  simp only at outcome
  split at outcome
  next accepted =>
    obtain ⟨same, kind⟩ := (Bool.and_eq_true _ _).mp accepted
    obtain rfl := Except.ok.inj outcome
    obtain ⟨a, core_eq, isValue, kinds⟩ := core_of_bitwise ((Bool.or_eq_true _ _).mp kind)
    have right_core := Ty.eq_of_same rfl (core_eq ▸ BEq.symm (Ty.core_same same))
    have admits := (Ty.admitsNull_same same).symm
    have direct (l r : Value) (l_kind : l.HasKind (.atom a)) (r_kind : r.HasKind (.atom a)) :
        (Value.bitwise operator (.atom a) l r).Computes (·.HasKind (.atom a)) :=
      Value.bitwise_computes kinds l_kind r_kind
    obtain rfl | rfl := isBitwise
    · exact .lifted (by simp) rfl l_safe r_safe l_safe.isOperand core_eq right_core core_eq isValue
        isValue id (admits ▸ ·) direct
    · exact .lifted (by simp) rfl l_safe r_safe l_safe.isOperand core_eq right_core core_eq isValue
        isValue id (admits ▸ ·) direct
  next => cases outcome

theorem conjunction (left_safe : left.SafeIn ctx) (right_safe : right.SafeIn ctx)
    (outcome : Expr.conjunction table op left right = .ok e) : e.SafeIn ctx := by
  obtain ⟨l_safe, r_safe⟩ := left_safe.toUnderlying.integerBeside right_safe.toUnderlying
  rw [Expr.conjunction] at outcome
  simp only at outcome
  split at outcome
  next => exact l_safe.concat r_safe outcome
  next => exact .bitwise (.inl rfl) l_safe r_safe outcome

theorem disjunction (left_safe : left.SafeIn ctx) (right_safe : right.SafeIn ctx)
    (outcome : Expr.disjunction op left right = .ok e) : e.SafeIn ctx :=
  .bitwise (.inr rfl) left_safe.toUnderlying right_safe.toUnderlying outcome

theorem enumConstant {type : Ty} {position : Nat} {member : Expr}
    (isOperand : type.isOperand = true)
    (outcome : Expr.enumConstant type position e = .ok member) : member.SafeIn ctx := by
  obtain ⟨enum, n, isEnum, rfl⟩ := enumConstant_eq_ok outcome
  have kind : (Value.enum enum n).HasKind type.core := Ty.core_of_enum? isEnum ▸ ⟨rfl, BEq.rfl⟩
  exact .constant isOperand kind.conformsTo

theorem readText? {type : Ty} {position : Nat} {read : Expr}
    (outcome : e.readText? type position = .ok (some read)) : read.RunsIn ctx := by
  obtain ⟨text, value, -, -, rfl⟩ := readText?_eq_ok outcome
  exact runsIn_constant

/-- A reference beside another one is converted only to the type of all values, or not at all. -/
theorem referenceTo {target : Ty} (safe : e.SafeIn ctx) (isOperand : target.isOperand = true)
    (converts : (target.isAssignable table e.type ||
      e.type.hasDeclaredConversion table target false) = true) :
    (Expr.convert target e).SafeIn ctx := by
  rw [Ty.hasDeclaredConversion_of_isOperand safe.isOperand isOperand, Bool.or_false] at converts
  obtain rfl | same | ⟨-, rfl⟩ := Ty.isAssignable_cases safe.isOperand converts
  · exact safe.convert isOperand Ty.converts_object
  · exact safe.convert isOperand (Ty.converts_of_same same)
  · cases isOperand

theorem compareReferences {left' right' : Expr} (left_safe : left.SafeIn ctx)
    (right_safe : right.SafeIn ctx)
    (outcome : Expr.compareReferences table op left right = .ok (left', right')) :
    left'.RunsIn ctx ∧ right'.RunsIn ctx := by
  cases referencesCompared outcome with
  | same => exact ⟨left_safe.runs, right_safe.runs⟩
  | nullRight => exact ⟨left_safe.runs, runsIn_constant⟩
  | nullLeft => exact ⟨runsIn_constant, right_safe.runs⟩
  | toLeft converts =>
      exact ⟨left_safe.runs, (right_safe.referenceTo left_safe.isOperand converts).runs⟩
  | toRight converts =>
      exact ⟨(left_safe.referenceTo right_safe.isOperand converts).runs, right_safe.runs⟩

theorem alignEnums {left' right' : Expr} (left_safe : left.SafeIn ctx)
    (right_safe : right.SafeIn ctx)
    (outcome : Expr.alignEnums table op left right = .ok (left', right')) :
    left'.SafeIn ctx ∧ right'.SafeIn ctx := by
  cases enumsAligned outcome with
  | same => exact ⟨left_safe, right_safe⟩
  | promotedRight promotes => exact ⟨left_safe, right_safe.promote left_safe.isOperand promotes⟩
  | promotedLeft promotes => exact ⟨left_safe.promote right_safe.isOperand promotes, right_safe⟩
  | memberRight _ taken => exact ⟨left_safe, .enumConstant left_safe.isOperand taken⟩
  | memberLeft _ taken => exact ⟨.enumConstant right_safe.isOperand taken, right_safe⟩

theorem compareValues {operator : BinaryOp} {c : Compared} (left_safe : left.SafeIn ctx)
    (right_safe : right.SafeIn ctx)
    (outcome : Expr.compareValues table operator op left right = .ok c) :
    c.left.RunsIn ctx ∧ c.right.RunsIn ctx := by
  cases valuesCompared outcome with
  | textRight read => exact ⟨left_safe.runs, readText? read⟩
  | textLeft read => exact ⟨readText? read, right_safe.runs⟩
  | declared => exact ⟨left_safe.runs, right_safe.runs⟩
  | builtIn operands =>
      obtain ⟨l_safe, r_safe, -⟩ := left_safe.operands right_safe operands
      exact ⟨l_safe.runs, r_safe.runs⟩

theorem compared {operator : BinaryOp} {c : Compared} (left_safe : left.SafeIn ctx)
    (right_safe : right.SafeIn ctx)
    (outcome : Expr.compared table operator op left right = .ok c) :
    c.left.RunsIn ctx ∧ c.right.RunsIn ctx := by
  cases operandsCompared outcome with
  | references _ references => exact left_safe.compareReferences right_safe references
  | members _ _ aligned =>
      obtain ⟨l_safe, r_safe⟩ := left_safe.alignEnums right_safe aligned
      exact ⟨l_safe.runs, r_safe.runs⟩
  | integers _ _ aligned =>
      obtain ⟨l_safe, r_safe⟩ := left_safe.alignEnums right_safe aligned
      exact ⟨l_safe.toUnderlying.runs, r_safe.toUnderlying.runs⟩
  | values outcome => exact left_safe.compareValues right_safe outcome

theorem compare {token : Token} {operator : BinaryOp}
    (isOperator : CompileContext.comparisonOperator? token = some operator)
    (left_safe : left.SafeIn ctx) (right_safe : right.SafeIn ctx)
    (outcome : Expr.comparison table operator op left right = .ok e) : e.SafeIn ctx := by
  obtain ⟨c, joined, same⟩ := bind_eq_ok_iff.mp outcome
  obtain rfl := pure_eq_ok_iff.mp same
  obtain ⟨l_runs, r_runs⟩ := left_safe.compared right_safe joined
  exact .comparison (CompileContext.isComparison_of_comparisonOperator? isOperator) l_runs r_runs

theorem isItem (left_safe : left.SafeIn ctx) (right_safe : right.SafeIn ctx)
    (outcome : Expr.isItem table op left right = .ok e) : e.SafeIn ctx ∧ e.type = .boolean := by
  obtain ⟨l, r, rfl, tested⟩ := itemTested outcome
  cases tested with
  | same => exact ⟨.comparison rfl left_safe.runs right_safe.runs, rfl⟩
  | member taken =>
      have member_safe : r.SafeIn ctx := .enumConstant left_safe.isOperand taken
      exact ⟨.comparison rfl left_safe.runs member_safe.runs, rfl⟩
  | promoted operands =>
      obtain ⟨l_safe, r_safe, -⟩ := left_safe.operands right_safe operands
      exact ⟨.comparison rfl l_safe.runs r_safe.runs, rfl⟩

end SafeIn

end QueryTree.Expr

/-!
## Branches

Conditionals and null coalescings of safe expressions are safe, and so is a whole text that is
promoted to the type asked for, unless the promotion leaves values as they are.
-/

namespace QueryTree.Expr

variable {ctx : EvalContext} {table : ClassTable}

namespace SafeIn

variable {left right e : Expr}

/-- A branch beside null without a type is converted to its type with null. -/
theorem liftBeside (safe : e.SafeIn ctx) :
    (Expr.convert e.type.lift e).SafeIn ctx ∧ (Expr.nullOf e.type.lift).SafeIn ctx := by
  have isOperand := Ty.isOperand_lift safe.isOperand
  exact ⟨safe.convert isOperand (Ty.converts_lift e.type),
    .nullOf isOperand (Ty.admitsNull_lift e.type)⟩

theorem promoteToward {other promoted : Expr} (safe : e.SafeIn ctx) (other_safe : other.SafeIn ctx)
    (outcome : promoteToward? table other e = some promoted) : promoted.SafeIn ctx := by
  rw [promoteToward?] at outcome
  split at outcome
  next => cases outcome
  next => exact safe.promote other_safe.isOperand outcome

theorem toward {left' right' : Expr} (left_safe : left.SafeIn ctx) (right_safe : right.SafeIn ctx)
    (outcome : toward? table left right = some (left', right')) :
    left'.SafeIn ctx ∧ right'.SafeIn ctx := by
  rw [toward?] at outcome
  split at outcome
  next =>
    obtain ⟨rfl, rfl⟩ := Prod.mk.inj (Option.some.inj outcome)
    exact right_safe.liftBeside.symm
  next =>
    obtain ⟨promoted, promotes, same⟩ := Option.map_eq_some_iff.mp outcome
    obtain ⟨rfl, rfl⟩ := Prod.mk.inj same
    exact ⟨left_safe.promoteToward right_safe promotes, right_safe⟩

theorem choose {position : Nat} {condition ifTrue ifFalse : Expr}
    (condition_safe : condition.SafeIn ctx) (true_safe : ifTrue.SafeIn ctx)
    (false_safe : ifFalse.SafeIn ctx)
    (outcome : Expr.choose table position condition ifTrue ifFalse = .ok e) : e.SafeIn ctx := by
  obtain ⟨ifTrue', ifFalse', rfl, condition_type, -, -, same⟩ := choose_cases outcome
  obtain ⟨left', right', unified, node⟩ := (choose_eq_ok_iff condition_type).mp outcome
  obtain ⟨-, rfl, rfl⟩ := Expr.conditional.inj node
  suffices branches : ifTrue'.SafeIn ctx ∧ ifFalse'.SafeIn ctx from
    .conditional condition_type same condition_safe branches.1 branches.2
  cases unified with
  | alike => exact ⟨true_safe, false_safe⟩
  | forth _ forth => exact true_safe.toward false_safe forth
  | back _ _ back => exact (false_safe.toward true_safe back).symm

theorem isOperand_inner {inner : Ty} (isOperand : (Ty.nullable inner).isOperand = true) :
    inner.isOperand = true ∧ inner.core = inner := by
  have core_operand := Ty.isOperand_core isOperand
  have plain := Ty.core_isNullable isOperand
  exact ⟨core_operand, Ty.core_eq_self plain⟩

theorem orElseValue {position : Nat} (left_safe : left.SafeIn ctx) (right_safe : right.SafeIn ctx)
    (outcome : Expr.orElseValue table position left right = .ok e) : e.SafeIn ctx := by
  cases coalesced outcome with
  | core isNullable promotes =>
      have left_operand := left_safe.isOperand
      rw [isNullable] at left_operand
      obtain ⟨isOperand, core_eq⟩ := isOperand_inner left_operand
      refine .coalesce isOperand ?_ (promote?_type (.inl rfl) promotes) left_safe
        (right_safe.promote isOperand promotes)
      rw [isNullable, core_eq]
      rfl
  | promoted promotes =>
      exact .coalesce left_safe.isOperand rfl (promote?_type (.inl rfl) promotes) left_safe
        (right_safe.promote left_safe.isOperand promotes)
  | converted compatible =>
      have converts := Ty.converts_lift_of_core left_safe.isOperand
        (Ty.converts_of_operands (Ty.isOperand_core left_safe.isOperand) right_safe.isOperand
          compatible)
      exact .coalesce right_safe.isOperand (Ty.core_lift right.type) BEq.rfl
        (left_safe.convert (Ty.isOperand_lift right_safe.isOperand) converts) right_safe

end SafeIn

/-- A conversion that leaves values as they are although their kind is not that of the type: of
texts to sequences of characters, and those that classes declare. -/
def KeepsValues (table : ClassTable) (source target : Ty) : Prop :=
  (source = .string ∧ target = .sequence .char) ∨
    source.hasDeclaredConversion table target false = true

/-- A value is one of the type of an expression, or one of the type of its operand if the expression
is a conversion that keeps values. -/
def Yields (table : ClassTable) (e : Expr) (value : Value) : Prop :=
  value.conformsTo e.type = true ∨
    ∃ operand, e = .convert e.type operand ∧ KeepsValues table operand.type e.type ∧
      value.conformsTo operand.type = true

theorem SafeIn.yields {e : Expr} (safe : e.SafeIn ctx) :
    (e.evaluate ctx).Computes (e.Yields table) :=
  safe.computes.imp fun _ conforms => .inl conforms

theorem isNumberLike_of_keepsValues {source target : Ty} (isOperand : source.isOperand = true)
    (keeps : KeepsValues table source target) : target.core.isNumberLike = false := by
  obtain ⟨-, rfl⟩ | declared := keeps
  · rfl
  · obtain ⟨m, isOperator, -⟩ := List.any_eq_true.mp declared
    rw [Ty.operators_of_isOperand isOperand, List.nil_append] at isOperator
    rw [Ty.operators] at isOperator
    split at isOperator
    next c isClass =>
      rw [isClass]
      rfl
    next => cases isOperator

/-- A safe expression that is promoted to any type yields a value of this type, or keeps its own. -/
theorem SafeIn.promoteTo {e promoted : Expr} {mode : Promotion} {target : Ty} (safe : e.SafeIn ctx)
    (outcome : e.promote? table mode target = some promoted) :
    (promoted.evaluate ctx).Computes (promoted.Yields table) := by
  obtain ⟨rfl, -⟩ | ⟨_, _, constant, -⟩ | ⟨rfl, compatible⟩ | ⟨rfl, -⟩ := promote?_cases outcome
  · exact safe.yields
  · obtain ⟨value, literal?, rfl, conforms⟩ := promoteConstant?_conforms constant
    exact .inl conforms
  · have kept (keeps : KeepsValues table e.type target) :
        ((Expr.convert target e).evaluate ctx).Computes ((Expr.convert target e).Yields table) := by
      refine safe.computes.bind fun v conforms => ?_
      have unchanged : v.convertTo target = .ok v := by
        simp [Value.convertTo_eq, isNumberLike_of_keepsValues safe.isOperand keeps]
      rw [unchanged]
      exact .inr ⟨e, rfl, keeps, conforms⟩
    cases declared : e.type.hasDeclaredConversion table target false with
    | true => exact kept (.inr declared)
    | false =>
        obtain converts | isText := Ty.converts_of_isCompatible safe.isOperand declared compatible
        · exact safe.computes.bind fun v conforms =>
            (Value.convertTo_computes conforms converts).imp fun _ converted => .inl converted
        · exact kept (.inl isText)
  · exact safe.yields

end QueryTree.Expr
