import QueryTree.Proofs.Comparison.Text

/-!
# Comparisons that classes declare

Which comparisons of two values of one class call the operator method that the class declares or
inherits.  Orderings do, and so do tests for equality of values; references are tested for being the
same, whatever their class declares.
-/

namespace QueryTree

/-- A class or one of its base classes declares an operator method of a name. -/
def ClassTable.HasOperator (table : ClassTable) (c : ClassRef) (name : String) : Prop :=
  ∃ owner, (owner = c ∨ ∃ base ∈ table.ancestors c, base.class? = some owner) ∧
    ∃ m ∈ (table.body owner).operators, m.name = name

namespace Expr

variable {table : ClassTable} {operator : BinaryOp} {op : Token} {x y : Expr} {c : ClassRef}

theorem hasOperator_iff {type : Ty} (isClass : type.core = .cls c) :
    hasOperator table type operator = true ↔ table.HasOperator c operator.methodName := by
  simp only [hasOperator, Ty.operators, isClass, List.any_eq_true, beq_iff_eq]
  constructor
  · rintro ⟨m, isInherited, isNamed⟩
    obtain own | inherited := List.mem_append.mp isInherited
    · exact ⟨c, .inl rfl, m, own, isNamed⟩
    · obtain ⟨base, isBase, isPart⟩ := List.mem_flatMap.mp inherited
      split at isPart
      next owner isOwner => exact ⟨owner, .inr ⟨base, isBase, isOwner⟩, m, isPart, isNamed⟩
      next => simp at isPart
  · rintro ⟨owner, rfl | ⟨base, isBase, isOwner⟩, m, own, isNamed⟩
    · exact ⟨m, List.mem_append_left _ own, isNamed⟩
    · refine ⟨m, List.mem_append_right _ (List.mem_flatMap.mpr ⟨base, isBase, ?_⟩), isNamed⟩
      simpa only [isOwner] using own

/-- No text is read as a value of a class. -/
theorem unreadable_of_class {e : Expr} {type : Ty} (isClass : type.core = .cls c) :
    e.Unreadable type := by
  intro text _
  simp only [Value.ofText, isClass, Value.reader?]

/-- The method that a comparison of two values of a type calls for an operator that the type has a
method for. -/
def boundMethod? (operator : BinaryOp) (type : Ty) : Option String :=
  if operator.isEquality && !type.isValue then none else some operator.methodName

/-- What has the type of a value of a class is of a class. -/
theorem exists_class_of_same {t u : Ty} (isClass : t.core = .cls c) (same : (t == u) = true) :
    ∃ d, u.core = .cls d := by
  have cores : Ty.same t.core u.core = true := Ty.core_same same
  rw [isClass] at cores
  cases core : u.core with
  | cls d => exact ⟨d, rfl⟩
  | _ => rw [core] at cores; cases cores

/-- Operands of one class that has an operator method are compared as they are. -/
theorem comparison_of_class (isClass : x.type.core = .cls c) (same : (x.type == y.type) = true)
    (declared : table.HasOperator c operator.methodName) :
    comparison table operator op x y =
      .ok (.binary .boolean operator x y (boundMethod? operator x.type)) := by
  obtain ⟨d, isClass'⟩ := exists_class_of_same isClass same
  have isValue : y.type.isValue = x.type.isValue := (Ty.isValue_same same).symm
  have noGuid : (x.type == .guid) = false := by
    refine Bool.eq_false_iff.mpr fun isGuid => ?_
    have core : (x.type.core == Ty.guid) = true := Ty.core_same isGuid
    rw [isClass] at core
    cases core
  have noMember : (x.type.isEnum || y.type.isEnum) = false := by
    simp [Ty.isEnum, Ty.enum?, isClass, isClass']
  have has : hasOperator table x.type operator = true := (hasOperator_iff isClass).mpr declared
  have values : compareValues table operator op x y = .ok ⟨x, y, some operator.methodName⟩ := by
    rw [compareValues, (unreadable_of_class isClass).readText?,
      (unreadable_of_class isClass').readText?, same, has]
    rfl
  cases references : operator.isEquality && !x.type.isValue with
  | true =>
      simp only [comparison, compared, boundMethod?, isValue, Bool.and_self, noGuid, Bool.or_false,
        Bool.false_and, references, if_true, compareReferences_of_same same]
      rfl
  | false =>
      simp only [comparison, compared, boundMethod?, isValue, Bool.and_self, noGuid, Bool.or_false,
        Bool.false_and, references, Bool.false_eq_true, if_false, noMember, values]
      rfl

end Expr

namespace CompileContext

open Parse

variable {ctx : CompileContext} {expression : Parse Expr} {start sign second stop : Session}
  {operator : BinaryOp} {x y : Expr} {c : ClassRef}

/-- Two operands of one class around an operator that the class declares or inherits a method for.
They are joined as they are, and the comparison calls the method unless it tests references for
equality.  What follows is read with this comparison as its left operand; if no further comparison
follows, it is all that is read. -/
theorem comparison_calls_declared (left : ctx.shift expression start = .ok x sign)
    (isOperator : comparisonOperator? sign.current = some operator)
    (passes : Parse.advance sign = .ok () second)
    (right : ctx.shift expression second = .ok y stop) (isClass : x.type.core = .cls c)
    (same : (x.type == y.type) = true)
    (declared : ctx.env.classes.HasOperator c operator.methodName) :
    ∃ method,
      (method = some operator.methodName ↔ x.type.isValue = true ∨ operator.isEquality = false) ∧
      (method = none ↔ x.type.isValue = false ∧ operator.isEquality = true) ∧
      ctx.comparison expression start =
        chainFrom (ctx.shift expression) comparisonOperator? (Expr.comparison ctx.env.classes)
          sign.rest.length (.binary .boolean operator x y method) stop ∧
      (comparisonOperator? stop.current = none →
        ctx.comparison expression start =
          .ok (.binary .boolean operator x y method) stop) := by
  have joined : ctx.comparison expression start =
      chainFrom (ctx.shift expression) comparisonOperator? (Expr.comparison ctx.env.classes)
        sign.rest.length (.binary .boolean operator x y (Expr.boundMethod? operator x.type))
          stop := by
    rw [comparison, chain, bind_eq left, bind_eq (tokensLeft_eq sign), chainFrom,
      bind_eq (current_eq sign), isOperator]
    simp only
    rw [bind_eq passes, bind_eq right, Expr.comparison_of_class isClass same declared]
    rfl
  refine ⟨_, ?_, ?_, joined, fun ended => joined.trans ?_⟩
  · unfold Expr.boundMethod?
    cases operator.isEquality <;> cases x.type.isValue <;> simp
  · unfold Expr.boundMethod?
    cases operator.isEquality <;> cases x.type.isValue <;> simp
  · cases sign.rest.length with
    | zero => rfl
    | succ fuel => exact chainFrom_end ended

section Example

/-- A class of sums of money. -/
def money : ClassRef := ⟨"Money", none, false, 1⟩

/-- A class that extends the class of sums of money. -/
def price : ClassRef := ⟨"Price", none, false, 2⟩

/-- An operator method of sums of money. -/
def moneyOperator (name : String) : Method :=
  .staticMethod "Money" name [.cls money, .cls money] .boolean

/-- An environment in which sums of money can be compared and tested for equality. -/
def trading : Environment :=
  .of .initial (.ofCustom [.cls money, .cls price])
    #[some mathBody,
      some { ClassBody.empty with
        operators := [moneyOperator "op_Equality", moneyOperator "op_LessThan"] },
      some { ClassBody.empty with base := some (.cls money) }]

/-- A price. -/
def firstPrice : Parameter := ⟨0, "a", .cls price⟩

/-- Another price. -/
def secondPrice : Parameter := ⟨1, "b", .cls price⟩

theorem trading_hasOperator_lessThan : trading.classes.HasOperator price "op_LessThan" :=
  ⟨money, .inr ⟨.cls money, List.mem_cons_self, rfl⟩, moneyOperator "op_LessThan",
    List.mem_cons_of_mem _ List.mem_cons_self, rfl⟩

theorem trading_canName_prices : trading.CanName [firstPrice, secondPrice] :=
  .of_isNone (by decide +kernel) (by decide +kernel) (by decide +kernel)

/-- In `(a) < (b)` the method that prices inherit is called. -/
theorem comparison_calls_declared_prices : ∃ ctx stop,
    CompileContext.of trading [firstPrice, secondPrice] [] = .ok ctx ∧
      Session.start (Scan.ofText "(a) < (b)" '.') [firstPrice, secondPrice] .initial =
        .ok (comparedSession firstPrice secondPrice ⟨.lessThan, "<", 4⟩) ∧
      trading.classes.HasOperator price "op_LessThan" ∧
      ctx.comparison (ctx.expression 9)
          (comparedSession firstPrice secondPrice ⟨.lessThan, "<", 4⟩) =
        .ok (.binary .boolean .lessThan (.parameter firstPrice) (.parameter secondPrice)
          (some "op_LessThan")) stop := by
  obtain ⟨ctx, context, isEnv, names⟩ := trading_canName_prices.exists_context
  let start : Session := .outside []
  let finish : Session := start.moveTo ⟨.finish, "", 9⟩ []
  let behind : List Token := enclosedName secondPrice.name 6 ++ [⟨.finish, "", 9⟩]
  let sign : Session := start.moveTo ⟨.lessThan, "<", 4⟩ behind
  have isFirst : firstPrice ∈ [firstPrice, secondPrice] := by simp
  have isSecond : secondPrice ∈ [firstPrice, secondPrice] := by simp
  have first : ctx.ReadsEnclosed (start.moveTo ⟨.openParen, "(", 0⟩
      ((enclosedName firstPrice.name 0).tail ++ ⟨.lessThan, "<", 4⟩ :: behind))
      (some (.parameter firstPrice)) sign :=
    .of_enclosedName names isFirst rfl
  have second : ctx.ReadsEnclosed (start.moveTo ⟨.openParen, "(", 6⟩
      ((enclosedName secondPrice.name 6).tail ++ [⟨.finish, "", 9⟩]))
      (some (.parameter secondPrice)) finish :=
    .of_enclosedName names isSecond rfl
  have isOperator : comparisonOperator? sign.current = some .lessThan := rfl
  have left : ctx.shift (ctx.expression 9) _ = .ok (.parameter firstPrice) sign :=
    (first.levelAt (n := 5) (by decide) (by decide)
      (ends_of_comparisonOperator? isOperator) (by decide)).eq_ok
  have right : ctx.shift (ctx.expression 9) _ = .ok (.parameter secondPrice) finish :=
    (second.levelAt (n := 5) (by decide) (by decide) (.of_grip (by decide) (by decide))
      (by decide)).eq_ok
  have declared : ctx.env.classes.HasOperator price "op_LessThan" :=
    isEnv ▸ trading_hasOperator_lessThan
  obtain ⟨method, isMethod, -, -, compared⟩ :=
    comparison_calls_declared left isOperator (advance_eq rfl) right rfl BEq.rfl declared
  obtain rfl := isMethod.mpr (.inr rfl)
  exact ⟨ctx, finish, context, Session.start_outside rfl (by decide +kernel) (by decide +kernel),
    trading_hasOperator_lessThan, compared rfl⟩

/-- Whether a function tests two values of one type for equality without calling a method. -/
def testsIdentity : Expr → Bool
  | .lambda _ (.binary _ .equal left right none) => left.type == right.type
  | _ => false

/-- Prices inherit a method for `==`, but `a == b` does not call it. -/
theorem declared_equality_not_called :
    trading.classes.HasOperator price BinaryOp.equal.methodName ∧
      ∃ e, (compileFunction trading [firstPrice, secondPrice] none "a == b" [] .initial).1 = .ok e ∧
        testsIdentity e = true :=
  ⟨⟨money, .inr ⟨.cls money, List.mem_cons_self, rfl⟩, moneyOperator "op_Equality",
    List.mem_cons_self, rfl⟩, exists_ok_of_any (by decide +kernel)⟩

end Example

end CompileContext

end QueryTree
