import QueryTree.Proofs.Compile.Primary

/-!
# The grammar builds trees

The levels of operators, and with them whole texts, stay within their surroundings and yield built
trees.
-/

namespace QueryTree.CompileContext

open Parse (Within)

variable {ctx : CompileContext} {tokens : List Token} {granted : Expr → Prop}

section Levels

variable {expression : Parse Expr} {around : Surroundings}

theorem chainFrom_within {operand : Parse Expr} {operator? : Token → Option BinaryOp}
    {join : BinaryOp → Token → Expr → Expr → Except CompileError Expr} {holds : Expr → Prop}
    (operands : Within tokens around operand holds)
    (joins : ∀ operator token left right e, operator? token = some operator → holds left →
      holds right → join operator token left right = .ok e → holds e)
    (fuel : Nat) {left : Expr} (left_holds : holds left) :
    Within tokens around (chainFrom operand operator? join fuel left) holds := by
  induction fuel generalizing left with
  | zero => exact .pure left_holds
  | succ fuel ih =>
      refine .bind .current fun token _ => ?_
      split
      next => exact .pure left_holds
      next operator isOperator =>
        refine .bind .advance fun _ _ => .bind operands fun right right_holds => ?_
        refine .bind (.lift fun e outcome => ?_) fun _ e_holds => ih e_holds
        exact joins operator token left right e isOperator left_holds right_holds outcome

theorem chain_within {operand : Parse Expr} {operator? : Token → Option BinaryOp}
    {join : BinaryOp → Token → Expr → Expr → Except CompileError Expr} {holds : Expr → Prop}
    (operands : Within tokens around operand holds)
    (joins : ∀ operator token left right e, operator? token = some operator → holds left →
      holds right → join operator token left right = .ok e → holds e) :
    Within tokens around (chain operand operator? join) holds :=
  .bind operands fun _ first_holds => .bind .tokensLeft fun _ _ =>
    chainFrom_within operands joins _ first_holds

theorem unaryFrom_yields (nested : ctx.Nested tokens granted expression) (fuel : Nat) :
    Within tokens around (ctx.unaryFrom expression fuel)
      (ctx.Built tokens granted (ctx.Visible around)) := by
  induction fuel with
  | zero => exact primary_yields nested
  | succ fuel ih =>
      refine .bind .current fun op met => ?_
      split
      next =>
        refine .bind .advance fun _ _ => .bind .current fun next _ => ?_
        simp only
        split
        next isNumber =>
          have isSign : op.kind = .minus := by
            simpa using ((Bool.and_eq_true _ _).mp isNumber).1
          have merged : Within tokens around (mergeSign op) fun _ => True :=
            fun _ unchanged =>
              ⟨⟨unchanged.1, .signed isSign met unchanged.2.1, unchanged.2.2⟩, trivial⟩
          exact .bind merged fun _ _ => primary_yields nested
        next => exact .bind ih fun operand built => .lift fun e outcome => .sign built outcome
      next => exact primary_yields nested

theorem unary_yields (nested : ctx.Nested tokens granted expression) :
    Within tokens around (ctx.unary expression) (ctx.Built tokens granted (ctx.Visible around)) :=
  .bind .tokensLeft fun _ _ => unaryFrom_yields nested _

theorem product_yields (nested : ctx.Nested tokens granted expression) :
    Within tokens around (ctx.product expression) (ctx.Built tokens granted (ctx.Visible around)) :=
  chain_within (unary_yields nested) fun _ _ _ _ _ isOperator left right outcome =>
    .product isOperator left right outcome

theorem sum_yields (nested : ctx.Nested tokens granted expression) :
    Within tokens around (ctx.sum expression) (ctx.Built tokens granted (ctx.Visible around)) := by
  refine chain_within (product_yields nested) fun operator token left right e _ l r outcome => ?_
  split at outcome
  next => exact .sum l r outcome
  next => exact .difference l r outcome

theorem shift_yields (nested : ctx.Nested tokens granted expression) :
    Within tokens around (ctx.shift expression) (ctx.Built tokens granted (ctx.Visible around)) :=
  chain_within (sum_yields nested) fun _ _ _ _ _ isOperator left right outcome =>
    .shift isOperator left right outcome

theorem comparison_yields (nested : ctx.Nested tokens granted expression) :
    Within tokens around (ctx.comparison expression)
      (ctx.Built tokens granted (ctx.Visible around)) :=
  chain_within (shift_yields nested) fun _ _ _ _ _ isOperator left right outcome =>
    .comparison isOperator left right outcome

theorem bits_yields (nested : ctx.Nested tokens granted expression) :
    Within tokens around (ctx.bits expression) (ctx.Built tokens granted (ctx.Visible around)) := by
  refine chain_within (comparison_yields nested) fun operator token left right e _ l r outcome => ?_
  split at outcome
  next => exact .bitConjunction l r outcome
  next => exact .bitDisjunction l r outcome

/-- The test of one item is a truth value. -/
theorem isItem_type {table : ClassTable} {token : Token} {left right e : Expr}
    (outcome : Expr.isItem table token left right = .ok e) : e.type = .boolean := by
  rw [Expr.isItem] at outcome
  split at outcome
  next => exact Except.ok.inj outcome ▸ rfl
  next =>
    split at outcome
    next =>
      split at outcome
      next =>
        cases constant : Expr.enumConstant left.type token.position right with
        | error error => simp [constant, Except.map] at outcome
        | ok member =>
            simp only [constant, Except.map] at outcome
            exact Except.ok.inj outcome ▸ rfl
      next => cases outcome
    next =>
      cases operands : OperatorGroup.operands table .equality "==" token.position left right with
      | error error => simp [operands, bind, Except.bind] at outcome
      | ok pair =>
          simp only [operands, bind, Except.bind, pure, Except.pure] at outcome
          exact Except.ok.inj outcome ▸ rfl

theorem itemTests_yields (nested : ctx.Nested tokens granted expression) {op : Token} {value : Expr}
    (value_built : ctx.Built tokens granted (ctx.Visible around) value) (fuel : Nat)
    {tested : Option Expr}
    (before : ∀ e ∈ tested, ctx.Built tokens granted (ctx.Visible around) e ∧ e.type = .boolean) :
    Within tokens around (ctx.itemTests expression op value fuel tested)
      (ctx.Built tokens granted (ctx.Visible around)) := by
  induction fuel generalizing tested with
  | zero => exact .failAt
  | succ fuel ih =>
      refine .bind .advance fun _ _ => .bind (unary_yields nested) fun item item_built => ?_
      refine .bind (.lift fun test outcome => outcome) fun test outcome => ?_
      have test_built := Built.isItem value_built item_built outcome
      have joined : ctx.Built tokens granted (ctx.Visible around) (joinTest tested test) ∧
          (joinTest tested test).type = .boolean := by
        cases tested with
        | none => exact ⟨test_built, isItem_type outcome⟩
        | some earlier =>
            obtain ⟨built, type⟩ := before earlier rfl
            exact ⟨.eitherItem built test_built type (isItem_type outcome), rfl⟩
      refine .bind .check fun closed _ => ?_
      cases closed with
      | true => exact .bind .advance fun _ _ => .pure joined.1
      | false =>
          refine .bind .check fun more _ => ?_
          cases more with
          | true => exact ih fun e isTested => Option.some.inj isTested ▸ joined
          | false => exact .failHere

theorem membershipFrom_yields (nested : ctx.Nested tokens granted expression) {value : Expr}
    (value_built : ctx.Built tokens granted (ctx.Visible around) value) (fuel : Nat) {tested : Expr}
    (built : ctx.Built tokens granted (ctx.Visible around) tested) :
    Within tokens around (ctx.membershipFrom expression value fuel tested)
      (ctx.Built tokens granted (ctx.Visible around)) := by
  induction fuel generalizing tested with
  | zero => exact .pure built
  | succ fuel ih =>
      refine .bind .current fun op _ => ?_
      split
      next =>
        refine .bind .advance fun _ _ => .bind .check fun list _ => ?_
        cases list with
        | true =>
            refine .bind .tokensLeft fun _ _ => ?_
            exact .bind (itemTests_yields nested value_built _ (by simp)) fun _ built => ih built
        | false =>
            refine .bind .check fun named _ => ?_
            cases named with
            | true =>
                refine .bind (primary_yields nested) fun sequence sequence_built => ?_
                refine .bind (.lift fun e outcome => ?_) fun _ built => ih built
                exact .isContained value_built sequence_built outcome
            | false => exact .failHere
      next => exact .pure built

theorem membership_yields (nested : ctx.Nested tokens granted expression) :
    Within tokens around (ctx.membership expression)
      (ctx.Built tokens granted (ctx.Visible around)) :=
  .bind (bits_yields nested) fun _ built => .bind .tokensLeft fun _ _ =>
    membershipFrom_yields nested built _ built

theorem conjunction_yields (nested : ctx.Nested tokens granted expression) :
    Within tokens around (ctx.conjunction expression)
      (ctx.Built tokens granted (ctx.Visible around)) :=
  chain_within (membership_yields nested) fun _ _ _ _ _ isOperator left right outcome =>
    .logical (.inl isOperator) left right outcome

theorem disjunction_yields (nested : ctx.Nested tokens granted expression) :
    Within tokens around (ctx.disjunction expression)
      (ctx.Built tokens granted (ctx.Visible around)) :=
  chain_within (conjunction_yields nested) fun _ _ _ _ _ isOperator left right outcome =>
    .logical (.inr isOperator) left right outcome

theorem arrow_yields (nested : ctx.Nested tokens granted expression) :
    Within tokens around (ctx.arrow expression)
      (ctx.Built tokens granted (ctx.Visible around)) := by
  refine .bind (disjunction_yields nested) fun e built => .bind .check fun beforeArrow _ => ?_
  refine .bind .scope fun frame isFrame => ?_
  subst isFrame
  split
  next => exact .pure built
  next it isElement =>
    have isVisible : ctx.Visible around it := by
      obtain ⟨isArrow, -⟩ := Option.filter_eq_some_iff.mp isElement
      obtain ⟨p, -, filtered⟩ := Option.bind_eq_some_iff.mp isArrow
      exact .inl (Option.filter_eq_some_iff.mp filtered).1
    refine .bind .advance fun _ _ => .bind .current fun next _ => ?_
    simp only
    split
    next => exact .bind (nested.yields around) fun body built => .pure (.lambda isVisible built)
    next => exact .failHere

theorem coalescing_yields (nested : ctx.Nested tokens granted expression) :
    Within tokens around (ctx.coalescing expression)
      (ctx.Built tokens granted (ctx.Visible around)) := by
  refine .bind (arrow_yields nested) fun left left_built => .bind .check fun more _ => ?_
  cases more with
  | true =>
      refine .bind .position fun position _ => .bind .advance fun _ _ => ?_
      refine .bind (nested.yields around) fun right right_built => .lift fun e outcome => ?_
      exact .orElseValue left_built right_built outcome
  | false => exact .pure left_built

theorem conditional_yields (nested : ctx.Nested tokens granted expression) :
    ctx.Yields tokens granted (ctx.conditional expression) := by
  intro around
  refine .bind .position fun position _ => .bind (coalescing_yields nested) fun test built => ?_
  refine .bind .check fun asked _ => ?_
  cases asked with
  | true =>
      refine .bind .advance fun _ _ => .bind (nested.yields around) fun ifTrue true_built => ?_
      refine .bind .expect fun _ _ => .bind (nested.yields around) fun ifFalse false_built => ?_
      exact .lift fun e outcome => .choose built true_built false_built outcome
  | false => exact .pure built

end Levels

section Texts

variable {around : Surroundings}

theorem direction_within : Within tokens around direction fun _ => True := by
  refine .bind .current fun word _ => ?_
  split
  next => exact .bind .advance fun _ _ => .pure trivial
  next =>
    split
    next => exact .bind .advance fun _ _ => .pure trivial
    next => exact .pure trivial

variable (supplies : ∀ key e, (key, Symbol.expr e) ∈ ctx.symbols → granted e)

include supplies

/-- Expressions of every depth are built trees. -/
theorem expression_yields (depth : Nat) : ctx.Yields tokens granted (ctx.expression depth) := by
  induction depth with
  | zero => exact fun around => .failHere
  | succ depth ih => exact conditional_yields ⟨supplies, ih⟩

theorem wholeExpression_yields : ctx.Yields tokens granted ctx.wholeExpression := fun around =>
  .bind .tokensLeft fun _ _ => expression_yields supplies _ around

/-- What a whole text compiles to is a built tree. -/
theorem body_yields (expected? : Option Ty) : ctx.Yields tokens granted (ctx.body expected?) := by
  intro around
  refine .bind .position fun position _ => ?_
  refine .bind (wholeExpression_yields supplies around) fun e built => ?_
  cases expected? with
  | none => exact .bind (.pure built) fun e built => .bind .validate fun _ _ => .pure built
  | some expected =>
      simp only
      split
      next promoted outcome =>
        refine .bind (.pure (Built.promoted built outcome)) fun e built => ?_
        exact .bind .validate fun _ _ => .pure built
      next => exact .bind .failAt fun e built => .bind .validate fun _ _ => .pure built

theorem sortKeys_within (fuel : Nat) (continues : Bool) :
    Within tokens around (ctx.sortKeys fuel continues)
      (∀ key ∈ ·, ctx.Built tokens granted (ctx.Visible around) key.selector) := by
  induction fuel generalizing continues with
  | zero => exact .pure (by simp)
  | succ fuel ih =>
      refine .bind (wholeExpression_yields supplies around) fun selector built => ?_
      refine .bind direction_within fun ascending _ => .bind .check fun more _ => ?_
      cases more with
      | true =>
          refine .bind .advance fun _ _ => .bind (ih true) fun rest each => .pure ?_
          exact List.forall_mem_cons.mpr ⟨built, each⟩
      | false => exact .pure (by simpa using built)

/-- The selectors of the sort keys that a whole text compiles to are built trees. -/
theorem ordering_within (continues : Bool) :
    Within tokens around (ctx.ordering continues)
      (∀ key ∈ ·, ctx.Built tokens granted (ctx.Visible around) key.selector) :=
  .bind .tokensLeft fun _ _ => .bind (sortKeys_within supplies _ continues) fun _ each =>
    .bind .validate fun _ _ => .pure each

end Texts

end QueryTree.CompileContext
