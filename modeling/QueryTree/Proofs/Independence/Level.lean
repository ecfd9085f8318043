import QueryTree.Proofs.Compile.Level
import QueryTree.Proofs.Independence.Primary

/-!
# Whole expressions after a history

The levels of operators go together in the run after the history and in the fresh run, and with them
whole texts, by induction on how deep expressions are nested.
-/

namespace QueryTree

/-- A sort key whose selector has other numbers. -/
def SortKey.renumbered (number : Nat → Nat) (key : SortKey) : SortKey :=
  { key with selector := key.selector.renumbered number }

instance : Numbered SortKey where
  renumbered := SortKey.renumbered
  renumbered_again number key := by
    simp only [SortKey.renumbered, Expr.renumbered_renumbered, Function.id_comp]

namespace Rerun

open Parse (Within)

variable {w : Rerun} {ctx ctx' : CompileContext} {granted : Expr → Prop}

namespace Nested

variable {expression expression' : Parse Expr}

/-! ## Operands joined from the left -/

section Chains

variable {operand operand' : Parse Expr} {operator? : Token → Option BinaryOp}
  {join join' : BinaryOp → Token → Expr → Expr → Except CompileError Expr}
  (operands : w.Steps operand operand')
  (joins : ∀ operator token left left' right right', w.Twin left left' → w.Twin right right' →
    (join operator token left right).toOption.map (Expr.renumbered id)
      = (join' operator token left' right').toOption.map (Expr.renumbered w.number))

include operands joins

theorem chainFrom (fuel : Nat) {left left' : Expr} (twin : w.Twin left left') :
    w.Steps (CompileContext.chainFrom operand operator? join fuel left)
      (CompileContext.chainFrom operand' operator? join' fuel left') := by
  induction fuel generalizing left left' with
  | zero => exact .pure twin
  | succ fuel ih =>
      refine Steps.current.bind fun op op' ops => ?_
      obtain rfl : op = op' := ops
      split
      next => exact .pure twin
      next operator _ =>
        refine Steps.advance.bind fun _ _ _ => operands.bind fun right right' rights => ?_
        exact (Steps.liftExpr (joins operator op _ _ _ _ twin rights)).bind fun _ _ => ih

theorem chain :
    w.Steps (CompileContext.chain operand operator? join)
      (CompileContext.chain operand' operator? join') := by
  refine operands.bind fun first first' twin => Steps.tokensLeft.bind fun fuel fuel' fuels => ?_
  obtain rfl : fuel = fuel' := fuels
  exact chainFrom operands joins (fuel + 1) twin

end Chains

variable (nested : w.Nested ctx ctx' granted expression expression')

/-! ## Operators -/

section Levels

omit nested in
theorem mergeSign {op : Token} (isSign : op.kind = .minus) (met : Token.Met w.tokens op) :
    w.Steps (CompileContext.mergeSign op) (CompileContext.mergeSign op) where
  grows _ _ start := ⟨⟨.signed isSign met start.1.1, start.1.2⟩, start.2⟩
  ends _ _ sessions _ := .ok rfl { sessions with
    current := by
      change ({ Session.current _ with text := _, position := _ } : Token) = _
      rw [sessions.current]
    reads := ⟨.signed isSign met sessions.reads.1, sessions.reads.2⟩ }

include nested

theorem unaryFrom (fuel : Nat) :
    w.Steps (ctx.unaryFrom expression fuel) (ctx'.unaryFrom expression' fuel) := by
  induction fuel with
  | zero => exact nested.primary
  | succ fuel ih =>
      have met : Parse.current.Ascertains w.tokens (Token.Met w.tokens) :=
        Within.ascertains fun _ => Within.current
      refine Steps.current.bindWhere met fun op op' ops isMet => ?_
      obtain rfl : op = op' := ops
      split
      next =>
        refine Steps.advance.bind fun _ _ _ => Steps.current.bind fun next next' nexts => ?_
        obtain rfl : next = next' := nexts
        simp only
        split
        next isNumber =>
          have isSign : op.kind = .minus := by
            simpa using ((Bool.and_eq_true _ _).mp isNumber).1
          exact (mergeSign isSign isMet).bind fun _ _ _ => nested.primary
        next =>
          exact ih.bind fun operand operand' twin => .liftExpr <| by
            rw [nested.contexts.classes, ← Expr.applySign_renumbered, ← Expr.applySign_renumbered,
              twin.expr]
      next => exact nested.primary

theorem unary : w.Steps (ctx.unary expression) (ctx'.unary expression') := by
  refine Steps.tokensLeft.bind fun fuel fuel' fuels => ?_
  obtain rfl : fuel = fuel' := fuels
  exact nested.unaryFrom (fuel + 1)

theorem product : w.Steps (ctx.product expression) (ctx'.product expression') :=
  chain nested.unary fun _ _ _ _ _ _ left right => by
    rw [nested.contexts.classes, ← Expr.ofGroup_renumbered, ← Expr.ofGroup_renumbered, left.expr,
      right.expr]

theorem sum : w.Steps (ctx.sum expression) (ctx'.sum expression') :=
  chain nested.product fun _ _ _ _ _ _ left right => by
    rw [nested.contexts.classes]
    split
    · rw [← Expr.sum_renumbered, ← Expr.sum_renumbered, left.expr, right.expr]
    · rw [← Expr.difference_renumbered, ← Expr.difference_renumbered, left.expr, right.expr]

theorem shift : w.Steps (ctx.shift expression) (ctx'.shift expression') :=
  chain nested.sum fun _ _ _ _ _ _ left right => by
    rw [nested.contexts.classes, ← Expr.ofGroup_renumbered, ← Expr.ofGroup_renumbered, left.expr,
      right.expr]

theorem comparison : w.Steps (ctx.comparison expression) (ctx'.comparison expression') :=
  chain nested.shift fun _ _ _ _ _ _ left right => by
    rw [nested.contexts.classes, ← Expr.comparison_renumbered, ← Expr.comparison_renumbered,
      left.expr, right.expr]

theorem bits : w.Steps (ctx.bits expression) (ctx'.bits expression') :=
  chain nested.comparison fun _ _ _ _ _ _ left right => by
    rw [nested.contexts.classes]
    split
    · rw [← Expr.conjunction_renumbered, ← Expr.conjunction_renumbered, left.expr, right.expr]
    · rw [← Expr.disjunction_renumbered, ← Expr.disjunction_renumbered, left.expr, right.expr]

/-! ## Membership -/

omit nested in
theorem joinTest {tested tested' : Option Expr} {test test' : Expr} (before : w.Twin tested tested')
    (twin : w.Twin test test') :
    w.Twin (CompileContext.joinTest tested test) (CompileContext.joinTest tested' test') := by
  obtain ⟨rfl, rfl⟩ | ⟨earlier, earlier', rfl, rfl, earliers⟩ := before.cases
  · exact twin
  · change Expr.renumbered id (.test .orElse earlier test)
      = Expr.renumbered w.number (.test .orElse earlier' test')
    simp only [Expr.test, Expr.renumbered, earliers.expr, twin.expr]

theorem itemTests {op : Token} {value value' : Expr} (values : w.Twin value value') (fuel : Nat)
    {tested tested' : Option Expr} (before : w.Twin tested tested') :
    w.Steps (ctx.itemTests expression op value fuel tested)
      (ctx'.itemTests expression' op value' fuel tested') := by
  induction fuel generalizing tested tested' with
  | zero => exact .failAt
  | succ fuel ih =>
      refine Steps.advance.bind fun _ _ _ => nested.unary.bind fun item item' items => ?_
      have tests : w.Steps (Parse.lift (Expr.isItem ctx.env.classes op value item))
          (Parse.lift (Expr.isItem ctx'.env.classes op value' item')) :=
        .liftExpr <| by
          rw [nested.contexts.classes, ← Expr.isItem_renumbered, ← Expr.isItem_renumbered,
            values.expr, items.expr]
      refine tests.bind fun test test' twin => Steps.check.bindEq ?_ (Steps.check.bindEq ?_ .failHere)
      · exact Steps.advance.bind fun _ _ _ => .pure (joinTest before twin)
      · exact ih (congrArg some (joinTest before twin))

theorem membershipFrom {value value' : Expr} (values : w.Twin value value') (fuel : Nat)
    {tested tested' : Expr} (twin : w.Twin tested tested') :
    w.Steps (ctx.membershipFrom expression value fuel tested)
      (ctx'.membershipFrom expression' value' fuel tested') := by
  induction fuel generalizing tested tested' with
  | zero => exact .pure twin
  | succ fuel ih =>
      refine Steps.current.bind fun op op' ops => ?_
      obtain rfl : op = op' := ops
      split
      next =>
        refine Steps.advance.bind fun _ _ _ => Steps.check.bindEq ?_ (Steps.check.bindEq ?_ .failHere)
        · refine Steps.tokensLeft.bind fun count count' counts => ?_
          obtain rfl : count = count' := counts
          have unset : w.Twin (none : Option Expr) none := rfl
          exact (nested.itemTests values (count + 1) unset).bind fun _ _ => ih
        · refine nested.primary.bind fun sequence sequence' sequences => ?_
          have tests : w.Steps (Parse.lift (Expr.isContained ctx.env.classes op value sequence))
              (Parse.lift (Expr.isContained ctx'.env.classes op value' sequence')) :=
            .liftExpr <| by
              rw [nested.contexts.classes, ← Expr.isContained_renumbered,
                ← Expr.isContained_renumbered, values.expr, sequences.expr]
          exact tests.bind fun _ _ => ih
      next => exact .pure twin

theorem membership : w.Steps (ctx.membership expression) (ctx'.membership expression') := by
  refine nested.bits.bind fun value value' twin => Steps.tokensLeft.bind fun fuel fuel' fuels => ?_
  obtain rfl : fuel = fuel' := fuels
  exact nested.membershipFrom twin (fuel + 1) twin

/-! ## Logic and functions -/

theorem conjunction : w.Steps (ctx.conjunction expression) (ctx'.conjunction expression') :=
  chain nested.membership fun _ _ _ _ _ _ left right => by
    rw [nested.contexts.classes, ← Expr.ofGroup_renumbered, ← Expr.ofGroup_renumbered, left.expr,
      right.expr]

theorem disjunction : w.Steps (ctx.disjunction expression) (ctx'.disjunction expression') :=
  chain nested.conjunction fun _ _ _ _ _ _ left right => by
    rw [nested.contexts.classes, ← Expr.ofGroup_renumbered, ← Expr.ofGroup_renumbered, left.expr,
      right.expr]

theorem arrow : w.Steps (ctx.arrow expression) (ctx'.arrow expression') := by
  refine nested.disjunction.bind fun e e' twin => Steps.check.bind fun marked marked' marks =>
    Steps.scope.bind fun frame frame' frames => ?_
  obtain rfl : marked = marked' := marks
  have elements : w.Twin (CompileContext.arrowElement? frame e)
      (CompileContext.arrowElement? frame' e') := by
    change Option.map (Parameter.renumbered id) _ = Option.map (Parameter.renumbered w.number) _
    rw [← CompileContext.arrowElement?_renumbered Function.injective_id,
      ← CompileContext.arrowElement?_renumbered w.distinct, frames.frame, twin.expr]
  obtain ⟨none, none'⟩ | ⟨it, it', some, some', its⟩ := (elements.filter marked).cases
  · rw [none, none']
    exact .pure twin
  · rw [some, some']
    refine Steps.advance.bind fun _ _ _ => Steps.current.bind fun next next' nexts => ?_
    obtain rfl : next = next' := nexts
    simp only
    split
    · refine nested.steps.bind fun body body' bodies => .pure ?_
      change Expr.renumbered id _ = Expr.renumbered w.number _
      simp only [Expr.renumbered, List.map_cons, List.map_nil, its.parameter, bodies.expr]
    · exact .failHere

theorem coalescing : w.Steps (ctx.coalescing expression) (ctx'.coalescing expression') := by
  refine nested.arrow.bind fun left left' lefts => Steps.check.bindEq ?_ (.pure lefts)
  refine Steps.position.bind fun position position' positions => ?_
  obtain rfl : position = position' := positions
  exact Steps.advance.bind fun _ _ _ => nested.steps.bind fun right right' rights => .liftExpr <| by
    rw [nested.contexts.classes, ← Expr.orElseValue_renumbered, ← Expr.orElseValue_renumbered,
      lefts.expr, rights.expr]

theorem conditional : w.Steps (ctx.conditional expression) (ctx'.conditional expression') := by
  refine Steps.position.bind fun position position' positions =>
    nested.coalescing.bind fun test test' tests => Steps.check.bindEq ?_ (.pure tests)
  obtain rfl : position = position' := positions
  refine Steps.advance.bind fun _ _ _ => nested.steps.bind fun ifTrue ifTrue' trues => ?_
  refine Steps.expect.bind fun _ _ _ => nested.steps.bind fun ifFalse ifFalse' falses => ?_
  exact .liftExpr <| by
    rw [nested.contexts.classes, ← Expr.choose_renumbered, ← Expr.choose_renumbered, tests.expr,
      trues.expr, falses.expr]

end Levels

end Nested

/-! ## Texts -/

section Texts

variable (contexts : w.Contexts ctx ctx') (silent : w.Silent ctx' granted)
  (supplies : ∀ key e, (key, Symbol.expr e) ∈ ctx'.symbols → granted e)

include contexts silent supplies

/-- Expressions go together however deep they are nested. -/
theorem expression (depth : Nat) : w.Steps (ctx.expression depth) (ctx'.expression depth) := by
  induction depth with
  | zero => exact .failHere
  | succ depth ih =>
      have built : ctx'.Yields w.tokens granted (ctx'.expression depth) :=
        CompileContext.expression_yields supplies depth
      exact Nested.conditional ⟨contexts, silent, ⟨supplies, built⟩, ih⟩

theorem wholeExpression : w.Steps ctx.wholeExpression ctx'.wholeExpression := by
  refine Steps.tokensLeft.bind fun fuel fuel' fuels => ?_
  obtain rfl : fuel = fuel' := fuels
  exact expression contexts silent supplies (fuel + 2)

theorem body (expected? : Option Ty) : w.Steps (ctx.body expected?) (ctx'.body expected?) := by
  refine Steps.position.bind fun position position' positions =>
    (wholeExpression contexts silent supplies).bind fun e e' twin => ?_
  have finish {e e' : Expr} (twin : w.Twin e e') : w.Steps
      (do Parse.validate .finish .malformed; return e)
      (do Parse.validate .finish .malformed; return e') :=
    Steps.validate.bind fun _ _ _ => .pure twin
  cases expected? with
  | none => exact finish twin
  | some expected =>
      have promoted : w.Twin (e.promote? ctx.env.classes .exactly expected)
          (e'.promote? ctx'.env.classes .exactly expected) := by
        change Option.map (Expr.renumbered id) _ = Option.map (Expr.renumbered w.number) _
        rw [contexts.classes, ← Expr.promote?_renumbered, ← Expr.promote?_renumbered, twin.expr]
      obtain ⟨none, none'⟩ | ⟨e, e', some, some', twin⟩ := promoted.cases
      · simp only [none, none']
        exact .failAt
      · simp only [some, some']
        exact finish twin

omit contexts silent supplies in
theorem direction : w.Steps CompileContext.direction CompileContext.direction := by
  refine Steps.current.bind fun word word' words => ?_
  obtain rfl : word = word' := words
  split
  · exact Steps.advance.bind fun _ _ _ => .pure rfl
  · split
    · exact Steps.advance.bind fun _ _ _ => .pure rfl
    · exact .pure rfl

theorem sortKeys (fuel : Nat) (continues : Bool) :
    w.Steps (ctx.sortKeys fuel continues) (ctx'.sortKeys fuel continues) := by
  induction fuel generalizing continues with
  | zero => exact .pure rfl
  | succ fuel ih =>
      refine (wholeExpression contexts silent supplies).bind fun selector selector' selectors =>
        direction.bind fun ascending ascending' directions => ?_
      obtain rfl : ascending = ascending' := directions
      have key : w.Twin (SortKey.mk selector ascending continues)
          (SortKey.mk selector' ascending continues) :=
        congrArg (SortKey.mk · ascending continues) selectors.expr
      refine Steps.check.bindEq ?_ (.pure (congrArg (· :: []) key))
      exact Steps.advance.bind fun _ _ _ => (ih true).bind fun _ _ rest =>
        .pure (congrArg₂ List.cons key rest)

theorem ordering (continues : Bool) :
    w.Steps (ctx.ordering continues) (ctx'.ordering continues) := by
  refine Steps.tokensLeft.bind fun fuel fuel' fuels => ?_
  obtain rfl : fuel = fuel' := fuels
  exact (sortKeys contexts silent supplies (fuel + 1) continues).bind fun _ _ keys =>
    Steps.validate.bind fun _ _ _ => .pure keys

end Texts

end Rerun

end QueryTree
