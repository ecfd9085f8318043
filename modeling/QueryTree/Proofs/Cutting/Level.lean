import QueryTree.Compile.Expression
import QueryTree.Proofs.Cutting.Primary

/-!
# Expressions up to a comma

The levels of the grammar above primary expressions, whole expressions and directions do the same up
to a cut.
-/

namespace QueryTree.CompileContext

open Cut
open Parse (Shortens)

variable {ctx : CompileContext} {cut : Cut} {loose : Prop} {n : Nat} {kinds : TokenKind → Prop}
  {expression expression' : Parse Expr}

section Chain

variable {operand operand' : Parse Expr} {operator? : Token → Option BinaryOp}
  {join : BinaryOp → Token → Expr → Expr → Except CompileError Expr}

/-- Neither a comma nor the end of a text is an operator of a chain. -/
theorem chain_agrees
    (each : ∀ {kinds : TokenKind → Prop}, cut.Agrees False n kinds operand operand')
    (noEnd : ∀ place, operator? (Cursor.finishAt place) = none ∧
      operator? (Cursor.commaAt place) = none) :
    cut.Agrees loose n kinds (chain operand operator? join) (chain operand' operator? join) := by
  refine each.bind fun first => .tokensLeft fun fuel fuel' m le enough enough' => ?_
  refine @Agrees.loop cut _ loose m anyKind Expr (chainFrom operand operator? join)
    (chainFrom operand' operator? join) (fun _ => .pure) ?_ _ _ enough enough' first
  intro k fuel fuel' le' rest left
  refine .current ?_ fun op => ?_
  · simp only [noEnd]
    exact .pure
  · split
    next => exact .pure
    next operator _ =>
      refine .next (fun _ start => start.2.1) ?_
      exact (each.mono (by omega)).bind fun right => Agrees.lift.bind fun joined => rest joined

end Chain

section Levels

/-- Before the cut a minus sign becomes part of the same number. -/
theorem mergeSign_agrees {op : Token} (notFinish : ∀ kind, kinds kind → kind ≠ .finish) :
    cut.Agrees loose n kinds (mergeSign op) (mergeSign op) where
  shortens := by
    refine ⟨fun ran => ?_⟩
    obtain ⟨-, rfl⟩ := EStateM.Result.ok.inj ran
    exact List.suffix_refl _
  ends {session session'} splits _ start := by
    obtain ⟨front, noFinish, tokens, tokens'⟩ := splits.tokens
    obtain _ | ⟨first, front⟩ := front
    · obtain ⟨current, -⟩ := List.cons.inj tokens
      exact absurd (by rw [current]; rfl) (notFinish _ start)
    · obtain ⟨rfl, rest⟩ := List.cons.inj tokens
      obtain ⟨current', rest'⟩ := List.cons.inj tokens'
      have merged (other : Session) : mergeSign op other = .ok () { other with
          current := { other.current with
            text := "-" ++ other.current.text, position := op.position } } := rfl
      rw [merged, merged, current']
      refine .both { splits with tokens := ⟨_ :: front, ?_, congrArg _ rest, congrArg _ rest'⟩ }
      rw [List.forall_mem_cons] at noFinish ⊢
      exact noFinish

variable (below : cut.Agrees False (n - 1) anyKind expression expression')

include below

theorem unaryFrom_agrees {fuel fuel' : Nat} (enough : n ≤ fuel) (enough' : n ≤ fuel') :
    cut.Agrees loose n kinds (ctx.unaryFrom expression fuel)
      (ctx.unaryFrom expression' fuel') := by
  have stops : Shortens (ctx.primary expression') :=
    (@primary_agrees ctx cut True n anyKind _ _ below).shortens
  refine .loosen (.of_any (@Agrees.loop cut _ False n anyKind Unit
    (fun fuel _ => ctx.unaryFrom expression fuel) (fun fuel _ => ctx.unaryFrom expression' fuel)
    (fun _ => stops) ?_ fuel fuel' enough enough' ()))
  intro m fuel fuel' le rest _
  have inside := below.mono (Nat.sub_le_sub_right le 1)
  refine .current ?_ fun op => ?_
  · exact primary_agrees inside
  · split
    next =>
      refine .next (fun _ start => start.2.1) (.current ?_ fun number => ?_)
      · simp only [Cursor.finishAt, Cursor.commaAt]
        simp only [reduceCtorEq, decide_false, Bool.or_self, Bool.and_false, Bool.false_eq_true,
          if_false]
        exact (rest ()).of_any.bind fun operand => .lift
      · simp only
        split
        next => exact (mergeSign_agrees fun _ start => start.2.1).bind fun _ =>
          primary_agrees (inside.mono (Nat.sub_le _ _))
        next => exact (rest ()).of_any.bind fun operand => .lift
    next => exact primary_agrees inside

theorem unary_agrees : cut.Agrees loose n kinds (ctx.unary expression) (ctx.unary expression') :=
  .tokensLeft fun _ _ _ le enough enough' =>
    unaryFrom_agrees (below.mono (Nat.sub_le_sub_right le 1)) enough enough'

theorem product_agrees :
    cut.Agrees loose n kinds (ctx.product expression) (ctx.product expression') :=
  chain_agrees (unary_agrees below) fun _ => ⟨rfl, rfl⟩

theorem sum_agrees : cut.Agrees loose n kinds (ctx.sum expression) (ctx.sum expression') :=
  chain_agrees (product_agrees below) fun _ => ⟨rfl, rfl⟩

theorem shift_agrees : cut.Agrees loose n kinds (ctx.shift expression) (ctx.shift expression') :=
  chain_agrees (sum_agrees below) fun _ => ⟨rfl, rfl⟩

theorem comparison_agrees :
    cut.Agrees loose n kinds (ctx.comparison expression) (ctx.comparison expression') :=
  chain_agrees (shift_agrees below) fun _ => ⟨rfl, rfl⟩

theorem bits_agrees : cut.Agrees loose n kinds (ctx.bits expression) (ctx.bits expression') :=
  chain_agrees (comparison_agrees below) fun _ => ⟨rfl, rfl⟩

omit below in
/-- The tests of items pass over a token first. -/
theorem exists_itemTests {op : Token} {value : Expr} (unary : Shortens (ctx.unary expression))
    (fuel : Nat) (tested : Option Expr) :
    ∃ following, Shortens following ∧ ctx.itemTests expression op value (fuel + 1) tested =
      (do Parse.advance; following) := by
  induction fuel generalizing tested with
  | zero =>
      refine ⟨_, unary.bind fun item => Shortens.lift.bind fun test => .check fun closed => ?_, rfl⟩
      cases closed with
      | true => exact Shortens.advance.bind fun _ => .pure
      | false =>
          refine .check fun more => ?_
          cases more with
          | true => exact .failAt
          | false => exact .failHere
  | succ fuel ih =>
      refine ⟨_, unary.bind fun item => Shortens.lift.bind fun test => .check fun closed => ?_, rfl⟩
      cases closed with
      | true => exact Shortens.advance.bind fun _ => .pure
      | false =>
          refine .check fun more => ?_
          cases more with
          | true =>
              obtain ⟨following, shortens, same⟩ := ih (some (joinTest tested test))
              simp only [if_true, same]
              exact Shortens.advance.bind fun _ => shortens
          | false => exact .failHere

theorem itemTests_agrees {op : Token} {value : Expr} {fuel fuel' : Nat} (enough : n ≤ fuel)
    (enough' : n ≤ fuel') (tested : Option Expr) :
    cut.Agrees loose n (· ≠ .finish) (ctx.itemTests expression op value fuel tested)
      (ctx.itemTests expression' op value fuel' tested) := by
  have unary : Shortens (ctx.unary expression') :=
    (@unary_agrees ctx cut True n anyKind _ _ below).shortens
  refine @Agrees.loop cut _ loose n (· ≠ .finish) (Option Expr)
    (ctx.itemTests expression op value) (ctx.itemTests expression' op value) (fun _ => .failAt) ?_
    fuel fuel' enough enough' tested
  intro m fuel fuel' le rest tested
  have inside := below.mono (Nat.sub_le_sub_right le 1)
  refine .next (fun _ start => start) ?_
  refine (unary_agrees (inside.mono (Nat.sub_le _ _))).bind fun item => Agrees.lift.bind fun test =>
    .check (by decide) (by decide) fun closed => ?_
  cases closed with
  | true => exact .next (by rintro _ ⟨-, isClose⟩ rfl; cases isClose) .pure
  | false =>
      refine .checkComma (fun _ _ => .of_error) (fun splits isFinish => ?_) fun more => ?_
      · cases fuel' with
        | zero => exact fun _ _ ran => by cases ran
        | succ fuel' =>
            obtain ⟨following, shortens, same⟩ :=
              @exists_itemTests _ _ op value unary fuel' (some (joinTest tested test))
            simp only [if_true, same]
            exact Agrees.beyond_advance splits isFinish shortens
      · cases more with
        | true => exact (rest _).imp fun _ start => start.1.2
        | false => exact .failHere

theorem membershipFrom_agrees (value : Expr) {fuel fuel' : Nat} (enough : n ≤ fuel)
    (enough' : n ≤ fuel') (tested : Expr) :
    cut.Agrees loose n kinds (ctx.membershipFrom expression value fuel tested)
      (ctx.membershipFrom expression' value fuel' tested) := by
  refine .of_any (@Agrees.loop cut _ loose n anyKind Expr (ctx.membershipFrom expression value)
    (ctx.membershipFrom expression' value) (fun _ => .pure) ?_ fuel fuel' enough enough' tested)
  intro m fuel fuel' le rest tested
  have inside := below.mono (Nat.sub_le_sub_right le 1)
  refine .current .pure fun op => ?_
  split
  next =>
    refine .next (fun _ start => start.2.1) (.check (by decide) (by decide) fun listed => ?_)
    cases listed with
    | true =>
        refine .tokensLeft fun items items' k le' enough enough' => ?_
        have tests : cut.Agrees False k (· ≠ .finish)
            (ctx.itemTests expression op value (items + 1) none)
            (ctx.itemTests expression' op value (items' + 1) none) :=
          itemTests_agrees (inside.mono (by omega)) enough enough' none
        refine (tests.imp ?_).bind fun test => (rest test).mono (by omega)
        rintro _ ⟨-, isOpen⟩ rfl
        cases isOpen
    | false =>
        refine .check (by decide) (by decide) fun named => ?_
        cases named with
        | true =>
            exact (primary_agrees (inside.mono (Nat.sub_le _ _))).bind fun _ =>
              Agrees.lift.bind fun test => rest test
        | false => exact .failHere
  next => exact .pure

theorem membership_agrees :
    cut.Agrees loose n kinds (ctx.membership expression) (ctx.membership expression') :=
  (bits_agrees below).bind fun value => .tokensLeft fun _ _ _ le enough enough' =>
    membershipFrom_agrees (below.mono (Nat.sub_le_sub_right le 1)) value enough enough' value

theorem conjunction_agrees :
    cut.Agrees loose n kinds (ctx.conjunction expression) (ctx.conjunction expression') :=
  chain_agrees (membership_agrees below) fun _ => ⟨rfl, rfl⟩

theorem disjunction_agrees :
    cut.Agrees loose n kinds (ctx.disjunction expression) (ctx.disjunction expression') :=
  chain_agrees (conjunction_agrees below) fun _ => ⟨rfl, rfl⟩

theorem arrow_agrees : cut.Agrees loose n kinds (ctx.arrow expression) (ctx.arrow expression') := by
  refine (disjunction_agrees below).bind fun e => .check (by decide) (by decide) fun before => ?_
  refine .scope fun frame => ?_
  split
  next => exact .pure
  next it isElement =>
    have isArrow : before = true := (Option.filter_eq_some_iff.mp isElement).2
    refine .next ?_ (.current .failHere fun token => ?_)
    · rintro kind ⟨-, isLambda⟩ rfl
      rw [isArrow] at isLambda
      cases isLambda
    · simp only
      split
      next => exact below.of_any.bind fun body => .pure
      next => exact .failHere

theorem coalescing_agrees :
    cut.Agrees loose n kinds (ctx.coalescing expression) (ctx.coalescing expression') := by
  refine (arrow_agrees below).bind fun left => .check (by decide) (by decide) fun coalesces => ?_
  cases coalesces with
  | true =>
      refine .position fun position => .next ?_ (below.bind fun right => .lift)
      rintro _ ⟨-, isMark⟩ rfl
      cases isMark
  | false => exact .pure

theorem conditional_agrees :
    cut.Agrees loose n kinds (ctx.conditional expression) (ctx.conditional expression') := by
  refine .position fun position => (coalescing_agrees below).bind fun test => ?_
  refine .check (by decide) (by decide) fun asked => ?_
  cases asked with
  | true =>
      refine .next (by rintro _ ⟨-, isMark⟩ rfl; cases isMark) (below.bind fun ifTrue => ?_)
      refine .expectNext (by decide) (by decide) ?_
      exact (below.mono (Nat.sub_le _ _)).bind fun ifFalse => .lift
  | false => exact .pure

end Levels

section Whole

theorem expression_agrees {depth depth' : Nat} (enough : n ≤ depth) (enough' : n ≤ depth') :
    cut.Agrees False n kinds (ctx.expression depth) (ctx.expression depth') :=
  .of_any (@Agrees.loop cut _ False n anyKind Unit (fun depth _ => ctx.expression depth)
    (fun depth _ => ctx.expression depth) (fun _ => .failHere)
    (fun _ below _ => conditional_agrees (below ())) depth depth' enough enough' ())

/-- A whole expression before a comma is read as at the end of a text. -/
theorem wholeExpression_agrees :
    cut.Agrees False n kinds ctx.wholeExpression ctx.wholeExpression :=
  .tokensLeft fun _ _ _ _ enough enough' => expression_agrees (by omega) (by omega)

theorem direction_agrees : cut.Agrees loose n kinds direction direction := by
  refine .current .pure fun word => ?_
  split
  next => exact .next (fun _ start => start.2.1) .pure
  next =>
    split
    next => exact .next (fun _ start => start.2.1) .pure
    next => exact .pure

end Whole

end QueryTree.CompileContext
