import QueryTree.Proofs.Parallel.Primary
import QueryTree.Proofs.Spelling.Text

/-!
# Expressions side by side

The levels of the grammar above primary expressions go on side by side, provided that the
expressions nested in them do.
-/

namespace QueryTree

namespace CompileContext

open Pairing

variable {ctx : CompileContext} {w : Pairing ctx} {frame : ScopeFrame} {n : Nat}
  {known : Token → Token → Prop} {expression expression' : Parse Expr}

section Chain

variable {operand operand' : Parse Expr} {operator? : Token → Option BinaryOp}
  {join : BinaryOp → Token → Expr → Expr → Except CompileError Expr}

theorem chain_carries {demand : w.Demand}
    (each : ∀ {known}, w.Carries demand frame n known operand operand' Eq)
    (byKind : ∀ token token' : Token, token.kind = token'.kind → operator? token = operator? token')
    (joins : JoinsAlike w.placed join) :
    w.Carries demand frame n known (chain operand operator? join) (chain operand' operator? join)
      Eq := by
  have further (fuel : Nat) (left : Expr) : w.Carries demand frame n Known.nothing
      (chainFrom operand operator? join fuel left)
      (chainFrom operand' operator? join fuel left) Eq := by
    induction fuel generalizing left with
    | zero => exact .pure rfl
    | succ fuel ih =>
        refine .current fun op op' paired _ => ?_
        rw [← byKind op op' paired.kind]
        split
        next => exact .pure rfl
        next operator _ =>
          refine Carries.advance.bind fun _ => each.bind fun right => ?_
          exact (Carries.lift (joins operator op op' left right paired.position)).bind ih
  exact each.bind fun first => .tokensLeft fun fuel => further _ first

end Chain

section Levels

/-- A minus sign becomes part of the same number in both texts. -/
theorem mergeSign_carries {demand : w.Demand} {op op' : Token}
    (related : w.placed op.position op'.position) :
    w.Carries demand frame n
      (fun token _ => token.kind = .integerLiteral ∨ token.kind = .realLiteral) (mergeSign op)
      (mergeSign op') Eq where
  follows {session _} endsWell _ _ _ _ _ _ ran := by
    obtain ⟨-, rfl⟩ := EStateM.Result.ok.inj ran
    exact ⟨endsWell, List.suffix_refl _, rfl, rfl, Nat.le_refl _⟩
  ends {stack names names' session session'} twins _ _ isNumber := by
    have noName : session.current.kind ≠ .identifier := by
      obtain isNumber | isNumber := isNumber <;> simp [isNumber]
    have same := twins.current.paired.same noName
    refine .ok fun _ => ⟨(), _, rfl, rfl, { twins with
      current := .same ⟨same.kind, congrArg ("-" ++ ·) same.text, related⟩
        fun isName => absurd isName noName
      ahead := twins.ahead.behind ⟨?_, ?_, fun isName => absurd isName noName⟩ }⟩
    · obtain isNumber | isNumber := isNumber <;> simp [isNumber]
    · obtain isNumber | isNumber := isNumber <;> simp [Token.isWord, isNumber]

variable (below : ∀ m < n, w.Nested m expression expression')

include below

theorem unaryFrom_carries (fuel : Nat) :
    w.Carries (.guarded w frame) frame n known (ctx.unaryFrom expression fuel)
      (ctx.unaryFrom expression' fuel) Eq := by
  induction fuel generalizing known with
  | zero => exact primary_carries below
  | succ fuel ih =>
      refine .current fun op op' paired _ => ?_
      simp only [← paired.kind]
      split
      next isSign =>
        refine Carries.advance.bind fun _ => .current fun token token' number _ => ?_
        simp only [← number.kind]
        split
        next isNumber =>
          refine ((mergeSign_carries paired.position).imp ?_).bind fun _ => primary_carries below
          rintro _ _ ⟨rfl, -⟩
          simpa using ((Bool.and_eq_true _ _).mp isNumber).2
        next =>
          have isSymbol : op.kind ≠ .identifier := by
            intro isName
            simp [isName] at isSign
          exact ih.bind fun operand => .lift (applySign_alike (paired.alike isSymbol))
      next => exact primary_carries below

theorem unary_carries :
    w.Carries (.guarded w frame) frame n known (ctx.unary expression) (ctx.unary expression') Eq :=
  .tokensLeft fun _ => unaryFrom_carries below _

theorem product_carries :
    w.Carries (.guarded w frame) frame n known (ctx.product expression) (ctx.product expression')
      Eq :=
  chain_carries (unary_carries below) (fun _ _ same => by simp only [productOperator?, same])
    ofGroup_joinsAlike

theorem sum_carries :
    w.Carries (.guarded w frame) frame n known (ctx.sum expression) (ctx.sum expression') Eq := by
  refine chain_carries (product_carries below)
    (fun _ _ same => by simp only [sumOperator?, same]) ?_
  intro operator op op' left right related
  simp only
  split
  next => exact Expr.sum_alike related
  next => exact Expr.difference_alike related

theorem shift_carries :
    w.Carries (.guarded w frame) frame n known (ctx.shift expression) (ctx.shift expression') Eq :=
  chain_carries (sum_carries below) (fun _ _ same => by simp only [shiftOperator?, same])
    ofGroup_joinsAlike

theorem comparison_carries :
    w.Carries (.guarded w frame) frame n known (ctx.comparison expression)
      (ctx.comparison expression') Eq :=
  chain_carries (shift_carries below) (fun _ _ same => by simp only [comparisonOperator?, same])
    fun _ _ _ _ _ related => Expr.comparison_alike related

theorem bits_carries :
    w.Carries (.guarded w frame) frame n known (ctx.bits expression) (ctx.bits expression') Eq := by
  refine chain_carries (comparison_carries below)
    (fun _ _ same => by simp only [bitOperator?, same]) ?_
  intro operator op op' left right related
  simp only
  split
  next => exact Expr.conjunction_alike related
  next => exact Expr.disjunction_alike related

theorem itemTests_carries {op op' : Token} (related : w.placed op.position op'.position)
    {value : Expr} (fuel : Nat) (tested : Option Expr) :
    w.Carries (.guarded w frame) frame n known (ctx.itemTests expression op value fuel tested)
      (ctx.itemTests expression' op' value fuel tested) Eq := by
  induction fuel generalizing known tested with
  | zero => exact .failAt related
  | succ fuel ih =>
      refine Carries.advance.bind fun _ => (unary_carries below).bind fun item => ?_
      refine (Carries.lift (Expr.isItem_alike related)).bind fun test => .check fun closed => ?_
      cases closed with
      | true => exact Carries.advance.bind fun _ => .pure rfl
      | false =>
          refine .check fun more => ?_
          cases more with
          | true => exact ih _
          | false => exact .failHere

theorem membershipFrom_carries (value : Expr) (fuel : Nat) (tested : Expr) :
    w.Carries (.guarded w frame) frame n known (ctx.membershipFrom expression value fuel tested)
      (ctx.membershipFrom expression' value fuel tested) Eq := by
  induction fuel generalizing known tested with
  | zero => exact .pure rfl
  | succ fuel ih =>
      refine .current fun op op' paired _ => ?_
      rw [← paired.isWord_eq (by simp)]
      split
      next =>
        refine Carries.advance.bind fun _ => .check fun listed => ?_
        cases listed with
        | true =>
            refine .tokensLeft fun fuel => ?_
            exact (itemTests_carries below paired.position _ _).bind fun test => ih test
        | false =>
            refine .check fun named => ?_
            cases named with
            | true =>
                refine (primary_carries below).bind fun sequence => ?_
                exact (Carries.lift (Expr.isContained_alike paired.position)).bind fun test =>
                  ih test
            | false => exact .failHere
      next => exact .pure rfl

theorem membership_carries :
    w.Carries (.guarded w frame) frame n known (ctx.membership expression)
      (ctx.membership expression') Eq :=
  (bits_carries below).bind fun value => .tokensLeft fun _ =>
    membershipFrom_carries below value _ value

theorem conjunction_carries :
    w.Carries (.guarded w frame) frame n known (ctx.conjunction expression)
      (ctx.conjunction expression') Eq :=
  chain_carries (membership_carries below) (fun _ _ same => by simp only [andOperator?, same])
    ofGroup_joinsAlike

theorem disjunction_carries :
    w.Carries (.guarded w frame) frame n known (ctx.disjunction expression)
      (ctx.disjunction expression') Eq :=
  chain_carries (conjunction_carries below) (fun _ _ same => by simp only [orOperator?, same])
    ofGroup_joinsAlike

theorem arrow_carries :
    w.Carries (.guarded w frame) frame n known (ctx.arrow expression) (ctx.arrow expression')
      Eq := by
  refine (disjunction_carries below).bind fun e => .check fun beforeArrow => .scope ?_
  split
  next => exact .pure rfl
  next it isElement =>
    have isArrow : beforeArrow = true := (Option.filter_eq_some_iff.mp isElement).2
    refine .next ?_ fun m less => .current fun token token' paired _ => ?_
    · rintro token _ ⟨-, same⟩
      rw [beq_iff_eq.mp (same.trans isArrow)]
      decide
    · simp only [← paired.kind]
      split
      next =>
        exact (((below m less).guarded frame).imp fun _ _ _ => trivial).bind fun body => .pure rfl
      next => exact .failHere

theorem coalescing_carries :
    w.Carries (.guarded w frame) frame n known (ctx.coalescing expression)
      (ctx.coalescing expression') Eq := by
  refine (arrow_carries below).bind fun left => .check fun coalesces => ?_
  cases coalesces with
  | true =>
      refine .position fun position position' related => .next ?_ fun m less => ?_
      · rintro token _ ⟨-, isOperator⟩
        rw [beq_iff_eq.mp isOperator]
        decide
      · refine ((below m less).guarded frame).bind fun right => ?_
        exact .lift (Expr.orElseValue_alike related)
  | false => exact .pure rfl

theorem conditional_carries :
    w.Carries (.guarded w frame) frame n known (ctx.conditional expression)
      (ctx.conditional expression') Eq := by
  refine .position fun position position' related => ?_
  refine (coalescing_carries below).bind fun test => .check fun asked => ?_
  cases asked with
  | true =>
      refine .next ?_ fun m less => ((below m less).guarded frame).bind fun ifTrue => ?_
      · rintro token _ ⟨-, isQuestion⟩
        rw [beq_iff_eq.mp isQuestion]
        decide
      · exact Carries.expect.bind fun _ => ((below m less).guarded frame).bind fun ifFalse =>
          .lift (Expr.choose_alike related)
  | false => exact .pure rfl

end Levels

end CompileContext

end QueryTree
