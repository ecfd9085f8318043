import QueryTree.Proofs.Membership.Text
import QueryTree.Proofs.Nesting.Text

/-!
# Expressions in parentheses

What the text of an expression in parentheses is read as by each level of the grammar, where no
operator that the level knows stands behind it.  A text that does not compile is followed as well:
what stands around it does not compile either.
-/

namespace QueryTree

open Parse

/-- A token of a kind is passed over. -/
inductive Session.Passes (kind : TokenKind) (before : Session) : Session → Prop where
  | intro {token : Token} {rest : List Token} (isKind : before.current.kind = kind)
      (behind : before.rest = token :: rest) : Passes kind before (before.moveTo token rest)

theorem Session.Passes.kind_eq {kind : TokenKind} {before after : Session}
    (passes : before.Passes kind after) : before.current.kind = kind := by
  obtain ⟨isKind, -⟩ := passes
  exact isKind

theorem Session.Passes.length {kind : TokenKind} {before after : Session}
    (passes : before.Passes kind after) : before.rest.length = after.rest.length + 1 := by
  obtain ⟨-, behind⟩ := passes
  rw [behind, List.length_cons, Session.moveTo_rest]

/-- From a state on a step reads an expression up to another state, or it fails. -/
def ReadsTo (step : Parse Expr) (start : Session) (outcome : Option Expr) (stop : Session) : Prop :=
  ∀ e after, step start = .ok e after ↔ outcome = some e ∧ after = stop

namespace ReadsTo

variable {step step' : Parse Expr} {start start' middle stop : Session}
  {outcome : Option Expr} {e : Expr}

theorem of_ok (read : step start = .ok e stop) : ReadsTo step start (some e) stop := by
  intro e' after
  rw [read]
  constructor
  · rintro ⟨⟩
    exact ⟨rfl, rfl⟩
  · rintro ⟨same, rfl⟩
    rw [Option.some.inj same]

theorem of_error {error : CompileError} {after : Session} (failed : step start = .error error after)
    (stop : Session) : ReadsTo step start none stop := by
  intro e' after'
  rw [failed]
  constructor
  · rintro ⟨⟩
  · rintro ⟨⟨⟩, -⟩

theorem eq_ok (reads : ReadsTo step start (some e) stop) : step start = .ok e stop :=
  (reads e stop).mpr ⟨rfl, rfl⟩

/-- An expression is read if and only if there is one. -/
theorem exists_iff (reads : ReadsTo step start outcome stop) :
    (∃ after, step start = .ok e after) ↔ outcome = some e := by
  constructor
  · rintro ⟨after, read⟩
    exact ((reads e after).mp read).1
  · intro isOutcome
    exact ⟨stop, (reads e stop).mpr ⟨isOutcome, rfl⟩⟩

theorem congr (reads : ReadsTo step start outcome stop) (same : step' start' = step start) :
    ReadsTo step' start' outcome stop := by
  intro e after
  rw [same]
  exact reads e after

theorem bind {next : Expr → Parse Expr} {further : Expr → Option Expr}
    (reads : ReadsTo step start outcome middle)
    (continues : ∀ e, outcome = some e → ReadsTo (next e) middle (further e) stop) :
    ReadsTo (step >>= next) start (outcome.bind further) stop := by
  intro e after
  rw [Parse.bind_eq_ok_iff]
  constructor
  · rintro ⟨first, state, read, read'⟩
    obtain ⟨rfl, rfl⟩ := (reads first state).mp read
    exact (continues first rfl e after).mp read'
  · rintro ⟨isFurther, rfl⟩
    obtain ⟨first, rfl, isFurther⟩ := Option.bind_eq_some_iff.mp isFurther
    exact ⟨first, middle, reads.eq_ok, (continues first rfl e after).mpr ⟨isFurther, rfl⟩⟩

/-- What is read may be looked at behind it. -/
theorem keep {next : Expr → Parse Expr} (reads : ReadsTo step start outcome stop)
    (keeps : ∀ e, next e stop = .ok e stop) : ReadsTo (step >>= next) start outcome stop := by
  have kept : ReadsTo (step >>= next) start (outcome.bind some) stop :=
    reads.bind fun e _ => of_ok (keeps e)
  rwa [Option.bind_fun_some] at kept

theorem lift (outcome : Except CompileError Expr) (stop : Session) :
    ReadsTo (Parse.lift outcome) stop outcome.toOption stop := by
  cases outcome with
  | ok e => exact .of_ok (lift_eq rfl stop)
  | error error => exact .of_error (lift_error rfl stop) stop

theorem stopsAt {n : Nat} (reads : ReadsTo step start outcome stop)
    (ends : CompileContext.Ends n stop.current) : CompileContext.StopsAt n step start := by
  intro e after read
  obtain ⟨-, rfl⟩ := (reads e after).mp read
  exact ends

end ReadsTo

namespace Expr

variable {table : ClassTable} {position position' : Nat}

/-- A null coalescing of what is read on both sides. -/
def orElse? (table : ClassTable) (left right : Option Expr) : Option Expr :=
  left.bind fun left => right.bind fun right => (orElseValue table 0 left right).toOption

/-- A conditional of what is read in its three places. -/
def chosen? (table : ClassTable) (test ifTrue ifFalse : Option Expr) : Option Expr :=
  test.bind fun test => ifTrue.bind fun ifTrue => ifFalse.bind fun ifFalse =>
    (choose table 0 test ifTrue ifFalse).toOption

/-- Where a null coalescing stands only counts for its errors. -/
theorem orElseValue_toOption {left right : Expr} :
    (orElseValue table position left right).toOption =
      (orElseValue table position' left right).toOption := by
  unfold orElseValue
  split
  next => rfl
  next =>
    split
    next => rfl
    next =>
      split
      next => rfl
      next => split <;> rfl

/-- Where a conditional stands only counts for its errors. -/
theorem choose_toOption {test ifTrue ifFalse : Expr} :
    (choose table position test ifTrue ifFalse).toOption =
      (choose table position' test ifTrue ifFalse).toOption := by
  unfold choose
  split
  next => rfl
  next =>
    split
    next => rfl
    next =>
      split
      next => rfl
      next =>
        split
        next => rfl
        next => split <;> rfl

end Expr

namespace CompileContext

variable {ctx : CompileContext} {expression : Parse Expr} {start middle stop : Session}
  {outcome left right test ifTrue ifFalse : Option Expr} {token : Token} {rest : List Token}

/-- A token stands behind a whole expression: no operator, no arrow and no sign of a conditional. -/
structure EndsExpression (token : Token) : Prop where
  noOperator : Ends 1 token
  noArrow : token.kind ≠ .lambda
  noCoalescing : token.kind ≠ .nullCoalescing
  noQuestion : token.kind ≠ .question

theorem EndsExpression.of_grip {token : Token} (loose : token.kind.grip ≤ 0) :
    EndsExpression token where
  noOperator := .of_grip (Nat.le_refl 1) (Nat.le_succ_of_le loose)
  noArrow isArrow := absurd (isArrow ▸ loose) (by decide)
  noCoalescing isCoalescing := absurd (isCoalescing ▸ loose) (by decide)
  noQuestion isQuestion := absurd (isQuestion ▸ loose) (by decide)

theorem Ends.of_coalescing {token : Token} (isCoalescing : token.kind = .nullCoalescing) :
    Ends 1 token := by
  refine ⟨fun _ => ?_, fun m isLevel bound => ?_⟩
  · rw [Token.isWord, isCoalescing]
    rfl
  · obtain rfl | rfl | rfl | rfl | rfl | rfl | rfl :
        m = 1 ∨ m = 2 ∨ m = 3 ∨ m = 4 ∨ m = 5 ∨ m = 6 ∨ m = 7 := by omega
    all_goals
      simp [operatorAt?, orOperator?, andOperator?, bitOperator?, comparisonOperator?,
        shiftOperator?, sumOperator?, productOperator?, isCoalescing]

section Levels

theorem arrow_readsTo (reads : ReadsTo (ctx.disjunction expression) start outcome stop)
    (noArrow : stop.current.kind ≠ .lambda) :
    ReadsTo (ctx.arrow expression) start outcome stop := by
  have unmarked : (stop.current.kind == .lambda) = false := beq_false_of_ne noArrow
  refine reads.keep fun e => ?_
  have noElement (element? : Option Parameter) :
      element?.filter (fun _ => stop.current.kind == .lambda) = none := by
    rw [unmarked]
    cases element? <;> rfl
  rw [bind_eq (check_eq .lambda _), bind_eq (scope_eq _)]
  simp only [noElement]
  rfl

/-- Without the sign for it there is no null coalescing. -/
theorem coalescing_readsTo (reads : ReadsTo (ctx.arrow expression) start outcome stop)
    (noCoalescing : stop.current.kind ≠ .nullCoalescing) :
    ReadsTo (ctx.coalescing expression) start outcome stop := by
  have unmarked : (stop.current.kind == .nullCoalescing) = false := beq_false_of_ne noCoalescing
  refine reads.keep fun e => ?_
  rw [bind_eq (check_eq .nullCoalescing _)]
  simp only [unmarked, Bool.false_eq_true, if_false]
  rfl

/-- The right operand of a null coalescing is a whole expression. -/
theorem coalescing_readsTo_orElse (reads : ReadsTo (ctx.arrow expression) start left middle)
    (isCoalescing : middle.current.kind = .nullCoalescing) (behind : middle.rest = token :: rest)
    (further : ReadsTo expression (middle.moveTo token rest) right stop) :
    ReadsTo (ctx.coalescing expression) start (Expr.orElse? ctx.env.classes left right) stop := by
  have marked : (middle.current.kind == .nullCoalescing) = true := beq_iff_eq.mpr isCoalescing
  refine reads.bind fun leftOperand _ => ?_
  have joined : ReadsTo (expression >>= fun rightOperand =>
      Parse.lift (Expr.orElseValue ctx.env.classes middle.current.position leftOperand
        rightOperand)) (middle.moveTo token rest)
      (right.bind fun rightOperand =>
        (Expr.orElseValue ctx.env.classes 0 leftOperand rightOperand).toOption) stop := by
    refine further.bind fun rightOperand _ => ?_
    rw [Expr.orElseValue_toOption]
    exact .lift _ stop
  refine joined.congr ?_
  rw [bind_eq (check_eq .nullCoalescing _)]
  simp only [marked, if_true]
  rw [bind_eq (position_eq middle), bind_eq (advance_eq behind)]

/-- What follows the test of a conditional that starts at a position. -/
def branches (ctx : CompileContext) (expression : Parse Expr) (position : Nat) (test : Expr) :
    Parse Expr := do
  if ← Parse.check .question then
    Parse.advance
    let ifTrue ← expression
    Parse.expect .colon (.expected .colon)
    let ifFalse ← expression
    Parse.lift (Expr.choose ctx.env.classes position test ifTrue ifFalse)
  else return test

theorem conditional_eq_branches : ctx.conditional expression start =
    (ctx.coalescing expression >>= ctx.branches expression start.current.position) start := by
  rw [conditional, bind_eq (position_eq start)]
  rfl

/-- Without the sign for it there is no conditional. -/
theorem conditional_readsTo (reads : ReadsTo (ctx.coalescing expression) start outcome stop)
    (noQuestion : stop.current.kind ≠ .question) :
    ReadsTo (ctx.conditional expression) start outcome stop := by
  have unmarked : (stop.current.kind == .question) = false := beq_false_of_ne noQuestion
  have kept : ReadsTo (ctx.coalescing expression >>= ctx.branches expression start.current.position)
      start outcome stop := by
    refine reads.keep fun e => ?_
    rw [branches, bind_eq (check_eq .question _)]
    simp only [unmarked, Bool.false_eq_true, if_false]
    rfl
  exact kept.congr conditional_eq_branches

/-- The branches of a conditional are whole expressions. -/
theorem conditional_readsTo_chosen {question colon : Session} {token' : Token} {rest' : List Token}
    (reads : ReadsTo (ctx.coalescing expression) start test question)
    (isQuestion : question.current.kind = .question) (behind : question.rest = token :: rest)
    (trueBranch : ReadsTo expression (question.moveTo token rest) ifTrue colon)
    (isColon : colon.current.kind = .colon) (behind' : colon.rest = token' :: rest')
    (falseBranch : ReadsTo expression (colon.moveTo token' rest') ifFalse stop) :
    ReadsTo (ctx.conditional expression) start
      (Expr.chosen? ctx.env.classes test ifTrue ifFalse) stop := by
  have marked : (question.current.kind == .question) = true := beq_iff_eq.mpr isQuestion
  have joined : ReadsTo
      (ctx.coalescing expression >>= ctx.branches expression start.current.position) start
      (Expr.chosen? ctx.env.classes test ifTrue ifFalse) stop := by
    refine reads.bind fun testExpr _ => ?_
    have inBranches : ReadsTo (expression >>= fun trueExpr => do
        Parse.expect .colon (.expected .colon)
        let falseExpr ← expression
        Parse.lift (Expr.choose ctx.env.classes start.current.position testExpr trueExpr falseExpr))
        (question.moveTo token rest)
        (ifTrue.bind fun trueExpr => ifFalse.bind fun falseExpr =>
          (Expr.choose ctx.env.classes 0 testExpr trueExpr falseExpr).toOption) stop := by
      refine trueBranch.bind fun trueExpr _ => ?_
      have last : ReadsTo (expression >>= fun falseExpr => Parse.lift
          (Expr.choose ctx.env.classes start.current.position testExpr trueExpr falseExpr))
          (colon.moveTo token' rest') (ifFalse.bind fun falseExpr =>
            (Expr.choose ctx.env.classes 0 testExpr trueExpr falseExpr).toOption) stop := by
        refine falseBranch.bind fun falseExpr _ => ?_
        rw [Expr.choose_toOption]
        exact .lift _ stop
      refine last.congr ?_
      rw [bind_eq (expect_eq isColon behind')]
    refine inBranches.congr ?_
    rw [branches, bind_eq (check_eq .question _)]
    simp only [marked, if_true]
    rw [bind_eq (advance_eq behind)]
  exact joined.congr conditional_eq_branches

/-- Where a disjunction ends an expression, it is a whole one. -/
theorem conditional_readsTo_disjunction
    (reads : ReadsTo (ctx.disjunction expression) start outcome stop)
    (ends : EndsExpression stop.current) :
    ReadsTo (ctx.conditional expression) start outcome stop :=
  conditional_readsTo (coalescing_readsTo (arrow_readsTo reads ends.noArrow) ends.noCoalescing)
    ends.noQuestion

end Levels

section Enclosed

/-- The text of an expression in parentheses stands between two states.  It is read to an expression
or fails, as deep as expressions may be nested if they may be as deep as there are tokens left.  No
more tokens are left at its end than at its beginning. -/
structure ReadsEnclosed (ctx : CompileContext) (start : Session) (outcome : Option Expr)
    (stop : Session) : Prop where
  opens : start.current.kind = .openParen
  reads : ∀ depth, start.rest.length ≤ depth →
    ReadsTo (ctx.primary (ctx.expression depth)) start outcome stop
  passes : stop.rest.length ≤ start.rest.length

namespace ReadsEnclosed

variable (enclosed : ctx.ReadsEnclosed start outcome stop) {depth : Nat}

include enclosed

/-- An expression in parentheses is one of each level where no operator of the level follows. -/
theorem levelAt {n : Nat} (isLevel : 1 ≤ n) (bound : n ≤ 8) (ends : Ends n stop.current)
    (enough : start.rest.length ≤ depth) :
    ReadsTo (ctx.levelAt (ctx.expression depth) n) start outcome stop := by
  have unary : ReadsTo (ctx.levelAt (ctx.expression depth) 8) start outcome stop := by
    refine (enclosed.reads depth enough).congr ?_
    change ctx.unary (ctx.expression depth) start = _
    rw [CompileContext.unary, bind_eq (tokensLeft_eq start),
      unaryFrom_eq_primary (enclosed.opens ▸ by decide) (enclosed.opens ▸ by decide)]
  exact unary.congr (levelAt_eq_of_stopsAt isLevel bound (Nat.le_refl 8) (unary.stopsAt ends))

theorem beforeArrow (noOperator : Ends 1 stop.current) (noArrow : stop.current.kind ≠ .lambda)
    (enough : start.rest.length ≤ depth) :
    ReadsTo (ctx.arrow (ctx.expression depth)) start outcome stop :=
  arrow_readsTo (enclosed.levelAt (Nat.le_refl 1) (by decide) noOperator enough) noArrow

/-- An expression in parentheses is a whole one where no operator follows. -/
theorem whole (ends : EndsExpression stop.current) (enough : start.rest.length < depth) :
    ReadsTo (ctx.expression depth) start outcome stop := by
  obtain ⟨depth, rfl⟩ := Nat.exists_eq_succ_of_ne_zero (Nat.ne_zero_of_lt enough)
  exact conditional_readsTo_disjunction
    (enclosed.levelAt (n := 1) (Nat.le_refl 1) (by decide) ends.noOperator
      (Nat.le_of_lt_succ enough)) ends

end ReadsEnclosed

/-- An expression is read in parentheses if it is read between them. -/
theorem ReadsEnclosed.of_inside {close : Session} {next : Token} {rest' : List Token}
    (opens : start.current.kind = .openParen) (behind : start.rest = token :: rest)
    (inside : ∀ depth, rest.length < depth →
      ReadsTo (ctx.expression depth) (start.moveTo token rest) outcome close)
    (passes : close.rest.length ≤ rest.length) (closes : close.current.kind = .closeParen)
    (behind' : close.rest = next :: rest') (noSuffix : next.kind.opensSuffix = false) :
    ctx.ReadsEnclosed start outcome (close.moveTo next rest') where
  opens := opens
  reads depth enough := by
    rw [behind, List.length_cons] at enough
    have atom : ReadsTo (ctx.atom (ctx.expression depth)) start outcome
        (close.moveTo next rest') := by
      have kept : ReadsTo (ctx.expression depth >>= fun e => do
          Parse.expect .closeParen (.expected .closeParenOrOperator)
          return e) (start.moveTo token rest) (outcome.bind some) (close.moveTo next rest') := by
        refine (inside depth enough).bind fun e _ => .of_ok ?_
        rw [bind_eq (expect_eq closes behind')]
        rfl
      rw [Option.bind_fun_some] at kept
      refine kept.congr ?_
      rw [CompileContext.atom, bind_eq (current_eq start)]
      simp only [opens]
      rw [bind_eq (advance_eq behind)]
    refine atom.keep fun e => ?_
    rw [bind_eq (tokensLeft_eq _)]
    exact suffixes_end noSuffix
  passes := by
    rw [behind, List.length_cons, Session.moveTo_rest]
    rw [behind', List.length_cons] at passes
    omega

/-- The name of a parameter is read in parentheses. -/
theorem ReadsEnclosed.of_name {params : List Parameter} {p : Parameter} {name close next : Token}
    (names : ctx.Names params) (isParam : p ∈ params) (opens : start.current.kind = .openParen)
    (isName : name.word = .name p.name) (closes : close.kind = .closeParen)
    (behind : start.rest = name :: close :: next :: rest)
    (noSuffix : next.kind.opensSuffix = false) :
    ctx.ReadsEnclosed start (some (.parameter p)) (start.moveTo next rest) := by
  have inside (depth : Nat) (enough : (close :: next :: rest).length < depth) :
      ReadsTo (ctx.expression depth) (start.moveTo name (close :: next :: rest))
        (some (.parameter p)) (start.moveTo close (next :: rest)) := by
    obtain ⟨depth, rfl⟩ := Nat.exists_eq_succ_of_ne_zero (Nat.ne_zero_of_lt enough)
    have disjunction : ctx.disjunction (ctx.expression depth)
        (start.moveTo name (close :: next :: rest)) =
          .ok (.parameter p) (start.moveTo close (next :: rest)) :=
      levelAt_name_eq (n := 1) names isParam isName rfl (closes ▸ rfl) (by decide) (by decide)
        (.of_grip (Nat.le_refl 1) (closes ▸ Nat.zero_le 1))
    exact conditional_readsTo_disjunction (.of_ok disjunction)
      (.of_grip (show close.kind.grip ≤ 0 from closes ▸ Nat.le_refl 0))
  have enclosed : ctx.ReadsEnclosed start (some (.parameter p))
      ((start.moveTo close (next :: rest)).moveTo next rest) :=
    of_inside opens behind inside (Nat.le_succ _) closes rfl noSuffix
  exact enclosed

/-- The tokens of a name in parentheses. -/
def enclosedName (name : String) (position : Nat) : List Token :=
  [⟨.openParen, "(", position⟩, ⟨.identifier, name, position + 1⟩,
    ⟨.closeParen, ")", position + 2⟩]

theorem ReadsEnclosed.of_enclosedName {params : List Parameter} {p : Parameter} {session : Session}
    {next : Token} {position : Nat} (names : ctx.Names params) (isParam : p ∈ params)
    (noSuffix : next.kind.opensSuffix = false) :
    ctx.ReadsEnclosed (session.moveTo ⟨.openParen, "(", position⟩
        ((enclosedName p.name position).tail ++ next :: rest)) (some (.parameter p))
      (session.moveTo next rest) :=
  .of_name names isParam rfl rfl rfl rfl noSuffix

end Enclosed

section Whole

/-- A text is read as a whole expression, as deep as expressions may be nested if they may be deeper
than there are tokens left. -/
def ReadsWhole (ctx : CompileContext) (start : Session) (outcome : Option Expr) (stop : Session) :
    Prop :=
  ∀ depth, start.rest.length < depth → ReadsTo (ctx.expression depth) start outcome stop

theorem ReadsEnclosed.readsWhole (enclosed : ctx.ReadsEnclosed start outcome stop)
    (ends : EndsExpression stop.current) : ctx.ReadsWhole start outcome stop :=
  fun _ enough => enclosed.whole ends enough

/-- A text compiles to an expression, as deep as expressions may be nested if they may be deeper
than there are tokens left. -/
def CompilesTo (ctx : CompileContext) (start : Session) (e : Expr) : Prop :=
  ∀ depth, start.rest.length < depth → ∃ stop, ctx.expression depth start = .ok e stop

theorem ReadsWhole.compilesTo_iff {e : Expr} (reads : ctx.ReadsWhole start outcome stop) :
    ctx.CompilesTo start e ↔ outcome = some e :=
  ⟨fun compiles => (reads _ (Nat.lt_succ_self _)).exists_iff.mp (compiles _ (Nat.lt_succ_self _)),
    fun isOutcome depth enough => (reads depth enough).exists_iff.mpr isOutcome⟩

end Whole

end CompileContext

/-- The state before a text that starts with a parenthesis, where nothing is `it`. -/
def Session.outside (tokens : List Token) : Session :=
  ⟨⟨.openParen, "(", 0⟩, tokens, none, .of (.outermost none), .empty, .initial⟩

theorem Session.start_outside {params : List Parameter} {text : String} {tokens : List Token}
    (noElement : Session.initialElement? params = none)
    (scanned : (Scan.ofText text '.').tokens = ⟨.openParen, "(", 0⟩ :: tokens)
    (complete : (Scan.ofText text '.').failure.isNone = true) :
    Session.start (Scan.ofText text '.') params .initial = .ok (.outside tokens) := by
  rw [Session.start, scanned, Option.isNone_iff_eq_none.mp complete, noElement]
  rfl

/-- A text compiles to what is read as a whole expression up to its end. -/
theorem compileFunction_of_whole {env : Environment} {params : List Parameter} {text : String}
    {store : Store} {ctx : CompileContext} {session after : Session} {e : Expr}
    (context : CompileContext.of env params [] = .ok ctx)
    (start : Session.start (Scan.ofText text env.options.decimalSeparator) params store =
      .ok session)
    (whole : ctx.wholeExpression session = .ok e after) (isFinish : after.current.kind = .finish) :
    compileFunction env params none text [] store = (.ok (.lambda params e), after.store) := by
  have body := CompileContext.body_of_whole whole isFinish
  rw [compileFunction, compileExpr, compileText, context]
  simp only [start, body]
  rfl

end QueryTree
