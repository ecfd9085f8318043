import QueryTree.Proofs.Compile.Text
import QueryTree.Proofs.Nesting.Primary
import QueryTree.Proofs.Print.Reading
import QueryTree.Proofs.Safety.Text

/-!
# Brackets and tokens of texts

The brackets of a text that compiles, and the tokens that are left at each point of a compile.
-/

/-!
## Expressions nest their brackets

The levels of operators, and with them whole texts, pass over texts whose brackets are nested but
for those around the parts of constructions.
-/

namespace QueryTree.CompileContext

open Parse (Nests Passes)

variable {ctx : CompileContext} {isNew : String → Prop} {expression : Parse Expr}

section Levels

/-- The operators that join operands are no brackets. -/
theorem chainOperators_isPlain {operator? : Token → Option BinaryOp} {token : Token}
    {operator : BinaryOp} (isLevel : operator? ∈ chainOperators)
    (isOperator : operator? token = some operator) (text : String) :
    (token.kind.mark text).isPlain = true := by
  cases kind : token.kind with
  | openParen | closeParen | openBracket | closeBracket | openCurly | closeCurly =>
      simp only [chainOperators, List.mem_cons, List.not_mem_nil, or_false] at isLevel
      obtain rfl | rfl | rfl | rfl | rfl | rfl | rfl := isLevel
      all_goals simp [productOperator?, sumOperator?, shiftOperator?, comparisonOperator?,
        bitOperator?, andOperator?, orOperator?, kind] at isOperator
  | _ => rfl

theorem chain_nests {operand : Parse Expr} {operator? : Token → Option BinaryOp}
    {join : BinaryOp → Token → Expr → Expr → Except CompileError Expr}
    (operands : Nests isNew operand) (isLevel : operator? ∈ chainOperators) :
    Nests isNew (chain operand operator? join) := by
  have further (fuel : Nat) (left : Expr) :
      Nests isNew (chainFrom operand operator? join fuel left) := by
    intro before
    induction fuel generalizing before left with
    | zero => exact .done
    | succ fuel ih =>
        refine .look .current fun token => ?_
        split
        next => exact .done
        next operator isOperator =>
          refine .nest (.sign (fun _ start => congrArg Token.kind start.2)
            (chainOperators_separate isLevel isOperator).1
            (chainOperators_isPlain isLevel isOperator)) fun _ => ?_
          refine .nest (operands _) fun right => .look (.lift fun _ start => start) fun e => ?_
          exact ih e _
  exact fun _ => .nest (operands _) fun first => .look .tokensLeft fun fuel => further _ first _

/-- A number with its sign merged into it is what it was before. -/
theorem mergeSign_passes {op : Token} :
    Passes (fun session => session.current.kind = .integerLiteral ∨
      session.current.kind = .realLiteral) 1 (mergeSign op) fun _ _ => True := by
  refine .of_stands fun failure marks session start => ?_
  obtain ⟨⟨kind, text, position⟩, rest, failure, scopes, internals, store⟩ := session
  obtain ⟨⟨failure_eq, endsWell, marks_eq⟩, isNumber⟩ := start
  obtain rfl | rfl := isNumber
  · exact ⟨⟨failure_eq, endsWell, marks_eq⟩, trivial⟩
  · exact ⟨⟨failure_eq, endsWell, marks_eq⟩, trivial⟩

variable (nests : Nests isNew expression)
  (means : ∀ text, ctx.env.keyword? text = some .new → isNew text)

include nests means

theorem unaryFrom_nests (fuel : Nat) : Nests isNew (ctx.unaryFrom expression fuel) := by
  intro before
  induction fuel generalizing before with
  | zero => exact primary_nests nests means _
  | succ fuel ih =>
      refine .look .current fun op => ?_
      split
      next isSign =>
        have sign_kind : op.kind = .minus ∨ op.kind = .exclamation := by simpa using isSign
        have sign : op.kind ≠ .finish ∧ ∀ text, (op.kind.mark text).isPlain = true := by
          obtain isMinus | isNot := sign_kind
          · exact isMinus ▸ ⟨by decide, fun _ => rfl⟩
          · exact isNot ▸ ⟨by decide, fun _ => rfl⟩
        refine .nest (.sign (fun _ start => congrArg Token.kind start.2) sign.1 sign.2) fun _ => ?_
        refine .look .current fun next => ?_
        simp only
        split
        next merges =>
          have isNumber : next.kind = .integerLiteral ∨ next.kind = .realLiteral := by
            simp only [Bool.and_eq_true, Bool.or_eq_true, decide_eq_true_eq] at merges
            exact merges.2
          exact .look (mergeSign_passes.weaken (fun _ start => start.2 ▸ isNumber) le_rfl) fun _ =>
            primary_nests nests means _
        next => exact .nest (ih _) fun operand => .made
      next => exact primary_nests nests means _

theorem unary_nests : Nests isNew (ctx.unary expression) :=
  fun _ => .look .tokensLeft fun _ => unaryFrom_nests nests means _ _

theorem product_nests : Nests isNew (ctx.product expression) :=
  chain_nests (unary_nests nests means) (by simp [chainOperators])

theorem sum_nests : Nests isNew (ctx.sum expression) :=
  chain_nests (product_nests nests means) (by simp [chainOperators])

theorem shift_nests : Nests isNew (ctx.shift expression) :=
  chain_nests (sum_nests nests means) (by simp [chainOperators])

theorem comparison_nests : Nests isNew (ctx.comparison expression) :=
  chain_nests (shift_nests nests means) (by simp [chainOperators])

theorem bits_nests : Nests isNew (ctx.bits expression) :=
  chain_nests (comparison_nests nests means) (by simp [chainOperators])

/-- From the token before an item on, a list passes over its items and over the parenthesis that
closes it. -/
theorem itemTests_nests {op : Token} {value : Expr} (fuel : Nat) (tested : Option Expr)
    {kind : TokenKind} (opens : kind = .openParen ∨ kind = .comma) :
    Passes (fun session => session.current.kind = kind)
      ({[kind.mark ""]} * (Mark.nested isNew * {[.closing .round]}))
      (ctx.itemTests expression op value fuel tested) fun _ _ => True := by
  induction fuel generalizing tested kind with
  | zero => exact .failAt
  | succ fuel ih =>
      have separates : kind ≠ .finish ∧ ∀ text, [kind.mark text] = [kind.mark ""] := by
        obtain rfl | rfl := opens
        · exact ⟨by decide, fun _ => rfl⟩
        · exact ⟨by decide, fun _ => rfl⟩
      -- Behind the item comes the parenthesis, or a comma and further items before it: either way
      -- what stands between the item and the parenthesis is nested.
      refine .weaken (.bind (.pass (fun _ start => start) separates.1 separates.2) fun _ =>
        .bind (unary_nests nests means _) fun item => .look (.lift fun _ start => start)
          fun test => .look .check fun closed => ?_)
        (fun _ start => start) (mul_le_mul' le_rfl (Mark.nested_mul_mul_le _))
      cases closed with
      | true =>
          refine .weaken (.settle (.pass (fun _ start => beq_iff_eq.mp start.2) (by decide)
            fun _ => rfl) fun _ => .pure fun _ _ => trivial) (fun _ start => start)
            (Mark.le_nested_mul {[.closing .round]})
      | false =>
          refine .look .check fun more => ?_
          cases more with
          | true =>
              refine (ih _ (.inr rfl)).weaken (fun _ start => beq_iff_eq.mp start.2) ?_
              exact (mul_le_mul' (Mark.plain_le_nested rfl) le_rfl).trans
                (Mark.nested_mul_mul_le _)
          | false => exact .failHere

theorem membershipFrom_nests {value : Expr} (fuel : Nat) (tested : Expr) :
    Nests isNew (ctx.membershipFrom expression value fuel tested) := by
  intro before
  induction fuel generalizing before tested with
  | zero => exact .done
  | succ fuel ih =>
      refine .look .current fun op => ?_
      split
      next isIn =>
        refine .nest (.sign (fun _ start => start.2 ▸ isWord_kind isIn) (by decide) fun _ => rfl)
          fun _ => .look .check fun list => ?_
        cases list with
        | true =>
            refine .look .tokensLeft fun _ => ?_
            exact .nest ((itemTests_nests nests means _ none (.inl rfl)).weaken
              (fun _ start => beq_iff_eq.mp start.2) (Mark.group_le_nested .round)) fun test =>
                ih test _
        | false =>
            refine .look .check fun named => ?_
            cases named with
            | true =>
                refine .nest (primary_nests nests means _) fun sequence => ?_
                exact .look (.lift fun _ start => start) fun test => ih test _
            | false => exact .failHere
      next => exact .done

theorem membership_nests : Nests isNew (ctx.membership expression) :=
  fun _ => .nest (bits_nests nests means _) fun value => .look .tokensLeft fun _ =>
    membershipFrom_nests nests means _ value _

theorem conjunction_nests : Nests isNew (ctx.conjunction expression) :=
  chain_nests (membership_nests nests means) (by simp [chainOperators])

theorem disjunction_nests : Nests isNew (ctx.disjunction expression) :=
  chain_nests (conjunction_nests nests means) (by simp [chainOperators])

theorem arrow_nests : Nests isNew (ctx.arrow expression) := by
  intro before
  refine .nest (disjunction_nests nests means _) fun e => .look .check fun beforeArrow => ?_
  refine .look .scope fun frame => ?_
  split
  next => exact .done
  next it isElement =>
    obtain ⟨-, rfl⟩ := Option.filter_eq_some_iff.mp isElement
    refine .nest (.sign (fun _ start => beq_iff_eq.mp start.2) (by decide) fun _ => rfl) fun _ => ?_
    refine .look .current fun next => ?_
    simp only
    split
    next => exact .nest (nests _) fun body => .done
    next => exact .failHere

theorem coalescing_nests : Nests isNew (ctx.coalescing expression) := by
  intro before
  refine .nest (arrow_nests nests means _) fun left => .look .check fun more => ?_
  cases more with
  | true =>
      refine .look .position fun position => ?_
      refine .nest (.sign (fun _ start => beq_iff_eq.mp start.2) (by decide) fun _ => rfl)
        fun _ => ?_
      exact .nest (nests _) fun right => .made
  | false => exact .done

theorem conditional_nests : Nests isNew (ctx.conditional expression) := by
  intro before
  refine .look .position fun position => .nest (coalescing_nests nests means _) fun test => ?_
  refine .optional (by decide) (fun _ => rfl) (fun _ => .nest (nests _) fun ifTrue => ?_)
    fun _ => .done
  refine .nest (.expect (by decide) fun _ => .plain rfl) fun _ => ?_
  exact .nest (nests _) fun ifFalse => .made

end Levels

section Texts

variable (means : ∀ text, ctx.env.keyword? text = some .new → isNew text)

include means

theorem expression_nests (depth : Nat) : Nests isNew (ctx.expression depth) := by
  induction depth with
  | zero => exact fun _ => .failHere
  | succ depth ih => exact conditional_nests ih means

theorem wholeExpression_nests : Nests isNew ctx.wholeExpression :=
  fun _ => .look .tokensLeft fun _ => expression_nests means _ _

theorem body_nests (expected? : Option Ty) :
    Passes (fun _ => True) (Mark.nested isNew) (ctx.body expected?) fun _ => Session.AtEnd := by
  refine .look .position fun position => .nest (wholeExpression_nests means _) fun e => ?_
  have finishes {before : Session → Prop} (e : Expr) : Passes before (Mark.nested isNew) (do
      Parse.validate .finish .malformed
      return e) fun _ => Session.AtEnd :=
    .nothing (.look .validate fun _ => .pure fun _ start => start.2)
  cases expected? with
  | none => exact finishes e
  | some expected =>
      simp only
      split
      next => exact finishes _
      next => exact .failAt

omit means in
theorem direction_nests : Nests isNew direction := by
  intro before
  refine .look .current fun word => ?_
  have passes (ascending : Bool) {first second : String}
      (isWord : (word.isWord first || word.isWord second) = true) :
      Passes (fun session => before session ∧ session.current = word) (Mark.nested isNew) (do
        Parse.advance
        return ascending) fun _ _ => True := by
    have isName : word.kind = .identifier := by
      obtain isFirst | isSecond := (Bool.or_eq_true _ _).mp isWord
      · exact isWord_kind isFirst
      · exact isWord_kind isSecond
    exact .nest (.sign (fun _ start => start.2 ▸ isName) (by decide) fun _ => rfl) fun _ => .done
  split
  next isWord => exact passes true isWord
  next =>
    split
    next isWord => exact passes false isWord
    next => exact .done

theorem sortKeys_nests (fuel : Nat) (continues : Bool) :
    Nests isNew (ctx.sortKeys fuel continues) := by
  intro before
  induction fuel generalizing before continues with
  | zero => exact .done
  | succ fuel ih =>
      refine .nest (wholeExpression_nests means _) fun selector => ?_
      refine .nest (direction_nests _) fun ascending => ?_
      exact .optional (by decide) (fun _ => rfl) (fun _ => .nest (ih _ _) fun rest => .done)
        fun _ => .done

theorem ordering_nests (continues : Bool) :
    Passes (fun _ => True) (Mark.nested isNew) (ctx.ordering continues) fun _ => Session.AtEnd :=
  .look .tokensLeft fun _ => .nest (sortKeys_nests means _ _ _) fun _ =>
    .nothing (.look .validate fun _ => .pure fun _ start => start.2)

end Texts

end QueryTree.CompileContext

namespace QueryTree

/-! ## Texts nest their brackets

The brackets of a text that compiles are nested but for those around the parts of constructions, so
that the text is balanced if and only if these close with the brackets that they open with.
-/

open Mark (ClosesAlike Nested balanced rounded)

/-- A compile starts at the first token of its text. -/
theorem Session.start_stands {text : String} {separator : Char} {params : List Parameter}
    {store : Store} {session : Session}
    (outcome : Session.start (Scan.ofText text separator) params store = .ok session) :
    session.Stands (Scan.ofText text separator).failure
      ((Scan.ofText text separator).tokens.map Token.mark) := by
  have endsWell := Scan.ofText_endsWell text separator
  obtain ⟨token, rest, rfl, tokens | ⟨tokens, failure⟩⟩ := start_cases outcome
  · rw [tokens] at endsWell ⊢
    exact ⟨rfl, endsWell, rfl⟩
  · rw [tokens, failure] at endsWell
    exact absurd rfl endsWell

/-- A word means `new`. -/
def Environment.MeansNew (env : Environment) (word : String) : Prop :=
  env.keyword? word = some .new

variable {env : Environment} {params : List Parameter} {text : String} {args : List Argument}
  {store : Store}

/-- A compile that ends at the end of its text has passed over all of it. -/
theorem compileText_nested {α : Type} {isNew : String → Prop} {step : CompileContext → Parse α}
    {a : α} (passes : ∀ ctx : CompileContext, ctx.env = env →
      Parse.Passes (fun _ => True) (Mark.nested isNew) (step ctx) fun _ => Session.AtEnd)
    (outcome : (compileText env params args text step store).1 = .ok a) :
    (Scan.ofText text env.options.decimalSeparator).failure = none ∧
      Nested isNew ((Scan.ofText text env.options.decimalSeparator).tokens.map Token.mark) := by
  obtain ⟨ctx, session, after, context, start, ran⟩ := compileText_eq_ok outcome
  have reached := passes ctx (CompileContext.of_env context) _ _ session
    ⟨Session.start_stands start, trivial⟩
  rw [ran] at reached
  obtain ⟨⟨word, isNested, left, marks_eq, stands⟩, atEnd⟩ := reached
  obtain ⟨ends, rfl⟩ := stands.of_atEnd atEnd
  exact ⟨ends, marks_eq ▸ isNested.append (.plain rfl)⟩

/-- The brackets of a text that compiles, as an expression or as sort keys. Its tokens reach to its
end, and its brackets are nested but for those around the parts of constructions: taking curly
brackets for round ones it is balanced, and it is balanced if and only if the parts of each
construction stand between brackets of one kind, as in a text without constructions. -/
theorem compile_nested
    (compiles : (∃ expected? e, (compileExpr env params expected? text args store).1 = .ok e) ∨
      ∃ continues keys, (compileOrdering env params continues text args store).1 = .ok keys) :
    let scan := Scan.ofText text env.options.decimalSeparator
    let marks := scan.tokens.map Token.mark
    scan.failure = none ∧ Nested env.MeansNew marks ∧ balanced (marks.map rounded) = true ∧
      (balanced marks = true ↔ ClosesAlike env.MeansNew marks) ∧
      ((∀ word, Mark.word word ∈ marks → ¬ env.MeansNew word) → balanced marks = true) := by
  intro scan marks
  have nested : scan.failure = none ∧ Nested env.MeansNew marks := by
    obtain ⟨expected?, e, outcome⟩ | ⟨continues, keys, outcome⟩ := compiles
    · refine compileText_nested (fun ctx same => ?_) outcome
      exact CompileContext.body_nests (fun _ means => same ▸ means) expected?
    · refine compileText_nested (fun ctx same => ?_) outcome
      exact CompileContext.ordering_nests (fun _ means => same ▸ means) continues
  obtain ⟨ends, nested⟩ := nested
  refine ⟨ends, nested, nested.neutral_rounded.balanced, nested.balanced_iff, fun none => ?_⟩
  exact nested.balanced_iff.mpr (Mark.closesAlike_of_forall_word none)

section Example

/-- An integer. -/
def integerParam : List Parameter := [⟨0, "n", .int32⟩]

/-- A projection with a list and a parenthesis among its parts. -/
theorem compile_nested_projection :
    let env : Environment := .of .initial .empty .initial
    let text := "new(n as A, n in (1, (2)) as B)"
    let scan := Scan.ofText text '.'
    let marks := scan.tokens.map Token.mark
    (∃ e, (compileExpr env integerParam none text [] ⟨.empty, 1⟩).1 = .ok e) ∧
      scan.failure = none ∧ Nested env.MeansNew marks ∧ balanced (marks.map rounded) = true ∧
      (balanced marks = true ↔ ClosesAlike env.MeansNew marks) ∧
      ((∀ word, Mark.word word ∈ marks → ¬ env.MeansNew word) → balanced marks = true) := by
  obtain ⟨e, outcome, -⟩ := exists_ok_of_any
    (show (compileExpr (.of .initial .empty .initial) integerParam none
      "new(n as A, n in (1, (2)) as B)" [] ⟨.empty, 1⟩).1.toOption.any (fun _ => true) = true by
        decide +kernel)
  exact ⟨⟨e, outcome⟩, compile_nested (.inl ⟨none, e, outcome⟩)⟩

/-- A projection that begins with a round bracket and ends with a curly one compiles. -/
theorem projection_unbalanced :
    (compileExpr (.of .initial .empty .initial) integerParam none "new(n as A\x7d" []
        ⟨.empty, 1⟩).1.toOption.isSome = true ∧
      balanced ((Scan.ofText "new(n as A\x7d" '.').tokens.map Token.mark) = false := by
  decide +kernel

end Example

end QueryTree

namespace QueryTree

/-! ## Progress of a compile

The tokens from the current one on end as those of a text do, and no step of a compile leaves more
of them than there were before it.
-/

variable {α β : Type} {session after : Session}

namespace Parse

theorem bind_eq_ok_iff {step : Parse α} {next : α → Parse β} {b : β} :
    (step >>= next) session = .ok b after ↔
      ∃ a middle, step session = .ok a middle ∧ next a middle = .ok b after := by
  cases outcome : step session with
  | ok a middle =>
      rw [bind_eq outcome]
      constructor
      · intro ran
        exact ⟨a, middle, rfl, ran⟩
      · rintro ⟨_, _, same, ran⟩
        obtain ⟨rfl, rfl⟩ := EStateM.Result.ok.inj same
        exact ran
  | error error middle => simp [bind_error outcome]

theorem lift_eq_ok_iff {outcome : Except CompileError α} {a : α} :
    Parse.lift outcome session = .ok a after ↔ outcome = .ok a ∧ session = after := by
  cases outcome with
  | ok b =>
      rw [lift_eq rfl session]
      simp
  | error error => simp [lift_error rfl session]

end Parse

/-- The tokens from the current one on are the last ones of a text. -/
def Session.EndsWell (session : Session) : Prop :=
  QueryTree.EndsWell session.failure (session.current :: session.rest)

namespace Session.EndsWell

variable (endsWell : session.EndsWell)

include endsWell

theorem stands : session.Stands session.failure
    ((session.current :: session.rest).map Token.mark) :=
  ⟨rfl, endsWell, rfl⟩

/-- Behind a token that is not the last one there is a next one. -/
theorem moveTo {token : Token} {rest : List Token} (notFinish : session.current.kind ≠ .finish)
    (behind : session.rest = token :: rest) : (session.moveTo token rest).EndsWell := by
  rw [EndsWell, QueryTree.EndsWell, if_neg notFinish, behind] at endsWell
  exact endsWell

/-- Passing over a token that is not the last one makes the next one current. -/
theorem advance (notFinish : session.current.kind ≠ .finish)
    (ran : Parse.advance session = .ok () after) :
    ∃ token rest, session.rest = token :: rest ∧ after = session.moveTo token rest ∧
      (session.moveTo token rest).EndsWell := by
  cases behind : session.rest with
  | cons token rest =>
      rw [Parse.advance_eq behind] at ran
      obtain ⟨-, rfl⟩ := EStateM.Result.ok.inj ran
      exact ⟨token, rest, rfl, rfl, endsWell.moveTo notFinish behind⟩
  | nil =>
      obtain ⟨current, rest, failure, scopes, internals, store⟩ := session
      obtain rfl : rest = [] := behind
      rw [EndsWell, QueryTree.EndsWell, if_neg notFinish] at endsWell
      cases failure with
      | none => exact absurd rfl endsWell
      | some error => cases ran

/-- A step that passes over a nested text leaves no more tokens than there were before it. -/
theorem passes {isNew : String → Prop} {step : Parse α} {a : α} (nests : Parse.Nests isNew step)
    (ran : step session = .ok a after) :
    after.EndsWell ∧ after.rest.length ≤ session.rest.length := by
  have reached := nests (fun _ => True) _ _ session ⟨endsWell.stands, trivial⟩
  rw [ran] at reached
  obtain ⟨⟨word, -, left, marks_eq, stands⟩, -⟩ := reached
  refine ⟨?_, ?_⟩
  · have endsWell' := stands.endsWell
    rwa [← stands.failure_eq] at endsWell'
  · have lengths := congrArg List.length marks_eq
    rw [List.length_append, ← stands.marks_eq, List.length_map, List.length_map] at lengths
    simp only [List.length_cons] at lengths
    omega

end Session.EndsWell

/-- A compile starts before the tokens of its whole text. -/
theorem Session.start_endsWell {text : String} {separator : Char} {params : List Parameter}
    {store : Store}
    (outcome : Session.start (Scan.ofText text separator) params store = .ok session) :
    session.EndsWell := by
  have stands := Session.start_stands outcome
  rw [EndsWell, stands.failure_eq]
  exact stands.endsWell

end QueryTree
