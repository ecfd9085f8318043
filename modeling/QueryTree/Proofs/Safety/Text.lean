import QueryTree.Proofs.Compile.Built
import QueryTree.Proofs.Compile.Text
import QueryTree.Proofs.Safety.Operator
import QueryTree.Proofs.Safety.Token

/-!
# Texts of operators do not go wrong

Texts of operators build safe expressions, and what is compiled from them yields values of its type.
-/

/-!
## Levels of the grammar

Each level of the grammar, at the start of an operand in a text of operators, reads a safe
expression and stops behind an operand.
-/

namespace QueryTree

theorem Literal.IsLiteral.safeIn {values : EvalContext} {e : Expr} (isLiteral : IsLiteral e) :
    e.SafeIn values := by
  obtain ⟨value, text, rfl, isValue⟩ := isLiteral
  rw [Literal.constant]
  cases value with
  | char | string | integral | single | double | decimal =>
      exact .constant rfl (Value.HasKind.conformsTo ⟨rfl, BEq.rfl⟩)
  | _ => cases isValue

namespace CompileContext

open Parse (Reaches)

variable {ctx : CompileContext} {isUsable : String → Bool} {values : EvalContext}
  {expression : Parse Expr}

/-- The names that can be used are constant words, `iif`, `isnull`, and parameters with values of
their types. -/
def Knows (ctx : CompileContext) (isUsable : String → Bool) (values : EvalContext) : Prop :=
  ∀ name, isUsable name = true →
    match ctx.env.keyword? name with
    | some keyword => keyword.isOperatorWord = true
    | none => ∃ p, ctx.symbols.lookup (ctx.env.options.fold name) = some (.parameter p) ∧
        (Expr.parameter p).SafeIn values

/-- The state behind an operand that is safe. -/
def BehindSafe (isUsable : String → Bool) (values : EvalContext) (e : Expr) (session : Session) :
    Prop :=
  e.SafeIn values ∧ session.Ready isUsable true

/-- At the start of an operand a step reads a safe expression. -/
abbrev ReadsSafe (isUsable : String → Bool) (values : EvalContext) (step : Parse Expr) : Prop :=
  Reaches (Session.Ready isUsable false) step (BehindSafe isUsable values)

/-- After an operand has been read, a step starts behind it. -/
theorem bind_safe {α : Type} {before : Session → Prop} {first : Parse Expr} {next : Expr → Parse α}
    {reached : α → Session → Prop} (reads : Reaches before first (BehindSafe isUsable values))
    (continues : ∀ e : Expr, e.SafeIn values →
      Reaches (Session.Ready isUsable true) (next e) reached) :
    Reaches before (first >>= next) reached :=
  .bind reads fun e session start => continues e start.1 session start.2

/-- What is made of safe operands is safe if it is whenever it is made. -/
theorem lift_safe {outcome : Except CompileError Expr}
    (safe : ∀ e, outcome = .ok e → e.SafeIn values) :
    Reaches (Session.Ready isUsable true) (Parse.lift outcome) (BehindSafe isUsable values) :=
  .lift fun e _ made ready => ⟨safe e made, ready⟩

section Primary

theorem literalToken_reads {read : Token → Except CompileError Expr} {token : Token}
    (isLiteral : token.kind = .stringLiteral ∨ token.kind = .integerLiteral ∨
      token.kind = .realLiteral)
    (literal : ∀ token e, read token = .ok e → Literal.IsLiteral e) :
    Reaches (fun session => session.Ready isUsable false ∧ session.current = token)
      (literalToken read) (BehindSafe isUsable values) := by
  refine .bind .current fun current => ?_
  have reads : Reaches (fun session => (session.Ready isUsable false ∧
      session.current = token) ∧ session.current = current) (Parse.lift (read current))
      fun e session => e.SafeIn values ∧ session.Ready isUsable false ∧
        session.current.kind = token.kind :=
    .lift fun e _ made start =>
      ⟨(literal current e made).safeIn, start.1.1, congrArg Token.kind start.1.2⟩
  refine .bind reads fun e => .of_known (fun _ start => start.1) fun safe => ?_
  have literal_ends : token.kind ≠ .finish ∧ token.kind.endsOperand false = true := by
    obtain isText | isInteger | isReal := isLiteral
    · simp [isText, TokenKind.endsOperand]
    · simp [isInteger, TokenKind.endsOperand]
    · simp [isReal, TokenKind.endsOperand]
  refine .bind (.advance (fun _ start => start.2) literal_ends.1) fun _ => ?_
  rw [literal_ends.2]
  exact .pure fun _ ready => ⟨safe, ready⟩

variable (reads : ReadsSafe isUsable values expression)

/-- The state behind operands that are safe. -/
def BehindAll (isUsable : String → Bool) (values : EvalContext) (es : List Expr)
    (session : Session) : Prop :=
  (∀ e ∈ es, e.SafeIn values) ∧ session.Ready isUsable true

include reads

theorem commaList_reads : Reaches (Session.Ready isUsable false) (Parse.commaList expression)
    (BehindAll isUsable values) := by
  have further (fuel : Nat) : Reaches (Session.Ready isUsable true)
      (Parse.commaList.go expression fuel) (BehindAll isUsable values) := by
    induction fuel with
    | zero => exact .pure fun _ ready => ⟨by simp, ready⟩
    | succ fuel ih =>
        refine .bind .check fun more => ?_
        cases more with
        | true =>
            refine .bind (.advance (fun _ start => ⟨start.1, beq_iff_eq.mp start.2⟩) (by decide))
              fun _ => bind_safe reads fun e safe => ?_
            refine .bind ih fun es => .of_known (fun _ start => start.1) fun safes => ?_
            exact .pure fun _ start => ⟨List.forall_mem_cons.mpr ⟨safe, safes⟩, start.2⟩
        | false => exact .pure fun _ start => ⟨by simp, start.1⟩
  refine bind_safe reads fun e safe => .bind .tokensLeft fun fuel => ?_
  refine .bind (further (fuel + 1)) fun es => .of_known (fun _ start => start.1) fun safes => ?_
  exact .pure fun _ start => ⟨List.forall_mem_cons.mpr ⟨safe, safes⟩, start.2⟩

/-- The arguments after the name of a function. -/
theorem functionArguments_reads :
    Reaches (fun session => session.Ready isUsable false ∧ session.current.kind = .identifier)
      (functionArguments expression) (BehindAll isUsable values) := by
  refine .bind (.advance (fun _ start => start) (by decide)) fun _ => ?_
  have closes (after : Bool) {es : List Expr} (safes : ∀ e ∈ es, e.SafeIn values) :
      Reaches (Session.Ready isUsable after) (do
        Parse.expect .closeParen (.expected .closeParenOrComma)
        return es) (BehindAll isUsable values) :=
    .bind (.expect (by decide)) fun _ => .pure fun _ ready => ⟨safes, ready⟩
  refine .bind (.expect (by decide)) fun _ => .bind .check fun closed => ?_
  cases closed with
  | true =>
      exact (closes false (by simp)).weaken fun _ start => start.1
  | false =>
      refine .bind ((commaList_reads reads).weaken fun _ start => start.1) fun es => ?_
      refine .of_known (fun _ start => start.1) fun safes => ?_
      exact (closes true safes).weaken fun _ start => start.2

theorem iifFunction_reads :
    Reaches (fun session => session.Ready isUsable false ∧ session.current.kind = .identifier)
      (ctx.iifFunction expression) (BehindSafe isUsable values) := by
  refine .bind .position fun position => .bind (functionArguments_reads reads) fun args => ?_
  refine .of_known (fun _ start => start.1) fun safes => ?_
  split
  next test ifTrue ifFalse =>
    have made (e : Expr)
        (outcome : Expr.choose ctx.env.classes position test ifTrue ifFalse = .ok e) :
        e.SafeIn values :=
      .choose (safes test (by simp)) (safes ifTrue (by simp)) (safes ifFalse (by simp)) outcome
    exact (lift_safe made).weaken fun _ start => start.2
  next => exact .failAt

theorem isnullFunction_reads :
    Reaches (fun session => session.Ready isUsable false ∧ session.current.kind = .identifier)
      (ctx.isnullFunction expression) (BehindSafe isUsable values) := by
  refine .bind .position fun position => .bind (functionArguments_reads reads) fun args => ?_
  refine .of_known (fun _ start => start.1) fun safes => ?_
  split
  next left right =>
    have made (e : Expr)
        (outcome : Expr.orElseValue ctx.env.classes position left right = .ok e) :
        e.SafeIn values :=
      .orElseValue (safes left (by simp)) (safes right (by simp)) outcome
    exact (lift_safe made).weaken fun _ start => start.2
  next => exact .failAt

theorem keyword_reads {keyword : Keyword} (isWord : keyword.isOperatorWord = true) :
    Reaches (fun session => session.Ready isUsable false ∧ session.current.kind = .identifier)
      (ctx.keyword expression keyword) (BehindSafe isUsable values) := by
  cases keyword with
  | iif => exact iifFunction_reads reads
  | isnull => exact isnullFunction_reads reads
  | constant value =>
      refine .bind (.advance (fun _ start => start) (by decide)) fun _ => ?_
      cases value with
      | null => exact .pure fun _ ready => ⟨.nullOf rfl rfl, ready⟩
      | boolean b =>
          have conforms : (Value.boolean b).conformsTo .boolean = true :=
            Value.boolean_conformsTo rfl b
          exact .pure fun _ ready => ⟨.constant rfl conforms, ready⟩
      | _ => cases isWord
  | _ => cases isWord

theorem name_reads (knows : ctx.Knows isUsable values) :
    Reaches (fun session => session.Ready isUsable false ∧ session.current.kind = .identifier)
      (ctx.name expression) (BehindSafe isUsable values) := by
  refine .bind .current fun token => .bind .scope fun frame => ?_
  have usable (session : Session) (start : (session.Ready isUsable false ∧
      session.current.kind = .identifier) ∧ session.current = token) :
      isUsable token.text = true :=
    start.2 ▸ start.1.1.isUsable_name start.1.2
  refine .of_known usable fun isUsable_text => ?_
  have meaning := knows token.text isUsable_text
  cases isKeyword : ctx.env.keyword? token.text with
  | some keyword =>
      rw [isKeyword] at meaning
      have visible : ctx.visibleKeyword? frame token.text = some keyword := by
        rw [visibleKeyword?]
        rw [isKeyword]
        cases keyword with
        | type => cases meaning
        | _ => rfl
      simp only [visible]
      exact (keyword_reads reads meaning).weaken fun _ start => start.1
  | none =>
      rw [isKeyword] at meaning
      obtain ⟨p, found, safe⟩ := meaning
      have hidden : ctx.visibleKeyword? frame token.text = none := by
        rw [visibleKeyword?, isKeyword, Option.filter_none]
      simp only [hidden]
      refine .bind .get fun session => ?_
      have symbol : ctx.symbol? session.internals (ctx.env.options.fold token.text) =
          some (.parameter p) := by
        simp [symbol?, found]
      simp only [symbol]
      refine .bind (.advance (fun _ start => start.1) (by decide)) fun _ => ?_
      exact .pure fun _ ready => ⟨safe, ready⟩

theorem atom_reads (knows : ctx.Knows isUsable values) :
    ReadsSafe isUsable values (ctx.atom expression) := by
  refine .bind .current fun token => ?_
  split
  next isName =>
    exact (name_reads reads knows).weaken fun _ start => ⟨start.1, start.2 ▸ isName⟩
  next isText => exact literalToken_reads (.inl isText) fun _ _ => Literal.quoted_isLiteral
  next isInteger =>
    exact literalToken_reads (.inr (.inl isInteger)) fun _ _ => Literal.integer_isLiteral
  next isReal =>
    exact literalToken_reads (.inr (.inr isReal)) fun _ _ => Literal.real_isLiteral
  next isOpen =>
    refine .bind (.advance (fun _ start => ⟨start.1, start.2 ▸ isOpen⟩) (by decide)) fun _ => ?_
    refine bind_safe reads fun e safe => .bind (.expect (by decide)) fun _ => ?_
    exact .pure fun _ ready => ⟨safe, ready⟩
  next => exact .failHere

omit reads in
theorem suffixes_reads {e : Expr} (safe : e.SafeIn values) (fuel : Nat) :
    Reaches (Session.Ready isUsable true) (ctx.suffixes expression fuel e)
      (BehindSafe isUsable values) := by
  cases fuel with
  | zero => exact .pure fun _ ready => ⟨safe, ready⟩
  | succ fuel =>
      refine .bind .current fun token => ?_
      have excluded (session : Session) (start : session.Ready isUsable true ∧
          session.current = token) : token.kind ≠ .dot ∧ token.kind ≠ .openBracket := by
        obtain ⟨ready, rfl⟩ := start
        exact ⟨ready.excludes (.inl rfl), ready.excludes (.inr (.inl rfl))⟩
      refine .of_known excluded fun others => ?_
      obtain ⟨notDot, notOpen⟩ := others
      split
      next isDot => exact absurd isDot notDot
      next isOpen => exact absurd isOpen notOpen
      next => exact .failHere
      next => exact .pure fun _ start => ⟨safe, start.1⟩

theorem primary_reads (knows : ctx.Knows isUsable values) :
    ReadsSafe isUsable values (ctx.primary expression) :=
  bind_safe (atom_reads reads knows) fun _ safe => .bind .tokensLeft fun _ => suffixes_reads safe _

end Primary

section Levels

variable (reads : ReadsSafe isUsable values expression) (knows : ctx.Knows isUsable values)

/-- The operators of all levels at which operands are joined from the left. -/
def chainOperators : List (Token → Option BinaryOp) :=
  [productOperator?, sumOperator?, shiftOperator?, comparisonOperator?, bitOperator?,
    andOperator?, orOperator?]

/-- After an operator comes an operand. -/
theorem chainOperators_separate {operator? : Token → Option BinaryOp} {token : Token}
    {operator : BinaryOp} (isLevel : operator? ∈ chainOperators)
    (isOperator : operator? token = some operator) :
    token.kind ≠ .finish ∧ token.kind.endsOperand true = false := by
  cases kind : token.kind with
  | identifier | stringLiteral | integerLiteral | realLiteral | closeParen | finish =>
      simp only [chainOperators, List.mem_cons, List.not_mem_nil, or_false] at isLevel
      obtain rfl | rfl | rfl | rfl | rfl | rfl | rfl := isLevel
      all_goals simp [productOperator?, sumOperator?, shiftOperator?, comparisonOperator?,
        bitOperator?, andOperator?, orOperator?, kind] at isOperator
  | _ => exact ⟨by decide, rfl⟩

theorem chain_reads {operand : Parse Expr} {operator? : Token → Option BinaryOp}
    {join : BinaryOp → Token → Expr → Expr → Except CompileError Expr}
    (operands : ReadsSafe isUsable values operand) (isLevel : operator? ∈ chainOperators)
    (joins : ∀ operator token (left right e : Expr), operator? token = some operator →
      left.SafeIn values → right.SafeIn values → join operator token left right = .ok e →
      e.SafeIn values) :
    ReadsSafe isUsable values (chain operand operator? join) := by
  have further (fuel : Nat) {left : Expr} (left_safe : left.SafeIn values) :
      Reaches (Session.Ready isUsable true) (chainFrom operand operator? join fuel left)
        (BehindSafe isUsable values) := by
    induction fuel generalizing left with
    | zero => exact .pure fun _ ready => ⟨left_safe, ready⟩
    | succ fuel ih =>
        refine .bind .current fun token => ?_
        split
        next => exact .pure fun _ start => ⟨left_safe, start.1⟩
        next operator isOperator =>
          obtain ⟨notFinish, separates⟩ := chainOperators_separate isLevel isOperator
          refine .bind (.advance (fun _ start => ⟨start.1, congrArg Token.kind start.2⟩)
            notFinish) fun _ => ?_
          rw [separates]
          refine bind_safe operands fun right right_safe => ?_
          have made (e : Expr) (outcome : join operator token left right = .ok e) :
              e.SafeIn values :=
            joins operator token left right e isOperator left_safe right_safe outcome
          exact bind_safe (lift_safe made) fun e safe => ih safe
  exact bind_safe operands fun first safe => .bind .tokensLeft fun _ => further _ safe

/-- A number with its sign merged into it still starts an operand. -/
theorem mergeSign_reaches {op number : Token}
    (isNumber : number.kind = .integerLiteral ∨ number.kind = .realLiteral) :
    Reaches (fun session => session.Ready isUsable false ∧ session.current = number)
      (mergeSign op) fun _ session => session.Ready isUsable false := by
  rintro session ⟨ready, rfl⟩
  rw [Session.Ready, usesOperators] at ready
  change usesOperators isUsable false ({ session.current with
    text := "-" ++ session.current.text, position := op.position } :: session.rest) = true
  rw [usesOperators]
  obtain isInteger | isReal := isNumber
  · rw [isInteger] at ready ⊢
    exact ready
  · rw [isReal] at ready ⊢
    exact ready

include reads knows

theorem unaryFrom_reads (fuel : Nat) :
    ReadsSafe isUsable values (ctx.unaryFrom expression fuel) := by
  induction fuel with
  | zero => exact primary_reads reads knows
  | succ fuel ih =>
      refine .bind .current fun op => ?_
      split
      next isSign =>
        have sign_kind : op.kind = .minus ∨ op.kind = .exclamation := by simpa using isSign
        have separates : op.kind ≠ .finish ∧ op.kind.endsOperand false = false := by
          obtain isMinus | isNot := sign_kind
          · exact isMinus ▸ ⟨by decide, rfl⟩
          · exact isNot ▸ ⟨by decide, rfl⟩
        refine .bind (.advance (fun _ start => ⟨start.1, congrArg Token.kind start.2⟩)
          separates.1) fun _ => ?_
        rw [separates.2]
        refine .bind .current fun next => ?_
        simp only
        split
        next merges =>
          have isNumber : next.kind = .integerLiteral ∨ next.kind = .realLiteral := by
            simp only [Bool.and_eq_true, Bool.or_eq_true, decide_eq_true_eq] at merges
            exact merges.2
          exact .bind (mergeSign_reaches isNumber) fun _ => primary_reads reads knows
        next =>
          refine bind_safe (ih.weaken fun _ start => start.1) fun operand safe => ?_
          exact lift_safe fun e => safe.sign
      next => exact (primary_reads reads knows).weaken fun _ start => start.1

theorem unary_reads : ReadsSafe isUsable values (ctx.unary expression) :=
  .bind .tokensLeft fun _ => unaryFrom_reads reads knows _

theorem product_reads : ReadsSafe isUsable values (ctx.product expression) := by
  refine chain_reads (unary_reads reads knows) (by simp [chainOperators]) ?_
  intro operator token left right e isOperator left_safe right_safe outcome
  obtain ⟨l, r, rfl, l_safe, r_safe, inGroup⟩ := left_safe.ofGroup right_safe outcome
  exact l_safe.product_inGroup isOperator r_safe inGroup

theorem sum_reads : ReadsSafe isUsable values (ctx.sum expression) := by
  refine chain_reads (product_reads reads knows) (by simp [chainOperators]) ?_
  intro operator token left right e isOperator left_safe right_safe outcome
  split at outcome
  next => exact left_safe.sum right_safe outcome
  next => exact left_safe.difference right_safe outcome

theorem shift_reads : ReadsSafe isUsable values (ctx.shift expression) := by
  refine chain_reads (sum_reads reads knows) (by simp [chainOperators]) ?_
  intro operator token left right e isOperator left_safe right_safe outcome
  obtain ⟨l, r, rfl, l_safe, r_safe, inGroup⟩ := left_safe.ofGroup right_safe outcome
  exact l_safe.shift_inGroup isOperator r_safe inGroup

theorem comparison_reads : ReadsSafe isUsable values (ctx.comparison expression) := by
  refine chain_reads (shift_reads reads knows) (by simp [chainOperators]) ?_
  intro operator token left right e isOperator left_safe right_safe outcome
  exact .compare isOperator left_safe right_safe outcome

theorem bits_reads : ReadsSafe isUsable values (ctx.bits expression) := by
  refine chain_reads (comparison_reads reads knows) (by simp [chainOperators]) ?_
  intro operator token left right e isOperator left_safe right_safe outcome
  split at outcome
  next => exact left_safe.conjunction right_safe outcome
  next => exact left_safe.disjunction right_safe outcome

theorem itemTests_reads {op : Token} {value : Expr} (value_safe : value.SafeIn values)
    (fuel : Nat) {tested : Option Expr} {after : Bool} {kind : TokenKind}
    (before : ∀ e ∈ tested, e.SafeIn values ∧ e.type = .boolean)
    (opens : kind = .openParen ∨ kind = .comma) :
    Reaches (fun session => session.Ready isUsable after ∧ session.current.kind = kind)
      (ctx.itemTests expression op value fuel tested) (BehindSafe isUsable values) := by
  induction fuel generalizing tested after kind with
  | zero => exact .failAt
  | succ fuel ih =>
      have separates : kind ≠ .finish ∧ kind.endsOperand after = false := by
        obtain rfl | rfl := opens
        · exact ⟨by decide, rfl⟩
        · exact ⟨by decide, rfl⟩
      refine .bind (.advance (fun _ start => start) separates.1) fun _ => ?_
      rw [separates.2]
      refine bind_safe (unary_reads reads knows) fun item item_safe => ?_
      have lifted : Reaches (Session.Ready isUsable true)
          (Parse.lift (Expr.isItem ctx.env.classes op value item)) fun test session =>
            (test.SafeIn values ∧ test.type = .boolean) ∧ session.Ready isUsable true :=
        .lift fun test _ outcome ready => ⟨value_safe.isItem item_safe outcome, ready⟩
      refine .bind lifted fun test => ?_
      refine .of_known (fun _ start => start.1) fun isTest => ?_
      obtain ⟨test_safe, truth⟩ := isTest
      have joined : (joinTest tested test).SafeIn values ∧
          (joinTest tested test).type = .boolean := by
        cases tested with
        | none => exact ⟨test_safe, truth⟩
        | some earlier =>
            obtain ⟨earlier_safe, earlier_truth⟩ := before earlier rfl
            exact ⟨.logical (.inr rfl) rfl earlier_truth truth earlier_safe test_safe, rfl⟩
      refine .bind (.weaken .check fun _ start => start.2) fun closed => ?_
      cases closed with
      | true =>
          refine .bind (.advance (fun _ start => ⟨start.1, beq_iff_eq.mp start.2⟩) (by decide))
            fun _ => ?_
          exact .pure fun _ ready => ⟨joined.1, ready⟩
      | false =>
          refine .bind (.weaken .check fun _ start => start.1) fun more => ?_
          cases more with
          | true =>
              refine (ih (fun e isTested => ?_) (.inr rfl)).weaken fun _ start =>
                ⟨start.1, beq_iff_eq.mp start.2⟩
              exact Option.some.inj isTested ▸ joined
          | false => exact .failHere

theorem membership_reads : ReadsSafe isUsable values (ctx.membership expression) := by
  refine bind_safe (bits_reads reads knows) fun value value_safe => .bind .tokensLeft fun left => ?_
  have further (fuel : Nat) {tested : Expr} (safe : tested.SafeIn values) :
      Reaches (Session.Ready isUsable true) (ctx.membershipFrom expression value fuel tested)
        (BehindSafe isUsable values) := by
    induction fuel generalizing tested with
    | zero => exact .pure fun _ ready => ⟨safe, ready⟩
    | succ fuel ih =>
        refine .bind .current fun op => ?_
        split
        next isIn =>
          have isName : op.kind = .identifier :=
            beq_iff_eq.mp ((Bool.and_eq_true _ _).mp isIn).1
          refine .bind (.advance_in fun _ start => ⟨start.1, start.2 ▸ isName⟩) fun _ => ?_
          refine .bind .check fun list => ?_
          cases list with
          | true =>
              refine .bind (.weaken .tokensLeft fun _ start => start.1) fun _ => ?_
              exact bind_safe (itemTests_reads reads knows value_safe _ (by simp) (.inl rfl))
                fun _ safe => ih safe
          | false =>
              refine .of_known (fun _ start => ?_) False.elim
              rw [start.1.2] at start
              exact absurd start.2 (by decide)
        next => exact .pure fun _ start => ⟨safe, start.1⟩
  exact further _ value_safe

theorem conjunction_reads : ReadsSafe isUsable values (ctx.conjunction expression) := by
  refine chain_reads (membership_reads reads knows) (by simp [chainOperators]) ?_
  intro operator token left right e isOperator left_safe right_safe outcome
  obtain ⟨l, r, rfl, l_safe, r_safe, inGroup⟩ := left_safe.ofGroup right_safe outcome
  exact l_safe.logical_inGroup (.inl isOperator) r_safe inGroup

theorem disjunction_reads : ReadsSafe isUsable values (ctx.disjunction expression) := by
  refine chain_reads (conjunction_reads reads knows) (by simp [chainOperators]) ?_
  intro operator token left right e isOperator left_safe right_safe outcome
  obtain ⟨l, r, rfl, l_safe, r_safe, inGroup⟩ := left_safe.ofGroup right_safe outcome
  exact l_safe.logical_inGroup (.inr isOperator) r_safe inGroup

theorem arrow_reads : ReadsSafe isUsable values (ctx.arrow expression) := by
  refine bind_safe (disjunction_reads reads knows) fun e safe => .bind .check fun beforeArrow => ?_
  cases beforeArrow with
  | true =>
      have excluded (session : Session) (start : session.Ready isUsable true ∧
          (session.current.kind == .lambda) = true) : False :=
        start.1.excludes (.inr (.inr rfl)) (beq_iff_eq.mp start.2)
      exact .of_known excluded False.elim
  | false =>
      refine .bind .scope fun frame => ?_
      have noElement : (arrowElement? frame e).filter (fun _ => false) = none := by simp
      rw [noElement]
      exact .pure fun _ start => ⟨safe, start.1⟩

theorem coalescing_reads : ReadsSafe isUsable values (ctx.coalescing expression) := by
  refine bind_safe (arrow_reads reads knows) fun left left_safe => .bind .check fun more => ?_
  cases more with
  | true =>
      refine .bind .position fun position => ?_
      refine .bind (.advance (fun _ start => ⟨start.1, beq_iff_eq.mp start.2⟩) (by decide))
        fun _ => ?_
      refine bind_safe reads fun right right_safe => ?_
      exact lift_safe fun e => left_safe.orElseValue right_safe
  | false => exact .pure fun _ start => ⟨left_safe, start.1⟩

theorem conditional_reads : ReadsSafe isUsable values (ctx.conditional expression) := by
  refine .bind .position fun position => ?_
  refine bind_safe (coalescing_reads reads knows) fun test safe => .bind .check fun asked => ?_
  cases asked with
  | true =>
      refine .bind (.advance (fun _ start => ⟨start.1, beq_iff_eq.mp start.2⟩) (by decide))
        fun _ => bind_safe reads fun ifTrue true_safe => ?_
      refine .bind (.expect (by decide)) fun _ => bind_safe reads fun ifFalse false_safe => ?_
      exact lift_safe fun e => .choose safe true_safe false_safe
  | false => exact .pure fun _ start => ⟨safe, start.1⟩

end Levels

section Texts

variable (knows : ctx.Knows isUsable values)

include knows

theorem expression_reads (depth : Nat) : ReadsSafe isUsable values (ctx.expression depth) := by
  induction depth with
  | zero => exact .failHere
  | succ depth ih => exact conditional_reads ih knows

theorem wholeExpression_reads : ReadsSafe isUsable values ctx.wholeExpression :=
  .bind .tokensLeft fun _ => expression_reads knows _

/-- The value of a whole text is one of its type, or one of the type that it had before it was
converted to the type asked for. -/
theorem body_reads (expected? : Option Ty) :
    Reaches (Session.Ready isUsable false) (ctx.body expected?) fun e _ =>
      (e.evaluate values).Computes (e.Yields ctx.env.classes) := by
  refine .bind .position fun position => bind_safe (wholeExpression_reads knows) fun e safe => ?_
  have finishes {e : Expr} (yields : (e.evaluate values).Computes (e.Yields ctx.env.classes)) :
      Reaches (Session.Ready isUsable true) (do
        Parse.validate .finish .malformed
        return e) fun e _ => (e.evaluate values).Computes (e.Yields ctx.env.classes) :=
    .bind .validate fun _ => .pure fun _ _ => yields
  cases expected? with
  | none => exact finishes safe.yields
  | some expected =>
      simp only
      split
      next promoted outcome => exact finishes (safe.promoteTo outcome)
      next => exact .failAt

end Texts

end CompileContext

end QueryTree

/-!
## Whole texts

A function that is compiled from a text of operators, and called with values of the types of its
parameters, yields a value of the type of its body or fails for the numbers.
-/

namespace QueryTree

namespace EvalContext

variable {ctx : EvalContext} {p : Parameter}

/-- A parameter has a value of its type. -/
def Gives (ctx : EvalContext) (p : Parameter) : Prop :=
  ∃ value, ctx.bindings.lookup p.id = some value ∧ value.conformsTo p.type = true

theorem Gives.safeIn (gives : ctx.Gives p) (isOperand : p.type.isOperand = true) :
    (Expr.parameter p).SafeIn ctx := by
  obtain ⟨value, found, conforms⟩ := gives
  refine ⟨isOperand, ?_⟩
  rw [Expr.evaluate, lookup, found]
  exact conforms

theorem gives_bind {q : Parameter} {value : Value}
    (here : q.id = p.id → value.conformsTo p.type = true) (before : q.id ≠ p.id → ctx.Gives p) :
    (ctx.bind q value).Gives p := by
  by_cases isNew : p.id = q.id
  · exact ⟨value, by rw [bind, isNew, List.lookup_cons_self], here isNew.symm⟩
  · obtain ⟨old, found, conforms⟩ := before (Ne.symm isNew)
    refine ⟨old, ?_, conforms⟩
    rw [bind, List.lookup_cons, beq_eq_false_iff_ne.mpr isNew]
    exact found

theorem gives_bindAll {params : List Parameter} {inputs : List Value}
    (identified : ∀ q ∈ params, q.id = p.id → q = p)
    (each : List.Forall₂ (fun q value => value.conformsTo q.type = true) params inputs)
    (given : p ∈ params ∨ ctx.Gives p) : (ctx.bindAll params inputs).Gives p := by
  induction each generalizing ctx with
  | nil => simpa [bindAll] using given
  | cons conforms _ ih =>
      obtain ⟨first, others⟩ := List.forall_mem_cons.mp identified
      refine ih others ?_
      obtain isParam | before := given
      · obtain rfl | isLater := List.mem_cons.mp isParam
        · exact .inr (gives_bind (fun _ => conforms) (absurd rfl))
        · exact .inl isLater
      · exact .inr (gives_bind (fun same => first same ▸ conforms) fun _ => before)

end EvalContext

/-- The names that a text of operators can use are known once its parameters have values. -/
theorem CompileContext.of_knows {env : Environment} {params : List Parameter}
    {args : List Argument} {ctx : CompileContext} {values : EvalContext}
    (outcome : CompileContext.of env params args = .ok ctx)
    (each : ∀ p ∈ params, (Expr.parameter p).SafeIn values) :
    ctx.Knows (env.isOperatorName params) values := by
  have env_eq : ctx.env = env := of_env outcome
  intro name isUsable
  rw [Environment.isOperatorName] at isUsable
  rw [env_eq]
  cases keyword : env.keyword? name with
  | some word => rwa [keyword] at isUsable
  | none =>
      rw [keyword] at isUsable
      obtain ⟨p, isParam, named⟩ := List.any_eq_true.mp isUsable
      obtain ⟨hasName, same⟩ := (Bool.and_eq_true _ _).mp named
      obtain ⟨symbols, folded, made⟩ := bind_eq_ok_iff.mp outcome
      obtain rfl := pure_eq_ok_iff.mp made
      have isSymbol : (p.name, Symbol.parameter p) ∈
          parameterSymbols params ++ argumentSymbols 0 args :=
        List.mem_append_left _ (List.mem_map.mpr ⟨p, List.mem_filter.mpr ⟨isParam, hasName⟩, rfl⟩)
      have found := (foldSymbols_lookup folded).2 p.name _ isSymbol
      rw [show env.options.fold p.name = env.options.fold name from beq_iff_eq.mp same] at found
      exact ⟨p, found, each p isParam⟩

/-- A text of operators starts where an operand is expected. -/
theorem Session.start_ready {isUsable : String → Bool} {scan : Scan} {params : List Parameter}
    {store : Store} {session : Session} (uses : usesOperators isUsable false scan.tokens = true)
    (outcome : Session.start scan params store = .ok session) :
    session.Ready isUsable false := by
  obtain ⟨token, rest, rfl, tokens | ⟨tokens, -⟩⟩ := start_cases outcome
  · rw [tokens] at uses
    exact uses
  · rw [tokens] at uses
    cases uses

/-- A function that is compiled from a text of operators over parameters of plain types is called
with values of these types without going wrong: it yields a value of the type of its body, but for
a last conversion that keeps values, or it divides by zero or overflows. -/
theorem compileFunction_safe {env : Environment} {params : List Parameter} {expected? : Option Ty}
    {text : String} {args : List Argument} {store : Store} {e : Expr}
    (identified : ∀ p ∈ params, ∀ q ∈ params, p.id = q.id → p = q)
    (areOperands : ∀ p ∈ params, p.type.isOperand = true)
    (uses : usesOperators (env.isOperatorName params) false
      (Scan.ofText text env.options.decimalSeparator).tokens = true)
    (outcome : (compileFunction env params expected? text args store).1 = .ok e) :
    ∃ body, e = .lambda params body ∧ ∀ now inputs,
      List.Forall₂ (fun p value => value.conformsTo p.type = true) params inputs →
        (e.call now inputs).Computes (body.Yields env.classes) := by
  obtain ⟨body, rfl, compiled⟩ := compileFunction_eq_ok outcome
  refine ⟨body, rfl, fun now inputs conform => ?_⟩
  obtain ⟨ctx, session, after, context, start, ran⟩ := compileText_eq_ok compiled
  let values := (EvalContext.initial now).bindAll params inputs
  have each (p : Parameter) (isParam : p ∈ params) : (Expr.parameter p).SafeIn values := by
    have gives : values.Gives p := EvalContext.gives_bindAll
      (fun q isOther same => identified q isOther p isParam same) conform (.inl isParam)
    exact gives.safeIn (areOperands p isParam)
  have reached := CompileContext.body_reads (CompileContext.of_knows context each) expected?
    session (Session.start_ready uses start)
  rw [ran, CompileContext.of_env context] at reached
  change (Expr.applyFunction params body.evaluate (.initial now) inputs).Computes _
  rw [Expr.applyFunction, if_pos conform.length_eq]
  exact reached

/-- An integer and an integer that may be null. -/
def integerParams : List Parameter := [⟨0, "x", .int32⟩, ⟨1, "n", .nullable .int32⟩]

theorem compileFunction_safe_remainder :
    ∃ body, (compileFunction (.of .initial .empty .initial) integerParams none
        "iif(x in (1, 2), n ?? x, -x % x)" [] ⟨.empty, 2⟩).1 = .ok (.lambda integerParams body) ∧
      ∀ now, ((Expr.lambda integerParams body).call now [.int32 0, .null]).Computes
        (body.Yields .initial) := by
  obtain ⟨e, outcome, -⟩ := exists_ok_of_any
    (show (compileFunction (.of .initial .empty .initial) integerParams none
      "iif(x in (1, 2), n ?? x, -x % x)" [] ⟨.empty, 2⟩).1.toOption.any (fun _ => true) = true by
        decide +kernel)
  have identified : ∀ p ∈ integerParams, ∀ q ∈ integerParams, p.id = q.id → p = q := by
    simp [integerParams]
  have conform : List.Forall₂ (fun p value => Value.conformsTo value p.type = true) integerParams
      [.int32 0, .null] :=
    .cons (by decide) (.cons (by decide) .nil)
  obtain ⟨body, rfl, computes⟩ := compileFunction_safe identified (by decide) (by decide +kernel)
    outcome
  exact ⟨body, outcome, fun now => computes now _ conform⟩

/-- A class that declares a conversion from integers. -/
def wrapper : ClassRef := ⟨"P", none, false, 1⟩

/-- An environment in which the class with the conversion is declared. -/
def overWrapper : Environment :=
  .of .initial (.ofCustom [.cls wrapper]) #[some mathBody,
    some { ClassBody.empty with
      operators := [⟨"op_Implicit", "P", [.int32], some (.cls wrapper), true⟩] }]

/-- The type that a function converts its result to, and the parameter that it converts. -/
def conversion? : Expr → Option (Ty × Parameter)
  | .lambda _ (.convert type (.parameter p)) => some (type, p)
  | _ => none

/-- A parameter that is returned as a value of a class, by a conversion that the class declares,
stays an integer. -/
theorem declared_conversion_keeps_integer :
    usesOperators (overWrapper.isOperatorName [⟨0, "n", .int32⟩]) false
        (Scan.ofText "n" overWrapper.options.decimalSeparator).tokens = true ∧
      ∃ body, (compileFunction overWrapper [⟨0, "n", .int32⟩] (some (.cls wrapper)) "n" []
          ⟨.empty, 1⟩).1 = .ok (.lambda [⟨0, "n", .int32⟩] body) ∧
        ∀ now, (Expr.lambda [⟨0, "n", .int32⟩] body).call now [.int32 5] = .ok (.int32 5) ∧
          (Value.int32 5).conformsTo body.type = false := by
  refine ⟨by decide +kernel, ?_⟩
  obtain ⟨e, outcome, converts⟩ := exists_ok_of_any
    (show (compileFunction overWrapper [⟨0, "n", .int32⟩] (some (.cls wrapper)) "n" []
      ⟨.empty, 1⟩).1.toOption.any (fun e => (conversion? e).any fun parts =>
        parts.1 == .cls wrapper && parts.2.id == 0) = true by decide +kernel)
  obtain ⟨body, rfl, -⟩ := compileFunction_eq_ok outcome
  refine ⟨body, outcome, fun now => ?_⟩
  obtain ⟨⟨type, p⟩, isConversion, parts⟩ := (Option.any_eq_true _ _).mp converts
  obtain ⟨isWrapper, isFirst⟩ := (Bool.and_eq_true _ _).mp parts
  have body_eq : body = .convert type (.parameter p) := by
    unfold conversion? at isConversion
    split at isConversion
    next type' p' same =>
      obtain ⟨-, rfl⟩ := Expr.lambda.inj same
      obtain ⟨rfl, rfl⟩ := Prod.mk.inj (Option.some.inj isConversion)
      rfl
    next => cases isConversion
  have id_eq : p.id = 0 := beq_iff_eq.mp isFirst
  subst body_eq
  refine ⟨?_, (Value.conformsTo_same isWrapper).trans (by decide)⟩
  have unchanged : (Value.int32 5).convertTo type = .ok (.int32 5) := by
    have isOther : type.core.isNumberLike = false :=
      (Ty.isNumberLike_same (Ty.core_same isWrapper)).trans rfl
    simp [Value.convertTo_eq, isOther]
  have found : ((EvalContext.initial now).bind ⟨0, "n", .int32⟩ (.int32 5)).lookup p =
      .ok (.int32 5) := by
    rw [EvalContext.lookup, EvalContext.bind, id_eq, List.lookup_cons_self]
    rfl
  change (do
    let value ← ((EvalContext.initial now).bind ⟨0, "n", .int32⟩ (.int32 5)).lookup p
    value.convertTo type) = _
  rw [found]
  exact unchanged

end QueryTree
