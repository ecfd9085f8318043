import QueryTree.Proofs.Print.RoundTrip
import QueryTree.Proofs.Spelling.Primary
import QueryTree.Proofs.Token.Partition

/-!
# Spelling and layout

Two texts with tokens of the same meaning compile to the same tree, or both do not compile; and what
is wrong with a text is found inside of it.
-/

/-!
## Whole texts in two spellings

The levels of the grammar above primary expressions, and the compilation of whole texts, make the
same of two spellings of one text.
-/

namespace QueryTree

namespace CompileContext

open Parse (Alike Steady)

variable {placed : Nat → Nat → Prop} {ctx : CompileContext} {expression : Parse Expr}

section Chain

/-- Whether a token is an operator, and which one, depends on its meaning only. -/
def ReadsMeaning (operator? : Token → Option BinaryOp) : Prop :=
  ∀ token token' : Token, token.Equivalent token' → operator? token = operator? token'

/-- What is made of two operands depends on the operator's position in errors only. -/
def JoinsAlike (placed : Nat → Nat → Prop)
    (join : BinaryOp → Token → Expr → Expr → Except CompileError Expr) : Prop :=
  ∀ operator op op' left right, placed op.position op'.position →
    Outcome.Alike placed Eq (join operator op left right) (join operator op' left right)

theorem readsMeaning_of_kind {operator? : Token → Option BinaryOp}
    (byKind : ∀ token, operator? token = operator? ⟨token.kind, "", 0⟩)
    (equality : operator? ⟨.equal, "", 0⟩ = operator? ⟨.doubleEqual, "", 0⟩)
    (inequality : operator? ⟨.lessGreater, "", 0⟩ = operator? ⟨.exclamationEqual, "", 0⟩) :
    ReadsMeaning operator? := by
  intro token token' same
  rw [byKind token, byKind token']
  exact TokenKind.congr_of_normal_eq same.kind (fun kind => operator? ⟨kind, "", 0⟩) equality
    inequality

variable {operand : Parse Expr} {operator? : Token → Option BinaryOp}
  {join : BinaryOp → Token → Expr → Expr → Except CompileError Expr}

theorem chain_steady (steady : Steady placed operand) (reads : ReadsMeaning operator?)
    (joins : JoinsAlike placed join) : Steady placed (chain operand operator? join) := by
  have further (fuel : Nat) (left : Expr) :
      Steady placed (chainFrom operand operator? join fuel left) := by
    induction fuel generalizing left with
    | zero => exact fun _ => .pure rfl
    | succ fuel ih =>
        intro kinds
        refine .current fun op op' alike _ => ?_
        rw [← reads op op' alike.toEquivalent]
        split
        next => exact .pure rfl
        next operator _ =>
          refine (Parse.steady_advance _).bind fun _ => (steady _).bind fun right => ?_
          exact (Alike.lift (joins operator op op' left right alike.position)).bind fun joined =>
            ih joined _
  exact fun _ => (steady _).bind fun first => .tokensLeft fun fuel => further _ first _

theorem ofGroup_joinsAlike {group : OperatorGroup} :
    JoinsAlike placed (Expr.ofGroup ctx.env.classes group) :=
  fun _ _ _ _ _ related => Expr.ofGroup_alike related

end Chain

section Levels

/-- A minus sign becomes part of the same number in both texts. -/
theorem mergeSign_alike {op op' : Token} (related : placed op.position op'.position) :
    Alike placed (fun kind => kind = .integerLiteral ∨ kind = .realLiteral) (mergeSign op)
      (mergeSign op') Eq := by
  rintro session session' ⟨current, rest, failure, scopes, internals, store⟩ isNumber
  refine .ok rfl ⟨⟨⟨current.kind, fun keeps => ?_⟩, related, fun isString => ?_⟩, rest, failure,
    scopes, internals, store⟩
  · exact congrArg ("-" ++ ·) (current.text keeps)
  · obtain isInteger | isReal := isNumber
    · cases isInteger.symm.trans isString
    · cases isReal.symm.trans isString

variable (steady : Steady placed expression)

include steady

theorem unaryFrom_steady (fuel : Nat) : Steady placed (ctx.unaryFrom expression fuel) := by
  induction fuel with
  | zero => exact primary_steady steady
  | succ fuel ih =>
      intro kinds
      refine .current fun op op' alike _ => ?_
      simp only [← alike.kind_eq_iff .minus rfl, ← alike.kind_eq_iff .exclamation rfl]
      split
      next =>
        refine (Parse.steady_advance _).bind fun _ => .current fun token token' number _ => ?_
        simp only [← number.kind_eq_iff .integerLiteral rfl, ← number.kind_eq_iff .realLiteral rfl]
        split
        next isNumber =>
          refine ((mergeSign_alike alike.position).imp fun kind isCurrent => ?_).bind fun _ =>
            primary_steady steady _
          simpa [isCurrent] using ((Bool.and_eq_true _ _).mp isNumber).2
        next =>
          exact (ih _).bind fun operand => .lift (applySign_alike alike)
      next => exact primary_steady steady _

theorem unary_steady : Steady placed (ctx.unary expression) :=
  fun _ => .tokensLeft fun _ => unaryFrom_steady steady _ _

theorem product_steady : Steady placed (ctx.product expression) :=
  chain_steady (unary_steady steady) (readsMeaning_of_kind (fun _ => rfl) rfl rfl)
    ofGroup_joinsAlike

theorem sum_steady : Steady placed (ctx.sum expression) := by
  refine chain_steady (product_steady steady) (readsMeaning_of_kind (fun _ => rfl) rfl rfl) ?_
  intro operator op op' left right related
  simp only
  split
  next => exact Expr.sum_alike related
  next => exact Expr.difference_alike related

theorem shift_steady : Steady placed (ctx.shift expression) :=
  chain_steady (sum_steady steady) (readsMeaning_of_kind (fun _ => rfl) rfl rfl) ofGroup_joinsAlike

theorem comparison_steady : Steady placed (ctx.comparison expression) :=
  chain_steady (shift_steady steady) (readsMeaning_of_kind (fun _ => rfl) rfl rfl)
    fun _ _ _ _ _ related => Expr.comparison_alike related

theorem bits_steady : Steady placed (ctx.bits expression) := by
  refine chain_steady (comparison_steady steady) (readsMeaning_of_kind (fun _ => rfl) rfl rfl) ?_
  intro operator op op' left right related
  simp only
  split
  next => exact Expr.conjunction_alike related
  next => exact Expr.disjunction_alike related

theorem itemTests_alike {op op' : Token} (related : placed op.position op'.position)
    {kinds : TokenKind → Prop} {value : Expr} (fuel : Nat) (tested : Option Expr) :
    Alike placed kinds (ctx.itemTests expression op value fuel tested)
      (ctx.itemTests expression op' value fuel tested) Eq := by
  induction fuel generalizing kinds tested with
  | zero => exact .failAt related
  | succ fuel ih =>
      refine (Parse.steady_advance _).bind fun _ => (unary_steady steady _).bind fun item => ?_
      refine (Alike.lift (Expr.isItem_alike related)).bind fun test => .check rfl fun closed => ?_
      cases closed with
      | true => exact (Parse.steady_advance _).bind fun _ => .pure rfl
      | false =>
          refine .check rfl fun more => ?_
          cases more with
          | true => exact ih _
          | false => exact .failHere

theorem membershipFrom_steady (value : Expr) (fuel : Nat) (tested : Expr) :
    Steady placed (ctx.membershipFrom expression value fuel tested) := by
  induction fuel generalizing tested with
  | zero => exact fun _ => .pure rfl
  | succ fuel ih =>
      intro kinds
      refine .current fun op op' alike _ => ?_
      rw [← alike.isWord_eq]
      split
      next =>
        refine (Parse.steady_advance _).bind fun _ => .check rfl fun listed => ?_
        cases listed with
        | true =>
            refine .tokensLeft fun fuel => ?_
            exact (itemTests_alike steady alike.position _ _).bind fun test => ih test _
        | false =>
            refine .check rfl fun named => ?_
            cases named with
            | true =>
                refine (primary_steady steady _).bind fun sequence => ?_
                exact (Alike.lift (Expr.isContained_alike alike.position)).bind fun test =>
                  ih test _
            | false => exact .failHere
      next => exact .pure rfl

theorem membership_steady : Steady placed (ctx.membership expression) :=
  fun _ => (bits_steady steady _).bind fun value => .tokensLeft fun _ =>
    membershipFrom_steady steady value _ value _

theorem conjunction_steady : Steady placed (ctx.conjunction expression) :=
  chain_steady (membership_steady steady)
    (readsMeaning_of_kind (fun _ => rfl) rfl rfl) ofGroup_joinsAlike

theorem disjunction_steady : Steady placed (ctx.disjunction expression) :=
  chain_steady (conjunction_steady steady)
    (readsMeaning_of_kind (fun _ => rfl) rfl rfl) ofGroup_joinsAlike

theorem arrow_steady : Steady placed (ctx.arrow expression) := by
  intro kinds
  refine (disjunction_steady steady _).bind fun e => .check rfl fun beforeArrow => ?_
  refine .scope fun frame => ?_
  split
  next => exact .pure rfl
  next it _ =>
    refine (Parse.steady_advance _).bind fun _ => .current fun token token' alike _ => ?_
    simp only [← alike.kind_eq_iff .identifier rfl, ← alike.kind_eq_iff .openParen rfl]
    split
    next => exact (steady _).bind fun body => .pure rfl
    next => exact .failHere

theorem coalescing_steady : Steady placed (ctx.coalescing expression) := by
  intro kinds
  refine (arrow_steady steady _).bind fun left => .check rfl fun coalesces => ?_
  cases coalesces with
  | true =>
      refine .position fun position position' related => (Parse.steady_advance _).bind fun _ => ?_
      exact (steady _).bind fun right => .lift (Expr.orElseValue_alike related)
  | false => exact .pure rfl

theorem conditional_steady : Steady placed (ctx.conditional expression) := by
  intro kinds
  refine .position fun position position' related => ?_
  refine (coalescing_steady steady _).bind fun test => .check rfl fun asked => ?_
  cases asked with
  | true =>
      refine (Parse.steady_advance _).bind fun _ => (steady _).bind fun ifTrue => ?_
      exact (Parse.steady_expect rfl _).bind fun _ => (steady _).bind fun ifFalse =>
        .lift (Expr.choose_alike related)
  | false => exact .pure rfl

end Levels

section Text

theorem expression_steady (depth : Nat) : Steady placed (ctx.expression depth) := by
  induction depth with
  | zero => exact fun _ => .failHere
  | succ depth ih => exact conditional_steady ih

theorem wholeExpression_steady : Steady placed ctx.wholeExpression :=
  fun _ => .tokensLeft fun fuel => expression_steady (fuel + 2) _

theorem body_steady (expected? : Option Ty) : Steady placed (ctx.body expected?) := by
  intro kinds
  refine .position fun position position' related => (wholeExpression_steady _).bind fun e => ?_
  have finish (e : Expr) : Steady placed (do Parse.validate .finish .malformed; return e) :=
    fun _ => (Parse.steady_validate rfl _).bind fun _ => .pure rfl
  split
  next => exact finish e _
  next expected =>
    split
    next e _ => exact finish e _
    next => exact .failAt related

theorem direction_steady : Steady placed direction := by
  intro kinds
  refine .current fun word word' alike _ => ?_
  simp only [← alike.isWord_eq]
  split
  next => exact (Parse.steady_advance _).bind fun _ => .pure rfl
  next =>
    split
    next => exact (Parse.steady_advance _).bind fun _ => .pure rfl
    next => exact .pure rfl

theorem sortKeys_steady (fuel : Nat) (continues : Bool) :
    Steady placed (ctx.sortKeys fuel continues) := by
  induction fuel generalizing continues with
  | zero => exact fun _ => .pure rfl
  | succ fuel ih =>
      intro kinds
      refine (wholeExpression_steady _).bind fun selector => (direction_steady _).bind fun _ => ?_
      refine .check rfl fun more => ?_
      cases more with
      | true =>
          exact (Parse.steady_advance _).bind fun _ => (ih _ _).bind fun rest => .pure rfl
      | false => exact .pure rfl

theorem ordering_steady (continues : Bool) : Steady placed (ctx.ordering continues) :=
  fun _ => .tokensLeft fun fuel => (sortKeys_steady (fuel + 1) continues _).bind fun _ =>
    (Parse.steady_validate rfl _).bind fun _ => .pure rfl

end Text

end CompileContext

end QueryTree

namespace QueryTree

open Parse (Steady)

variable {placed : Nat → Nat → Prop}

section Text

/-- Two scans whose tokens are alike, and which go on alike behind them. -/
structure Scan.Alike (placed : Nat → Nat → Prop) (scan scan' : Scan) : Prop where
  tokens : List.Forall₂ (Token.Alike placed) scan.tokens scan'.tokens
  failure : Option.Rel (fun error error' => placed error.position error'.position)
    scan.failure scan'.failure

/-- The states in front of two scans are alike. -/
theorem Session.start_alike {scan scan' : Scan} (alike : scan.Alike placed scan')
    (origin : placed 0 0) (params : List Parameter) (store : Store) :
    Outcome.Alike placed (Session.Alike placed) (Session.start scan params store)
      (Session.start scan' params store) := by
  obtain ⟨tokens, failure⟩ := scan
  obtain ⟨tokens', failure'⟩ := scan'
  obtain ⟨tokens, failure⟩ := alike
  simp only at tokens failure
  cases tokens with
  | cons first rest => exact .ok ⟨first, rest, failure, rfl, rfl, rfl⟩
  | nil =>
      cases failure with
      | some related => exact .error related
      | none =>
          refine .ok ⟨⟨⟨rfl, fun _ => rfl⟩, origin, fun isString => ?_⟩, .nil, .none, rfl, rfl, rfl⟩
          cases isString

/-- Names that are defined twice are refused at the start of the text. -/
theorem CompileContext.of_error_position {env : Environment} {params : List Parameter}
    {args : List Argument} {error : CompileError}
    (refused : CompileContext.of env params args = .error error) : error.position = 0 := by
  have folded {entries held : List (String × Symbol)}
      (refused : foldSymbols env.options held entries = .error error) : error.position = 0 := by
    induction entries generalizing held with
    | nil => cases refused
    | cons entry rest ih =>
        simp only [foldSymbols] at refused
        split at refused
        next =>
          obtain rfl := Except.error.inj refused
          rfl
        next => exact ih refused
  obtain refused | ⟨_, -, made⟩ := bind_eq_error_iff.mp refused
  · exact folded refused
  · cases made

/-- A step that makes the same of two spellings makes the same of two texts. -/
theorem compileText_alike {α : Type} {env : Environment} {params : List Parameter}
    {args : List Argument} {text text' : String} {step : CompileContext → Parse α} {store : Store}
    (steady : ∀ ctx, Steady placed (step ctx)) (origin : placed 0 0)
    (scans : (Scan.ofText text env.options.decimalSeparator).Alike placed
      (Scan.ofText text' env.options.decimalSeparator)) :
    Outcome.Alike placed Eq (compileText env params args text step store).1
        (compileText env params args text' step store).1 ∧
      (compileText env params args text step store).2 =
        (compileText env params args text' step store).2 := by
  unfold compileText
  cases context : CompileContext.of env params args with
  | error error =>
      refine ⟨.error ?_, rfl⟩
      rw [CompileContext.of_error_position context]
      exact origin
  | ok ctx =>
      have starts := Session.start_alike scans origin params store
      simp only
      generalize Session.start (Scan.ofText text env.options.decimalSeparator) params store =
        outcome at starts
      generalize Session.start (Scan.ofText text' env.options.decimalSeparator) params store =
        outcome' at starts
      cases starts with
      | error related => exact ⟨.error related, rfl⟩
      | @ok session session' alike =>
          have ends := steady ctx (fun _ => True) session session' alike trivial
          simp only
          generalize step ctx session = result at ends
          generalize step ctx session' = result' at ends
          cases ends with
          | ok same after => exact ⟨.ok same, after.store⟩
          | error related after => exact ⟨.error related, after.store⟩

variable {env : Environment} {params : List Parameter} {args : List Argument} {text text' : String}
  {store : Store} (origin : placed 0 0)
  (scans : (Scan.ofText text env.options.decimalSeparator).Alike placed
    (Scan.ofText text' env.options.decimalSeparator))

include origin scans

theorem compileExpr_alike (expected? : Option Ty) :
    Outcome.Alike placed Eq (compileExpr env params expected? text args store).1
        (compileExpr env params expected? text' args store).1 ∧
      (compileExpr env params expected? text args store).2 =
        (compileExpr env params expected? text' args store).2 :=
  compileText_alike (fun _ => CompileContext.body_steady expected?) origin scans

theorem compileFunction_alike (expected? : Option Ty) :
    Outcome.Alike placed Eq (compileFunction env params expected? text args store).1
        (compileFunction env params expected? text' args store).1 ∧
      (compileFunction env params expected? text args store).2 =
        (compileFunction env params expected? text' args store).2 := by
  obtain ⟨bodies, stores⟩ := compileExpr_alike origin scans expected?
  exact ⟨bodies.map_eq, stores⟩

theorem compileOrdering_alike (continues : Bool) :
    Outcome.Alike placed Eq (compileOrdering env params continues text args store).1
        (compileOrdering env params continues text' args store).1 ∧
      (compileOrdering env params continues text args store).2 =
        (compileOrdering env params continues text' args store).2 :=
  compileText_alike (fun _ => CompileContext.ordering_steady continues) origin scans

end Text

section Spelling

instance (token token' : Token) : Decidable (token.Equivalent token') :=
  decidable_of_iff (token.kind.normal = token'.kind.normal ∧
      (token.kind.keepsText = true → token.text = token'.text))
    ⟨fun same => ⟨same.1, same.2⟩, fun same => ⟨same.kind, same.text⟩⟩

/-- Two texts with tokens of the same meaning, wherever these stand in them and however operators
are written, compile to the same function and to the same sort keys, down to the numbers of their
parameters and record types, or both do not compile. -/
theorem compile_respelled {env : Environment} {params : List Parameter} {args : List Argument}
    {text text' : String} {store : Store}
    (tokens : List.Forall₂ Token.Equivalent (Scan.ofText text env.options.decimalSeparator).tokens
      (Scan.ofText text' env.options.decimalSeparator).tokens)
    (failure : (Scan.ofText text env.options.decimalSeparator).failure.isSome =
      (Scan.ofText text' env.options.decimalSeparator).failure.isSome) :
    (∀ expected?,
      (compileFunction env params expected? text args store).1.toOption =
          (compileFunction env params expected? text' args store).1.toOption ∧
        (compileFunction env params expected? text args store).2 =
          (compileFunction env params expected? text' args store).2) ∧
      ∀ continues,
        (compileOrdering env params continues text args store).1.toOption =
            (compileOrdering env params continues text' args store).1.toOption ∧
          (compileOrdering env params continues text args store).2 =
            (compileOrdering env params continues text' args store).2 := by
  have scans : (Scan.ofText text env.options.decimalSeparator).Alike (fun _ _ => True)
      (Scan.ofText text' env.options.decimalSeparator) := by
    refine ⟨tokens.imp fun _ _ same => ⟨same, trivial, fun _ _ _ => trivial⟩, ?_⟩
    revert failure
    cases (Scan.ofText text env.options.decimalSeparator).failure <;>
      cases (Scan.ofText text' env.options.decimalSeparator).failure <;> simp
  constructor
  · intro expected?
    obtain ⟨outcomes, stores⟩ := compileFunction_alike trivial scans expected?
    exact ⟨outcomes.toOption_eq, stores⟩
  · intro continues
    obtain ⟨outcomes, stores⟩ := compileOrdering_alike trivial scans continues
    exact ⟨outcomes.toOption_eq, stores⟩

theorem compile_respelled_difference :
    let compiled := compileFunction plainEnvironment shapeParams none
    (compiled "w = h and not(f) or w<>h" [] .initial).1.toOption =
        (compiled "w==h\t&&!( f )|| w != h" [] .initial).1.toOption ∧
      (compiled "w = h and not(f) or w<>h" [] .initial).1.toOption.isSome = true := by
  have tokens : List.Forall₂ Token.Equivalent
      (Scan.ofText "w = h and not(f) or w<>h" plainEnvironment.options.decimalSeparator).tokens
      (Scan.ofText "w==h\t&&!( f )|| w != h" plainEnvironment.options.decimalSeparator).tokens := by
    decide +kernel
  exact ⟨((compile_respelled tokens (by decide +kernel)).1 none).1, by decide +kernel⟩

end Spelling

section Position

/-- What is wrong with a text, or with the names it is compiled with, is found at a position of the
text or at its end. -/
theorem compile_error_inside (env : Environment) (params : List Parameter) (args : List Argument)
    (text : String) (store : Store) :
    (∀ expected? error, (compileExpr env params expected? text args store).1 = .error error →
        error.position ≤ text.length) ∧
      (∀ expected? error, (compileFunction env params expected? text args store).1 = .error error →
        error.position ≤ text.length) ∧
      ∀ continues error, (compileOrdering env params continues text args store).1 = .error error →
        error.position ≤ text.length := by
  have scans : (Scan.ofText text env.options.decimalSeparator).Alike
      (fun position _ => position ≤ text.length)
      (Scan.ofText text env.options.decimalSeparator) := by
    obtain ⟨tokens, failure⟩ := Cursor.ofText_inside text env.options.decimalSeparator
    constructor
    · refine List.forall₂_same.mpr fun token member => ⟨⟨rfl, fun _ => rfl⟩, ?_, ?_⟩
      · exact (Nat.le_add_right ..).trans (tokens token member)
      · intro _ offset bound
        exact (Nat.add_le_add_left bound _).trans (tokens token member)
    · revert failure
      cases (Scan.ofText text env.options.decimalSeparator).failure <;> simp
  have origin : 0 ≤ text.length := Nat.zero_le _
  refine ⟨fun expected? error failed => ?_, fun expected? error failed => ?_,
    fun continues error failed => ?_⟩
  · obtain ⟨_, -, inside⟩ := (failed ▸ (compileExpr_alike origin scans expected?).1).of_error
    exact inside
  · obtain ⟨_, -, inside⟩ := (failed ▸ (compileFunction_alike origin scans expected?).1).of_error
    exact inside
  · obtain ⟨_, -, inside⟩ := (failed ▸ (compileOrdering_alike origin scans continues).1).of_error
    exact inside

theorem compile_error_inside_open :
    (∃ error, (compileExpr plainEnvironment shapeParams none "w *" [] .initial).1 = .error error ∧
        error.position ≤ 3) ∧
      (∃ error, (compileFunction plainEnvironment shapeParams none "w.x" [] .initial).1 =
          .error error ∧ error.position ≤ 3) ∧
      ∃ error, (compileOrdering plainEnvironment shapeParams false "w 'h" [] .initial).1 =
          .error error ∧ error.position ≤ 4 := by
  obtain ⟨missing, failed⟩ := exists_error_of_isNone
    (show (compileExpr plainEnvironment shapeParams none "w *" [] .initial).1.toOption.isNone =
      true by decide +kernel)
  obtain ⟨unknown, failed'⟩ := exists_error_of_isNone
    (show (compileFunction plainEnvironment shapeParams none "w.x" [] .initial).1.toOption.isNone =
      true by decide +kernel)
  obtain ⟨unended, failed''⟩ := exists_error_of_isNone
    (show (compileOrdering plainEnvironment shapeParams false "w 'h" [] .initial).1.toOption.isNone
      = true by decide +kernel)
  exact ⟨⟨missing, failed, (compile_error_inside _ _ _ _ _).1 _ _ failed⟩,
    ⟨unknown, failed', (compile_error_inside _ _ _ _ _).2.1 _ _ failed'⟩,
    ⟨unended, failed'', (compile_error_inside _ _ _ _ _).2.2 _ _ failed''⟩⟩

end Position

end QueryTree
