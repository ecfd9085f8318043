import QueryTree.Proofs.Compile.Restoration

/-!
# Elementary steps

Every procedure of the grammar is put together from a few elementary steps: it looks at the state,
goes on to the next token, makes a parameter or a record type, or runs another step in a scope or
with a name for an element.  What each of these keeps is kept by a whole compile, whether it
succeeds or fails.
-/

namespace QueryTree

namespace Parse

/-- A step that is put together from elementary ones. -/
inductive Elementary : {α : Type} → Parse α → Prop where
  | pure {α : Type} (a : α) : Elementary (Pure.pure a : Parse α)
  | throw {α : Type} (error : CompileError) : Elementary (MonadExcept.throw error : Parse α)
  | get : Elementary (MonadState.get : Parse Session)
  | advance : Elementary advance
  | mergeSign (op : Token) : Elementary (CompileContext.mergeSign op)
  | newParameter (name : String) (type : Ty) : Elementary (newParameter name type)
  | recordType (names : List String) (types : List Ty) : Elementary (recordType names types)
  | bind {α β : Type} {step : Parse α} {next : α → Parse β} (first : Elementary step)
      (second : ∀ a, Elementary (next a)) : Elementary (step >>= next)
  | withScope {α : Type} {frame : ScopeFrame} {step : Parse α} (inside : Elementary step) :
      Elementary (withScope frame step)
  | withInternal {α : Type} {key : String} {element : Parameter} {step : Parse α}
      (inside : Elementary step) : Elementary (withInternal key element step)

namespace Elementary

variable {α : Type} {step other : Parse α}

theorem ite {p : Prop} [Decidable p] (holds : Elementary step) (fails : Elementary other) :
    Elementary (if p then step else other) := by
  split
  next => exact holds
  next => exact fails

theorem lift (outcome : Except CompileError α) : Elementary (Parse.lift outcome) := by
  cases outcome with
  | ok a => exact pure a
  | error error => exact throw error

theorem failAt {position : Nat} {fault : CompileFault} :
    Elementary (Parse.failAt position fault : Parse α) :=
  throw _

theorem current : Elementary Parse.current := get.bind fun _ => pure _

theorem position : Elementary Parse.position := current.bind fun _ => pure _

theorem check {kind : TokenKind} : Elementary (Parse.check kind) := current.bind fun _ => pure _

theorem checkWord {word : String} : Elementary (Parse.checkWord word) :=
  current.bind fun _ => pure _

theorem tokensLeft : Elementary Parse.tokensLeft := get.bind fun _ => pure _

theorem scope : Elementary Parse.scope := get.bind fun _ => pure _

theorem failHere {fault : CompileFault} : Elementary (Parse.failHere fault : Parse α) :=
  position.bind fun _ => failAt

theorem validate {kind : TokenKind} {fault : CompileFault} :
    Elementary (Parse.validate kind fault) :=
  check.bind fun _ => .ite (pure ()) failHere

theorem expect {kind : TokenKind} {fault : CompileFault} : Elementary (Parse.expect kind fault) :=
  validate.bind fun _ => advance

theorem identifier : Elementary Parse.identifier :=
  validate.bind fun _ => current.bind fun _ => pure _

theorem commaListFrom (item : Elementary step) (fuel : Nat) :
    Elementary (Parse.commaList.go step fuel) := by
  induction fuel with
  | zero => exact pure []
  | succ fuel rest =>
      refine check.bind fun _ => .ite ?_ (pure [])
      exact advance.bind fun _ => item.bind fun _ => rest.bind fun _ => pure _

theorem commaList (item : Elementary step) : Elementary (Parse.commaList step) :=
  item.bind fun _ => tokensLeft.bind fun fuel =>
    (item.commaListFrom (fuel + 1)).bind fun _ => pure _

theorem argumentList {expression : Parse Expr} (nested : Elementary expression) :
    Elementary (Parse.argumentList expression) := by
  have close (args : List Expr) : Elementary
      (do Parse.expect .closeParen (.expected .closeParenOrComma); return args) :=
    expect.bind fun _ => pure args
  exact expect.bind fun _ => check.bind fun _ => .ite (close []) (nested.commaList.bind close)

end Elementary

end Parse

namespace CompileContext

open Parse (Elementary)

variable {ctx : CompileContext} {expression : Parse Expr}

/-! ## Primary expressions -/

theorem typeArgument_elementary {function : String} {position : Nat} {arg : Expr} :
    Elementary (ctx.typeArgument function position arg) := by
  rw [typeArgument]
  split
  next =>
    refine .bind .scope fun _ => ?_
    split
    next => exact .pure _
    next => exact .failAt
  next => exact .pure _
  next => exact .failAt

theorem parseCall_elementary (nested : Elementary expression) {operation : Aggregate}
    {source : Expr} {element : Ty} {name : String} {position : Nat} :
    Elementary (operation.parseCall ctx expression source element name position) := by
  refine .bind (.newParameter _ _) fun _ => .bind .scope fun _ => ?_
  refine .bind (.withScope nested.argumentList) fun _ => ?_
  split
  next =>
    split
    next => exact .bind typeArgument_elementary fun _ => .pure _
    next => exact .bind typeArgument_elementary fun _ => .pure _
    next =>
      split
      next => exact .pure _
      next => exact .failAt
  next => exact .failAt

theorem memberAccess_elementary (nested : Elementary expression) {receiver : Receiver} :
    Elementary (ctx.memberAccess expression receiver) := by
  refine .bind .position fun _ => .bind .identifier fun _ => .bind .advance fun _ => ?_
  refine .bind .scope fun _ => .bind .check fun _ => ?_
  split
  next => exact .withInternal (.bind .advance fun _ => nested)
  next =>
    refine .bind .check fun _ => .ite ?_ (.lift _)
    split
    next => exact parseCall_elementary nested
    next => exact .bind nested.argumentList fun _ => .lift _

theorem elementAccess_elementary (nested : Elementary expression) {e : Expr} :
    Elementary (ctx.elementAccess expression e) :=
  .bind .position fun _ => .bind .expect fun _ => .bind nested.commaList fun _ =>
    .bind .expect fun _ => .lift _

theorem nullableMark_elementary {type : Ty} : Elementary (nullableMark type) :=
  .bind .check fun _ =>
    .ite (.ite .failHere (.bind .advance fun _ => .pure _)) (.pure type)

theorem typeAccess_elementary (nested : Elementary expression) {type : Ty} :
    Elementary (ctx.typeAccess expression type) := by
  refine .bind .position fun _ => .bind nullableMark_elementary fun _ => ?_
  refine .bind .check fun _ => .ite ?_ (.bind .check fun _ => .ite ?_ ?_)
  · exact .bind .current fun _ => .bind (.lift _) fun _ => .bind .advance fun _ => .lift _
  · exact .bind nested.argumentList fun _ => .lift _
  · refine .bind .check fun _ => .ite ?_ (.pure _)
    exact .bind .advance fun _ => memberAccess_elementary nested

theorem functionCall_elementary (nested : Elementary expression) {function : Expr}
    {params : List Ty} {result : Ty} :
    Elementary (ctx.functionCall expression function params result) := by
  refine .bind .position fun _ => .bind nested.argumentList fun _ => .ite .failAt ?_
  split
  next => exact .pure _
  next => exact .failAt

theorem newItem_elementary (nested : Elementary expression) {naming : ItemNaming} :
    Elementary (NewItem.parse expression naming) := by
  refine .bind .position fun _ => .bind nested fun _ => .ite (.pure _) ?_
  refine .bind .checkWord fun _ => .ite ?_ (.ite (.pure _) ?_)
  · exact .bind .advance fun _ => .bind .identifier fun _ => .bind .advance fun _ => .pure _
  · split
    next => exact .pure _
    next => exact .failAt

theorem atEnd_elementary : Elementary NewItem.atEnd := by
  refine .bind .check fun closed => ?_
  cases closed with
  | true => exact .pure true
  | false => exact .bind .check fun _ => .pure _

theorem newItems_elementary (nested : Elementary expression) {naming : ItemNaming} (fuel : Nat) :
    Elementary (NewItem.parseAll expression naming fuel) := by
  induction fuel with
  | zero => exact .pure []
  | succ fuel ih =>
      refine .bind atEnd_elementary fun _ => .ite (.pure []) ?_
      refine .bind (newItem_elementary nested) fun _ => .bind .check fun _ => .ite ?_ (.pure _)
      exact .bind .advance fun _ => .bind ih fun _ => .pure _

theorem qualifiedRest_elementary (fuel : Nat) (name : String) :
    Elementary (qualifiedRest fuel name) := by
  induction fuel generalizing name with
  | zero => exact .pure name
  | succ fuel ih =>
      refine .bind .check fun _ => .ite ?_ (.pure name)
      exact .bind .advance fun _ => .bind .identifier fun _ => .bind .advance fun _ => ih _

theorem newType_elementary {position : Nat} : Elementary (ctx.newType? position) := by
  refine .bind .check fun _ => .ite ?_ (.pure none)
  refine .bind .current fun _ => .bind .advance fun _ => .bind .tokensLeft fun _ => ?_
  refine .bind (qualifiedRest_elementary _ _) fun _ => .bind .scope fun _ => ?_
  split
  next => exact .failAt
  next => exact .bind .current fun _ => .ite (.pure _) .failHere

theorem arrayMark_elementary : Elementary arrayMark := by
  refine .bind .check fun _ => .ite ?_ (.pure false)
  exact .bind .advance fun _ => .bind .expect fun _ => .bind .validate fun _ => .pure true

theorem projection_elementary {items : List NewItem} : Elementary (ctx.projection items) := by
  rw [projection]
  simp only
  split
  next => exact .bind (.pure _) fun _ => .pure _
  next => exact .bind (.recordType _ _) fun _ => .pure _

theorem constructed_elementary {type? : Option Ty} {isArray : Bool} {position : Nat}
    {items : List NewItem} : Elementary (ctx.constructed type? isArray position items) := by
  refine .ite (.lift _) ?_
  split
  next => exact .failAt
  next =>
    cases type? with
    | none => exact projection_elementary
    | some type => exact .lift _

theorem constructionBody_elementary (nested : Elementary expression) {position : Nat} :
    Elementary (ctx.constructionBody expression position) := by
  refine .bind newType_elementary fun _ => .bind arrayMark_elementary fun _ => ?_
  refine .bind .advance fun _ => .bind .tokensLeft fun _ => ?_
  refine .bind (newItems_elementary nested _) fun _ => .bind atEnd_elementary fun _ => ?_
  exact .ite (.bind .advance fun _ => constructed_elementary) .failHere

theorem construction_elementary (nested : Elementary expression) :
    Elementary (ctx.construction expression) :=
  .bind .advance fun _ => .bind .position fun _ => .bind .current fun _ =>
    .ite (constructionBody_elementary nested) .failHere

theorem functionArguments_elementary (nested : Elementary expression) :
    Elementary (functionArguments expression) :=
  .bind .advance fun _ => nested.argumentList

theorem iifFunction_elementary (nested : Elementary expression) :
    Elementary (ctx.iifFunction expression) := by
  refine .bind .position fun _ => .bind (functionArguments_elementary nested) fun _ => ?_
  split
  next => exact .lift _
  next => exact .failAt

theorem isnullFunction_elementary (nested : Elementary expression) :
    Elementary (ctx.isnullFunction expression) := by
  refine .bind .position fun _ => .bind (functionArguments_elementary nested) fun _ => ?_
  split
  next => exact .lift _
  next => exact .failAt

theorem npFunction_elementary (nested : Elementary expression) :
    Elementary (ctx.npFunction expression) := by
  refine .bind .position fun _ => .bind (functionArguments_elementary nested) fun _ => ?_
  split
  next => exact .ite (.lift _) .failAt
  next => exact .ite (.lift _) .failAt
  next => exact .failAt

theorem typeTestFunction_elementary (nested : Elementary expression) {test : TypeTest} :
    Elementary (ctx.typeTestFunction expression test) := by
  refine .bind .position fun position => ?_
  have finish (target arg : Expr) : Elementary (do
      let wanted ← ctx.typeArgument test.word position arg
      let type ← Parse.lift (typeTestType test wanted position)
      return Expr.typeTest type target wanted test) :=
    .bind typeArgument_elementary fun _ => .bind (.lift _) fun _ => .pure _
  refine .bind (functionArguments_elementary nested) fun _ => ?_
  split
  next =>
    refine .bind .scope fun _ => ?_
    split
    next => exact finish _ _
    next => exact .failAt
  next => exact finish _ _
  next => exact .failAt

theorem contextParameter_elementary {name : ContextName} :
    Elementary (contextParameter name) := by
  refine .bind .scope fun _ => ?_
  simp only
  split
  next => exact .bind .advance fun _ => .pure _
  next => exact .failHere

theorem keyword_elementary (nested : Elementary expression) {keyword : Keyword} :
    Elementary (ctx.keyword expression keyword) := by
  cases keyword with
  | context name => exact contextParameter_elementary
  | iif => exact iifFunction_elementary nested
  | isnull => exact isnullFunction_elementary nested
  | new => exact construction_elementary nested
  | nullPropagation => exact npFunction_elementary nested
  | typeTest test => exact typeTestFunction_elementary nested
  | type t => exact .bind .advance fun _ => typeAccess_elementary nested
  | constant value => exact .bind .advance fun _ => .pure _

theorem symbolExpr_elementary (nested : Elementary expression) {symbol : Symbol} :
    Elementary (ctx.symbolExpr expression symbol) := by
  unfold symbolExpr
  split
  next => exact .pure _
  next => exact typeAccess_elementary nested
  next => exact .pure _
  next =>
    split
    next => exact .bind .check fun _ => .ite (functionCall_elementary nested) (.pure _)
    next => exact .pure _

theorem name_elementary (nested : Elementary expression) :
    Elementary (ctx.name expression) := by
  refine .bind .current fun _ => .bind .scope fun _ => ?_
  split
  next => exact keyword_elementary nested
  next =>
    refine .bind .get fun _ => ?_
    split
    next => exact .bind .advance fun _ => symbolExpr_elementary nested
    next =>
      split
      next => exact memberAccess_elementary nested
      next => exact .failHere

theorem literalToken_elementary {read : Token → Except CompileError Expr} :
    Elementary (literalToken read) :=
  .bind .current fun _ => .bind (.lift _) fun _ => .bind .advance fun _ => .pure _

theorem atom_elementary (nested : Elementary expression) : Elementary (ctx.atom expression) := by
  refine .bind .current fun _ => ?_
  split
  next => exact name_elementary nested
  next => exact literalToken_elementary
  next => exact literalToken_elementary
  next => exact literalToken_elementary
  next =>
    exact .bind .advance fun _ => .bind nested fun _ => .bind .expect fun _ => .pure _
  next => exact .failHere

theorem suffixes_elementary (nested : Elementary expression) (fuel : Nat) (e : Expr) :
    Elementary (ctx.suffixes expression fuel e) := by
  induction fuel generalizing e with
  | zero => exact .pure e
  | succ fuel ih =>
      refine .bind .current fun _ => ?_
      split
      next =>
        exact .bind .advance fun _ => .bind (memberAccess_elementary nested) fun _ => ih _
      next => exact .bind (elementAccess_elementary nested) fun _ => ih _
      next => exact .failHere
      next => exact .pure e

theorem primary_elementary (nested : Elementary expression) :
    Elementary (ctx.primary expression) :=
  .bind (atom_elementary nested) fun e => .bind .tokensLeft fun _ =>
    suffixes_elementary nested _ e

/-! ## Operators -/

section Chain

variable {operand : Parse Expr} {operator? : Token → Option BinaryOp}
  {join : BinaryOp → Token → Expr → Expr → Except CompileError Expr}

theorem chainFrom_elementary (next : Elementary operand) (fuel : Nat) (left : Expr) :
    Elementary (chainFrom operand operator? join fuel left) := by
  induction fuel generalizing left with
  | zero => exact .pure left
  | succ fuel ih =>
      refine .bind .current fun _ => ?_
      split
      next => exact .pure left
      next => exact .bind .advance fun _ => .bind next fun _ => .bind (.lift _) fun _ => ih _

theorem chain_elementary (next : Elementary operand) : Elementary (chain operand operator? join) :=
  .bind next fun first => .bind .tokensLeft fun _ => chainFrom_elementary next _ first

end Chain

theorem unaryFrom_elementary (nested : Elementary expression) (fuel : Nat) :
    Elementary (ctx.unaryFrom expression fuel) := by
  induction fuel with
  | zero => exact primary_elementary nested
  | succ fuel ih =>
      refine .bind .current fun op => .ite ?_ (primary_elementary nested)
      refine .bind .advance fun _ => .bind .current fun _ => .ite ?_ ?_
      · exact .bind (.mergeSign op) fun _ => primary_elementary nested
      · exact .bind ih fun _ => .lift _

theorem unary_elementary (nested : Elementary expression) : Elementary (ctx.unary expression) :=
  .bind .tokensLeft fun _ => unaryFrom_elementary nested _

theorem product_elementary (nested : Elementary expression) :
    Elementary (ctx.product expression) :=
  chain_elementary (unary_elementary nested)

theorem sum_elementary (nested : Elementary expression) : Elementary (ctx.sum expression) :=
  chain_elementary (product_elementary nested)

theorem shift_elementary (nested : Elementary expression) : Elementary (ctx.shift expression) :=
  chain_elementary (sum_elementary nested)

theorem comparison_elementary (nested : Elementary expression) :
    Elementary (ctx.comparison expression) :=
  chain_elementary (shift_elementary nested)

theorem bits_elementary (nested : Elementary expression) : Elementary (ctx.bits expression) :=
  chain_elementary (comparison_elementary nested)

theorem itemTests_elementary (nested : Elementary expression) {op : Token} {value : Expr}
    (fuel : Nat) (tested : Option Expr) :
    Elementary (ctx.itemTests expression op value fuel tested) := by
  induction fuel generalizing tested with
  | zero => exact .failAt
  | succ fuel ih =>
      refine .bind .advance fun _ => .bind (unary_elementary nested) fun _ => ?_
      refine .bind (.lift _) fun _ => .bind .check fun _ => .ite ?_ ?_
      · exact .bind .advance fun _ => .pure _
      · exact .bind .check fun _ => .ite (ih _) .failHere

theorem membershipFrom_elementary (nested : Elementary expression) {value : Expr} (fuel : Nat)
    (tested : Expr) : Elementary (ctx.membershipFrom expression value fuel tested) := by
  induction fuel generalizing tested with
  | zero => exact .pure tested
  | succ fuel ih =>
      refine .bind .current fun _ => .ite ?_ (.pure tested)
      refine .bind .advance fun _ => .bind .check fun _ => .ite ?_ ?_
      · exact .bind .tokensLeft fun _ => .bind (itemTests_elementary nested _ none) fun _ => ih _
      · refine .bind .check fun _ => .ite ?_ .failHere
        exact .bind (primary_elementary nested) fun _ => .bind (.lift _) fun _ => ih _

theorem membership_elementary (nested : Elementary expression) :
    Elementary (ctx.membership expression) :=
  .bind (bits_elementary nested) fun value => .bind .tokensLeft fun _ =>
    membershipFrom_elementary nested _ value

theorem conjunction_elementary (nested : Elementary expression) :
    Elementary (ctx.conjunction expression) :=
  chain_elementary (membership_elementary nested)

theorem disjunction_elementary (nested : Elementary expression) :
    Elementary (ctx.disjunction expression) :=
  chain_elementary (conjunction_elementary nested)

/-! ## Whole texts -/

theorem arrow_elementary (nested : Elementary expression) : Elementary (ctx.arrow expression) := by
  refine .bind (disjunction_elementary nested) fun _ => .bind .check fun _ => ?_
  refine .bind .scope fun _ => ?_
  split
  next => exact .pure _
  next =>
    refine .bind .advance fun _ => .bind .current fun _ => .ite ?_ .failHere
    exact .bind nested fun _ => .pure _

theorem coalescing_elementary (nested : Elementary expression) :
    Elementary (ctx.coalescing expression) := by
  refine .bind (arrow_elementary nested) fun _ => .bind .check fun _ => .ite ?_ (.pure _)
  exact .bind .position fun _ => .bind .advance fun _ => .bind nested fun _ => .lift _

theorem conditional_elementary (nested : Elementary expression) :
    Elementary (ctx.conditional expression) := by
  refine .bind .position fun _ => .bind (coalescing_elementary nested) fun _ => ?_
  refine .bind .check fun _ => .ite ?_ (.pure _)
  exact .bind .advance fun _ => .bind nested fun _ => .bind .expect fun _ =>
    .bind nested fun _ => .lift _

theorem expression_elementary (depth : Nat) : Elementary (ctx.expression depth) := by
  induction depth with
  | zero => exact .failHere
  | succ depth ih => exact conditional_elementary ih

theorem wholeExpression_elementary : Elementary ctx.wholeExpression :=
  .bind .tokensLeft fun _ => expression_elementary _

theorem body_elementary {expected? : Option Ty} : Elementary (ctx.body expected?) := by
  have finish (e : Expr) : Elementary (do Parse.validate .finish .malformed; return e) :=
    .bind .validate fun _ => .pure e
  refine .bind .position fun _ => .bind wholeExpression_elementary fun e => ?_
  cases expected? with
  | none => exact finish e
  | some expected =>
      simp only
      split
      next e' _ => exact .bind (.pure e') finish
      next => exact .bind .failAt finish

theorem direction_elementary : Elementary direction :=
  .bind .current fun _ => .ite (.bind .advance fun _ => .pure true)
    (.ite (.bind .advance fun _ => .pure false) (.pure true))

theorem sortKeys_elementary (fuel : Nat) (continues : Bool) :
    Elementary (ctx.sortKeys fuel continues) := by
  induction fuel generalizing continues with
  | zero => exact .pure []
  | succ fuel ih =>
      refine .bind wholeExpression_elementary fun _ => .bind direction_elementary fun _ => ?_
      refine .bind .check fun _ => .ite ?_ (.pure _)
      exact .bind .advance fun _ => .bind (ih true) fun _ => .pure _

theorem ordering_elementary {continues : Bool} : Elementary (ctx.ordering continues) :=
  .bind .tokensLeft fun _ => .bind (sortKeys_elementary _ continues) fun _ =>
    .bind .validate fun _ => .pure _

/-- Every procedure of the grammar is put together from elementary steps. -/
theorem Procedure.elementary {α : Type} {step : Parse α} (procedure : ctx.Procedure step) :
    Elementary step := by
  have nested (depth : Nat) : Elementary (ctx.expression depth) := expression_elementary depth
  cases procedure with
  | body => exact body_elementary
  | ordering => exact ordering_elementary
  | sortKeys fuel continues => exact sortKeys_elementary fuel continues
  | direction => exact direction_elementary
  | wholeExpression => exact wholeExpression_elementary
  | expression depth => exact nested depth
  | conditional depth => exact conditional_elementary (nested depth)
  | coalescing depth => exact coalescing_elementary (nested depth)
  | arrow depth => exact arrow_elementary (nested depth)
  | disjunction depth => exact disjunction_elementary (nested depth)
  | conjunction depth => exact conjunction_elementary (nested depth)
  | membership depth => exact membership_elementary (nested depth)
  | membershipFrom depth fuel value tested =>
      exact membershipFrom_elementary (nested depth) fuel tested
  | itemTests depth fuel op value tested _ => exact itemTests_elementary (nested depth) fuel tested
  | bits depth => exact bits_elementary (nested depth)
  | comparison depth => exact comparison_elementary (nested depth)
  | shift depth => exact shift_elementary (nested depth)
  | sum depth => exact sum_elementary (nested depth)
  | product depth => exact product_elementary (nested depth)
  | unary depth => exact unary_elementary (nested depth)
  | unaryFrom depth fuel => exact unaryFrom_elementary (nested depth) fuel
  | primary depth => exact primary_elementary (nested depth)
  | suffixes depth fuel e => exact suffixes_elementary (nested depth) fuel e
  | atom depth => exact atom_elementary (nested depth)
  | name depth => exact name_elementary (nested depth)
  | symbolExpr depth => exact symbolExpr_elementary (nested depth)
  | keyword depth => exact keyword_elementary (nested depth)
  | contextParameter => exact contextParameter_elementary
  | iifFunction depth => exact iifFunction_elementary (nested depth)
  | isnullFunction depth => exact isnullFunction_elementary (nested depth)
  | npFunction depth => exact npFunction_elementary (nested depth)
  | typeTestFunction depth => exact typeTestFunction_elementary (nested depth)
  | functionArguments depth => exact functionArguments_elementary (nested depth)
  | construction depth => exact construction_elementary (nested depth)
  | constructionBody depth => exact constructionBody_elementary (nested depth)
  | constructed => exact constructed_elementary
  | newItems depth fuel => exact newItems_elementary (nested depth) fuel
  | newItem depth => exact newItem_elementary (nested depth)
  | newType => exact newType_elementary
  | qualifiedRest fuel name => exact qualifiedRest_elementary fuel name
  | arrayMark => exact arrayMark_elementary
  | projection => exact projection_elementary
  | typeAccess depth => exact typeAccess_elementary (nested depth)
  | nullableMark => exact nullableMark_elementary
  | typeArgument => exact typeArgument_elementary
  | functionCall depth => exact functionCall_elementary (nested depth)
  | elementAccess depth => exact elementAccess_elementary (nested depth)
  | memberAccess depth => exact memberAccess_elementary (nested depth)
  | namedBody depth => exact .withInternal (.bind .advance fun _ => nested depth)
  | sequenceCall depth => exact parseCall_elementary (nested depth)
  | scopedArguments depth => exact .withScope (nested depth).argumentList
  | argumentList depth => exact (nested depth).argumentList
  | commaList depth => exact (nested depth).commaList

end CompileContext

end QueryTree
