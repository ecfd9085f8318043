import QueryTree.Compile.Primary
import QueryTree.Proofs.Cutting.Step
import QueryTree.Proofs.Projection.Reading

/-!
# Primary expressions up to a comma

The procedures of the grammar up to primary expressions do the same up to a cut, provided that the
expressions nested in them do.
-/

namespace QueryTree.CompileContext

open Cut
open Parse (Shortens)

variable {ctx : CompileContext} {cut : Cut} {loose : Prop} {n : Nat} {kinds : TokenKind → Prop}
  {expression expression' : Parse Expr}

section Member

theorem typeArgument_agrees {function : String} {position : Nat} {arg : Expr} :
    cut.Agrees loose n kinds (ctx.typeArgument function position arg)
      (ctx.typeArgument function position arg) := by
  unfold typeArgument
  split
  next =>
    refine .scope fun frame => ?_
    split
    next => exact .pure
    next => exact .failAt
  next => exact .pure
  next => exact .failAt

variable (below : cut.Agrees False (n - 1) anyKind expression expression')

include below

theorem parseCall_agrees {operation : Aggregate} {source : Expr} {element : Ty} {name : String}
    {position : Nat} :
    cut.Agrees loose n kinds (operation.parseCall ctx expression source element name position)
      (operation.parseCall ctx expression' source element name position) := by
  refine Agrees.newParameter.bind fun p => .scope fun outer => ?_
  refine (Agrees.argumentList below).withScope.bind fun args => ?_
  split
  next =>
    split
    next => exact typeArgument_agrees.bind fun _ => .pure
    next => exact typeArgument_agrees.bind fun _ => .pure
    next =>
      split
      next => exact .pure
      next => exact .failAt
  next => exact .failAt

theorem memberAccess_agrees (receiver : Receiver) :
    cut.Agrees loose n kinds (ctx.memberAccess expression receiver)
      (ctx.memberAccess expression' receiver) := by
  have further := below.mono (Nat.sub_le (n - 1) 1)
  refine .position fun position => .identifier fun name => .next ?_ (.scope fun frame => ?_)
  · rintro _ rfl
    decide
  refine .check (by decide) (by decide) fun beforeArrow => ?_
  split
  next element isElement =>
    have isArrow : beforeArrow = true := (Option.filter_eq_some_iff.mp isElement).2
    refine (Agrees.next ?_ further).withInternal
    rintro kind ⟨-, isLambda⟩ rfl
    rw [isArrow] at isLambda
    cases isLambda
  next =>
    refine .check (by decide) (by decide) fun call => ?_
    cases call with
    | true =>
        simp only [if_true]
        split
        next => exact parseCall_agrees further
        next => exact (Agrees.argumentList further).bind fun _ => .lift
    | false => exact .lift

theorem elementAccess_agrees {next next' : Expr → Parse Expr} (e : Expr)
    (second : ∀ e, cut.Agrees loose (n - 1) anyKind (next e) (next' e)) :
    cut.Agrees loose n kinds (ctx.elementAccess expression e >>= next)
      (ctx.elementAccess expression' e >>= next') := by
  simp only [elementAccess, bind_assoc]
  refine .position fun position => .expectNext (by decide) (by decide) ?_
  refine (Agrees.commaList below (below.mono (Nat.sub_le _ _))).bindWhere (fun args => ?_)
    fun _ _ session isFinish => Agrees.stuck_expect (by decide) isFinish
  refine .expectNext (by decide) (by decide) ?_
  exact Agrees.lift.bind fun e => (second e).mono (Nat.sub_le _ _)

omit below in
theorem nullableMark_agrees (type : Ty) :
    cut.Agrees loose n kinds (nullableMark type) (nullableMark type) := by
  refine .check (by decide) (by decide) fun marked => ?_
  cases marked with
  | true =>
      simp only [if_true]
      split
      next => exact .failHere
      next => exact .next (by rintro _ ⟨-, isMark⟩ rfl; cases isMark) .pure
  | false => exact .pure

theorem typeAccess_agrees (type : Ty) :
    cut.Agrees loose n kinds (ctx.typeAccess expression type)
      (ctx.typeAccess expression' type) := by
  refine .position fun position => (nullableMark_agrees type).bind fun type => ?_
  refine .check (by decide) (by decide) fun quoted => ?_
  cases quoted with
  | true =>
      have notFinish (kind : TokenKind) (start : anyKind kind ∧ (kind == .stringLiteral) = true) :
          kind ≠ .finish := by
        rintro rfl
        cases start.2
      exact .currentBefore notFinish fun token => .liftBind fun text =>
        .next (fun _ start => notFinish _ start.1) .lift
  | false =>
      refine .check (by decide) (by decide) fun call => ?_
      cases call with
      | true => exact (Agrees.argumentList below).bind fun _ => .lift
      | false =>
          refine .check (by decide) (by decide) fun dotted => ?_
          cases dotted with
          | true =>
              exact .next (by rintro _ ⟨-, isDot⟩ rfl; cases isDot)
                (memberAccess_agrees (below.mono (Nat.sub_le _ _)) _)
          | false => exact .pure

theorem functionCall_agrees (function : Expr) (params : List Ty) (result : Ty) :
    cut.Agrees loose n kinds (ctx.functionCall expression function params result)
      (ctx.functionCall expression' function params result) := by
  refine .position fun position => (Agrees.argumentList below).bind fun args => ?_
  split
  next => exact .failAt
  next =>
    split
    next => exact .pure
    next => exact .failAt

end Member

section Construction

theorem newItem_agrees (each : cut.Agrees False n anyKind expression expression')
    {naming : ItemNaming} :
    cut.Agrees False n kinds (NewItem.parse expression naming)
      (NewItem.parse expression' naming) := by
  refine .position fun position => each.of_any.bind fun value => ?_
  split
  next => exact .pure
  next =>
    refine .checkWord fun named => ?_
    cases named with
    | true =>
        refine .next (by rintro _ ⟨-, isName⟩ rfl; cases isName rfl) (.identifier fun name => ?_)
        exact .next (by rintro _ rfl; decide) .pure
    | false =>
        simp only [Bool.false_eq_true, if_false]
        split
        next => exact .pure
        next =>
          split
          next => exact .pure
          next => exact .failAt

/-- What ends the parts of a construction is not the end of the text. -/
theorem atEnd_agrees {α : Type} {next next' : Bool → Parse α}
    (second : ∀ ended, cut.Agrees loose n
      (fun kind => kinds kind ∧ (ended = true → kind ≠ .finish)) (next ended) (next' ended)) :
    cut.Agrees loose n kinds (NewItem.atEnd >>= next) (NewItem.atEnd >>= next') := by
  simp only [NewItem.atEnd, bind_assoc, pure_bind]
  refine .check (by decide) (by decide) fun round => .check (by decide) (by decide) fun curly => ?_
  refine (second _).imp ?_
  rintro _ ⟨⟨start, rfl⟩, rfl⟩
  refine ⟨start, fun ended => ?_⟩
  rintro rfl
  cases ended

theorem newItems_agrees (each : cut.Agrees False n anyKind expression expression')
    {naming : ItemNaming} {fuel fuel' : Nat} (enough : n ≤ fuel) (enough' : n ≤ fuel') :
    cut.Agrees True n kinds (NewItem.parseAll expression naming fuel)
      (NewItem.parseAll expression' naming fuel') := by
  refine .of_any (@Agrees.loop cut _ True n anyKind Unit
    (fun fuel _ => NewItem.parseAll expression naming fuel)
    (fun fuel _ => NewItem.parseAll expression' naming fuel) (fun _ => .pure) ?_ fuel fuel' enough
    enough' ())
  intro m fuel fuel' le rest _
  refine atEnd_agrees fun ended => ?_
  cases ended with
  | true => exact .pure
  | false =>
      refine (newItem_agrees (each.mono le)).bind fun item => .checkComma ?_ ?_ fun more => ?_
      · intro session isFinish a after ran
        obtain ⟨-, rfl⟩ := EStateM.Result.ok.inj ran
        exact ⟨trivial, isFinish⟩
      · intro session session' splits isFinish
        exact Agrees.beyond_advance splits isFinish ((rest ()).shortens.bind fun _ => .pure)
      · cases more with
        | true => exact .next (fun _ start => start.1.2) (rest ()).map
        | false => exact .pure

theorem qualifiedRest_agrees {fuel fuel' : Nat} (enough : n ≤ fuel) (enough' : n ≤ fuel')
    (name : String) :
    cut.Agrees loose n kinds (qualifiedRest fuel name) (qualifiedRest fuel' name) := by
  refine .of_any (@Agrees.loop cut _ loose n anyKind String qualifiedRest qualifiedRest
    (fun _ => .pure) ?_ fuel fuel' enough enough' name)
  intro m fuel fuel' _ rest name
  refine .check (by decide) (by decide) fun dotted => ?_
  cases dotted with
  | true =>
      refine .next (by rintro _ ⟨-, isDot⟩ rfl; cases isDot) (.identifier fun part => ?_)
      exact .next (by rintro _ rfl; decide) ((rest _).mono (Nat.sub_le _ _))
  | false => exact .pure

/-- Behind the type of a construction its parts are opened. -/
theorem newType?_agrees {position : Nat} {next next' : Option Ty → Parse Expr}
    (second : ∀ type?, cut.Agrees loose n (fun kind => opensParts kind = true) (next type?)
      (next' type?)) :
    cut.Agrees loose n (fun kind => opensConstruction kind = true)
      (ctx.newType? position >>= next) (ctx.newType? position >>= next') := by
  have opened (kind : TokenKind) (start : opensConstruction kind = true) : kind ≠ .finish := by
    rintro rfl
    cases start
  have fails {kinds : TokenKind → Prop} {m : Nat} (fault : CompileFault) :
      cut.Agrees loose m kinds
        ((Parse.failAt position fault : Parse (Option Ty)) >>= next)
        (Parse.failAt position fault >>= next') :=
    @Agrees.failAt cut Expr loose m kinds position position fault fault
  simp only [newType?, bind_assoc]
  refine .check (by decide) (by decide) fun named => ?_
  cases named with
  | true =>
      simp only [if_true, bind_assoc]
      refine .currentBefore (fun _ start => opened _ start.1) fun token => ?_
      refine .next (fun _ start => opened _ start.1.1) (.tokensLeft fun fuel fuel' m le _ _ => ?_)
      refine (qualifiedRest_agrees (by omega) (by omega) _).bind fun name => .scope fun frame => ?_
      split
      next => exact fails _
      next type _ =>
        simp only [bind_assoc]
        refine .current ?_ fun following => ?_
        · exact @Agrees.failHere cut Expr loose m _ (.expected .openParen) (.expected .openParen)
        · split
          next opens =>
            refine ((second (some type)).mono (by omega)).imp ?_
            rintro _ ⟨-, -, rfl⟩
            exact opens
          next =>
            exact @Agrees.failHere cut Expr loose m _ (.expected .openParen) (.expected .openParen)
  | false =>
      refine (second none).imp ?_
      rintro kind ⟨opens, noName⟩
      revert opens noName
      cases kind <;> decide

/-- The brackets of an array are followed by its items. -/
theorem arrayMark_agrees {next next' : Bool → Parse Expr}
    (second : ∀ isArray, cut.Agrees loose n (fun kind => opensParts kind = true) (next isArray)
      (next' isArray)) :
    cut.Agrees loose n (fun kind => opensParts kind = true) (arrayMark >>= next)
      (arrayMark >>= next') := by
  simp only [arrayMark, bind_assoc]
  refine .check (by decide) (by decide) fun marked => ?_
  cases marked with
  | true =>
      simp only [if_true, bind_assoc]
      refine .next (by rintro _ ⟨-, isOpen⟩ rfl; cases isOpen) ?_
      refine .expectNext (by decide) (by decide) (.validate (by decide) (by decide) ?_)
      refine ((second true).mono (by omega)).imp ?_
      rintro _ rfl
      rfl
  | false => exact (second false).imp fun _ start => start.1

theorem projection_agrees (items : List NewItem) :
    cut.Agrees loose n kinds (ctx.projection items) (ctx.projection items) := by
  rw [projection]
  simp only
  split
  next => exact .pure
  next => exact Agrees.recordType.bind fun type => .pure

theorem constructed_agrees {items : List NewItem} {type? : Option Ty} {isArray : Bool}
    {position : Nat} :
    cut.Agrees loose n kinds (ctx.constructed type? isArray position items)
      (ctx.constructed type? isArray position items) := by
  unfold constructed
  split
  next => exact .lift
  next =>
    split
    next => exact .failAt
    next =>
      split
      next => exact projection_agrees items
      next => exact .lift

theorem constructionBody_agrees (below : cut.Agrees False (n - 1) anyKind expression expression')
    {position : Nat} :
    cut.Agrees loose n (fun kind => opensConstruction kind = true)
      (ctx.constructionBody expression position) (ctx.constructionBody expression' position) := by
  refine newType?_agrees fun type? => arrayMark_agrees fun isArray => .next ?_ ?_
  · rintro _ opens rfl
    cases opens
  refine .tokensLeft fun fuel fuel' m le enough enough' => ?_
  refine (newItems_agrees (below.mono le) enough enough').bindWhere (fun items => ?_) ?_
  · refine atEnd_agrees fun ended => ?_
    cases ended with
    | true => exact .next (fun _ start => start.2 rfl) constructed_agrees
    | false => exact .failHere
  · intro _ items session isFinish
    have open' : NewItem.atEnd session = .ok false session := by
      rw [NewItem.atEnd_eq, isFinish]
      rfl
    rw [Parse.bind_eq open']
    exact .of_error

theorem construction_agrees (below : cut.Agrees False (n - 1) anyKind expression expression')
    (notFinish : ∀ kind, kinds kind → kind ≠ .finish) :
    cut.Agrees loose n kinds (ctx.construction expression) (ctx.construction expression') := by
  refine .next notFinish (.position fun position => .current ?_ fun token => ?_)
  · exact .failHere
  · split
    next opens =>
      refine (constructionBody_agrees (below.mono (Nat.sub_le _ _))).imp ?_
      rintro _ ⟨-, -, rfl⟩
      exact opens
    next => exact .failHere

end Construction

section Function

variable (below : cut.Agrees False (n - 1) anyKind expression expression')
  (notFinish : ∀ kind, kinds kind → kind ≠ .finish)

include below notFinish

theorem functionArguments_agrees :
    cut.Agrees loose n kinds (functionArguments expression) (functionArguments expression') :=
  .next notFinish (.argumentList (below.mono (Nat.sub_le _ _)))

theorem iifFunction_agrees :
    cut.Agrees loose n kinds (ctx.iifFunction expression) (ctx.iifFunction expression') := by
  refine .position fun position => (functionArguments_agrees below notFinish).bind fun args => ?_
  split
  next => exact .lift
  next => exact .failAt

theorem isnullFunction_agrees :
    cut.Agrees loose n kinds (ctx.isnullFunction expression) (ctx.isnullFunction expression') := by
  refine .position fun position => (functionArguments_agrees below notFinish).bind fun args => ?_
  split
  next => exact .lift
  next => exact .failAt

theorem npFunction_agrees :
    cut.Agrees loose n kinds (ctx.npFunction expression) (ctx.npFunction expression') := by
  refine .position fun position => ?_
  have protect (chain : Expr) (default? : Option Expr) :
      cut.Agrees loose n anyKind
        (if chain.receiver?.isSome then
          Parse.lift (chain.propagateNull ctx.env.classes position default?)
        else Parse.failAt position .npTarget)
        (if chain.receiver?.isSome then
          Parse.lift (chain.propagateNull ctx.env.classes position default?)
        else Parse.failAt position .npTarget) := by
    split
    next => exact .lift
    next => exact .failAt
  refine (functionArguments_agrees below notFinish).bind fun args => ?_
  split
  next chain => exact protect chain none
  next chain default => exact protect chain (some default)
  next => exact .failAt

theorem typeTestFunction_agrees (test : TypeTest) :
    cut.Agrees loose n kinds (ctx.typeTestFunction expression test)
      (ctx.typeTestFunction expression' test) := by
  refine .position fun position => ?_
  have finish (target arg : Expr) :
      cut.Agrees loose n anyKind
        (do
          let wanted ← ctx.typeArgument test.word position arg
          let type ← Parse.lift (typeTestType test wanted position)
          return Expr.typeTest type target wanted test)
        (do
          let wanted ← ctx.typeArgument test.word position arg
          let type ← Parse.lift (typeTestType test wanted position)
          return Expr.typeTest type target wanted test) :=
    typeArgument_agrees.bind fun wanted => Agrees.lift.bind fun type => .pure
  refine (functionArguments_agrees below notFinish).bind fun args => ?_
  split
  next arg =>
    refine .scope fun frame => ?_
    split
    next it _ => exact finish _ arg
    next => exact .failAt
  next target arg => exact finish target arg
  next => exact .failAt

omit below in
theorem contextParameter_agrees (name : ContextName) :
    cut.Agrees loose n kinds (contextParameter name) (contextParameter name) := by
  refine .scope fun frame => ?_
  simp only
  split
  next => exact .next notFinish .pure
  next => exact .failHere

theorem keyword_agrees (keyword : Keyword) :
    cut.Agrees loose n kinds (ctx.keyword expression keyword)
      (ctx.keyword expression' keyword) := by
  cases keyword with
  | context name => exact contextParameter_agrees notFinish name
  | iif => exact iifFunction_agrees below notFinish
  | isnull => exact isnullFunction_agrees below notFinish
  | new => exact construction_agrees below notFinish
  | nullPropagation => exact npFunction_agrees below notFinish
  | typeTest test => exact typeTestFunction_agrees below notFinish test
  | type t => exact .next notFinish (typeAccess_agrees (below.mono (Nat.sub_le _ _)) t)
  | constant value => exact .next notFinish .pure

end Function

section Primary

theorem literalToken_agrees {read : Token → Except CompileError Expr}
    (notFinish : ∀ kind, kinds kind → kind ≠ .finish) :
    cut.Agrees loose n kinds (literalToken read) (literalToken read) :=
  .currentBefore notFinish fun _ => .liftBind fun _ =>
    .next (fun _ start => notFinish _ start.1) .pure

variable (below : cut.Agrees False (n - 1) anyKind expression expression')

include below

theorem symbolExpr_agrees (symbol : Symbol) :
    cut.Agrees loose n kinds (ctx.symbolExpr expression symbol)
      (ctx.symbolExpr expression' symbol) := by
  unfold symbolExpr
  split
  next => exact .pure
  next t => exact typeAccess_agrees below t
  next => exact .pure
  next =>
    split
    next =>
      refine .check (by decide) (by decide) fun call => ?_
      cases call with
      | true => exact functionCall_agrees below _ _ _
      | false => exact .pure
    next => exact .pure

/-- What a name stands for that is no keyword: a symbol, or else a member of the element. -/
def plainName (ctx : CompileContext) (expression : Parse Expr) (it : Option Parameter)
    (text : String) (symbol? : Option Symbol) : Parse Expr :=
  match symbol? with
  | some symbol => do
    Parse.advance
    ctx.symbolExpr expression symbol
  | none =>
    match it.filter fun _ => !isPositional text with
    | some it => ctx.memberAccess expression (.value (.parameter it))
    | none => Parse.failHere (.unknownIdentifier text)

theorem plainName_agrees
    (notFinish : ∀ kind, kinds kind → kind ≠ .finish) (it : Option Parameter) (text : String)
    (symbol? : Option Symbol) :
    cut.Agrees loose n kinds (ctx.plainName expression it text symbol?)
      (ctx.plainName expression' it text symbol?) := by
  unfold plainName
  split
  next symbol =>
    exact .next notFinish (symbolExpr_agrees (below.mono (Nat.sub_le (n - 1) 1)) symbol)
  next =>
    split
    next it _ => exact memberAccess_agrees below _
    next => exact .failHere

theorem name_agrees (notFinish : ∀ kind, kinds kind → kind ≠ .finish) :
    cut.Agrees loose n kinds (ctx.name expression) (ctx.name expression') := by
  refine .currentBefore notFinish fun token => .scope fun frame => ?_
  have notFinish' (kind : TokenKind) (start : kinds kind ∧ kind = token.kind) : kind ≠ .finish :=
    notFinish kind start.1
  split
  next keyword _ => exact keyword_agrees below notFinish' keyword
  next =>
    exact .read (f := fun session =>
      ctx.symbol? session.internals (ctx.env.options.fold token.text))
      (fun splits => by rw [splits.internals])
      (plainName_agrees below notFinish' frame.it token.text)

theorem atom_agrees :
    cut.Agrees loose n kinds (ctx.atom expression) (ctx.atom expression') := by
  refine .current .failHere fun token => ?_
  have notFinish (kind : TokenKind)
      (start : kinds kind ∧ kind ≠ .finish ∧ kind = token.kind) : kind ≠ .finish := start.2.1
  split
  next => exact name_agrees below notFinish
  next => exact literalToken_agrees notFinish
  next => exact literalToken_agrees notFinish
  next => exact literalToken_agrees notFinish
  next =>
    exact .next notFinish (below.bind fun e => .expectNext (by decide) (by decide) .pure)
  next => exact .failHere

theorem suffixes_agrees {fuel fuel' : Nat} (enough : n ≤ fuel) (enough' : n ≤ fuel') (e : Expr) :
    cut.Agrees loose n kinds (ctx.suffixes expression fuel e)
      (ctx.suffixes expression' fuel' e) := by
  refine .of_any (@Agrees.loop cut _ loose n anyKind Expr (ctx.suffixes expression)
    (ctx.suffixes expression') (fun _ => .pure) ?_ fuel fuel' enough enough' e)
  intro m fuel fuel' le rest e
  have inside := below.mono (Nat.sub_le_sub_right le 1)
  refine .current .pure fun token => ?_
  split
  next =>
    refine .next (fun _ start => start.2.1) ?_
    exact (memberAccess_agrees (inside.mono (Nat.sub_le _ _)) _).bind fun e => rest e
  next => exact elementAccess_agrees inside e rest
  next => exact .failHere
  next => exact .pure

theorem primary_agrees :
    cut.Agrees loose n kinds (ctx.primary expression) (ctx.primary expression') :=
  (atom_agrees below).bind fun e => .tokensLeft fun _ _ _ le enough enough' =>
    suffixes_agrees (below.mono (Nat.sub_le_sub_right le 1)) enough enough' e

end Primary

end QueryTree.CompileContext
