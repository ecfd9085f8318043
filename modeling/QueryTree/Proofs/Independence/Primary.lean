import QueryTree.Proofs.Independence.Access

/-!
# Primary expressions after a history

The procedures for constructions, functions, names and what follows a primary expression go together
in the run after the history and in the fresh run.
-/

namespace QueryTree

theorem mentionsRecord_unescapedName {text : String} (silent : mentionsRecord text = false) :
    mentionsRecord (Parse.unescapedName text) = false := by
  unfold Parse.unescapedName
  split
  next c rest escaped =>
    rw [Bool.eq_false_iff]
    intro mentions
    have whole : text = "@" ++ String.ofList (c :: rest) ++ "" := by
      rw [← String.toList_inj, escaped]
      simp [String.toList_append]
    rw [whole, mentionsRecord_append mentions] at silent
    cases silent
  next => exact silent

/-- The tokens that are met mention no record type if those of the text do not. -/
theorem Token.Met.silent {tokens : List Token}
    (silent : ∀ token ∈ tokens, mentionsRecord token.text = false) {token : Token}
    (met : Token.Met tokens token) : mentionsRecord token.text = false := by
  induction met with
  | own isToken => exact silent _ isToken
  | signed _ _ _ _ number => exact mentionsRecord_minus number

namespace Rerun

open Parse (Within)

variable {w : Rerun} {ctx ctx' : CompileContext} {granted : Expr → Prop}

/-! ## Names of types -/

section Types

theorem qualifiedRest (fuel : Nat) (name : String) :
    w.Steps (CompileContext.qualifiedRest fuel name) (CompileContext.qualifiedRest fuel name) := by
  induction fuel generalizing name with
  | zero => exact .pure rfl
  | succ fuel ih =>
      refine Steps.check.bindEq ?_ (.pure rfl)
      refine Steps.advance.bind fun _ _ _ => Steps.identifier.bind fun part part' parts => ?_
      obtain rfl : part = part' := parts
      exact Steps.advance.bind fun _ _ _ => ih _

/-- A name with dots mentions no record type, since its parts do not. -/
theorem Silent.qualifiedRest (silent : w.Silent ctx' granted) (fuel : Nat) {name : String}
    (first : mentionsRecord name = false) :
    (CompileContext.qualifiedRest fuel name).Ascertains w.tokens (mentionsRecord · = false) := by
  refine Within.ascertains fun around => ?_
  induction fuel generalizing name with
  | zero => exact .pure first
  | succ fuel ih =>
      refine .bind .check fun more _ => ?_
      cases more with
      | false => exact .pure first
      | true =>
          refine .bind .advance fun _ _ => .bind .identifier fun part ⟨token, met, spelled⟩ => ?_
          have rest : mentionsRecord part = false :=
            spelled ▸ mentionsRecord_unescapedName (silent.word token met)
          exact .bind .advance fun _ _ => ih (mentionsRecord_dot first rest)

theorem newType? (contexts : w.Contexts ctx ctx') (silent : w.Silent ctx' granted)
    {position : Nat} : w.Steps (ctx.newType? position) (ctx'.newType? position) := by
  refine Steps.check.bindEq ?_ (.pure rfl)
  have met : Parse.current.Ascertains w.tokens (Token.Met w.tokens) :=
    Within.ascertains fun _ => Within.current
  refine Steps.current.bindWhere met fun token token' tokens isMet => ?_
  obtain rfl : token = token' := tokens
  refine Steps.advance.bind fun _ _ _ => Steps.tokensLeft.bind fun fuel fuel' fuels => ?_
  obtain rfl : fuel = fuel' := fuels
  refine (qualifiedRest (fuel + 1) token.text).bindWhere
    (silent.qualifiedRest (fuel + 1) (silent.word token isMet)) fun name name' names noRecord => ?_
  obtain rfl : name = name' := names
  refine Steps.scope.bind fun frame frame' frames => ?_
  obtain ⟨missing, missing'⟩ | ⟨type, type', found, found', types⟩ :=
    (resolveType? contexts noRecord frames false).cases
  · rw [missing, missing']
    exact .failAt
  · rw [found, found']
    refine Steps.current.bind fun next next' nexts => ?_
    obtain rfl : next = next' := nexts
    split
    · exact .pure (congrArg some types)
    · exact .failHere

end Types

namespace Nested

variable {expression expression' : Parse Expr}
  (nested : w.Nested ctx ctx' granted expression expression')

/-! ## Constructions -/

section Constructions

theorem arrayMark : w.Steps CompileContext.arrayMark CompileContext.arrayMark := by
  refine Steps.check.bindEq ?_ (.pure rfl)
  exact Steps.advance.bind fun _ _ _ => Steps.expect.bind fun _ _ _ =>
    Steps.validate.bind fun _ _ _ => .pure rfl

theorem atEnd : w.Steps NewItem.atEnd NewItem.atEnd :=
  Steps.check.bindEq (.pure rfl) (Steps.check.bind fun _ _ twin => .pure twin)

/-- A part with the same name at the same place. -/
theorem item {value value' : Expr} (twin : w.Twin value value') {name : Option String}
    {position : Nat} : w.Twin (NewItem.mk name value position) (NewItem.mk name value' position) :=
  congrArg (NewItem.mk name · position) twin.expr

include nested

theorem newItem {naming : ItemNaming} :
    w.Steps (NewItem.parse expression naming) (NewItem.parse expression' naming) := by
  refine Steps.position.bind fun position position' positions =>
    nested.steps.bind fun value value' values => ?_
  obtain rfl : position = position' := positions
  split
  · exact .pure (item values)
  · refine Steps.checkWord.bindEq ?_ ?_
    · refine Steps.advance.bind fun _ _ _ => Steps.identifier.bind fun name name' names => ?_
      obtain rfl : name = name' := names
      exact Steps.advance.bind fun _ _ _ => .pure (item values)
    · simp only [Bool.false_eq_true, if_false]
      split
      · exact .pure (item values)
      · rw [← NewItem.inferredName?_renumbered value, values.expr,
          NewItem.inferredName?_renumbered]
        split
        · exact .pure (item values)
        · exact .failAt

theorem newItems {naming : ItemNaming} (fuel : Nat) :
    w.Steps (NewItem.parseAll expression naming fuel) (NewItem.parseAll expression' naming fuel) := by
  induction fuel with
  | zero => exact .pure rfl
  | succ fuel ih =>
      refine atEnd.bindEq (.pure rfl) (nested.newItem.bind fun item item' items => ?_)
      refine Steps.check.bindEq ?_ (.pure (congrArg (· :: []) items))
      exact Steps.advance.bind fun _ _ _ => ih.bind fun _ _ rest =>
        .pure (congrArg₂ List.cons items rest)

theorem projection {items items' : List NewItem} (twins : w.Twin items items') :
    w.Steps (ctx.projection items) (ctx'.projection items') := by
  have twins : items.map (NewItem.renumbered id) = items'.map (NewItem.renumbered w.number) := twins
  have members : (NewItem.named items).map (fun m => (m.1, m.2.renumbered id))
      = (NewItem.named items').map fun m => (m.1, m.2.renumbered w.number) := by
    rw [← NewItem.named_renumbered, twins, NewItem.named_renumbered]
  have names : (NewItem.named items).map (·.1) = (NewItem.named items').map (·.1) := by
    simpa [Function.comp_def] using congrArg (List.map Prod.fst) members
  have types : w.Twin ((NewItem.named items).map (·.2.type))
      ((NewItem.named items').map (·.2.type)) := by
    have same := congrArg (List.map fun m : String × Expr => m.2.type) members
    simp only [List.map_map, Function.comp_def, Expr.type_renumbered] at same
    change List.map _ (List.map _ _) = List.map _ (List.map _ _)
    rw [List.map_map, List.map_map]
    exact same
  have record {type type' : Ty} (types : w.Twin type type') : w.Steps
      (Pure.pure (.record type .anonymous (NewItem.named items)) : Parse Expr)
      (Pure.pure (.record type' .anonymous (NewItem.named items'))) := by
    refine .pure ?_
    change Expr.renumbered id _ = Expr.renumbered w.number _
    simp only [Expr.renumbered, Expr.renumberedMembers_eq_map, types.unnumbered, members]
  rw [CompileContext.projection, CompileContext.projection, nested.contexts.env, names]
  simp only
  split
  · exact (@Steps.pure Ty _ w .dynamic .dynamic rfl).bind fun _ _ => record
  · exact (Steps.recordType types).bind fun _ _ => record

theorem constructed {type? type?' : Option Ty} {isArray : Bool} {position : Nat}
    {items items' : List NewItem} (types : w.Twin type? type?') (twins : w.Twin items items') :
    w.Steps (ctx.constructed type? isArray position items)
      (ctx'.constructed type?' isArray position items') := by
  have types : type?.map Ty.unnumbered = type?'.map Ty.unnumbered := types
  have parts : items.map (NewItem.renumbered id) = items'.map (NewItem.renumbered w.number) := twins
  unfold CompileContext.constructed
  cases isArray with
  | true =>
      have values : (items.map (·.value)).map (Expr.renumbered id)
          = (items'.map (·.value)).map (Expr.renumbered w.number) := by
        simpa [NewItem.renumbered, Function.comp_def] using congrArg (List.map (·.value)) parts
      exact .liftExpr <| by
        rw [← CompileContext.newArray_renumbered, ← CompileContext.newArray_renumbered,
          nested.contexts.unnumbered, types, values]
  | false =>
      simp only [Bool.false_eq_true, if_false]
      have repeated : w.Twin (NewItem.duplicate? ctx.env.options [] items)
          (NewItem.duplicate? ctx'.env.options [] items') := by
        have same := @NewItem.duplicate?_renumbered id ctx.env.options [] items
        rw [parts, NewItem.duplicate?_renumbered, nested.contexts.env] at same
        rw [nested.contexts.env]
        exact same.symm
      obtain ⟨none, none'⟩ | ⟨found, found', some, some', -⟩ := repeated.cases
      · rw [none, none']
        cases type? <;> cases type?' <;> first | cases types | skip
        · exact nested.projection twins
        · have types : _ = _ := Option.some.inj types
          exact .liftExpr <| by
            rw [← CompileContext.newOfType_renumbered, ← CompileContext.newOfType_renumbered,
              nested.contexts.unnumbered, types, parts]
      · rw [some, some']
        exact .failAt

theorem constructionBody {position : Nat} :
    w.Steps (ctx.constructionBody expression position)
      (ctx'.constructionBody expression' position) := by
  refine (newType? nested.contexts nested.silent).bind fun type? type?' types =>
    arrayMark.bind fun isArray isArray' marks => Steps.advance.bind fun _ _ _ => ?_
  obtain rfl : isArray = isArray' := marks
  have named : type?.isSome = type?'.isSome := by
    obtain ⟨rfl, rfl⟩ | ⟨_, _, rfl, rfl, -⟩ := types.cases <;> rfl
  refine Steps.tokensLeft.bind fun fuel fuel' fuels => ?_
  obtain rfl : fuel = fuel' := fuels
  rw [named]
  refine (nested.newItems (fuel + 1)).bind fun items items' twins => ?_
  exact atEnd.bindEq (Steps.advance.bind fun _ _ _ => nested.constructed types twins) .failHere

theorem construction : w.Steps (ctx.construction expression) (ctx'.construction expression') := by
  refine Steps.advance.bind fun _ _ _ => Steps.position.bind fun position position' positions =>
    Steps.current.bind fun next next' nexts => ?_
  obtain rfl : position = position' := positions
  obtain rfl : next = next' := nexts
  split
  · exact nested.constructionBody
  · exact .failHere

end Constructions

/-! ## Functions -/

section Functions

omit nested in
theorem scopeParameter {name : ContextName} (p? p?' : Option Parameter) :
    w.Twin p? p?' → w.Steps
      (match p? with
        | some p => do
          Parse.advance
          return .parameter p
        | none => Parse.failHere (.notInScope name) : Parse Expr)
      (match p?' with
        | some p => do
          Parse.advance
          return .parameter p
        | none => Parse.failHere (.notInScope name)) := by
  intro parameters
  obtain ⟨rfl, rfl⟩ | ⟨p, p', rfl, rfl, twin⟩ := parameters.cases
  · exact .failHere
  · exact Steps.advance.bind fun _ _ _ => .pure (congrArg Expr.parameter twin.parameter)

omit nested in
theorem contextParameter {name : ContextName} :
    w.Steps (CompileContext.contextParameter name) (CompileContext.contextParameter name) := by
  refine Steps.scope.bind fun frame frame' frames => ?_
  obtain ⟨it, parent, root⟩ := ScopeFrame.mk.inj frames
  cases name with
  | it => exact scopeParameter _ _ it
  | parent => exact scopeParameter _ _ parent
  | root => exact scopeParameter _ _ root

include nested

theorem functionArguments :
    w.Steps (CompileContext.functionArguments expression)
      (CompileContext.functionArguments expression') :=
  Steps.advance.bind fun _ _ _ => nested.steps.argumentList

theorem functionArguments_silent :
    (CompileContext.functionArguments expression').Ascertains w.tokens
      fun args => ∀ arg ∈ args, arg.IsSilent :=
  Within.ascertains fun _ => (CompileContext.functionArguments_within nested.built).imp
    fun _ each arg isArg => nested.silent.text _ _ (each arg isArg)

theorem iifFunction : w.Steps (ctx.iifFunction expression) (ctx'.iifFunction expression') := by
  refine Steps.position.bind fun position position' positions =>
    nested.functionArguments.bind fun args args' twins => ?_
  obtain rfl : position = position' := positions
  obtain _ | ⟨test, _ | ⟨ifTrue, _ | ⟨ifFalse, _ | _⟩⟩⟩ := twins.forall₂
  case cons.cons.cons.nil =>
    exact .liftExpr <| by
      rw [nested.contexts.classes, ← Expr.choose_renumbered, ← Expr.choose_renumbered, test.expr,
        ifTrue.expr, ifFalse.expr]
  all_goals exact .failAt

theorem isnullFunction :
    w.Steps (ctx.isnullFunction expression) (ctx'.isnullFunction expression') := by
  refine Steps.position.bind fun position position' positions =>
    nested.functionArguments.bind fun args args' twins => ?_
  obtain rfl : position = position' := positions
  obtain _ | ⟨left, _ | ⟨right, _ | _⟩⟩ := twins.forall₂
  case cons.cons.nil =>
    exact .liftExpr <| by
      rw [nested.contexts.classes, ← Expr.orElseValue_renumbered, ← Expr.orElseValue_renumbered,
        left.expr, right.expr]
  all_goals exact .failAt

theorem npFunction : w.Steps (ctx.npFunction expression) (ctx'.npFunction expression') := by
  refine Steps.position.bind fun position position' positions => ?_
  obtain rfl : position = position' := positions
  have protect {chain chain' : Expr} {default? default?' : Option Expr}
      (chains : w.Twin chain chain') (defaults : w.Twin default? default?') : w.Steps
        (if chain.receiver?.isSome then
          Parse.lift (chain.propagateNull ctx.env.classes position default?)
        else Parse.failAt position .npTarget)
        (if chain'.receiver?.isSome then
          Parse.lift (chain'.propagateNull ctx'.env.classes position default?')
        else Parse.failAt position .npTarget) := by
    have receivers : chain.receiver?.isSome = chain'.receiver?.isSome := by
      have same := congrArg (·.receiver?.isSome) chains.expr
      simpa only [Expr.receiver?_renumbered, Option.isSome_map] using same
    have defaults : default?.map (Expr.renumbered id)
      = default?'.map (Expr.renumbered w.number) := defaults
    rw [receivers]
    split
    · exact .liftExpr <| by
        rw [nested.contexts.classes, ← Expr.propagateNull_renumbered,
          ← Expr.propagateNull_renumbered, chains.expr, defaults]
    · exact .failAt
  refine nested.functionArguments.bind fun args args' twins => ?_
  obtain _ | ⟨chain, _ | ⟨default, _ | _⟩⟩ := twins.forall₂
  case cons.nil => exact protect chain rfl
  case cons.cons.nil => exact protect chain (congrArg some default)
  all_goals exact .failAt

theorem typeTestFunction (test : TypeTest) :
    w.Steps (ctx.typeTestFunction expression test) (ctx'.typeTestFunction expression' test) := by
  refine Steps.position.bind fun position position' positions => ?_
  obtain rfl : position = position' := positions
  have finish {target target' arg arg' : Expr} (targets : w.Twin target target')
      (args : w.Twin arg arg') (silent : arg'.IsSilent) : w.Steps
        (do
          let wanted ← ctx.typeArgument test.word position arg
          let type ← Parse.lift (CompileContext.typeTestType test wanted position)
          return .typeTest type target wanted test : Parse Expr)
        (do
          let wanted ← ctx'.typeArgument test.word position arg'
          let type ← Parse.lift (CompileContext.typeTestType test wanted position)
          return .typeTest type target' wanted test) := by
    refine (typeArgument nested.contexts args silent).bind
      fun wanted wanted' types => ?_
    have tested : w.Twin (CompileContext.typeTestType test wanted position).toOption
        (CompileContext.typeTestType test wanted' position).toOption := by
      have same := Expr.typeTestType_unnumbered position test wanted
      rw [types.unnumbered, Expr.typeTestType_unnumbered] at same
      exact same.symm
    refine (Steps.lift tested).bind fun type type' results => .pure ?_
    change Expr.renumbered id _ = Expr.renumbered w.number _
    simp only [Expr.renumbered, results.unnumbered, types.unnumbered, targets.expr]
  refine nested.functionArguments.bindWhere nested.functionArguments_silent
    fun args args' twins silent => ?_
  obtain _ | ⟨first, _ | ⟨second, _ | _⟩⟩ := twins.forall₂
  case cons.nil =>
    refine Steps.scope.bind fun frame frame' frames => ?_
    have its : w.Twin frame.it frame'.it := (ScopeFrame.mk.inj frames).1
    obtain ⟨none, none'⟩ | ⟨it, it', some, some', twin⟩ := its.cases
    · rw [none, none']
      exact .failAt
    · rw [some, some']
      exact finish (congrArg Expr.parameter twin.parameter) first (silent _ (by simp))
  case cons.cons.nil => exact finish first second (silent _ (by simp))
  all_goals exact .failAt

theorem keyword (keyword : Keyword) :
    w.Steps (ctx.keyword expression keyword) (ctx'.keyword expression' keyword) := by
  cases keyword with
  | context name => exact contextParameter
  | iif => exact nested.iifFunction
  | isnull => exact nested.isnullFunction
  | new => exact nested.construction
  | nullPropagation => exact nested.npFunction
  | typeTest test => exact nested.typeTestFunction test
  | type type => exact Steps.advance.bind fun _ _ _ => nested.typeAccess type
  | constant value => exact Steps.advance.bind fun _ _ _ => .pure (by split <;> rfl)

end Functions

/-! ## Names -/

section Names

include nested

theorem symbol? {names names' : ElementNames} (twins : w.TwinNames names names') (key : String) :
    w.Twin (ctx.symbol? names key) (ctx'.symbol? names' key) := by
  rw [CompileContext.symbol?, CompileContext.symbol?, nested.contexts.externals]
  obtain ⟨none, none'⟩ | ⟨symbol, symbol', some, some', twin⟩ :=
    (nested.contexts.symbols key).cases
  · rw [none, none']
    cases ctx'.externals.lookup key with
    | some value => rfl
    | none =>
        obtain ⟨none, none'⟩ | ⟨p, p', some, some', twin⟩ := (twins key).cases
        · rw [none, none']
          rfl
        · rw [some, some']
          exact congrArg (fun p => Option.some (Symbol.parameter p)) twin.parameter
  · rw [some, some']
    exact congrArg Option.some twin

theorem visibleKeyword? {frame frame' : ScopeFrame} (frames : w.Twin frame frame') (text : String) :
    ctx.visibleKeyword? frame text = ctx'.visibleKeyword? frame' text := by
  have member : ctx.elementHasMember frame text = ctx'.elementHasMember frame' text := by
    rw [← ctx.elementHasMember_renumbered text frame, nested.contexts.unnumbered, frames.frame,
      CompileContext.elementHasMember_renumbered]
  rw [CompileContext.visibleKeyword?, CompileContext.visibleKeyword?, nested.contexts.env, member]

/-- A supplied function is called if there are arguments, in both runs or in neither. -/
theorem suppliedExpr {e e' : Expr} (twin : w.Twin e e') :
    w.Steps (ctx.symbolExpr expression (.expr e)) (ctx'.symbolExpr expression' (.expr e')) := by
  rw [CompileContext.symbolExpr, CompileContext.symbolExpr]
  split
  next params result isFunction =>
    have types := twin.type.unnumbered
    rw [isFunction] at types
    obtain ⟨params', result', isFunction'⟩ := Ty.eq_lambda_of_unnumbered types.symm
    rw [isFunction', Ty.unnumbered, Ty.unnumbered] at types
    obtain ⟨params, results⟩ := Ty.lambda.inj types
    rw [isFunction']
    refine Steps.check.bindEq (nested.functionCall twin ?_ results) (.pure twin)
    rwa [Ty.unnumberedAll_eq_map, Ty.unnumberedAll_eq_map] at params
  next noFunction =>
    split
    next params' result' isFunction' =>
      have types := twin.type.unnumbered
      rw [isFunction'] at types
      obtain ⟨params, result, isFunction⟩ := Ty.eq_lambda_of_unnumbered types
      exact absurd isFunction (noFunction params result)
    next => exact .pure twin

theorem symbolExpr {symbol symbol' : Symbol} (twin : w.Twin symbol symbol') :
    w.Steps (ctx.symbolExpr expression symbol) (ctx'.symbolExpr expression' symbol') := by
  cases symbol with
  | parameter p =>
      cases symbol' with
      | parameter p' => exact .pure (congrArg Expr.parameter (Symbol.parameter.inj twin))
      | value _ | expr _ => cases twin
  | value value =>
      cases symbol' with
      | value value' =>
          obtain rfl : value = value' := Symbol.value.inj twin
          cases value with
          | type type => exact nested.typeAccess type
          | _ => exact .pure rfl
      | parameter _ | expr _ => cases twin
  | expr e =>
      cases symbol' with
      | expr e' => exact nested.suppliedExpr (Symbol.expr.inj twin)
      | parameter _ | value _ => cases twin

theorem name : w.Steps (ctx.name expression) (ctx'.name expression') := by
  refine Steps.current.bind fun token token' tokens => Steps.scope.bind fun frame frame' frames => ?_
  obtain rfl : token = token' := tokens
  rw [nested.visibleKeyword? frames]
  split
  next keyword _ => exact nested.keyword keyword
  next =>
    refine Steps.bindNames fun after fresh twins => ?_
    rw [nested.contexts.env]
    obtain ⟨none, none'⟩ | ⟨symbol, symbol', some, some', twin⟩ :=
      (nested.symbol? twins (ctx'.env.options.fold token.text)).cases
    · rw [none, none']
      have its : w.Twin frame.it frame'.it := (ScopeFrame.mk.inj frames).1
      obtain ⟨none, none'⟩ | ⟨it, it', some, some', twin⟩ :=
        (its.filter !CompileContext.isPositional token.text).cases
      · rw [none, none']
        exact .failHere
      · rw [some, some']
        exact nested.memberAccess (congrArg (fun p => Receiver.value (.parameter p)) twin.parameter)
    · rw [some, some']
      exact Steps.advance.bind fun _ _ _ => nested.symbolExpr twin

end Names

/-! ## Primary expressions -/

section Primary

omit nested in
theorem literalToken {read : Token → Except CompileError Expr}
    (isLiteral : ∀ token e, read token = .ok e → Literal.IsLiteral e) :
    w.Steps (CompileContext.literalToken read) (CompileContext.literalToken read) := by
  refine Steps.current.bind fun token token' tokens => ?_
  obtain rfl : token = token' := tokens
  exact (Steps.literal (isLiteral token)).bind fun _ _ twin => Steps.advance.bind fun _ _ _ =>
    .pure twin

include nested

theorem atom : w.Steps (ctx.atom expression) (ctx'.atom expression') := by
  refine Steps.current.bind fun token token' tokens => ?_
  obtain rfl : token = token' := tokens
  split
  next => exact nested.name
  next => exact literalToken fun _ _ => Literal.quoted_isLiteral
  next => exact literalToken fun _ _ => Literal.integer_isLiteral
  next =>
    rw [nested.contexts.env]
    exact literalToken fun _ _ => Literal.real_isLiteral
  next =>
    exact Steps.advance.bind fun _ _ _ => nested.steps.bind fun _ _ twin =>
      Steps.expect.bind fun _ _ _ => .pure twin
  next => exact .failHere

theorem suffixes (fuel : Nat) {e e' : Expr} (twin : w.Twin e e') :
    w.Steps (ctx.suffixes expression fuel e) (ctx'.suffixes expression' fuel e') := by
  induction fuel generalizing e e' with
  | zero => exact .pure twin
  | succ fuel ih =>
      refine Steps.current.bind fun token token' tokens => ?_
      obtain rfl : token = token' := tokens
      split
      next =>
        exact Steps.advance.bind fun _ _ _ => (nested.memberAccess twin.receiver).bind
          fun _ _ => ih
      next => exact (nested.elementAccess twin).bind fun _ _ => ih
      next => exact .failHere
      next => exact .pure twin

theorem primary : w.Steps (ctx.primary expression) (ctx'.primary expression') := by
  refine nested.atom.bind fun e e' twin => Steps.tokensLeft.bind fun fuel fuel' fuels => ?_
  obtain rfl : fuel = fuel' := fuels
  exact nested.suffixes (fuel + 1) twin

end Primary

end Nested

end Rerun

end QueryTree
