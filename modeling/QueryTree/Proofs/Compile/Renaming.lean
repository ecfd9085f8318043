import QueryTree.Proofs.Compile.Text

/-!
# Environments that name alike

A compile reads the registry and the keywords of its environment only through four questions: what a
name means as a keyword, whether a type or its name is known, and what type a name resolves to.  Two
environments that differ in nothing but the registry and the keywords, and answer these questions
alike, compile every text to the same result.
-/

namespace QueryTree

/-- The environment with another registry and other keywords. -/
def Environment.rename (env : Environment) (registry : TypeRegistry) (keywords : KeywordTable) :
    Environment :=
  { env with registry := registry, keywords := keywords }

/-- A registry and keywords that answer all questions as those of an environment do. -/
structure Environment.NamesAlike (env : Environment) (registry : TypeRegistry)
    (keywords : KeywordTable) : Prop where
  keyword? : ∀ name, (env.rename registry keywords).keyword? name = env.keyword? name
  knowsType : ∀ type, (env.rename registry keywords).knowsType type = env.knowsType type
  knowsTypeName : ∀ name,
    (env.rename registry keywords).knowsTypeName name = env.knowsTypeName name
  resolveType? : ∀ name scope anyType,
    (env.rename registry keywords).resolveType? name scope anyType
      = env.resolveType? name scope anyType

/-- The context with another registry and other keywords. -/
def CompileContext.rename (ctx : CompileContext) (registry : TypeRegistry)
    (keywords : KeywordTable) : CompileContext :=
  { ctx with env := ctx.env.rename registry keywords }

section

variable {ctx : CompileContext} {registry : TypeRegistry} {keywords : KeywordTable}
  (alike : ctx.env.NamesAlike registry keywords)

include alike

theorem CompileContext.mayCall_rename : (ctx.rename registry keywords).mayCall = ctx.mayCall := by
  funext method
  have known : (ctx.rename registry keywords).env.knowsType = ctx.env.knowsType :=
    funext alike.knowsType
  rw [mayCall, mayCall, known]
  exact congrArg (· || _) (alike.knowsTypeName _)

theorem CompileContext.methodCall_rename :
    (ctx.rename registry keywords).methodCall = ctx.methodCall := by
  funext receiver name position args
  simp only [methodCall, mayCall_rename alike]
  rfl

theorem CompileContext.typeArgument_rename :
    (ctx.rename registry keywords).typeArgument = ctx.typeArgument := by
  funext function position arg
  have resolve (name : String) (scope : List Ty) (anyType : Bool) :
      (ctx.rename registry keywords).env.resolveType? name scope anyType
        = ctx.env.resolveType? name scope anyType :=
    alike.resolveType? name scope anyType
  simp only [typeArgument, resolve]

theorem Aggregate.parseCall_rename :
    parseCall (ctx.rename registry keywords) = parseCall ctx := by
  funext expression operation source element name position
  simp only [parseCall, CompileContext.typeArgument_rename alike]
  rfl

namespace CompileContext

theorem memberAccess_rename :
    (ctx.rename registry keywords).memberAccess = ctx.memberAccess := by
  funext expression receiver
  simp only [memberAccess, Aggregate.parseCall_rename alike, methodCall_rename alike]
  rfl

theorem typeAccess_rename : (ctx.rename registry keywords).typeAccess = ctx.typeAccess := by
  funext expression type
  simp only [typeAccess, memberAccess_rename alike]
  rfl

theorem newType?_rename : (ctx.rename registry keywords).newType? = ctx.newType? := by
  funext position
  have resolve (name : String) (scope : List Ty) (anyType : Bool) :
      (ctx.rename registry keywords).env.resolveType? name scope anyType
        = ctx.env.resolveType? name scope anyType :=
    alike.resolveType? name scope anyType
  simp only [newType?, resolve]

omit alike in
theorem constructed_rename : (ctx.rename registry keywords).constructed = ctx.constructed := by
  have item (element : Ty) (position : Nat) (es : List Expr) :
      (ctx.rename registry keywords).arrayItems element position es
        = ctx.arrayItems element position es := by
    induction es with
    | nil => rfl
    | cons e rest ih =>
        simp only [arrayItems, ih]
        rfl
  have bound (type : Ty) (items : List NewItem) :
      (ctx.rename registry keywords).bindings type items = ctx.bindings type items := by
    induction items with
    | nil => rfl
    | cons first rest ih =>
        simp only [bindings, ih]
        rfl
  funext type? isArray position items
  simp only [constructed, newArray, newOfType, item, bound]
  rfl

theorem construction_rename :
    (ctx.rename registry keywords).construction = ctx.construction := by
  funext expression
  simp only [construction, constructionBody, newType?_rename alike, constructed_rename]

theorem typeTestFunction_rename :
    (ctx.rename registry keywords).typeTestFunction = ctx.typeTestFunction := by
  funext expression test
  simp only [typeTestFunction, typeArgument_rename alike]

theorem keyword_rename : (ctx.rename registry keywords).keyword = ctx.keyword := by
  funext expression keyword
  cases keyword with
  | new => exact congrFun (construction_rename alike) expression
  | typeTest test => exact congrFun (congrFun (typeTestFunction_rename alike) expression) test
  | type t => simp only [CompileContext.keyword, typeAccess_rename alike]
  | _ => rfl

theorem symbolExpr_rename : (ctx.rename registry keywords).symbolExpr = ctx.symbolExpr := by
  funext expression symbol
  cases symbol with
  | value v =>
      cases v with
      | type t => exact congrFun (congrFun (typeAccess_rename alike) expression) t
      | _ => rfl
  | _ => rfl

theorem visibleKeyword?_rename :
    (ctx.rename registry keywords).visibleKeyword? = ctx.visibleKeyword? := by
  funext frame text
  have meaning : (ctx.rename registry keywords).env.keyword? text = ctx.env.keyword? text :=
    alike.keyword? text
  rw [visibleKeyword?, visibleKeyword?, meaning]
  rfl

theorem name_rename : (ctx.rename registry keywords).name = ctx.name := by
  funext expression
  simp only [name, visibleKeyword?_rename alike, keyword_rename alike, symbolExpr_rename alike,
    memberAccess_rename alike]
  rfl

theorem atom_rename : (ctx.rename registry keywords).atom = ctx.atom := by
  funext expression
  simp only [atom, name_rename alike]
  rfl

theorem suffixes_rename : (ctx.rename registry keywords).suffixes = ctx.suffixes := by
  funext expression fuel
  induction fuel with
  | zero => rfl
  | succ fuel ih =>
      funext e
      simp only [suffixes, ih, memberAccess_rename alike]
      rfl

theorem primary_rename : (ctx.rename registry keywords).primary = ctx.primary := by
  funext expression
  simp only [primary, atom_rename alike, suffixes_rename alike]

theorem unary_rename : (ctx.rename registry keywords).unary = ctx.unary := by
  have each (expression : Parse Expr) (fuel : Nat) :
      (ctx.rename registry keywords).unaryFrom expression fuel = ctx.unaryFrom expression fuel := by
    induction fuel with
    | zero => exact congrFun (primary_rename alike) expression
    | succ fuel ih =>
        simp only [unaryFrom, ih, primary_rename alike]
        rfl
  funext expression
  simp only [unary, each]

theorem bits_rename : (ctx.rename registry keywords).bits = ctx.bits := by
  funext expression
  simp only [bits, comparison, shift, sum, product, unary_rename alike]
  rfl

theorem itemTests_rename : (ctx.rename registry keywords).itemTests = ctx.itemTests := by
  funext expression op value fuel
  induction fuel with
  | zero => rfl
  | succ fuel ih =>
      funext tested
      simp only [itemTests, ih, unary_rename alike]
      rfl

theorem membership_rename : (ctx.rename registry keywords).membership = ctx.membership := by
  have each (expression : Parse Expr) (value : Expr) (fuel : Nat) :
      (ctx.rename registry keywords).membershipFrom expression value fuel
        = ctx.membershipFrom expression value fuel := by
    induction fuel with
    | zero => rfl
    | succ fuel ih =>
        funext tested
        simp only [membershipFrom, ih, itemTests_rename alike, primary_rename alike]
        rfl
  funext expression
  simp only [membership, each, bits_rename alike]

theorem conditional_rename : (ctx.rename registry keywords).conditional = ctx.conditional := by
  funext expression
  simp only [conditional, coalescing, arrow, disjunction, conjunction, membership_rename alike]
  rfl

theorem wholeExpression_rename :
    (ctx.rename registry keywords).wholeExpression = ctx.wholeExpression := by
  have each (depth : Nat) :
      (ctx.rename registry keywords).expression depth = ctx.expression depth := by
    induction depth with
    | zero => rfl
    | succ depth ih => rw [expression, expression, ih, conditional_rename alike]
  simp only [wholeExpression, each]

theorem body_rename : (ctx.rename registry keywords).body = ctx.body := by
  funext expected?
  simp only [body, wholeExpression_rename alike]
  rfl

theorem ordering_rename : (ctx.rename registry keywords).ordering = ctx.ordering := by
  have each (fuel : Nat) :
      (ctx.rename registry keywords).sortKeys fuel = ctx.sortKeys fuel := by
    induction fuel with
    | zero => rfl
    | succ fuel ih =>
        funext continues
        simp only [sortKeys, ih, wholeExpression_rename alike]
  funext continues
  simp only [ordering, each]

end CompileContext

end

variable {env : Environment} {registry : TypeRegistry} {keywords : KeywordTable}

theorem CompileContext.of_rename (params : List Parameter) (args : List Argument) :
    CompileContext.of (env.rename registry keywords) params args
      = (CompileContext.of env params args).map (·.rename registry keywords) := by
  simp only [CompileContext.of]
  change (foldSymbols env.options _ _ >>= _) = _
  cases foldSymbols env.options [] (parameterSymbols params ++ argumentSymbols 0 args) <;> rfl

/-- A step that is the same for both contexts makes the same of a whole text. -/
theorem compileText_rename {α : Type} {step : CompileContext → Parse α}
    (same : ∀ ctx : CompileContext, ctx.env = env → step (ctx.rename registry keywords) = step ctx)
    (params : List Parameter) (args : List Argument) (text : String) (store : Store) :
    compileText (env.rename registry keywords) params args text step store
      = compileText env params args text step store := by
  unfold compileText
  rw [CompileContext.of_rename]
  cases context : CompileContext.of env params args with
  | error error => rfl
  | ok ctx =>
      simp only [Except.map, same ctx (CompileContext.of_env context)]
      rfl

/-- A text compiles to the same function, in the same store, where everything is named alike. -/
theorem compileFunction_rename (alike : env.NamesAlike registry keywords)
    (params : List Parameter) (expected? : Option Ty) (text : String) (args : List Argument)
    (store : Store) :
    compileFunction (env.rename registry keywords) params expected? text args store
      = compileFunction env params expected? text args store := by
  unfold compileFunction compileExpr
  rw [compileText_rename]
  rintro ctx rfl
  rw [CompileContext.body_rename alike]

theorem compileOrdering_rename (alike : env.NamesAlike registry keywords)
    (params : List Parameter) (continues : Bool) (text : String) (args : List Argument)
    (store : Store) :
    compileOrdering (env.rename registry keywords) params continues text args store
      = compileOrdering env params continues text args store := by
  unfold compileOrdering
  rw [compileText_rename]
  rintro ctx rfl
  rw [CompileContext.ordering_rename alike]

end QueryTree
