import QueryTree.Proofs.Compile.Text

/-!
# Restored surroundings

A compile only ever enters a scope or gives a name to an element for the time of a nested step.
The procedures of the grammar are listed here with the arguments that a compile calls them with,
and each of them is shown to leave the scopes and the element names as it found them, whether it
succeeds or fails.
-/

namespace QueryTree

namespace Parse

variable {α : Type}

/-- The state in which a step ends, whether it succeeds or fails. -/
def final (step : Parse α) (session : Session) : Session :=
  match step session with
  | .ok _ after => after
  | .error _ after => after

theorem Within.final_surroundings {step : Parse α} {holds : α → Prop}
    (within : ∀ tokens around, Within tokens around step holds) (session : Session) :
    (step.final session).surroundings = session.surroundings := by
  have reached := within _ session.surroundings session ⟨rfl, session.reads_ahead⟩
  rw [final]
  cases outcome : step session with
  | ok a after =>
      rw [outcome] at reached
      exact reached.1.1
  | error error after =>
      rw [outcome] at reached
      exact reached

end Parse

namespace CompileContext

/-- The procedures of the grammar that a compile runs.  `depth` bounds the nesting of the
expressions in them, and `fuel` the rounds of a loop over tokens. -/
inductive Procedure (ctx : CompileContext) : {α : Type} → Parse α → Prop where
  | body (expected? : Option Ty) : Procedure ctx (ctx.body expected?)
  | ordering (continues : Bool) : Procedure ctx (ctx.ordering continues)
  | sortKeys (fuel : Nat) (continues : Bool) : Procedure ctx (ctx.sortKeys fuel continues)
  | direction : Procedure ctx direction
  | wholeExpression : Procedure ctx ctx.wholeExpression
  | expression (depth : Nat) : Procedure ctx (ctx.expression depth)
  | conditional (depth : Nat) : Procedure ctx (ctx.conditional (ctx.expression depth))
  | coalescing (depth : Nat) : Procedure ctx (ctx.coalescing (ctx.expression depth))
  | arrow (depth : Nat) : Procedure ctx (ctx.arrow (ctx.expression depth))
  | disjunction (depth : Nat) : Procedure ctx (ctx.disjunction (ctx.expression depth))
  | conjunction (depth : Nat) : Procedure ctx (ctx.conjunction (ctx.expression depth))
  | membership (depth : Nat) : Procedure ctx (ctx.membership (ctx.expression depth))
  | membershipFrom (depth fuel : Nat) (value tested : Expr) :
      Procedure ctx (ctx.membershipFrom (ctx.expression depth) value fuel tested)
  | itemTests (depth fuel : Nat) (op : Token) (value : Expr) (tested : Option Expr)
      (isTest : ∀ e ∈ tested, e.type = .boolean) :
      Procedure ctx (ctx.itemTests (ctx.expression depth) op value fuel tested)
  | bits (depth : Nat) : Procedure ctx (ctx.bits (ctx.expression depth))
  | comparison (depth : Nat) : Procedure ctx (ctx.comparison (ctx.expression depth))
  | shift (depth : Nat) : Procedure ctx (ctx.shift (ctx.expression depth))
  | sum (depth : Nat) : Procedure ctx (ctx.sum (ctx.expression depth))
  | product (depth : Nat) : Procedure ctx (ctx.product (ctx.expression depth))
  | unary (depth : Nat) : Procedure ctx (ctx.unary (ctx.expression depth))
  | unaryFrom (depth fuel : Nat) : Procedure ctx (ctx.unaryFrom (ctx.expression depth) fuel)
  | primary (depth : Nat) : Procedure ctx (ctx.primary (ctx.expression depth))
  | suffixes (depth fuel : Nat) (e : Expr) :
      Procedure ctx (ctx.suffixes (ctx.expression depth) fuel e)
  | atom (depth : Nat) : Procedure ctx (ctx.atom (ctx.expression depth))
  | name (depth : Nat) : Procedure ctx (ctx.name (ctx.expression depth))
  | symbolExpr (depth : Nat) (symbol : Symbol) :
      Procedure ctx (ctx.symbolExpr (ctx.expression depth) symbol)
  | keyword (depth : Nat) (keyword : Keyword) :
      Procedure ctx (ctx.keyword (ctx.expression depth) keyword)
  | contextParameter (name : ContextName) : Procedure ctx (contextParameter name)
  | iifFunction (depth : Nat) : Procedure ctx (ctx.iifFunction (ctx.expression depth))
  | isnullFunction (depth : Nat) : Procedure ctx (ctx.isnullFunction (ctx.expression depth))
  | npFunction (depth : Nat) : Procedure ctx (ctx.npFunction (ctx.expression depth))
  | typeTestFunction (depth : Nat) (test : TypeTest) :
      Procedure ctx (ctx.typeTestFunction (ctx.expression depth) test)
  | functionArguments (depth : Nat) : Procedure ctx (functionArguments (ctx.expression depth))
  | construction (depth : Nat) : Procedure ctx (ctx.construction (ctx.expression depth))
  | constructionBody (depth position : Nat) :
      Procedure ctx (ctx.constructionBody (ctx.expression depth) position)
  | constructed (type? : Option Ty) (isArray : Bool) (position : Nat) (items : List NewItem) :
      Procedure ctx (ctx.constructed type? isArray position items)
  | newItems (depth fuel : Nat) (naming : ItemNaming) :
      Procedure ctx (NewItem.parseAll (ctx.expression depth) naming fuel)
  | newItem (depth : Nat) (naming : ItemNaming) :
      Procedure ctx (NewItem.parse (ctx.expression depth) naming)
  | newType (position : Nat) : Procedure ctx (ctx.newType? position)
  | qualifiedRest (fuel : Nat) (name : String) : Procedure ctx (qualifiedRest fuel name)
  | arrayMark : Procedure ctx arrayMark
  | projection (items : List NewItem) : Procedure ctx (ctx.projection items)
  | typeAccess (depth : Nat) (type : Ty) :
      Procedure ctx (ctx.typeAccess (ctx.expression depth) type)
  | nullableMark (type : Ty) : Procedure ctx (nullableMark type)
  | typeArgument (function : String) (position : Nat) (arg : Expr) :
      Procedure ctx (ctx.typeArgument function position arg)
  | functionCall (depth : Nat) (function : Expr) (params : List Ty) (result : Ty)
      (typed : function.type = .lambda params result) :
      Procedure ctx (ctx.functionCall (ctx.expression depth) function params result)
  | elementAccess (depth : Nat) (e : Expr) :
      Procedure ctx (ctx.elementAccess (ctx.expression depth) e)
  | memberAccess (depth : Nat) (receiver : Receiver) :
      Procedure ctx (ctx.memberAccess (ctx.expression depth) receiver)
  /-- What follows the arrow behind a name for the element. -/
  | namedBody (depth : Nat) (key : String) (element : Parameter) :
      Procedure ctx (Parse.withInternal key element do
        Parse.advance
        ctx.expression depth)
  | sequenceCall (depth : Nat) (receiver : Receiver) (source : Expr) (operation : Aggregate)
      (element : Ty) (name : String) (position : Nat)
      (isOperation : ctx.sequenceOperation? receiver name = some (source, operation, element)) :
      Procedure ctx
        (operation.parseCall ctx (ctx.expression depth) source element name position)
  /-- The arguments of a sequence operation in their scope. -/
  | scopedArguments (depth : Nat) (frame : ScopeFrame) :
      Procedure ctx (Parse.withScope frame (Parse.argumentList (ctx.expression depth)))
  | argumentList (depth : Nat) : Procedure ctx (Parse.argumentList (ctx.expression depth))
  | commaList (depth : Nat) : Procedure ctx (Parse.commaList (ctx.expression depth))

variable {ctx : CompileContext} {tokens : List Token}

/-- For the sake of the surroundings alone every expression may be taken for granted. -/
private theorem nested_expression (depth : Nat) :
    ctx.Nested tokens (fun _ => True) (ctx.expression depth) :=
  ⟨fun _ _ _ => trivial, expression_yields (fun _ _ _ => trivial) depth⟩

/-- Every procedure stays within its surroundings. -/
theorem Procedure.within {α : Type} {step : Parse α} (procedure : ctx.Procedure step)
    (around : Surroundings) : Parse.Within tokens around step fun _ => True := by
  have granted {visible : Parameter → Prop} (e : Expr) :
      ctx.Built tokens (fun _ => True) visible e := .granted trivial
  have weaken {α : Type} {step : Parse α} {holds : α → Prop}
      (within : Parse.Within tokens around step holds) :
      Parse.Within tokens around step fun _ => True :=
    within.imp fun _ _ => trivial
  cases procedure with
  | body expected? => exact weaken (body_yields (fun _ _ _ => trivial) expected? around)
  | ordering continues => exact weaken (ordering_within (fun _ _ _ => trivial) continues)
  | sortKeys fuel continues => exact weaken (sortKeys_within (fun _ _ _ => trivial) fuel continues)
  | direction => exact direction_within
  | wholeExpression => exact weaken (wholeExpression_yields (fun _ _ _ => trivial) around)
  | expression depth => exact weaken ((nested_expression depth).yields around)
  | conditional depth => exact weaken (conditional_yields (nested_expression depth) around)
  | coalescing depth => exact weaken (coalescing_yields (nested_expression depth))
  | arrow depth => exact weaken (arrow_yields (nested_expression depth))
  | disjunction depth => exact weaken (disjunction_yields (nested_expression depth))
  | conjunction depth => exact weaken (conjunction_yields (nested_expression depth))
  | membership depth => exact weaken (membership_yields (nested_expression depth))
  | membershipFrom depth fuel value tested =>
      exact weaken
        (membershipFrom_yields (nested_expression depth) (granted value) fuel (granted tested))
  | itemTests depth fuel op value tested isTest =>
      exact weaken (itemTests_yields (nested_expression depth) (granted value) fuel
        fun e isTested => ⟨granted e, isTest e isTested⟩)
  | bits depth => exact weaken (bits_yields (nested_expression depth))
  | comparison depth => exact weaken (comparison_yields (nested_expression depth))
  | shift depth => exact weaken (shift_yields (nested_expression depth))
  | sum depth => exact weaken (sum_yields (nested_expression depth))
  | product depth => exact weaken (product_yields (nested_expression depth))
  | unary depth => exact weaken (unary_yields (nested_expression depth))
  | unaryFrom depth fuel => exact weaken (unaryFrom_yields (nested_expression depth) fuel)
  | primary depth => exact weaken (primary_yields (nested_expression depth))
  | suffixes depth fuel e =>
      exact weaken (suffixes_yields (nested_expression depth) fuel (granted e))
  | atom depth => exact weaken (atom_yields (nested_expression depth))
  | name depth => exact weaken (name_yields (nested_expression depth))
  | symbolExpr depth symbol =>
      exact weaken
        (symbolExpr_yields (nested_expression depth) (fun _ _ => granted _) (fun _ _ => granted _)
          fun e _ => granted e)
  | keyword depth keyword =>
      exact weaken (keyword_yields (nested_expression depth) fun _ _ => granted _)
  | contextParameter name =>
      have yields : Parse.Within tokens around (CompileContext.contextParameter name)
          (ctx.Built tokens (fun _ => True) (ctx.Visible around)) := contextParameter_yields
      exact weaken yields
  | iifFunction depth => exact weaken (iifFunction_yields (nested_expression depth))
  | isnullFunction depth => exact weaken (isnullFunction_yields (nested_expression depth))
  | npFunction depth => exact weaken (npFunction_yields (nested_expression depth))
  | typeTestFunction depth test => exact weaken (typeTestFunction_yields (nested_expression depth))
  | functionArguments depth => exact weaken (functionArguments_within (nested_expression depth))
  | construction depth => exact weaken (construction_yields (nested_expression depth))
  | constructionBody depth position =>
      exact weaken (constructionBody_yields (nested_expression depth))
  | constructed type? isArray position items =>
      exact weaken (constructed_yields fun item _ => granted item.value)
  | newItems depth fuel naming => exact weaken (newItems_within (nested_expression depth) fuel)
  | newItem depth naming => exact weaken (newItem_within (nested_expression depth))
  | newType position => exact newType_within
  | qualifiedRest fuel name => exact qualifiedRest_within fuel name
  | arrayMark => exact arrayMark_within
  | projection items => exact weaken (projection_yields fun item _ => granted item.value)
  | typeAccess depth type => exact weaken (typeAccess_yields (nested_expression depth) type)
  | nullableMark type => exact nullableMark_within
  | typeArgument function position arg => exact typeArgument_within
  | functionCall depth function params result typed =>
      exact weaken (functionCall_yields (nested_expression depth) (granted function) typed)
  | elementAccess depth e =>
      exact weaken (elementAccess_yields (nested_expression depth) (granted e))
  | memberAccess depth receiver =>
      exact weaken (memberAccess_yields (nested_expression depth) fun r _ => granted r)
  | namedBody depth key element =>
      exact .withInternal (.bind .advance fun _ _ => ((nested_expression depth).yields _).imp
        fun _ _ => trivial)
  | sequenceCall depth receiver source operation element name position isOperation =>
      obtain ⟨-, named, elements⟩ := sequenceOperation?_eq_some isOperation
      exact weaken (parseCall_yields (nested_expression depth) named elements (granted source))
  | scopedArguments depth frame =>
      exact .withScope ((Parse.Within.argumentList ((nested_expression depth).yields _)).imp
        fun _ _ => trivial)
  | argumentList depth => exact weaken (.argumentList ((nested_expression depth).yields around))
  | commaList depth => exact weaken (.commaList ((nested_expression depth).yields around))

/-- Every procedure ends with the scopes and the element names that it started with, so that the
parameters of the innermost scope and all names mean afterwards what they meant before; and a whole
text ends with nothing but the outermost scope and without element names. -/
theorem surroundings_restored (ctx : CompileContext) :
    (∀ {α : Type} {step : Parse α}, ctx.Procedure step → ∀ session,
      (step.final session).scopes = session.scopes ∧
        (step.final session).internals = session.internals ∧
        (step.final session).scopes.current = session.scopes.current ∧
        ∀ key, ctx.symbol? (step.final session).internals key =
          ctx.symbol? session.internals key) ∧
      ∀ scan params store session, Session.start scan params store = .ok session →
        ∀ ended, (∃ expected?, ended = (ctx.body expected?).final session) ∨
            (∃ continues, ended = (ctx.ordering continues).final session) →
          ended.scopes = .of (.outermost (Session.initialElement? params)) ∧
            ended.internals = .empty := by
  have restored {α : Type} {step : Parse α} (procedure : ctx.Procedure step)
      (session : Session) : (step.final session).surroundings = session.surroundings :=
    Parse.Within.final_surroundings (fun _ => procedure.within) session
  refine ⟨fun procedure session => ?_, fun scan params store session start ended whole => ?_⟩
  · have scopes := congrArg Surroundings.scopes (restored procedure session)
    have names := congrArg Surroundings.names (restored procedure session)
    simp only [Session.surroundings] at scopes names
    exact ⟨scopes, names, by rw [scopes], fun key => by rw [names]⟩
  · have unchanged : ended.surroundings = session.surroundings := by
      obtain ⟨expected?, rfl⟩ | ⟨continues, rfl⟩ := whole
      · exact restored (.body expected?) session
      · exact restored (.ordering continues) session
    have initial : session.surroundings =
        ⟨.of (.outermost (Session.initialElement? params)), .empty⟩ :=
      Session.start_surroundings start
    rw [initial] at unchanged
    exact ⟨congrArg Surroundings.scopes unchanged, congrArg Surroundings.names unchanged⟩

/-- The call `xs.Any(it)`, in whose arguments `it` is an element. -/
def anyCall : Scan where
  tokens := [⟨.identifier, "xs", 0⟩, ⟨.dot, ".", 2⟩, ⟨.identifier, "Any", 3⟩,
    ⟨.openParen, "(", 6⟩, ⟨.identifier, "it", 7⟩, ⟨.closeParen, ")", 9⟩, ⟨.finish, "", 10⟩]
  failure := none

/-- A compile over a sequence of truth values. -/
def overFlags : CompileContext where
  env := .of .initial .empty .initial
  symbols := [("xs", .parameter ⟨0, "xs", .array .boolean⟩)]
  externals := []

theorem surroundings_restored_anyCall :
    ∃ session, Session.start anyCall [⟨0, "xs", .array .boolean⟩] .initial = .ok session ∧
      ((overFlags.body none).final session).current.kind = .finish ∧
      ((overFlags.expression 3).final session).internals = session.internals ∧
      ((overFlags.body none).final session).scopes = .of (.outermost none) ∧
      ((overFlags.body none).final session).internals = .empty := by
  obtain ⟨procedures, texts⟩ := surroundings_restored overFlags
  refine ⟨_, rfl, by decide +kernel, (procedures (.expression 3) _).2.1, ?_⟩
  exact texts anyCall [⟨0, "xs", .array .boolean⟩] .initial _ rfl _ (.inl ⟨none, rfl⟩)

end CompileContext

end QueryTree
