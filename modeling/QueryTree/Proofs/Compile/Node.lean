import QueryTree.Proofs.Compile.Operation
import QueryTree.Proofs.Compile.Text

/-!
# Nodes of built trees

Rules that every node of a built tree keeps.  Three kinds of nodes have to be looked at: the calls
of methods, the comparisons, and the other binary operations, which never call a method; and, for a
rule about constants, the constants that tokens and names stand for and the steps that adapt them.
-/

namespace QueryTree

namespace Expr

/-- Whether a node is a binary operation or the call of a method. -/
def isOperation : Expr → Bool
  | binary _ _ _ _ _ | staticCall _ _ _ | methodCall _ _ _ _ => true
  | _ => false

end Expr

namespace CompileContext

open QueryTree.Expr (Adapted Everywhere)

theorem isComparison_of_joins {token : Token} {op : BinaryOp}
    (joins : productOperator? token = some op ∨ shiftOperator? token = some op ∨
      andOperator? token = some op ∨ orOperator? token = some op) : op.isComparison = false := by
  obtain isProduct | isShift | isLogical := joins
  · obtain rfl | rfl | rfl := productOperator?_eq_some isProduct <;> rfl
  · obtain rfl | rfl := shiftOperator?_eq_some isShift <;> rfl
  · obtain rfl | rfl := logicalOperator_cases isLogical <;> rfl

/-- A rule that the nodes keep that the operations of the grammar put on top, the constants that the
tokens of a text and its names stand for, and the expressions that an expression is adapted to. -/
structure NodesKeep (ctx : CompileContext) (tokens : List Token) (rule : Expr → Prop) : Prop where
  other : ∀ node : Expr, node.isOperation = false → node.isConstant = false → rule node
  operation : ∀ type op left right, (op.isComparison = true → op.isEquality = true) →
    rule (.binary type op left right none)
  comparison : ∀ token op left right e, comparisonOperator? token = some op →
    Expr.comparison ctx.env.classes op token left right = .ok e → rule e
  call : ∀ (receiver : Receiver) type method args,
    method ∈ receiver.memberType.methods ctx.env.classes → ctx.mayCall method = true →
      rule (receiver.call type method args)
  literal : ∀ e, Literal.ReadFrom tokens e → rule e
  value : ∀ v, ctx.NamesValue v → rule (.ofValue v.naturalType v)
  type : ∀ t, rule (.ofValue .type (.type t))
  null : ∀ type, rule (.nullOf type)
  member : ∀ type enum token n, Token.Met tokens token → type.enum? = some enum →
    enum.valueOf? (Parse.unescapedName token.text) = some n → rule (.ofValue type (.enum enum n))
  name : ∀ token, Token.Met tokens token →
    rule (.ofValue .string (.string (Parse.unescapedName token.text)))
  adapted : ∀ e e', Adapted ctx.env.classes e e' → rule e → rule e'

namespace NodesKeep

variable {ctx : CompileContext} {tokens : List Token} {rule : Expr → Prop}

/-- A rule about operations only. -/
theorem of_operations (other : ∀ node : Expr, node.isOperation = false → rule node)
    (operation : ∀ type op left right, (op.isComparison = true → op.isEquality = true) →
      rule (.binary type op left right none))
    (comparison : ∀ token op left right e, comparisonOperator? token = some op →
      Expr.comparison ctx.env.classes op token left right = .ok e → rule e)
    (call : ∀ (receiver : Receiver) type method args,
      method ∈ receiver.memberType.methods ctx.env.classes → ctx.mayCall method = true →
        rule (receiver.call type method args)) : ctx.NodesKeep tokens rule where
  other node isOther _ := other node isOther
  operation := operation
  comparison := comparison
  call := call
  literal e read := by
    obtain ⟨value, text, rfl, -⟩ := read.isLiteral
    exact other _ rfl
  value _ _ := other _ rfl
  type _ := other _ rfl
  null _ := other _ rfl
  member _ _ _ _ _ _ _ := other _ rfl
  name _ _ := other _ rfl
  adapted e e' isAdapted keeps := by
    cases isAdapted.recast with
    | same => exact keeps
    | constant => exact other _ rfl
    | convert => exact other _ rfl

variable (keep : ctx.NodesKeep tokens rule)

include keep

theorem null_everywhere (type : Ty) : (Expr.nullOf type).Everywhere rule :=
  .leaf (keep.null type) rfl

/-- What an expression is adapted to has no other children than the expression or what it is
adapted to before. -/
theorem adapted_everywhere {e e' : Expr} (isAdapted : Adapted ctx.env.classes e e')
    (everywhere : e.Everywhere rule) : e'.Everywhere rule := by
  have here {e' : Expr} (isAdapted : Adapted ctx.env.classes e e') : rule e' :=
    keep.adapted e e' isAdapted everywhere.at_root
  induction isAdapted with
  | same => exact everywhere
  | promoted before outcome first_keeps =>
      obtain ⟨rfl, -⟩ | ⟨_, _, -, rfl⟩ | ⟨rfl, -⟩ | ⟨rfl, -⟩ := Expr.promote?_cases outcome
      · exact first_keeps
      · exact .leaf (here (.promoted before outcome)) rfl
      · exact .node (here (.promoted before outcome)) (by simpa [Expr.children] using first_keeps)
      · exact first_keeps
  | read before outcome =>
      have read_keeps := here (.read before outcome)
      obtain ⟨text, value, -, -, rfl⟩ := Expr.readText?_eq_ok outcome
      exact .leaf read_keeps rfl
  | integer before outcome => exact .leaf (here (.integer before outcome)) rfl
  | member before taken =>
      have member_keeps := here (.member before taken)
      obtain ⟨op, outcome, -⟩ := taken
      obtain ⟨enum, n, -, rfl⟩ := Expr.enumConstant_eq_ok outcome
      exact .leaf member_keeps rfl
  | null => exact keep.null_everywhere _
  | convert before first_keeps =>
      exact .node (here (.convert before)) (by simpa [Expr.children] using first_keeps)

theorem adapted_everywhere_all {es all : List Expr}
    (areAdapted : List.Forall₂ (Adapted ctx.env.classes) es all)
    (each : ∀ e ∈ es, e.Everywhere rule) : ∀ e ∈ all, e.Everywhere rule := by
  induction areAdapted with
  | nil => simp
  | cons isAdapted _ ih =>
      obtain ⟨head, tail⟩ := List.forall_mem_cons.mp each
      exact List.forall_mem_cons.mpr ⟨keep.adapted_everywhere isAdapted head, ih tail⟩

theorem binary {type : Ty} {op : BinaryOp} {left right left' right' : Expr}
    (noOrdering : op.isComparison = true → op.isEquality = true) (left_keeps : left.Everywhere rule)
    (right_keeps : right.Everywhere rule) (left_adapted : Adapted ctx.env.classes left left')
    (right_adapted : Adapted ctx.env.classes right right') :
    (Expr.binary type op left' right' none).Everywhere rule := by
  refine .node (keep.operation type op left' right' noOrdering) ?_
  simp [Expr.children, keep.adapted_everywhere left_adapted left_keeps,
    keep.adapted_everywhere right_adapted right_keeps]

/-- An operation of a group that contains no comparison. -/
theorem ofGroup {group : OperatorGroup} {op : BinaryOp} {token : Token} {left right e : Expr}
    (noComparison : op.isComparison = false) (left_keeps : left.Everywhere rule)
    (right_keeps : right.Everywhere rule)
    (outcome : Expr.ofGroup ctx.env.classes group op token left right = .ok e) :
    e.Everywhere rule := by
  obtain ⟨l, r, rfl, l_adapted, r_adapted, -⟩ := Expr.ofGroup_cases outcome
  exact keep.binary (fun isComparison => by simp [noComparison] at isComparison) left_keeps
    right_keeps l_adapted r_adapted

theorem concatenation {left right e : Expr} (left_keeps : left.Everywhere rule)
    (right_keeps : right.Everywhere rule)
    (concatenates : Expr.Concatenates ctx.env.classes left right e) : e.Everywhere rule := by
  obtain ⟨args, rfl, areAdapted, -⟩ := concatenates
  have isMethod : Expr.concatMethod ∈ Ty.methods ctx.env.classes .string :=
    List.mem_of_getElem? (show (Ty.methods ctx.env.classes .string)[13]? = _ from rfl)
  have isText : predefinedTypes.any (·.1 == Expr.concatMethod.declaringType) = true := by decide
  have known : ctx.mayCall Expr.concatMethod = true := by
    rw [mayCall, Environment.knowsTypeName, isText]
    rfl
  exact .node (keep.call (.type .string) .string _ args isMethod known)
    (keep.adapted_everywhere_all areAdapted (by simp [left_keeps, right_keeps]))

theorem choose {position : Nat} {condition ifTrue ifFalse e : Expr}
    (test_keeps : condition.Everywhere rule) (true_keeps : ifTrue.Everywhere rule)
    (false_keeps : ifFalse.Everywhere rule)
    (outcome : Expr.choose ctx.env.classes position condition ifTrue ifFalse = .ok e) :
    e.Everywhere rule := by
  obtain ⟨ifTrue', ifFalse', rfl, -, true_adapted, false_adapted, -⟩ := Expr.choose_cases outcome
  refine .node (keep.other _ rfl rfl) ?_
  simp [Expr.children, test_keeps, keep.adapted_everywhere true_adapted true_keeps,
    keep.adapted_everywhere false_adapted false_keeps]

theorem allTests {first : Expr} {others : List Expr}
    (each : ∀ e ∈ first :: others, e.Everywhere rule) :
    (others.foldl (Expr.test .andAlso) first).Everywhere rule := by
  induction others generalizing first with
  | nil => exact each first (by simp)
  | cons next others ih =>
      obtain ⟨first_keeps, next_keeps, rest⟩ : first.Everywhere rule ∧ next.Everywhere rule ∧
          ∀ e ∈ others, e.Everywhere rule := by
        simpa only [List.forall_mem_cons] using each
      exact ih (List.forall_mem_cons.mpr
        ⟨keep.binary nofun first_keeps next_keeps .same .same, rest⟩)

theorem propagateNull {position : Nat} {chain e : Expr} {default? : Option Expr}
    (chain_keeps : chain.Everywhere rule) (default_keeps : ∀ d ∈ default?, d.Everywhere rule)
    (outcome : chain.propagateNull ctx.env.classes position default? = .ok e) :
    e.Everywhere rule := by
  obtain rfl | ⟨first, others, tests, chosen⟩ := Expr.propagateNull_cases outcome
  · exact chain_keeps
  · have each : ∀ e ∈ first :: others, e.Everywhere rule := by
      rw [tests]
      intro e isTest
      obtain ⟨part, isGuarded, rfl⟩ := List.mem_map.mp isTest
      have part_keeps : part.Everywhere rule := by
        obtain rfl | isReceiver := Expr.guarded_eq isGuarded
        · exact chain_keeps
        · exact chain_keeps.chainReceivers part isReceiver
      exact keep.binary (fun _ => rfl) part_keeps (keep.null_everywhere _) .same .same
    refine keep.choose (keep.allTests each) chain_keeps ?_ chosen
    cases default? with
    | none => exact keep.null_everywhere _
    | some d => exact default_keeps d rfl

theorem call_keeps {receiver : Receiver} {type : Ty} {method : Method} {args : List Expr}
    (receiver_keeps : ∀ r ∈ receiver.value?, r.Everywhere rule)
    (isMethod : method ∈ receiver.memberType.methods ctx.env.classes)
    (known : ctx.mayCall method = true) (args_keep : ∀ a ∈ args, a.Everywhere rule) :
    (receiver.call type method args).Everywhere rule := by
  refine .node (keep.call receiver type method args isMethod known) ?_
  cases receiver with
  | type t => exact args_keep
  | value r => exact List.forall_mem_cons.mpr ⟨receiver_keeps r rfl, args_keep⟩

theorem access_keeps {receiver : Receiver} {m : Member}
    (receiver_keeps : ∀ r ∈ receiver.value?, r.Everywhere rule) :
    (receiver.access m).Everywhere rule := by
  cases receiver with
  | type t => exact .leaf (keep.other _ rfl rfl) rfl
  | value r =>
      exact .node (keep.other _ rfl rfl)
        (by simpa [Receiver.access, Expr.children] using receiver_keeps r rfl)

theorem constructOf {type : Ty} {position : Nat} {args : List Expr} {e : Expr}
    (args_keep : ∀ a ∈ args, a.Everywhere rule)
    (outcome : Expr.constructOf ctx.env.classes type position args = .ok e) :
    e.Everywhere rule := by
  obtain ⟨arg, rfl, isAdapted⟩ | ⟨params, args', rfl, areAdapted, -⟩ :=
    Expr.constructOf_cases outcome
  · exact keep.adapted_everywhere isAdapted (args_keep arg (by simp))
  · exact .node (keep.other _ rfl rfl) (keep.adapted_everywhere_all areAdapted args_keep)

/-- A rule that the nodes of the grammar keep holds of every node of a built tree, if it holds of
every node of the trees that are taken for granted. -/
theorem built {granted : Expr → Prop} {visible : Parameter → Prop} {e : Expr}
    (granted_keeps : ∀ e, granted e → e.Everywhere rule)
    (built : ctx.Built tokens granted visible e) : e.Everywhere rule := by
  have noOrdering {isEquality : Prop} (isComparison : false = true) : isEquality :=
    absurd isComparison Bool.false_ne_true
  induction built with
  | literal read =>
      have here := keep.literal _ read
      obtain ⟨value, text, rfl, -⟩ := read.isLiteral
      exact .leaf here rfl
  | value named => exact .leaf (keep.value _ named) rfl
  | null => exact keep.null_everywhere _
  | type => exact .leaf (keep.type _) rfl
  | parameter => exact .leaf (keep.other _ rfl rfl) rfl
  | granted isGranted => exact granted_keeps _ isGranted
  | invoke _ _ _ fits target each =>
      refine .node (keep.other _ rfl rfl) (List.forall_mem_cons.mpr ⟨target, ?_⟩)
      exact keep.adapted_everywhere_all (Expr.promoteAll?_adapted fits) each
  | sign _ outcome inner =>
      obtain ⟨operand', isAdapted, rfl | rfl⟩ := Expr.sign_cases outcome
      · exact .node (keep.other _ rfl rfl)
          (by simpa [Expr.children] using keep.adapted_everywhere isAdapted inner)
      · exact .node (keep.other _ rfl rfl)
          (by simpa [Expr.children] using keep.adapted_everywhere isAdapted inner)
  | product isOperator _ _ outcome left right =>
      exact keep.ofGroup (isComparison_of_joins (.inl isOperator)) left right outcome
  | sum _ _ outcome left right =>
      obtain concatenates | ⟨l, r, rfl, l_adapted, r_adapted, -⟩ := Expr.sum_cases outcome
      · exact keep.concatenation left right concatenates
      · exact keep.binary noOrdering left right l_adapted r_adapted
  | difference _ _ outcome left right =>
      obtain ⟨l, r, rfl, l_adapted, r_adapted, -⟩ := Expr.difference_cases outcome
      exact keep.binary noOrdering left right l_adapted r_adapted
  | shift isOperator _ _ outcome left right =>
      exact keep.ofGroup (isComparison_of_joins (.inr (.inl isOperator))) left right outcome
  | comparison isOperator _ _ outcome left right =>
      have here := keep.comparison _ _ _ _ _ isOperator outcome
      obtain ⟨l, r, method, rfl, l_adapted, r_adapted, -⟩ := Expr.comparison_cases outcome
      refine .node here ?_
      simp [Expr.children, keep.adapted_everywhere l_adapted left,
        keep.adapted_everywhere r_adapted right]
  | bitConjunction _ _ outcome left right =>
      obtain ⟨left₁, right₁, left_adapted, right_adapted, concatenates |
        ⟨l, r, rfl, l_adapted, r_adapted, -⟩⟩ := Expr.conjunction_cases outcome
      · exact keep.concatenation (keep.adapted_everywhere left_adapted left)
          (keep.adapted_everywhere right_adapted right) concatenates
      · exact keep.binary noOrdering left right (left_adapted.trans l_adapted)
          (right_adapted.trans r_adapted)
  | bitDisjunction _ _ outcome left right =>
      obtain ⟨l, r, rfl, l_adapted, r_adapted, -⟩ := Expr.disjunction_cases ctx.env.classes outcome
      exact keep.binary noOrdering left right l_adapted r_adapted
  | isItem _ _ outcome left right =>
      obtain ⟨l, r, rfl, l_adapted, r_adapted, -⟩ := Expr.isItem_cases outcome
      exact keep.binary (fun _ => rfl) left right l_adapted r_adapted
  | eitherItem _ _ _ _ left right => exact keep.binary noOrdering left right .same .same
  | isContained _ _ outcome item sequence =>
      obtain ⟨element, item', -, isAdapted, rfl⟩ := Expr.isContained_cases outcome
      refine .node (keep.other _ rfl rfl) ?_
      simp [Expr.children, sequence, keep.adapted_everywhere isAdapted item]
  | logical isOperator _ _ outcome left right =>
      exact keep.ofGroup (isComparison_of_joins (.inr (.inr isOperator))) left right outcome
  | choose _ _ _ outcome condition ifTrue ifFalse =>
      exact keep.choose condition ifTrue ifFalse outcome
  | orElseValue _ _ outcome left right =>
      obtain ⟨type, l, r, rfl, l_adapted, r_adapted, -⟩ := Expr.orElseValue_cases outcome
      refine .node (keep.other _ rfl rfl) ?_
      simp [Expr.children, keep.adapted_everywhere l_adapted left,
        keep.adapted_everywhere r_adapted right]
  | propagateNull _ _ outcome chain default => exact keep.propagateNull chain default outcome
  | typeTest _ _ inner =>
      exact .node (keep.other _ rfl rfl) (by simpa [Expr.children] using inner)
  | convertTo _ outcome inner =>
      exact keep.adapted_everywhere (Expr.convertTo_adapted outcome) inner
  | constructOf _ outcome each => exact keep.constructOf each outcome
  | methodCall _ _ outcome receiver each =>
      obtain ⟨method, type, args', rfl, isMethod, -, -, areAdapted, -, known⟩ :=
        methodCall_cases outcome
      exact keep.call_keeps receiver isMethod known (keep.adapted_everywhere_all areAdapted each)
  | @namedMember _ _ _ _ token _ _ met named outcome receiver =>
      subst named
      obtain ⟨type, enum, n, isEnum, isMember, rfl⟩ | ⟨m, -, -, rfl⟩ |
        ⟨target, indexer, -, isValue, -, rfl⟩ := namedMember_cases outcome
      · exact .leaf (keep.member _ _ token _ met isEnum isMember) rfl
      · exact keep.access_keeps receiver
      · refine .node (keep.other _ rfl rfl) (List.forall_mem_cons.mpr ⟨receiver target isValue, ?_⟩)
        exact List.forall_mem_singleton.mpr (.leaf (keep.name token met) rfl)
  | indexAccess _ _ outcome target each =>
      obtain ⟨type, args', rfl, areAdapted, -⟩ := indexAccess_cases outcome
      exact .node (keep.other _ rfl rfl)
        (List.forall_mem_cons.mpr ⟨target, keep.adapted_everywhere_all areAdapted each⟩)
  | aggregate _ _ _ _ _ resolved _ source each =>
      obtain ⟨params, -, fits⟩ := Resolution.choose_found resolved
      have promoted_keep := keep.adapted_everywhere_all (Expr.promoteAll?_adapted fits) each
      refine .node (keep.other _ rfl rfl) (List.forall_mem_cons.mpr ⟨source, ?_⟩)
      rw [Aggregate.bindElement]
      split
      next => exact promoted_keep
      next =>
        intro arg isArg
        obtain ⟨body, isBody, rfl⟩ := List.mem_map.mp isArg
        exact .node (keep.other _ rfl rfl)
          (by simpa [Expr.children] using promoted_keep body isBody)
  | typedAggregate _ _ _ source =>
      exact .node (keep.other _ rfl rfl) (by simpa [Expr.children] using source)
  | newArray _ outcome each =>
      obtain ⟨element, items', rfl, areAdapted, -⟩ := newArray_cases outcome
      exact .node (keep.other _ rfl rfl) (keep.adapted_everywhere_all areAdapted each)
  | newOfType _ outcome each =>
      obtain outcome | ⟨members, rfl, bound⟩ := newOfType_cases outcome
      · refine keep.constructOf (fun a isArg => ?_) outcome
        obtain ⟨item, isItem, rfl⟩ := List.mem_map.mp isArg
        exact each item isItem
      · refine .node (keep.other _ rfl rfl) fun value isValue => ?_
        obtain ⟨entry, isEntry, rfl⟩ := List.mem_map.mp isValue
        obtain ⟨⟨item, isItem, isAdapted⟩, -⟩ := bindings_cases bound entry isEntry
        exact keep.adapted_everywhere isAdapted (each item isItem)
  | projection _ _ each =>
      refine .node (keep.other _ rfl rfl) fun value isValue => ?_
      obtain ⟨entry, isEntry, rfl⟩ := List.mem_map.mp isValue
      obtain ⟨item, isItem, named⟩ := List.mem_filterMap.mp isEntry
      obtain ⟨name, -, rfl⟩ := Option.map_eq_some_iff.mp named
      exact each item isItem
  | lambda _ _ inner => exact .node (keep.other _ rfl rfl) (by simpa [Expr.children] using inner)
  | promoted _ outcome inner =>
      exact keep.adapted_everywhere (.of_promote? outcome) inner

end NodesKeep

end CompileContext

/-- A tree that a text compiles to: a function, its body or the selector of a sort key. -/
inductive Environment.Returns (env : Environment) (params : List Parameter) (text : String)
    (args : List Argument) : Expr → Prop where
  | function {expected? store e}
      (outcome : (compileFunction env params expected? text args store).1 = .ok e) :
      Returns env params text args e
  | body {expected? store e}
      (outcome : (compileExpr env params expected? text args store).1 = .ok e) :
      Returns env params text args e
  | selector {continues store keys key}
      (outcome : (compileOrdering env params continues text args store).1 = .ok keys)
      (isKey : key ∈ keys) : Returns env params text args key.selector

namespace Environment.Returns

variable {env : Environment} {rule : Expr → Prop} {params : List Parameter} {text : String}
  {args : List Argument}

theorem of_symbols_expr {ctx : CompileContext}
    (context : CompileContext.of env params args = .ok ctx)
    {key : String} {e : Expr} (isSymbol : (key, Symbol.expr e) ∈ ctx.symbols) :
    Argument.expr e ∈ args := by
  obtain ⟨p, -, same⟩ | ⟨v, same⟩ | ⟨e', isArg, same⟩ := CompileContext.of_symbols context isSymbol
  · cases same
  · cases same
  · cases same
    exact isArg

theorem exists_context {e : Expr} (returns : env.Returns params text args e) :
    ∃ ctx, CompileContext.of env params args = .ok ctx := by
  cases returns with
  | function outcome =>
      obtain ⟨body, -, compiled⟩ := compileFunction_eq_ok outcome
      obtain ⟨ctx, -, -, context, -⟩ := compileText_eq_ok compiled
      exact ⟨ctx, context⟩
  | body outcome =>
      obtain ⟨ctx, -, -, context, -⟩ := compileText_eq_ok outcome
      exact ⟨ctx, context⟩
  | selector outcome _ =>
      obtain ⟨ctx, -, -, context, -⟩ := compileText_eq_ok outcome
      exact ⟨ctx, context⟩

variable (keep : ∀ ctx, CompileContext.of env params args = .ok ctx →
    ctx.NodesKeep (Scan.ofText text env.options.decimalSeparator).tokens rule)
  (supplied : ∀ a, Argument.expr a ∈ args → a.Everywhere rule)

include keep supplied

theorem body_everywhere {expected? : Option Ty} {store : Store} {e : Expr}
    (outcome : (compileExpr env params expected? text args store).1 = .ok e) :
    e.Everywhere rule := by
  obtain ⟨ctx, session, after, context, start, ran⟩ := compileText_eq_ok outcome
  have yields := CompileContext.body_yields (fun _ _ => of_symbols_expr context) expected?
    session.surroundings session ⟨rfl, Session.start_reads start⟩
  rw [ran] at yields
  exact (keep ctx context).built supplied yields.2

theorem selector_everywhere {continues : Bool} {store : Store} {keys : List SortKey}
    (outcome : (compileOrdering env params continues text args store).1 = .ok keys) :
    ∀ key ∈ keys, key.selector.Everywhere rule := by
  obtain ⟨ctx, session, after, context, start, ran⟩ := compileText_eq_ok outcome
  have yields := CompileContext.ordering_within (fun _ _ => of_symbols_expr context) continues
    session ⟨rfl, Session.start_reads start⟩
  rw [ran] at yields
  exact fun key isKey => (keep ctx context).built supplied (yields.2 key isKey)

/-- A rule that the nodes of the grammar keep holds of every node of a tree that a text compiles to,
if it holds of every node of the supplied expressions. -/
theorem everywhere {e : Expr} (returns : env.Returns params text args e) : e.Everywhere rule := by
  cases returns with
  | function outcome =>
      obtain ⟨body, rfl, compiled⟩ := compileFunction_eq_ok outcome
      obtain ⟨ctx, -, -, context, -⟩ := compileText_eq_ok compiled
      refine .node ((keep ctx context).other _ rfl rfl) ?_
      simpa [Expr.children] using body_everywhere keep supplied compiled
  | body outcome => exact body_everywhere keep supplied outcome
  | selector outcome isKey => exact selector_everywhere keep supplied outcome _ isKey

end Environment.Returns

/-- The trees that texts compile to in an environment: functions, their bodies and the selectors of
sort keys.  The expressions among the arguments are such trees themselves. -/
inductive Environment.Compiles (env : Environment) : Expr → Prop where
  | function {params expected? text args store e}
      (supplied : ∀ a, Argument.expr a ∈ args → Compiles env a)
      (outcome : (compileFunction env params expected? text args store).1 = .ok e) : Compiles env e
  | body {params expected? text args store e}
      (supplied : ∀ a, Argument.expr a ∈ args → Compiles env a)
      (outcome : (compileExpr env params expected? text args store).1 = .ok e) : Compiles env e
  | selector {params continues text args store keys key}
      (supplied : ∀ a, Argument.expr a ∈ args → Compiles env a)
      (outcome : (compileOrdering env params continues text args store).1 = .ok keys)
      (isKey : key ∈ keys) : Compiles env key.selector

/-- A rule that the nodes of the grammar keep whatever the text holds of every node of every
compiled tree. -/
theorem Environment.Compiles.everywhere {env : Environment} {rule : Expr → Prop}
    (keep : ∀ (ctx : CompileContext) tokens, ctx.env = env → ctx.NodesKeep tokens rule) {e : Expr}
    (compiles : env.Compiles e) : e.Everywhere rule := by
  have keep {params args} (ctx : CompileContext) (tokens : List Token)
      (context : CompileContext.of env params args = .ok ctx) : ctx.NodesKeep tokens rule :=
    keep ctx tokens (CompileContext.of_env context)
  induction compiles with
  | function _ outcome supplied =>
      exact Returns.everywhere (fun ctx => keep ctx _) supplied (.function outcome)
  | body _ outcome supplied =>
      exact Returns.everywhere (fun ctx => keep ctx _) supplied (.body outcome)
  | selector _ outcome isKey supplied =>
      exact Returns.everywhere (fun ctx => keep ctx _) supplied (.selector outcome isKey)

end QueryTree
