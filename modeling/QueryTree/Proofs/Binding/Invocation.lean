import QueryTree.Evaluate.Expression
import QueryTree.Proofs.Binding.Tree
import QueryTree.Proofs.Naming.Escape
import QueryTree.Proofs.Naming.Matching
import QueryTree.Proofs.Propagation.Text

/-!
# Calls of supplied functions

Evaluation depends on the values of free parameters only, so that a function that is supplied does
the same wherever it is called.
-/

/-!
## Values of free parameters

Evaluation depends on its context only through the values of the parameters that are free in the
tree.  A function without free parameters does the same wherever it is called.
-/

namespace QueryTree

/-- A parameter occurs in a tree where nothing around it binds it. -/
def Parameter.FreeIn (p : Parameter) (e : Expr) : Prop :=
  ∃ inner, Expr.Occurs inner (.parameter p) e ∧ ∀ q ∈ inner, q.id ≠ p.id

namespace EvalContext

/-- Two contexts have the same moment and the same latest values of the free parameters of a
tree. -/
structure AgreeOn (e : Expr) (left right : EvalContext) : Prop where
  now : left.now = right.now
  values : ∀ p : Parameter, p.FreeIn e → left.bindings.lookup p.id = right.bindings.lookup p.id

variable {left right : EvalContext} {e c body : Expr} {params : List Parameter}
  {args : List Value}

theorem now_bindAll (ctx : EvalContext) (params : List Parameter) (args : List Value) :
    (ctx.bindAll params args).now = ctx.now := by
  induction params generalizing ctx args with
  | nil => simp [bindAll]
  | cons p rest ih =>
      cases args with
      | nil => rfl
      | cons value values => exact ih (ctx.bind p value) values

/-- The latest value of a parameter is the one that it has just been given, if there is one. -/
theorem lookup_bindAll {id : Nat} (sameLength : params.length = args.length)
    (outside : (∀ q ∈ params, q.id ≠ id) → left.bindings.lookup id = right.bindings.lookup id) :
    (left.bindAll params args).bindings.lookup id =
      (right.bindAll params args).bindings.lookup id := by
  induction params generalizing left right args with
  | nil => simpa [bindAll] using outside
  | cons p rest ih =>
      cases args with
      | nil => cases sameLength
      | cons value values =>
          refine ih (Nat.succ.inj sameLength) fun others => ?_
          simp only [bind, List.lookup_cons]
          split
          next => rfl
          next other =>
            have different : p.id ≠ id := fun same => by simp [same] at other
            exact outside (List.forall_mem_cons.mpr ⟨different, others⟩)

theorem AgreeOn.child (agree : AgreeOn e left right) (isChild : c ∈ e.children)
    (plain : e.binders = []) : AgreeOn c left right where
  now := agree.now
  values p free := by
    obtain ⟨inner, occurs, unbound⟩ := free
    refine agree.values p ⟨e.binders ++ inner, .child isChild occurs, ?_⟩
    rwa [plain, List.nil_append]

theorem AgreeOn.inBody (agree : AgreeOn (.lambda params body) left right)
    (sameLength : params.length = args.length) :
    AgreeOn body (left.bindAll params args) (right.bindAll params args) where
  now := by rw [now_bindAll, now_bindAll, agree.now]
  values p free := by
    obtain ⟨inner, occurs, unbound⟩ := free
    refine lookup_bindAll sameLength fun others => agree.values p ?_
    have isBody : body ∈ (Expr.lambda params body).children := List.mem_singleton_self body
    refine ⟨params ++ inner, .child isBody occurs, fun q isAround => ?_⟩
    obtain isParam | isInner := List.mem_append.mp isAround
    · exact others q isParam
    · exact unbound q isInner

end EvalContext

namespace Expr

open EvalContext (AgreeOn)

variable {e : Expr} {left right : EvalContext}

/-- An expression does the same in two contexts, as a value and as a function. -/
def SameIn (left right : EvalContext) (e : Expr) : Prop :=
  e.evaluate left = e.evaluate right ∧ e.apply left = e.apply right

theorem evaluateAll_congr {es : List Expr} (each : ∀ e ∈ es, e.evaluate left = e.evaluate right) :
    evaluateAll es left = evaluateAll es right := by
  induction es with
  | nil => rfl
  | cons e rest ih =>
      obtain ⟨first, others⟩ := List.forall_mem_cons.mp each
      rw [evaluateAll, evaluateAll, first, ih others]

theorem evaluateMembers_congr {members : List (String × Expr)}
    (each : ∀ e ∈ members.map (·.2), e.evaluate left = e.evaluate right) :
    evaluateMembers members left = evaluateMembers members right := by
  induction members with
  | nil => rfl
  | cons member rest ih =>
      obtain ⟨first, others⟩ := List.forall_mem_cons.mp each
      rw [evaluateMembers, evaluateMembers, first, ih others]

theorem arguments_congr {es : List Expr} (each : ∀ e ∈ es, e.SameIn left right) :
    arguments es left = arguments es right := by
  induction es with
  | nil => rfl
  | cons e rest ih =>
      obtain ⟨first, others⟩ := List.forall_mem_cons.mp each
      rw [arguments, arguments, first.1, first.2, ih others]

/-- What a node that binds nothing evaluates to depends on its children. -/
theorem evaluate_congr (isParameter : ∀ p, e = parameter p → left.lookup p = right.lookup p)
    (now : left.now = right.now) (each : ∀ c ∈ e.children, c.SameIn left right) :
    e.evaluate left = e.evaluate right := by
  have value {c : Expr} (isChild : c ∈ e.children) : c.evaluate left = c.evaluate right :=
    (each c isChild).1
  cases e with
  | constant | lambda | construct => rfl
  | parameter p => exact isParameter p rfl
  | staticMember type name => rw [evaluate, evaluate, now]
  | member type target name => rw [evaluate, evaluate, value (by simp [children])]
  | index type target args =>
      obtain ⟨target_same, args_same⟩ := List.forall_mem_cons.mp each
      rw [evaluate, evaluate, target_same.1, evaluateAll_congr fun a isArg => (args_same a isArg).1]
  | staticCall type method args =>
      have args_same : ∀ a ∈ args, a.evaluate left = a.evaluate right := fun a isArg => value isArg
      rw [evaluate, evaluate, evaluateAll_congr args_same]
  | methodCall type method target args =>
      obtain ⟨target_same, args_same⟩ := List.forall_mem_cons.mp each
      rw [evaluate, evaluate, target_same.1, evaluateAll_congr fun a isArg => (args_same a isArg).1]
  | aggregate type operation source typeArgs args =>
      obtain ⟨source_same, args_same⟩ := List.forall_mem_cons.mp each
      rw [evaluate, evaluate, source_same.1, arguments_congr args_same]
  | invoke type target args =>
      obtain ⟨target_same, args_same⟩ := List.forall_mem_cons.mp each
      rw [evaluate, evaluate, target_same.2, evaluateAll_congr fun a isArg => (args_same a isArg).1]
  | binary type op l r method =>
      rw [evaluate, evaluate, value (c := l) (by simp [children]),
        value (c := r) (by simp [children])]
  | convert type operand => rw [evaluate, evaluate, value (by simp [children])]
  | negate type operand => rw [evaluate, evaluate, value (by simp [children])]
  | not type operand => rw [evaluate, evaluate, value (by simp [children])]
  | conditional test ifTrue ifFalse =>
      rw [evaluate, evaluate, value (c := test) (by simp [children]),
        value (c := ifTrue) (by simp [children]), value (c := ifFalse) (by simp [children])]
  | coalesce type l r =>
      rw [evaluate, evaluate, value (c := l) (by simp [children]),
        value (c := r) (by simp [children])]
  | record type form members =>
      rw [evaluate, evaluate, evaluateMembers_congr fun m isMember => value isMember]
  | newArray type items =>
      have items_same : ∀ a ∈ items, a.evaluate left = a.evaluate right :=
        fun a isItem => value isItem
      rw [evaluate, evaluate, evaluateAll_congr items_same]
  | typeTest type target wanted test =>
      rw [evaluate, evaluate, value (c := target) (by simp [children])]

/-- A tree does the same in two contexts that agree on its free parameters. -/
theorem sameIn_of_agreeOn {e : Expr} {left right : EvalContext} (agree : AgreeOn e left right) :
    e.SameIn left right := by
  by_cases isFunction : ∃ params body, e = lambda params body
  · obtain ⟨params, body, same⟩ := isFunction
    have isChild : body ∈ e.children := same ▸ List.mem_singleton_self body
    have inBody (args : List Value) (sameLength : params.length = args.length) :
        body.SameIn (left.bindAll params args) (right.bindAll params args) :=
      sameIn_of_agreeOn ((same ▸ agree).inBody sameLength)
    rw [same]
    refine ⟨rfl, funext fun args => ?_⟩
    rw [apply, applyFunction, applyFunction]
    split
    next sameLength => exact (inBody args sameLength).1
    next => rfl
  · have plain : e.binders = [] := by
      cases e with
      | lambda params body => exact absurd ⟨params, body, rfl⟩ isFunction
      | _ => rfl
    have each : ∀ c ∈ e.children, c.SameIn left right := fun c isChild =>
      sameIn_of_agreeOn (agree.child isChild plain)
    refine ⟨evaluate_congr (fun p same => ?_) agree.now each, ?_⟩
    · subst same
      rw [EvalContext.lookup, EvalContext.lookup, agree.values p ⟨[], .root, List.forall_mem_nil _⟩]
    · cases e with
      | lambda params body => exact absurd ⟨params, body, rfl⟩ isFunction
      | _ => rfl
termination_by sizeOf e
decreasing_by all_goals exact sizeOf_child isChild

theorem Closed.not_free (closed : e.Closed) (p : Parameter) : ¬ p.FreeIn e := by
  rintro ⟨inner, occurs, unbound⟩
  obtain ⟨q, isAround, same⟩ := closed inner p occurs
  exact unbound q isAround (beq_iff_eq.mp same)

/-- A function without free parameters does what a call of it from outside does. -/
theorem Closed.apply_eq_call (closed : e.Closed) (ctx : EvalContext) (args : List Value) :
    e.apply ctx args = e.call ctx.now args := by
  have agree : AgreeOn e ctx (.initial ctx.now) := ⟨rfl, fun p free => (closed.not_free p free).elim⟩
  rw [call, (sameIn_of_agreeOn agree).2]

end Expr

end QueryTree

/-!
## Calls by position

A call of a function that is supplied by its position: what it is compiled to, and that the tree
does what a call of the function from outside does, wherever it is evaluated.
-/

namespace QueryTree

/-- The current token is the name of the supplied value at a place, and a parenthesis opens behind
it. -/
structure Session.AtCall (session : Session) (place : Nat) (opening : Token) (rest : List Token) :
    Prop where
  isName : session.current.kind = .identifier
  named : session.current.text = "@" ++ toString place
  ahead : session.rest = opening :: rest
  opens : opening.kind = .openParen

/-- Only types that are called like the first supplied value go before it. -/
theorem Environment.keyword?_supplied {options : Options} {registry : TypeRegistry}
    {classes : ClassTable}
    (unnamed : ∀ t ∈ registry.custom, options.sameName t.simpleName "@0" = false ∧
      options.sameName t.fullName "@0" = false) :
    (Environment.of options registry classes).keyword? "@0" = none := by
  have reserved : ∀ entry ∈ KeywordTable.words ++ KeywordTable.typeNames,
      options.sameName entry.1 "@0" = false := by
    unfold Options.sameName Options.fold
    cases options.caseSensitive <;> decide +kernel
  rw [keyword?_eq_find?, Option.map_eq_none_iff, List.find?_eq_none]
  intro entry isEntry
  obtain isReserved | isCustom := List.mem_append.mp isEntry
  · simp [reserved entry isReserved]
  · obtain ⟨t, isType, isName⟩ := List.mem_flatMap.mp isCustom
    obtain rfl | rfl : entry = (t.simpleName, .type t) ∨ entry = (t.fullName, .type t) := by
      simpa using isName
    · simp [(unnamed t isType).1]
    · simp [(unnamed t isType).2]

namespace CompileContext

variable {env : Environment} {params bound : List Parameter} {args : List Argument}
  {ctx : CompileContext} {place : Nat} {function body e : Expr} {types : List Ty} {result : Ty}
  {expression : Parse Expr} {session after : Session} {opening : Token} {rest : List Token}

theorem mem_argumentSymbols (start : Nat) (supplied : args[place]? = some (.expr function)) :
    ("@" ++ toString (start + place), .expr function) ∈ argumentSymbols start args := by
  induction args generalizing start place with
  | nil => cases supplied
  | cons arg rest ih =>
      cases place with
      | zero =>
          cases supplied
          exact .head _
      | succ place =>
          have later := ih (start + 1) supplied
          rw [Nat.add_assoc, Nat.add_comm 1] at later
          unfold argumentSymbols
          dsimp only
          split
          next => exact .tail _ later
          next => exact later

/-- A supplied function is found by its position. -/
theorem symbol?_supplied (context : CompileContext.of env params args = .ok ctx)
    (supplied : args[place]? = some (.expr function)) (internals : ElementNames) :
    ctx.symbol? internals (ctx.env.options.fold ("@" ++ toString place)) =
      some (.expr function) := by
  have isEntry := mem_argumentSymbols 0 supplied
  rw [Nat.zero_add] at isEntry
  have found := (lookup_symbols_eq_some_iff context).mpr
    ⟨_, List.mem_append_right _ isEntry, beq_self_eq_true _⟩
  rw [of_env context, symbol?, found]
  rfl

theorem atom_eq_functionCall (context : CompileContext.of env params args = .ok ctx)
    (supplied : args[place]? = some (.expr function))
    (isFunction : function.type = .lambda types result)
    (atCall : session.AtCall place opening rest)
    (noType : ctx.visibleKeyword? session.scopes.current session.current.text = none) :
    ctx.atom expression session =
      ctx.functionCall expression function types result (session.moveTo opening rest) := by
  have opens : ((session.moveTo opening rest).current.kind == .openParen) = true :=
    beq_iff_eq.mpr atCall.opens
  rw [atom_eq_nameIn atCall.isName]
  simp only [nameIn, noType]
  rw [atCall.named, symbol?_supplied context supplied]
  simp only
  rw [Parse.bind_eq (Parse.advance_eq atCall.ahead)]
  simp only [symbolExpr, isFunction]
  rw [Parse.bind_eq (Parse.check_eq .openParen _)]
  simp only [opens, if_true]

theorem functionCall_eq_ok
    (called : ctx.functionCall expression function types result session = .ok e after) :
    ∃ given promoted, Parse.argumentList expression session = .ok given after ∧
      Expr.promoteAll? ctx.env.classes .exactly types given = some promoted ∧
      e = .invoke result function promoted := by
  rw [functionCall, Parse.bind_eq (Parse.position_eq session)] at called
  obtain ⟨given, stop, read, called⟩ := Parse.bind_eq_ok_iff.mp called
  by_cases arity : (given.length != types.length) = true
  · rw [if_pos arity] at called
    cases called
  rw [if_neg arity] at called
  cases fits : Expr.promoteAll? ctx.env.classes .exactly types given with
  | none =>
      rw [fits] at called
      cases called
  | some promoted =>
      rw [fits] at called
      cases called
      exact ⟨given, promoted, read, fits, rfl⟩

/-- An expression is a call of a supplied function: its arguments stand between two states, and its
value is that of a call from outside with the values of the promoted arguments. -/
def CallsSupplied (ctx : CompileContext) (expression : Parse Expr) (function : Expr)
    (types : List Ty) (e : Expr) (opens closes : Session) : Prop :=
  ∃ given promoted, Parse.argumentList expression opens = .ok given closes ∧
    Expr.promoteAll? ctx.env.classes .exactly types given = some promoted ∧
    ∀ values : EvalContext,
      e.evaluate values = Expr.evaluateAll promoted values >>= function.call values.now

section Supplied

variable (context : CompileContext.of env params args = .ok ctx)
  (supplied : args[place]? = some (.expr (.lambda bound body)))
  (closed : (Expr.lambda bound body).Closed) (atCall : session.AtCall place opening rest)
  (noType : ctx.visibleKeyword? session.scopes.current session.current.text = none)

include context supplied closed atCall noType

theorem callsSupplied_of_atom (read : ctx.atom expression session = .ok e after) :
    ctx.CallsSupplied expression (.lambda bound body) (bound.map (·.type)) e
      (session.moveTo opening rest) after := by
  rw [atom_eq_functionCall context supplied rfl atCall noType] at read
  obtain ⟨given, promoted, arguments, fits, rfl⟩ := functionCall_eq_ok read
  refine ⟨given, promoted, arguments, fits, fun values => ?_⟩
  rw [Expr.evaluate]
  exact congrArg (Expr.evaluateAll promoted values >>= ·)
    (funext fun inputs => closed.apply_eq_call values inputs)

/-- Where nothing follows the arguments of a call, the call is the whole expression. -/
theorem callsSupplied_of_expression {depth : Nat}
    (alone : ∀ given stop, Parse.argumentList (ctx.expression depth) (session.moveTo opening rest) =
      .ok given stop → stop.current.kind = .finish)
    (read : ctx.expression (depth + 1) session = .ok e after) :
    ctx.CallsSupplied (ctx.expression depth) (.lambda bound body) (bound.map (·.type)) e
      (session.moveTo opening rest) after := by
  have noMinus : session.current.kind ≠ .minus := by rw [atCall.isName]; decide
  have noNot : session.current.kind ≠ .exclamation := by rw [atCall.isName]; decide
  cases called : ctx.atom (ctx.expression depth) session with
  | ok call stop =>
      have calls := callsSupplied_of_atom context supplied closed atCall noType called
      have ⟨given, promoted, arguments, _⟩ := calls
      have ends : stop.current.kind.grip ≤ 0 := by rw [alone given stop arguments]; decide
      obtain ⟨same, rfl⟩ := (expression_readsTo_atom (.of_ok called) noMinus noNot ends e after).mp
        read
      rwa [← Option.some.inj same]
  | error error behind =>
      -- without the call there is no expression, wherever it were to end
      let finish : Session := session.moveTo ⟨.finish, "", 0⟩ []
      obtain ⟨none, -⟩ := (expression_readsTo_atom (.of_error called finish) noMinus noNot
        (show TokenKind.grip .finish ≤ 0 by decide) e after).mp read
      cases none

end Supplied

theorem exists_whole_of_body (ran : ctx.body none session = .ok e after) :
    ∃ stop, ctx.wholeExpression session = .ok e stop := by
  rw [body, Parse.bind_eq (Parse.position_eq _)] at ran
  obtain ⟨whole, stop, read, ran⟩ := Parse.bind_eq_ok_iff.mp ran
  obtain ⟨_, _, kept, ran⟩ := Parse.bind_eq_ok_iff.mp ran
  cases kept
  obtain ⟨_, _, -, ran⟩ := Parse.bind_eq_ok_iff.mp ran
  cases ran
  exact ⟨stop, read⟩

/-- A call of a supplied function without free parameters does what a call of the function from
outside does: in any state of a compile, and as a whole text.  More generally, what a tree evaluates
to depends only on the latest values of its free parameters. -/
theorem supplied_call_eq (context : CompileContext.of env params args = .ok ctx)
    (supplied : args[place]? = some (.expr (.lambda bound body)))
    (closed : (Expr.lambda bound body).Closed) :
    (∀ (expression : Parse Expr) (session after : Session) (opening : Token) (rest : List Token)
        (e : Expr), session.AtCall place opening rest →
      ctx.visibleKeyword? session.scopes.current session.current.text = none →
      ctx.atom expression session = .ok e after →
      ctx.CallsSupplied expression (.lambda bound body) (bound.map (·.type)) e
        (session.moveTo opening rest) after) ∧
    (∀ (text : String) (store : Store) (session : Session) (opening : Token) (rest : List Token)
        (e : Expr),
      Session.start (Scan.ofText text env.options.decimalSeparator) params store = .ok session →
      session.AtCall place opening rest →
      ctx.visibleKeyword? session.scopes.current session.current.text = none →
      (∀ given stop, Parse.argumentList (ctx.expression (session.rest.length + 1))
        (session.moveTo opening rest) = .ok given stop → stop.current.kind = .finish) →
      (compileExpr env params none text args store).1 = .ok e →
      ∃ after, ctx.CallsSupplied (ctx.expression (session.rest.length + 1)) (.lambda bound body)
        (bound.map (·.type)) e (session.moveTo opening rest) after) ∧
    ∀ (e : Expr) (left right : EvalContext), left.now = right.now →
      (∀ p : Parameter, p.FreeIn e → left.bindings.lookup p.id = right.bindings.lookup p.id) →
      e.evaluate left = e.evaluate right := by
  refine ⟨fun expression session after opening rest e atCall noType read =>
    callsSupplied_of_atom context supplied closed atCall noType read,
    fun text store session opening rest e start atCall noType alone compiled => ?_,
    fun e left right now values => (Expr.sameIn_of_agreeOn ⟨now, values⟩).1⟩
  obtain ⟨ctx', session', after, context', start', ran⟩ := compileText_eq_ok compiled
  obtain rfl := Except.ok.inj (context'.symm.trans context)
  obtain rfl := Except.ok.inj (start'.symm.trans start)
  obtain ⟨stop, whole⟩ := exists_whole_of_body ran
  rw [wholeExpression, Parse.bind_eq (Parse.tokensLeft_eq _)] at whole
  exact ⟨stop, callsSupplied_of_expression context supplied closed atCall noType alone whole⟩

end CompileContext

section Example

/-- The parameter of the function that doubles. -/
def doubledParam : Parameter := ⟨0, "n", .int32⟩

/-- Twice a number. -/
def doubled : Expr :=
  .binary .int32 .multiply (.parameter doubledParam) (.ofValue .int32 (.int32 2)) none

/-- The function that doubles. -/
def doubling : Expr := .lambda [doubledParam] doubled

theorem doubling_closed : doubling.Closed := by
  intro inner p occurs
  cases occurs with
  | child isBody inside =>
      rw [List.mem_singleton.mp isBody] at inside
      cases inside with
      | child isOperand inside =>
          obtain rfl | rfl : _ = Expr.parameter doubledParam ∨
            _ = Expr.ofValue .int32 (.int32 2) := by
              simpa [Expr.children, doubled] using isOperand
          · cases inside with
            | root =>
                exact ⟨doubledParam, by simp [Expr.binders, doubling],
                  beq_self_eq_true doubledParam.id⟩
            | child isChild => cases isChild
          · cases inside with
            | child isChild => cases isChild

/-- An environment without types of its own. -/
def callEnvironment : Environment := .of .initial .empty .initial

/-- The context of compiles with the function that doubles. -/
def callContext : CompileContext := ⟨callEnvironment, [("@0", .expr doubling)], []⟩

theorem supplied_call_eq_nested :
    ∃ (e : Expr) (opens closes : Session),
      (compileExpr callEnvironment [] none "@0(@0(5) + 1)" [.expr doubling] ⟨.empty, 1⟩).1 = .ok e ∧
      callContext.CallsSupplied (callContext.expression 10) doubling [.int32] e opens closes := by
  have context : CompileContext.of callEnvironment [] [.expr doubling] = .ok callContext := rfl
  have supplied : [Argument.expr doubling][0]? = some (.expr doubling) := rfl
  obtain ⟨e, compiled, -⟩ := exists_ok_of_any
    (show (compileExpr callEnvironment [] none "@0(@0(5) + 1)" [.expr doubling]
      ⟨.empty, 1⟩).1.toOption.any (fun _ => true) = true by decide +kernel)
  obtain ⟨session, start, facts⟩ := exists_ok_of_any
    (show (Session.start (Scan.ofText "@0(@0(5) + 1)" callEnvironment.options.decimalSeparator) []
        ⟨.empty, 1⟩).toOption.any (fun session =>
      session.current.kind == .identifier && session.current.text == "@0" &&
      session.rest.length == 9 && (session.rest.headD session.current).kind == .openParen &&
      match Parse.argumentList (callContext.expression 10)
        (session.moveTo (session.rest.headD session.current) session.rest.tail) with
      | .ok _ stop => stop.current.kind == .finish
      | .error _ _ => true) = true by decide +kernel)
  simp only [Bool.and_eq_true, beq_iff_eq] at facts
  obtain ⟨⟨⟨⟨isName, named⟩, length⟩, opens⟩, stops⟩ := facts
  have noType : callContext.visibleKeyword? session.scopes.current session.current.text = none := by
    rw [named, CompileContext.visibleKeyword?, callContext, callEnvironment,
      Environment.keyword?_supplied (by simp [TypeRegistry.empty])]
    rfl
  have ahead : session.rest = session.rest.headD session.current :: session.rest.tail := by
    cases rest : session.rest with
    | nil => simp [rest] at length
    | cons => rfl
  obtain ⟨after, calls⟩ := (CompileContext.supplied_call_eq context supplied doubling_closed).2.1 _ _
    session _ _ e start ⟨isName, named, ahead, opens⟩ noType (fun given stop arguments => by
      rw [length] at arguments
      rw [arguments] at stops
      simpa using stops) compiled
  rw [length] at calls
  exact ⟨e, _, after, compiled, calls⟩

/-- An environment in which a type is called like the first supplied value. -/
def namesakeEnvironment : Environment :=
  .of .initial (.ofCustom [.enum ⟨"@0", none, .int32, false, [("A", 5)]⟩]) .initial

/-- A type that is called like a supplied function goes before it. -/
theorem namesake_converts :
    ∃ e, (compileExpr namesakeEnvironment [] none "@0(5)" [.expr doubling] ⟨.empty, 1⟩).1 = .ok e ∧
      doubling.Closed ∧ e.evaluate (.initial .minValue) ≠
        doubling.call .minValue [.int32 5] := by
  obtain ⟨e, compiled, text⟩ := exists_ok_of_any
    (show (compileExpr namesakeEnvironment [] none "@0(5)" [.expr doubling]
        ⟨.empty, 1⟩).1.toOption.any (fun e =>
      (e.evaluate (.initial .minValue)).toOption.any (·.text == "A")) = true by decide +kernel)
  have doubles : (doubling.call .minValue [.int32 5]).toOption.any
      (·.text == "A") = false := by decide +kernel
  refine ⟨e, compiled, doubling_closed, fun same => ?_⟩
  rw [same, doubles] at text
  cases text

end Example

end QueryTree
