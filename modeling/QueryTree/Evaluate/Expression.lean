import QueryTree.Evaluate.Method
import QueryTree.Evaluate.Sequence

/-!
# Evaluation

The value of an expression, given values for its parameters and the present moment.
-/

namespace QueryTree

/-- What an expression is evaluated with. -/
structure EvalContext where
  /-- The values of parameters by their numbers, the latest first. -/
  bindings : List (Nat × Value)
  /-- The present moment. -/
  now : DateTime

namespace EvalContext

/-- A context in which no parameter has a value. -/
def initial (now : DateTime) : EvalContext := ⟨[], now⟩

/-- A parameter given a value. -/
def bind (ctx : EvalContext) (p : Parameter) (value : Value) : EvalContext :=
  { ctx with bindings := (p.id, value) :: ctx.bindings }

/-- Parameters given as many values. -/
def bindAll (ctx : EvalContext) : List Parameter → List Value → EvalContext
  | p :: params, value :: values => (ctx.bind p value).bindAll params values
  | _, _ => ctx

/-- The value of a parameter. -/
def lookup (ctx : EvalContext) (p : Parameter) : Evaluation Value :=
  Evaluation.require (.unboundParameter p.shownName) (ctx.bindings.lookup p.id)

end EvalContext

namespace Expr

/-- What an expression does with arguments that it is called with. -/
abbrev Application := EvalContext → List Value → Evaluation Value

/-- The application of a function of some parameters, given its body. -/
def applyFunction (params : List Parameter) (body : EvalContext → Evaluation Value) :
    Application := fun ctx args =>
  if params.length = args.length then body (ctx.bindAll params args)
  else .error (.type (.argumentCount params.length args.length))

/-- A conditional, given its parts. -/
def chooseBranch (test : Value) (ifTrue ifFalse : Unit → Evaluation Value) : Evaluation Value :=
  match test with
  | .boolean true => ifTrue ()
  | .boolean false => ifFalse ()
  | other => .error (.type (.testOf other))

/-- A binary operation, given its left operand and how the right one is evaluated.  The right
operand of a conjunction or disjunction that the left one decides is not evaluated. -/
def combine (op : BinaryOp) (type : Ty) (left : Value) (right : Unit → Evaluation Value) :
    Evaluation Value :=
  match op with
  | .andAlso =>
    if left.isBoolean false then .ok left else (right ()).map (Value.conjoin left)
  | .orElse =>
    if left.isBoolean true then .ok left else (right ()).map (Value.disjoin left)
  | _ => do Value.applyBinary op type left (← right ())

mutual

/-- The value of an expression. -/
def evaluate : Expr → EvalContext → Evaluation Value
  | constant _ value _, _ => .ok value
  | parameter p, ctx => ctx.lookup p
  | staticMember type name, ctx => Value.ofStaticMember ctx.now type name
  | member _ target name, ctx => do
    let value ← evaluate target ctx
    value.ofMember target.type name
  | index _ target args, ctx => do
    let value ← evaluate target ctx
    let keys ← evaluateAll args ctx
    value.atIndex keys
  | staticCall _ method args, ctx => do
    let values ← evaluateAll args ctx
    Value.callMethod method none values
  | methodCall _ method target args, ctx => do
    let value ← evaluate target ctx
    let values ← evaluateAll args ctx
    Value.callMethod method (some value) values
  | aggregate type operation source _ args, ctx => do
    let value ← evaluate source ctx
    operation.evaluate type value (arguments args ctx)
  | invoke _ target args, ctx => do
    let values ← evaluateAll args ctx
    apply target ctx values
  | binary type op left right _, ctx => do
    let value ← evaluate left ctx
    combine op type value fun _ => evaluate right ctx
  | convert type operand, ctx => do
    let value ← evaluate operand ctx
    value.convertTo type
  | negate type operand, ctx => do
    let value ← evaluate operand ctx
    value.negated type
  | not _ operand, ctx => do
    let value ← evaluate operand ctx
    value.inverted
  | conditional test ifTrue ifFalse, ctx => do
    let value ← evaluate test ctx
    chooseBranch value (fun _ => evaluate ifTrue ctx) (fun _ => evaluate ifFalse ctx)
  | coalesce _ left right, ctx => do
    let value ← evaluate left ctx
    if value.isNull then evaluate right ctx else .ok value
  | lambda _ _, _ => .error (.unsupported .lambda)
  | construct type _, _ => .error (.unsupported (.constructor type))
  | record _ _ members, ctx => do
    let values ← evaluateMembers members ctx
    return Value.ofMembers values
  | newArray _ items, ctx => do
    let values ← evaluateAll items ctx
    return .array values
  | typeTest _ target wanted test, ctx => do
    let value ← evaluate target ctx
    value.testType wanted test
termination_by structural e => e

/-- The values of several expressions. -/
def evaluateAll : List Expr → EvalContext → Evaluation (List Value)
  | [], _ => .ok []
  | e :: rest, ctx => do
    let value ← evaluate e ctx
    let values ← evaluateAll rest ctx
    return value :: values
termination_by structural es => es

/-- The values of several named expressions. -/
def evaluateMembers : List (String × Expr) → EvalContext → Evaluation (List (String × Value))
  | [], _ => .ok []
  | (name, e) :: rest, ctx => do
    let value ← evaluate e ctx
    let values ← evaluateMembers rest ctx
    return (name, value) :: values
termination_by structural members => members

/-- The outcome of calling an expression, which has to be a function. -/
def apply : Expr → Application
  | lambda params body => applyFunction params (evaluate body)
  | other => fun _ _ => .error (.type (.invocationOf other.type))
termination_by structural e => e

/-- Expressions as arguments of a sequence operation. -/
def arguments : List Expr → EvalContext → List SequenceArgument
  | [], _ => []
  | e :: rest, ctx =>
    ⟨fun _ => evaluate e ctx, fun item => apply e ctx [item]⟩ :: arguments rest ctx
termination_by structural es => es

end

/-- The value of a compiled function for some arguments. -/
def call (function : Expr) (now : DateTime) (args : List Value) : Evaluation Value :=
  function.apply (.initial now) args

end Expr

/-- An item with the values of the sort keys for it. -/
def SortKey.keyed (now : DateTime) (element : Parameter) (keys : List SortKey) (item : Value) :
    Evaluation (List Value × Value) := do
  let values ←
    keys.mapM fun key => key.selector.evaluate ((EvalContext.initial now).bind element item)
  return (values, item)

/-- Items sorted by keys over an element. -/
def sortItems (now : DateTime) (element : Parameter) (keys : List SortKey) (items : List Value) :
    Evaluation (List Value) := do
  let keyed ← items.mapM (SortKey.keyed now element keys)
  let directions := keys.map (·.ascending)
  let less (left right : List Value × Value) : Bool :=
    Value.orderKeys directions left.1 right.1 == .lt
  return (stableSort less keyed).map (·.2)

end QueryTree
