import QueryTree.Compile.Construction
import QueryTree.Compile.Error
import QueryTree.Overload.Resolution

/-!
# Functions of the language

The functions that keywords call, and the common type of the branches of a conditional.
-/

namespace QueryTree.Expr

/-! ## Branches

Conditionals and null coalescing: the branches get one type, if one of them converts to the other's.
-/

/-- How the type of a branch is called in a message. -/
def branchName (e : Expr) : String := if e.isUntypedNull then "null" else e.type.display

/-- Whether the type of an expression does not admit null. -/
def excludesNull (e : Expr) : Bool := !e.type.admitsNull

/-- A branch promoted to the type of the other one, unless that is null without a type. -/
def promoteToward? (table : ClassTable) (other e : Expr) : Option Expr :=
  if other.isUntypedNull then none else e.promote? table .exactly other.type

/-- A conditional whose branches are given one type. -/
def choose (table : ClassTable) (position : Nat) (test ifTrue ifFalse : Expr) :
    Except CompileError Expr :=
  if test.type != .boolean then .error ⟨position, .testNotBoolean⟩
  else if ifTrue.type == ifFalse.type then .ok (conditional test ifTrue ifFalse)
  else if ifTrue.isUntypedNull && ifFalse.excludesNull then
    let type := ifFalse.type.lift
    .ok (conditional test (nullOf type) (convert type ifFalse))
  else if ifFalse.isUntypedNull && ifTrue.excludesNull then
    let type := ifTrue.type.lift
    .ok (conditional test (convert type ifTrue) (nullOf type))
  else
    match promoteToward? table ifFalse ifTrue, promoteToward? table ifTrue ifFalse with
    | some converted, none => .ok (conditional test converted ifFalse)
    | none, some converted => .ok (conditional test ifTrue converted)
    | some _, some _ =>
      .error ⟨position, .bothBranchesConvert ifTrue.branchName ifFalse.branchName⟩
    | none, none =>
      .error ⟨position, .neitherBranchConverts ifTrue.branchName ifFalse.branchName⟩

/-- The right operand of a coalescing promoted to what the left one is when it is not null, with
the type of the whole. -/
def promoteToCore? (table : ClassTable) (left right : Expr) : Option (Ty × Expr) :=
  match left.type with
  | .nullable inner => (right.promote? table .exactly inner).map fun e => (inner, e)
  | _ => none

/-- A null coalescing whose operands are given types that fit. -/
def orElseValue (table : ClassTable) (position : Nat) (left right : Expr) :
    Except CompileError Expr :=
  if left.excludesNull then .error ⟨position, .coalesceOfValueType left.type⟩
  else
    match promoteToCore? table left right with
    | some (type, right) => .ok (coalesce type left right)
    | none =>
      match right.promote? table .exactly left.type with
      | some right => .ok (coalesce left.type left right)
      | none =>
        if left.type.core.isCompatible table right.type then
          .ok (coalesce right.type (convert right.type.lift left) right)
        else .error ⟨position, .incompatibleOperands "??" left.type right.type⟩

end QueryTree.Expr

namespace QueryTree

/-! ## Built-in functions

The functions that are keywords: `iif`, `isnull`, `np`, and `is`, `as` and `cast`.
-/

namespace Expr

/-- The receivers of a chain of members and calls, nearest first, as far as they are themselves
members or calls of a receiver. -/
def chainReceivers : Expr → List Expr
  | member _ target _ => if target.receiver?.isSome then target :: chainReceivers target else []
  | methodCall _ _ target _ =>
    if target.receiver?.isSome then target :: chainReceivers target else []
  | aggregate _ _ source _ _ =>
    if source.receiver?.isSome then source :: chainReceivers source else []
  | invoke _ target _ => if target.receiver?.isSome then target :: chainReceivers target else []
  | _ => []

/-- The test that an expression is not null. -/
def isNotNull (e : Expr) : Expr := test .notEqual e (nullOf e.type)

/-- The parts of a chain that have to be tested, outermost receiver first. -/
def guarded (chain : Expr) : List Expr :=
  (chain.chainReceivers.reverse ++ [chain]).filter (·.type.admitsNull)

/-- A chain that yields a default where one of its parts is null.  A single member is left as it
is. -/
def propagateNull (table : ClassTable) (position : Nat) (chain : Expr) (default? : Option Expr) :
    Except CompileError Expr :=
  if chain.chainReceivers.isEmpty && !chain.isCall then .ok chain
  else
    match chain.guarded.map isNotNull with
    | [] => .ok chain
    | first :: others =>
      choose table position (others.foldl (test .andAlso) first) chain
        (default?.getD nullLiteral)

end Expr

namespace CompileContext

/-- The arguments of a function whose name is the current token. -/
def functionArguments (expression : Parse Expr) : Parse (List Expr) := do
  Parse.advance
  Parse.argumentList expression

/-- A conditional written as a function. -/
def iifFunction (ctx : CompileContext) (expression : Parse Expr) : Parse Expr := do
  let position ← Parse.position
  match ← functionArguments expression with
  | [test, ifTrue, ifFalse] =>
    Parse.lift (Expr.choose ctx.env.classes position test ifTrue ifFalse)
  | _ => Parse.failAt position .iifArguments

/-- A null coalescing written as a function. -/
def isnullFunction (ctx : CompileContext) (expression : Parse Expr) : Parse Expr := do
  let position ← Parse.position
  match ← functionArguments expression with
  | [left, right] => Parse.lift (Expr.orElseValue ctx.env.classes position left right)
  | _ => Parse.failAt position .isnullArguments

/-- A chain of members and calls protected against null. -/
def npFunction (ctx : CompileContext) (expression : Parse Expr) : Parse Expr := do
  let position ← Parse.position
  let protect (chain : Expr) (default? : Option Expr) : Parse Expr :=
    if chain.receiver?.isSome then
      Parse.lift (chain.propagateNull ctx.env.classes position default?)
    else Parse.failAt position .npTarget
  match ← functionArguments expression with
  | [chain] => protect chain none
  | [chain, default] => protect chain (some default)
  | _ => Parse.failAt position .npArguments

/-- The type of a type test. -/
def typeTestType (test : TypeTest) (wanted : Ty) (position : Nat) : Except CompileError Ty :=
  match test with
  | .is => .ok .boolean
  | .as => if wanted.admitsNull then .ok wanted else .error ⟨position, .asOfValueType wanted⟩
  | .cast => .ok wanted

/-- A type test of a value, or of `it` if only the type is given. -/
def typeTestFunction (ctx : CompileContext) (expression : Parse Expr) (test : TypeTest) :
    Parse Expr := do
  let position ← Parse.position
  let finish (target arg : Expr) : Parse Expr := do
    let wanted ← ctx.typeArgument test.word position arg
    let type ← Parse.lift (typeTestType test wanted position)
    return .typeTest type target wanted test
  match ← functionArguments expression with
  | [arg] =>
    match (← Parse.scope).it with
    | some it => finish (.parameter it) arg
    | none => Parse.failAt position (.notInScope .it)
  | [target, arg] => finish target arg
  | _ => Parse.failAt position (.oneOrTwoArguments test.word)

/-- The parameter of a scope that a word stands for. -/
def contextParameter (name : ContextName) : Parse Expr := do
  let frame ← Parse.scope
  let p? :=
    match name with
    | .it => frame.it
    | .parent => frame.parent
    | .root => frame.root
  match p? with
  | some p =>
    Parse.advance
    return .parameter p
  | none => Parse.failHere (.notInScope name)

/-- What a keyword starts; it is the current token. -/
def keyword (ctx : CompileContext) (expression : Parse Expr) : Keyword → Parse Expr
  | .context name => contextParameter name
  | .iif => ctx.iifFunction expression
  | .isnull => ctx.isnullFunction expression
  | .new => ctx.construction expression
  | .nullPropagation => ctx.npFunction expression
  | .typeTest test => ctx.typeTestFunction expression test
  | .type t => do
    Parse.advance
    ctx.typeAccess expression t
  | .constant value => do
    Parse.advance
    return if value.isNull then .nullLiteral else .ofValue value.naturalType value

end CompileContext

end QueryTree
