import QueryTree.Compile.Operand
import QueryTree.Compile.Session
import QueryTree.Overload.Signature

/-!
# Members and sequence operations

What may follow a value or a type.
-/

/-!
## Sequence operations

Calls such as `Orders.Where(Total > 10)`.  The arguments are compiled in a scope of their own, in
which `it` is an element of the sequence, and become functions of the element.
-/

namespace QueryTree

namespace CompileContext

/-- The type that an argument names: by a constant text, or by being a type. -/
def typeArgument (ctx : CompileContext) (function : String) (position : Nat) (arg : Expr) :
    Parse Ty := do
  match arg.value? with
  | some (.string name) =>
    match ctx.env.resolveType? name (← Parse.scope).types true with
    | some type => return type
    | none => Parse.failAt position (.typeNotFound name)
  | some (.type type) => return type
  | _ => Parse.failAt position (.typeArgumentExpected function)

end CompileContext

namespace Aggregate

/-- The type of a mean of values of a numeric type. -/
def averageType (type : Ty) : Ty :=
  let mean : Ty :=
    match type.core with
    | .int32 | .int64 => .double
    | other => other
  if type.isNullable then .nullable mean else mean

/-- The type of an operation on a sequence of elements, and its type arguments.  `bodies` are the
types of the arguments. -/
def typing? (table : ClassTable) (operation : Aggregate) (element : Ty) (bodies : List Ty) :
    Option (Ty × List Ty) :=
  let body := bodies.head?.getD element
  match operation with
  | filter | skip | take | skipWhile | takeWhile | distinct | reverse | defaultIfEmpty =>
    some (.sequence element, [element])
  | orderBy | orderByDescending | thenBy | thenByDescending =>
    some (.sequence element, element :: bodies)
  | any | all | contains => some (.boolean, [element])
  | count => some (.int32, [element])
  | longCount => some (.int64, [element])
  | first | firstOrDefault | last | lastOrDefault | single | singleOrDefault =>
    some (element, [element])
  | min | max => some (body, element :: bodies)
  | sum => if body.isNumeric then some (body, [element]) else none
  | average => if body.isNumeric then some (averageType body, [element]) else none
  | select => some (.sequence body, element :: bodies)
  | selectMany =>
    (bodies.head?.bind (·.element? table)).map fun inner => (.sequence inner, [element, inner])
  | groupBy =>
    some (.sequence (.grouping (bodies.head?.getD .object) (bodies[1]?.getD element)),
      element :: bodies)
  | toArray => some (.array element, [element])
  | toList => some (.list element, [element])
  | ofType | cast => none

/-- The scope in which the arguments of an operation are compiled. -/
def argumentScope (operation : Aggregate) (outer : ScopeFrame) (element : Parameter) :
    ScopeFrame :=
  if operation.seesOuterScope then { outer with parent := outer.it } else outer.nested element

/-- The arguments of an operation as functions of an element, where they are no plain values. -/
def bindElement (operation : Aggregate) (element : Parameter) (args : List Expr) : List Expr :=
  if operation.takesValues then args else args.map fun arg => .lambda [element] arg

/-- A call of an operation on a sequence; the current token opens its arguments. -/
def parseCall (ctx : CompileContext) (expression : Parse Expr) (operation : Aggregate)
    (source : Expr) (element : Ty) (name : String) (position : Nat) : Parse Expr := do
  let p ← Parse.newParameter "" element
  let outer ← Parse.scope
  let args ← Parse.withScope (operation.argumentScope outer p) (Parse.argumentList expression)
  match resolve ctx.env.classes name args with
  | .found (operation, _) args =>
    match operation, args with
    | .ofType, arg :: _ | .cast, arg :: _ =>
      let wanted ← ctx.typeArgument operation.name position arg
      return .aggregate (.sequence wanted) operation source [wanted] []
    | _, _ =>
      match operation.typing? ctx.env.classes element (args.map (·.type)) with
      | some (type, typeArgs) =>
        return .aggregate type operation source typeArgs (operation.bindElement p args)
      | none => Parse.failAt position (.noApplicableAggregate operation.name)
  | _ => Parse.failAt position (.noApplicableAggregate name)

end Aggregate

end QueryTree

/-!
## Members

What may follow a value or a type: members, method calls, sequence operations, indices, and the
arguments of a type.
-/

namespace QueryTree

/-- What a member is looked up in. -/
inductive Receiver where
  /-- A type, for its static members. -/
  | type (t : Ty)
  | value (e : Expr)

namespace Receiver

/-- The type whose members are looked up. -/
def memberType : Receiver → Ty
  | type t => t
  | value e => e.type

/-- Whether static members are looked up. -/
def isStatic : Receiver → Bool
  | type _ => true
  | value _ => false

/-- The receiver, if it is a value. -/
def value? : Receiver → Option Expr
  | type _ => none
  | value e => some e

/-- The access of a member. -/
def access (receiver : Receiver) (member : Member) : Expr :=
  match receiver with
  | type _ => .staticMember member.type member.name
  | value e => .member member.type e member.name

/-- The call of a method. -/
def call (receiver : Receiver) (type : Ty) (method : Method) (args : List Expr) : Expr :=
  match receiver with
  | .type _ => .staticCall type method args
  | value e => .methodCall type method e args

end Receiver

namespace CompileContext

/-- The access of a value by a name as an index. -/
def indexByName (type : Ty) (e : Expr) (name : String) : Expr :=
  .index type e [.ofValue .string (.string name)]

/-- Whether a method may be called: its class or the type of its result has to be known. -/
def mayCall (ctx : CompileContext) (method : Method) : Bool :=
  ctx.env.knowsTypeName method.declaringType || method.result.any ctx.env.knowsType

/-- The call of the method with a name that suits the arguments best. -/
def methodCall (ctx : CompileContext) (receiver : Receiver) (name : String) (position : Nat)
    (args : List Expr) : Except CompileError Expr :=
  let type := receiver.memberType
  match type.resolveMethod ctx.env.classes name receiver.isStatic args with
  | .notFound => .error ⟨position, .noApplicableMethod name type⟩
  | .ambiguous _ => .error ⟨position, .ambiguousMethod name type⟩
  | .found method args =>
    if !ctx.mayCall method then .error ⟨position, .inaccessibleMethods method.declaringType⟩
    else
      match method.result with
      | none => .error ⟨position, .methodWithoutResult name type⟩
      | some result => .ok (receiver.call result method args)

/-- The member of an enumeration, where the receiver is its type. -/
def enumMember? (receiver : Receiver) (name : String) : Option Expr :=
  match receiver with
  | .type t => t.enum?.bind fun e => (e.valueOf? name).map fun n => .ofValue t (.enum e n)
  | .value _ => none

/-- The declared member with a name. -/
def declaredMember? (ctx : CompileContext) (receiver : Receiver) (name : String) : Option Expr :=
  ((receiver.memberType.members ctx.env.classes).find? fun m =>
    m.isStatic == receiver.isStatic && ctx.env.options.sameName m.name name).map receiver.access

/-- The access by an indexer that takes the name of the member, if that is allowed. -/
def indexedMember? (ctx : CompileContext) (receiver : Receiver) (name : String) : Option Expr :=
  if ctx.env.options.noIndexFallback then none
  else
    receiver.value?.bind fun e =>
      ((e.type.indexers ctx.env.classes).find? fun indexer =>
        Ty.sameAll indexer.params [.string]).map fun indexer => indexByName indexer.type e name

/-- The member with a name. -/
def namedMember (ctx : CompileContext) (receiver : Receiver) (name : String) (position : Nat) :
    Except CompileError Expr :=
  match enumMember? receiver name with
  | some e => .ok e
  | none =>
    match receiver.value?.filter fun e => e.type == .dynamic with
    | some e => .ok (indexByName .object e name)
    | none =>
      match ctx.declaredMember? receiver name <|> ctx.indexedMember? receiver name with
      | some e => .ok e
      | none => .error ⟨position, .unknownMember name receiver.memberType⟩

/-- The sequence operation that a name stands for after a value, and the type of its elements.  A
text has none, and a method goes before. -/
def sequenceOperation? (ctx : CompileContext) (receiver : Receiver) (name : String) :
    Option (Expr × Aggregate × Ty) :=
  receiver.value?.bind fun e =>
    if e.type.isString || e.type.hasMethod ctx.env.classes name then none
    else do
      let operation ← Aggregate.ofName? name
      let element ← e.type.element? ctx.env.classes
      return (e, operation, element)

/-- The element of the current scope, if a receiver is this very parameter. -/
def elementReceiver? (receiver : Receiver) (frame : ScopeFrame) : Option Parameter := do
  let p ← receiver.value?.bind (·.parameter?)
  frame.it.filter (· == p)

/-- A member, a method call or a sequence operation; the current token is its name.  A name before
an arrow is a name for the element in what follows the arrow. -/
def memberAccess (ctx : CompileContext) (expression : Parse Expr) (receiver : Receiver) :
    Parse Expr := do
  let position ← Parse.position
  let name ← Parse.identifier
  Parse.advance
  let frame ← Parse.scope
  let beforeArrow ← Parse.check .lambda
  match (elementReceiver? receiver frame).filter fun _ => beforeArrow with
  | some element =>
    Parse.withInternal (ctx.env.options.fold name) element do
      Parse.advance
      expression
  | none =>
    if ← Parse.check .openParen then
      match ctx.sequenceOperation? receiver name with
      | some (source, operation, element) =>
        operation.parseCall ctx expression source element name position
      | none =>
        let args ← Parse.argumentList expression
        Parse.lift (ctx.methodCall receiver name position args)
    else Parse.lift (ctx.namedMember receiver name position)

/-- A value with an index. -/
def indexAccess (ctx : CompileContext) (position : Nat) (e : Expr) (args : List Expr) :
    Except CompileError Expr :=
  match e.type with
  | .array element =>
    match args with
    | [arg] =>
      match arg.promote? ctx.env.classes .exactly .int32 with
      | some arg => .ok (.index element e [arg])
      | none => .error ⟨position, .invalidArrayIndex⟩
    | _ => .error ⟨position, .severalArrayIndices⟩
  | type =>
    match type.resolveIndexer ctx.env.classes args with
    | .found indexer args => .ok (.index indexer.type e args)
    | .notFound => .error ⟨position, .noApplicableIndexer type⟩
    | .ambiguous _ => .error ⟨position, .ambiguousIndexer type⟩

/-- An index in brackets after a value. -/
def elementAccess (ctx : CompileContext) (expression : Parse Expr) (e : Expr) : Parse Expr := do
  let position ← Parse.position
  Parse.expect .openBracket .malformed
  let args ← Parse.commaList expression
  Parse.expect .closeBracket (.expected .closeBracketOrComma)
  Parse.lift (ctx.indexAccess position e args)

/-- A type with its mark for null, if one follows. -/
def nullableMark (type : Ty) : Parse Ty := do
  if ← Parse.check .question then
    if !type.isValue || type.isNullable then Parse.failHere (.noNullableForm type)
    else
      Parse.advance
      return .nullable type
  else return type

/-- What a type means by what follows it: a literal to be converted, arguments, or a static member;
with none of these it is a value. -/
def typeAccess (ctx : CompileContext) (expression : Parse Expr) (type : Ty) : Parse Expr := do
  let position ← Parse.position
  let type ← nullableMark type
  if ← Parse.check .stringLiteral then
    let text ← Parse.lift (Literal.quoted (← Parse.current))
    Parse.advance
    Parse.lift (text.convertTo ctx.env.classes type position)
  else if ← Parse.check .openParen then
    let args ← Parse.argumentList expression
    Parse.lift (Expr.constructOf ctx.env.classes type position args)
  else if ← Parse.check .dot then
    Parse.advance
    ctx.memberAccess expression (.type type)
  else return .ofValue .type (.type type)

/-- A call of a supplied function; the current token opens its arguments. -/
def functionCall (ctx : CompileContext) (expression : Parse Expr) (function : Expr)
    (params : List Ty) (result : Ty) : Parse Expr := do
  let position ← Parse.position
  let args ← Parse.argumentList expression
  if args.length != params.length then Parse.failAt position (.argumentCount params.length)
  else
    match Expr.promoteAll? ctx.env.classes .exactly params args with
    | some args => return .invoke result function args
    | none => Parse.failAt position .incompatibleArguments

end CompileContext

end QueryTree
