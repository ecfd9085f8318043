import QueryTree.Expr.Operator
import QueryTree.Type.Class
import QueryTree.Value.Basic

/-!
# Expression trees

Typed trees, the result of compiling an expression text.  Every node has a type; it is stored where
it does not follow from the parts.
-/

namespace QueryTree

/-- A parameter.  Parameters are told apart by their number, not by name or type. -/
structure Parameter where
  id : Nat
  name : String
  type : Ty

instance : BEq Parameter := ⟨fun left right => left.id == right.id⟩

namespace Parameter

/-- The name by which a parameter is shown. -/
def shownName (p : Parameter) : String := if p.name.isEmpty then "it" else p.name

end Parameter

/-- How the members of a constructed object were written. -/
inductive RecordForm where
  /-- As members of a named type. -/
  | bindings
  /-- As a projection. -/
  | anonymous
deriving DecidableEq

/-- A typed expression tree. -/
inductive Expr where
  /-- A value.  `literal` is the text that it was read from, in a normal form, and can be read again
  as a value of another type. -/
  | constant (type : Ty) (value : Value) (literal : Option String)
  | parameter (p : Parameter)
  /-- A member of the type itself. -/
  | staticMember (type : Ty) (name : String)
  | member (type : Ty) (target : Expr) (name : String)
  | index (type : Ty) (target : Expr) (args : List Expr)
  | staticCall (type : Ty) (method : Method) (args : List Expr)
  | methodCall (type : Ty) (method : Method) (target : Expr) (args : List Expr)
  /-- A sequence operation.  Its arguments are functions of an element or plain values. -/
  | aggregate (type : Ty) (operation : Aggregate) (source : Expr) (typeArgs : List Ty)
    (args : List Expr)
  /-- A call of a function. -/
  | invoke (type : Ty) (target : Expr) (args : List Expr)
  /-- A binary operation; `method` names the operator method of a class, if it is one. -/
  | binary (type : Ty) (op : BinaryOp) (left right : Expr) (method : Option String)
  | convert (type : Ty) (operand : Expr)
  | negate (type : Ty) (operand : Expr)
  | not (type : Ty) (operand : Expr)
  | conditional (test ifTrue ifFalse : Expr)
  | coalesce (type : Ty) (left right : Expr)
  | lambda (params : List Parameter) (body : Expr)
  /-- A call of a constructor. -/
  | construct (type : Ty) (args : List Expr)
  | record (type : Ty) (form : RecordForm) (members : List (String × Expr))
  | newArray (type : Ty) (items : List Expr)
  | typeTest (type : Ty) (target : Expr) (wanted : Ty) (test : TypeTest)

namespace Expr

instance : Inhabited Expr := ⟨constant .object .null none⟩

/-- The type of an expression. -/
def type : Expr → Ty
  | constant type _ _ => type
  | parameter p => p.type
  | staticMember type _ => type
  | member type _ _ => type
  | index type _ _ => type
  | staticCall type _ _ => type
  | methodCall type _ _ _ => type
  | aggregate type _ _ _ _ => type
  | invoke type _ _ => type
  | binary type _ _ _ _ => type
  | convert type _ => type
  | negate type _ => type
  | not type _ => type
  | conditional _ ifTrue _ => ifTrue.type
  | coalesce type _ _ => type
  | lambda params body => .lambda (params.map (·.type)) body.type
  | construct type _ => type
  | record type _ _ => type
  | newArray type _ => type
  | typeTest type _ _ _ => type

/-- A constant that was not read from the text. -/
def ofValue (type : Ty) (value : Value) : Expr := constant type value none

/-- Null as a value of a type. -/
def nullOf (type : Ty) : Expr := constant type .null (some "null")

/-- Null as it is written, before it gets a type. -/
def nullLiteral : Expr := nullOf .object

/-- A comparison, or another operation that gives a truth value. -/
def test (op : BinaryOp) (left right : Expr) : Expr := binary .boolean op left right none

/-- Whether the expression is written null, with a type or still without. -/
def isNullLiteral : Expr → Bool
  | constant _ .null (some text) => text == "null"
  | _ => false

/-- Whether the expression is written null that has no type yet. -/
def isUntypedNull (e : Expr) : Bool := e.isNullLiteral && e.type == .object

/-- The value of a constant. -/
def value? : Expr → Option Value
  | constant _ value _ => some value
  | _ => none

/-- Whether the expression is a constant. -/
def isConstant (e : Expr) : Bool := e.value?.isSome

/-- The text that a constant holds. -/
def text? (e : Expr) : Option String := e.value?.bind Value.string?

/-- The parameter that an expression is. -/
def parameter? : Expr → Option Parameter
  | parameter p => some p
  | _ => none

/-- The expression of which this one is a member or which it calls a method, a sequence operation or
a function of. -/
def receiver? : Expr → Option Expr
  | member _ target _ => some target
  | methodCall _ _ target _ => some target
  | aggregate _ _ source _ _ => some source
  | invoke _ target _ => some target
  | _ => none

/-- Whether the expression is a call. -/
def isCall : Expr → Bool
  | staticCall _ _ _ | methodCall _ _ _ _ | aggregate _ _ _ _ _ | invoke _ _ _ => true
  | _ => false

end Expr

/-- One key of an ordering. -/
structure SortKey where
  selector : Expr
  ascending : Bool
  /-- Whether the key decides only among items that earlier keys leave equal. -/
  continues : Bool

/-- The name of the method that sorts by a key. -/
def SortKey.methodName (key : SortKey) : String :=
  (if key.continues then "ThenBy" else "OrderBy") ++ (if key.ascending then "" else "Descending")

end QueryTree
