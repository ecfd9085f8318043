import QueryTree.Expr.Basic

/-!
# Evaluation errors

What can go wrong when an expression is evaluated.
-/

namespace QueryTree

/-- Values of a kind that an operation has no use for. -/
inductive TypeFault where
  | testOf (value : Value)
  | invocationOf (type : Ty)
  | argumentCount (expected actual : Nat)
  | sumOf (type : Ty)
  | severalMatches
  | argumentMissing (operation : Aggregate)
  | notNumeric (value : Value)
  /-- An object that is no group takes the place of a sequence. -/
  | notGroup (operation : Aggregate)
  | notSequence (operation : Aggregate) (value : Value)
  | operands (op : BinaryOp) (left right : Value)
  | resultType (op : BinaryOp) (type : Ty)
  | shift (left right : Value)
  | negation (value : Value)
  | conversion (value : Value) (type : Ty)
  | indexOf (value : Value)
  | textArgument (place : Nat)
  | integerArgument (place : Nat)
  | numberArgument (method : String)

/-- Uses of null where a value is needed. -/
inductive NullFault where
  | sequence (operation : Aggregate)
  | nullableValue
  | member (name : String) (type : Ty)
  | index
  | toText
  | textArgument
  | receiver (type method : String)

/-- Parts of expressions that have no value here. -/
inductive MissingFeature where
  | lambda
  | constructor (type : Ty)
  | aggregate (operation : Aggregate)
  | staticMember (name : String) (type : Ty)
  | member (name : String) (type : Ty)
  /-- A member or method of a built-in type. -/
  | builtIn (type name : String)
  | method (type name : String)
  | mathOf (name : String) (type : Ty)

/-- Why an evaluation fails. -/
inductive EvalError where
  | type (fault : TypeFault)
  | unboundParameter (name : String)
  | null (fault : NullFault)
  | divisionByZero
  | overflow (operation : String)
  | indexOutOfRange (i : Int)
  | emptySequence (operation : Aggregate)
  | unsupported (feature : MissingFeature)
  /-- A result that the evaluation takes for granted does not exist, as it does not fit its type.
  This is no failure that is reported: the evaluation is abandoned, and the words are not shown. -/
  | aborted

/-- The words for a use of values of a wrong kind. -/
def TypeFault.message : TypeFault → String
  | testOf value => "conditional test evaluated to " ++ value.text
  | invocationOf type => type.display ++ " is not invocable"
  | argumentCount expected actual =>
    "lambda expects " ++ toString expected ++ " argument(s), got " ++ toString actual
  | sumOf type => "cannot sum " ++ type.display
  | severalMatches => "sequence contains more than one matching element"
  | argumentMissing operation =>
    operation.name ++ (if operation = .contains then " needs a value" else " needs a count")
  | notNumeric value => value.text ++ " is not numeric"
  | notGroup operation => operation.name ++ " requires a sequence"
  | notSequence operation value => operation.name ++ " requires a sequence, got " ++ value.text
  | operands op left right =>
    "cannot apply '" ++ op.symbol ++ "' to " ++ left.text ++ " and " ++ right.text
  | resultType op type => "'" ++ op.symbol ++ "' on " ++ type.display
  | shift left right => "cannot shift " ++ left.text ++ " by " ++ right.text
  | negation value => "cannot negate " ++ value.text
  | conversion value type => "cannot convert " ++ value.text ++ " to " ++ type.display
  | indexOf value => "cannot index " ++ value.text
  | textArgument place => "argument " ++ toString place ++ " must be a string"
  | integerArgument place => "argument " ++ toString place ++ " must be an integer"
  | numberArgument method => "DateTime." ++ method ++ " needs a number"

/-- The words for a use of null. -/
def NullFault.message : NullFault → String
  | sequence operation => operation.name ++ " on a null sequence"
  | nullableValue => "nullable object must have a value"
  | member name type => "member '" ++ name ++ "' of a null " ++ type.display
  | index => "indexing a null value"
  | toText => "ToString on null"
  | textArgument => "string argument"
  | receiver type method => type ++ "." ++ method ++ " on null"

/-- The words for a part of an expression that has no value. -/
def MissingFeature.message : MissingFeature → String
  | lambda => "a lambda is not a value; invoke it instead"
  | constructor type => "constructor of " ++ type.display
  | aggregate operation => "aggregate '" ++ operation.name ++ "'"
  | staticMember name type => "static member '" ++ name ++ "' of " ++ type.display
  | member name type => "member '" ++ name ++ "' on " ++ type.display
  | builtIn type name => type ++ "." ++ name
  | method type name => "method " ++ type ++ "." ++ name
  | mathOf name type => "Math." ++ name ++ "(" ++ type.display ++ ")"

/-- The message of an error. -/
def EvalError.message : EvalError → String
  | type fault => "Type error: " ++ fault.message
  | unboundParameter name => "Parameter '" ++ name ++ "' is not bound"
  | null fault => "Null reference: " ++ fault.message
  | divisionByZero => "Division by zero"
  | overflow operation => "Arithmetic overflow in " ++ operation
  | indexOutOfRange i => "Index " ++ toString i ++ " is out of range"
  | emptySequence operation => "Sequence contains no elements: " ++ operation.name
  | unsupported feature => "Unsupported: " ++ feature.message
  | aborted => "The computation was given up"

/-- The value of an evaluation, or why there is none. -/
abbrev Evaluation := Except EvalError

namespace Evaluation

/-- A value that may be missing for a reason. -/
def require {α : Type} (error : EvalError) : Option α → Evaluation α
  | some a => .ok a
  | none => .error error

end Evaluation

end QueryTree
