/-!
# Operators and sequence operations

The closed vocabularies of expression trees: binary operators, type tests and the operations on
sequences.
-/

namespace QueryTree

/-- The binary operators. -/
inductive BinaryOp where
  | equal | notEqual | lessThan | greaterThan | lessThanOrEqual | greaterThanOrEqual
  | add | subtract | multiply | divide | modulo
  | and | or | leftShift | rightShift
  /-- Conjunction that looks at its right operand only if it has to. -/
  | andAlso
  /-- Disjunction that looks at its right operand only if it has to. -/
  | orElse
deriving DecidableEq

namespace BinaryOp

/-- The symbol of an operator. -/
def symbol : BinaryOp → String
  | equal => "=="
  | notEqual => "!="
  | lessThan => "<"
  | greaterThan => ">"
  | lessThanOrEqual => "<="
  | greaterThanOrEqual => ">="
  | add => "+"
  | subtract => "-"
  | multiply => "*"
  | divide => "/"
  | modulo => "%"
  | and => "&"
  | or => "|"
  | leftShift => "<<"
  | rightShift => ">>"
  | andAlso => "&&"
  | orElse => "||"

/-- The name of an operator in a printed tree. -/
def name : BinaryOp → String
  | equal => "Equal"
  | notEqual => "NotEqual"
  | lessThan => "LessThan"
  | greaterThan => "GreaterThan"
  | lessThanOrEqual => "LessThanOrEqual"
  | greaterThanOrEqual => "GreaterThanOrEqual"
  | add => "Add"
  | subtract => "Subtract"
  | multiply => "Multiply"
  | divide => "Divide"
  | modulo => "Modulo"
  | and => "And"
  | or => "Or"
  | leftShift => "LeftShift"
  | rightShift => "RightShift"
  | andAlso => "AndAlso"
  | orElse => "OrElse"

/-- The name of the method by which a class declares an operator. -/
def methodName : BinaryOp → String
  | equal => "op_Equality"
  | notEqual => "op_Inequality"
  | lessThan => "op_LessThan"
  | greaterThan => "op_GreaterThan"
  | lessThanOrEqual => "op_LessThanOrEqual"
  | greaterThanOrEqual => "op_GreaterThanOrEqual"
  | add => "op_Addition"
  | subtract => "op_Subtraction"
  | multiply => "op_Multiply"
  | divide => "op_Division"
  | modulo => "op_Modulus"
  | and | andAlso => "op_BitwiseAnd"
  | or | orElse => "op_BitwiseOr"
  | leftShift => "op_LeftShift"
  | rightShift => "op_RightShift"

/-- Whether an operator tests for equality or inequality. -/
def isEquality : BinaryOp → Bool
  | equal | notEqual => true
  | _ => false

/-- Whether an operator compares its operands. -/
def isComparison : BinaryOp → Bool
  | equal | notEqual | lessThan | greaterThan | lessThanOrEqual | greaterThanOrEqual => true
  | _ => false

end BinaryOp

/-- What is done with the outcome of a type test. -/
inductive TypeTest where
  /-- The outcome itself. -/
  | is
  /-- The value, or null if the test fails. -/
  | as
  /-- The value, converted if the test fails. -/
  | cast
deriving DecidableEq

/-- The word for a type test. -/
def TypeTest.word : TypeTest → String
  | is => "is"
  | as => "as"
  | cast => "cast"

/-- The operations on sequences. -/
inductive Aggregate where
  | filter | any | all | count | longCount
  | first | firstOrDefault | last | lastOrDefault | single | singleOrDefault
  | min | max | sum | average
  | select | selectMany
  | orderBy | orderByDescending | thenBy | thenByDescending
  | groupBy
  | skip | take | skipWhile | takeWhile
  | distinct | reverse | toArray | toList
  | defaultIfEmpty | contains | ofType | cast
deriving DecidableEq

namespace Aggregate

/-- The name by which an operation is called. -/
def name : Aggregate → String
  | filter => "Where"
  | any => "Any"
  | all => "All"
  | count => "Count"
  | longCount => "LongCount"
  | first => "First"
  | firstOrDefault => "FirstOrDefault"
  | last => "Last"
  | lastOrDefault => "LastOrDefault"
  | single => "Single"
  | singleOrDefault => "SingleOrDefault"
  | min => "Min"
  | max => "Max"
  | sum => "Sum"
  | average => "Average"
  | select => "Select"
  | selectMany => "SelectMany"
  | orderBy => "OrderBy"
  | orderByDescending => "OrderByDescending"
  | thenBy => "ThenBy"
  | thenByDescending => "ThenByDescending"
  | groupBy => "GroupBy"
  | skip => "Skip"
  | take => "Take"
  | skipWhile => "SkipWhile"
  | takeWhile => "TakeWhile"
  | distinct => "Distinct"
  | reverse => "Reverse"
  | toArray => "ToArray"
  | toList => "ToList"
  | defaultIfEmpty => "DefaultIfEmpty"
  | contains => "Contains"
  | ofType => "OfType"
  | cast => "Cast"

/-- Whether the arguments of an operation refer to what surrounds it and not to an element. -/
def seesOuterScope : Aggregate → Bool
  | contains | skip | take => true
  | _ => false

/-- Whether the arguments of an operation are values and not functions of an element. -/
def takesValues : Aggregate → Bool
  | contains | defaultIfEmpty | skip | take => true
  | _ => false

end Aggregate

end QueryTree
