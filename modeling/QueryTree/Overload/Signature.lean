import QueryTree.Overload.Resolution

/-!
# Operator signatures

The operand types that the built-in operators accept, and the promotion of operands to the best of
them.
-/

namespace QueryTree

/-- Operators that accept the same operand types. -/
inductive OperatorGroup where
  | logical | arithmetic | relational | equality | add | subtract | shift | negation | not
deriving DecidableEq

namespace OperatorGroup

/-- Types followed by their forms that admit null. -/
def withNullable (types : List Ty) : List Ty := types ++ types.map Ty.lift

/-- Two operands of one type, for each of some types and their forms that admit null. -/
def pairs (types : List Ty) : List (List Ty) := (withNullable types).map fun t => [t, t]

/-- Two operands, both as given and both with null. -/
def liftedPair (left right : Ty) : List (List Ty) := [[left, right], [left.lift, right.lift]]

/-- The types that arithmetic is done in. -/
def arithmeticTypes : List Ty :=
  [.int32, .integral .uint32, .int64, .integral .uint64, .single, .double, .decimal]

/-- The types that a sign can be put before. -/
def signedTypes : List Ty := [.int32, .int64, .single, .double, .decimal]

/-- The operand types of a group, one list for each way to apply its operators. -/
def signatures : OperatorGroup → List (List Ty)
  | logical => pairs [.boolean]
  | arithmetic => pairs arithmeticTypes
  | relational =>
    pairs arithmeticTypes ++ [[.string, .string]] ++ pairs [.char, .dateTime, .timeSpan]
  | equality =>
    pairs arithmeticTypes ++ [[.string, .string]] ++ pairs [.char, .dateTime, .timeSpan]
      ++ pairs [.boolean, .guid]
  | add =>
    pairs arithmeticTypes ++ liftedPair .dateTime .timeSpan ++ liftedPair .timeSpan .timeSpan
  | subtract =>
    pairs arithmeticTypes ++ liftedPair .dateTime .timeSpan ++ liftedPair .timeSpan .timeSpan
      ++ liftedPair .dateTime .dateTime
  | shift =>
    [.int32, .integral .uint32, .int64, .integral .uint64].flatMap fun t => liftedPair t .int32
  | negation => (withNullable signedTypes).map fun t => [t]
  | not => (withNullable [.boolean]).map fun t => [t]

/-- The best signature of a group for some operands. -/
def resolve (table : ClassTable) (group : OperatorGroup) (operands : List Expr) :
    Resolution (List Ty) :=
  Resolution.choose table .argument operands (group.signatures.map fun types => (types, types))

/-- Two operands promoted to the best signature. -/
def operands (table : ClassTable) (group : OperatorGroup) (symbol : String) (position : Nat)
    (left right : Expr) : Except CompileError (Expr × Expr) :=
  match group.resolve table [left, right] with
  | .found _ [left, right] => .ok (left, right)
  | _ => .error ⟨position, .incompatibleOperands symbol left.type right.type⟩

/-- One operand promoted to the best signature. -/
def operand (table : ClassTable) (group : OperatorGroup) (symbol : String) (position : Nat)
    (e : Expr) : Except CompileError Expr :=
  match group.resolve table [e] with
  | .found _ [e] => .ok e
  | _ => .error ⟨position, .incompatibleOperand symbol e.type⟩

end OperatorGroup

namespace Aggregate

/-- The operations on sequences with the types of their arguments. -/
def signatures : List (Aggregate × List Ty) :=
  List.flatten [
    [(.filter, [.boolean])],
    [any, count, longCount].flatMap optionalPredicate,
    [(.all, [.boolean])],
    [first, firstOrDefault, last, lastOrDefault, single, singleOrDefault].flatMap
      optionalPredicate,
    [min, max].flatMap fun operation => [(operation, []), (operation, [.object])],
    [sum, average].flatMap fun operation =>
      (operation, [])
        :: (OperatorGroup.withNullable OperatorGroup.signedTypes).map fun t => (operation, [t]),
    [select, selectMany, orderBy, orderByDescending, thenBy, thenByDescending].map
      fun operation => (operation, [.object]),
    [(.groupBy, [.object]), (.groupBy, [.object, .object]), (.skip, [.int32]), (.take, [.int32]),
      (.skipWhile, [.boolean]), (.takeWhile, [.boolean])],
    [distinct, reverse, toArray, toList, defaultIfEmpty].map fun operation => (operation, []),
    [defaultIfEmpty, contains, ofType, cast].map fun operation => (operation, [.object])]
where
  /-- An operation with and without a predicate. -/
  optionalPredicate (operation : Aggregate) : List (Aggregate × List Ty) :=
    [(operation, []), (operation, [.boolean])]

/-- The operation that a name stands for, ASCII letters in either case. -/
def ofName? (name : String) : Option Aggregate :=
  (signatures.find? fun entry => Text.sameIgnoringAsciiCase entry.1.name name).map (·.1)

/-- The best signature of the operation with a name. -/
def resolve (table : ClassTable) (name : String) (args : List Expr) :
    Resolution (Aggregate × List Ty) :=
  Resolution.choose table .element args
    ((signatures.filter fun entry => Text.sameIgnoringAsciiCase entry.1.name name).map
      fun entry => (entry, entry.2))

end Aggregate

end QueryTree
