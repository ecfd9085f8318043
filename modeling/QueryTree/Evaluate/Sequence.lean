import QueryTree.Evaluate.Operation
import QueryTree.Value.Order

/-!
# Sequences

What sequence operations yield, and the sorting of their items.
-/

namespace QueryTree

/-! ## Sorting

Stable sorting by insertion, and the order of items by several keys.
-/

/-- An item put into a list that is sorted from the greatest item to the least: before the first
item that is not greater. -/
def insertDescending {α : Type} (less : α → α → Bool) (item : α) : List α → List α
  | [] => [item]
  | held :: rest =>
    if less item held then held :: insertDescending less item rest else item :: held :: rest

/-- The items in order; items of which neither is less keep their order. -/
def stableSort {α : Type} (less : α → α → Bool) (items : List α) : List α :=
  (items.foldl (fun sorted item => insertDescending less item sorted) []).reverse

namespace Value

/-- The order of two keys, ascending or descending.  Keys that are not comparable count as
equal. -/
def directedOrder (ascending : Bool) (left right : Value) : Ordering :=
  let order := (left.compare? right).getD .eq
  if ascending then order else order.swap

/-- The order of two lists of keys, each with its direction: the first keys that differ decide. -/
def orderKeys : List Bool → List Value → List Value → Ordering
  | ascending :: directions, left :: lefts, right :: rights =>
    (directedOrder ascending left right).then (orderKeys directions lefts rights)
  | _, _, _ => .eq

end Value

/-! ## Operations on sequences

The values of sequence operations.  An argument of an operation is given by what it yields: its own
value, and its value as a function of one item.
-/

/-- An argument of a sequence operation. -/
structure SequenceArgument where
  value : Unit → Evaluation Value
  apply : Value → Evaluation Value

namespace Aggregate

open Value (isBoolean)

/-- The name under which a group keeps its members. -/
def groupMembers : String := "Elements"

/-- The name under which a group keeps its key. -/
def groupKey : String := "Key"

/-- The items of a sequence: an array, a group or the characters of a text. -/
def items (operation : Aggregate) : Value → Evaluation (List Value)
  | .array items => .ok items
  | .object members =>
    match members.lookup groupMembers with
    | some (.array items) => .ok items
    | _ => .error (.type (.notGroup operation))
  | .string s => .ok (s.toList.map .char)
  | .null => .error (.null (.sequence operation))
  | other => .error (.type (.notSequence operation other))

/-- The items for which a predicate is true; without a predicate all of them. -/
def filtered (predicate? : Option SequenceArgument) (items : List Value) :
    Evaluation (List Value) :=
  match predicate? with
  | none => .ok items
  | some predicate => items.filterM fun item => return isBoolean true (← predicate.apply item)

/-- What a selector yields for the items; without a selector the items themselves. -/
def projected (selector? : Option SequenceArgument) (items : List Value) :
    Evaluation (List Value) :=
  match selector? with
  | none => .ok items
  | some selector => items.mapM selector.apply

/-- The number of items as a value of a width. -/
def counted (operation : Aggregate) (kind : IntKind) (items : List Value) : Evaluation Value :=
  Evaluation.require (.overflow operation.name)
    ((Integer.ofInt? kind items.length).map .integral)

/-- What an operation yields that found no values. -/
def emptyResult (operation : Aggregate) (type : Ty) : Evaluation Value :=
  if type.admitsNull then .ok .null else .error (.emptySequence operation)

/-- The sum of nothing, for a type that can be summed. -/
def emptySum (type : Ty) : Evaluation Value :=
  Evaluation.require (.type (.sumOf type)) (Value.ofInt? type.core 0)

/-- Values of a type added to a total, null not counted. -/
def addAll (type : Ty) (values : List Value) (total : Value) : Evaluation Value :=
  values.foldlM (fun total value =>
    if value.isNull then return total
    else do Value.applyBinary .add type total (← value.convertTo type)) total

/-- The mean of decimal numbers, of which there is at least one. -/
def decimalMean (values : List Value) : Evaluation Value := do
  let total ← values.foldlM (fun (total : Decimal) value => do
    let d ← Evaluation.require (.type (.notNumeric value)) value.toDecimal?
    Evaluation.require (.overflow average.name) (total.add? d)) Decimal.zero
  Evaluation.require .aborted
    (((Decimal.ofInt? values.length).bind total.div?).map .decimal)

/-- The mean of real numbers, of which there is at least one, as a value of a type. -/
def realMean (type : Ty) (values : List Value) : Evaluation Value := do
  let total ← values.foldlM (fun (total : Float) value => do
    let x ← Evaluation.require (.type (.notNumeric value)) value.toDouble?
    return total + x) 0.0
  (Value.double (total / doubleOfInt values.length)).convertTo type

/-- The mean of values, null not counted. -/
def averageOf (type : Ty) (values : List Value) : Evaluation Value :=
  match values.filter (!·.isNull) with
  | [] => emptyResult average type
  | values => if type.core == .decimal then decimalMean values else realMean type values

/-- The first of the values that no other one precedes in the wanted order, null not counted. -/
def extreme (operation : Aggregate) (wanted : Ordering) (type : Ty) (values : List Value) :
    Evaluation Value :=
  match values.filter (!·.isNull) with
  | [] => emptyResult operation type
  | earliest :: others =>
    .ok (others.foldl (fun best value =>
      if value.compare? best == some wanted then value else best) earliest)

/-- One item out of those that match, if there is one. -/
def chosen (operation : Aggregate) (found : Option Value) : Evaluation Value :=
  Evaluation.require (.emptySequence operation) found

/-- The only item out of those that match, or nothing if there is none. -/
def onlyOne? (found : List Value) : Evaluation (Option Value) :=
  match found with
  | [] => .ok none
  | [value] => .ok (some value)
  | _ => .error (.type .severalMatches)

/-- The value of the argument of an operation that has one. -/
def argumentValue (operation : Aggregate) (args : List SequenceArgument) : Evaluation Value :=
  match args with
  | arg :: _ => arg.value ()
  | [] => .error (.type (.argumentMissing operation))

/-- The number of items that are passed over or kept. -/
def amount (operation : Aggregate) (args : List SequenceArgument) : Evaluation Nat := do
  let value ← argumentValue operation args
  let n ← Evaluation.require (.type (.notNumeric value)) value.toInt?
  return n.toNat

/-- The items in the order of what a selector yields for them. -/
def sorted (ascending : Bool) (selector? : Option SequenceArgument) (items : List Value) :
    Evaluation (List Value) := do
  let keys ← projected selector? items
  let less (left right : Value × Value) : Bool :=
    Value.directedOrder ascending left.1 right.1 == .lt
  return (stableSort less (keys.zip items)).map (·.2)

/-- The items of which no equal one comes before. -/
def distinctItems (items : List Value) : List Value :=
  items.foldl (fun kept item =>
    if kept.any (Value.equal · item) then kept else kept ++ [item]) []

/-- A group: its key and its members. -/
abbrev Group := Value × List Value

/-- A member put into the group with an equal key, or into a new one. -/
def addToGroup (key member : Value) : List Group → List Group
  | [] => [(key, [member])]
  | (held, members) :: rest =>
    if held.equal key then (held, members ++ [member]) :: rest
    else (held, members) :: addToGroup key member rest

/-- The groups of members with equal keys, in the order of their first members. -/
def groups (keyed : List (Value × Value)) : List Group :=
  keyed.foldl (fun held entry => addToGroup entry.1 entry.2 held) []

/-- A group as a value. -/
def groupValue (group : Group) : Value :=
  .ofMembers [(groupKey, group.1), (groupMembers, .array group.2)]

/-- The value of an operation on a sequence.  `type` is the type of the result. -/
def evaluate (operation : Aggregate) (type : Ty) (source : Value)
    (args : List SequenceArgument) : Evaluation Value := do
  let items ← operation.items source
  let arg? := args.head?
  match operation with
  | filter => return .array (← filtered arg? items)
  | select => return .array (← projected arg? items)
  | selectMany =>
    let inner ← (← projected arg? items).mapM operation.items
    return .array inner.flatten
  | any => return .boolean !(← filtered arg? items).isEmpty
  | all => return .boolean ((← filtered arg? items).length == items.length)
  | count => counted operation .int32 (← filtered arg? items)
  | longCount => counted operation .int64 (← filtered arg? items)
  | sum =>
    let zero ← emptySum type
    addAll type.core (← projected arg? items) zero
  | average => averageOf type (← projected arg? items)
  | min => extreme operation .lt type (← projected arg? items)
  | max => extreme operation .gt type (← projected arg? items)
  | first => chosen operation (← filtered arg? items).head?
  | firstOrDefault => return (← filtered arg? items).head?.getD (.default type)
  | last => chosen operation (← filtered arg? items).getLast?
  | lastOrDefault => return (← filtered arg? items).getLast?.getD (.default type)
  | single => chosen operation (← onlyOne? (← filtered arg? items))
  | singleOrDefault => return (← onlyOne? (← filtered arg? items)).getD (.default type)
  | contains =>
    let value ← argumentValue operation args
    return .boolean (items.any (Value.equal · value))
  | take => return .array (items.take (← amount operation args))
  | skip => return .array (items.drop (← amount operation args))
  | orderBy => return .array (← sorted true arg? items)
  | orderByDescending => return .array (← sorted false arg? items)
  | distinct => return .array (distinctItems items)
  | reverse => return .array items.reverse
  | toArray | toList => return .array items
  | groupBy =>
    let keys ← projected arg? items
    let members ← projected args[1]? items
    return .array ((groups (keys.zip members)).map groupValue)
  | thenBy | thenByDescending | skipWhile | takeWhile | defaultIfEmpty | ofType | cast =>
    throw (.unsupported (.aggregate operation))

end Aggregate

end QueryTree
