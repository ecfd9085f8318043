import QueryTree.Evaluate.Error
import QueryTree.Number.Decimal.Arithmetic
import QueryTree.Value.Order

/-!
# Operations on values

The operators and conversions, applied to values.  Integral results are exact or an overflow, except
for operations on bits, which are truncated to the width of the result.
-/

namespace QueryTree.Value

/-- A value converted to a type.  Only numbers, characters and members of enumerations change; all
other conversions leave a value as it is. -/
def convertTo (type : Ty) (value : Value) : Evaluation Value :=
  let target := type.core
  let changes := target.isNumeric || target.isEnum || target == .char
  if value.isNull || !changes || value.naturalType == target then .ok value
  else if value.toDouble?.isNone then .error (.type (.conversion value type))
  else Evaluation.require (.overflow ("conversion to " ++ type.display)) (value.toNumeric? target)

/-- An arithmetic operator on real numbers. -/
def realOp (op : BinaryOp) (x y : Float) : Float :=
  match op with
  | .add => x + y
  | .subtract => x - y
  | .multiply => x * y
  | .divide => x / y
  | _ => doubleRemainder x y

/-- An arithmetic operator on decimal numbers. -/
def decimalOp? (op : BinaryOp) (x y : Decimal) : Option Decimal :=
  match op with
  | .add => x.add? y
  | .subtract => x.sub? y
  | .multiply => x.mul? y
  | .divide => x.div? y
  | _ => if y.isZero then none else x.rem? y

/-- Whether an integer fits the 128 bits in which intermediate results are held. -/
def fitsIntermediate (n : Int) : Bool := -(Nat.pow 2 127) ≤ n && n < Nat.pow 2 127

/-- An arithmetic operator on integers, quotients being truncated toward zero. -/
def integerOp? (op : BinaryOp) (m n : Int) : Option Int :=
  let result? :=
    match op with
    | .add => some (m + n)
    | .subtract => some (m - n)
    | .multiply => some (m * n)
    | .divide => if n = 0 then none else some (m.tdiv n)
    | _ => if n = 0 then none else some (m.tmod n)
  result?.filter fitsIntermediate

/-- Whether an operator divides. -/
def divides (op : BinaryOp) : Bool := op == .divide || op == .modulo

/-- The error of a result that is too large. -/
def overflowOf (op : BinaryOp) : EvalError := .overflow ("'" ++ op.symbol ++ "'")

/-- An arithmetic operator on two integers as a value of a type. -/
def integerArithmetic (op : BinaryOp) (type : Ty) (left right : Value) : Evaluation Value :=
  match left.toInt?, right.toInt? with
  | some m, some n =>
    if divides op && n == 0 then .error .divisionByZero
    else Evaluation.require (overflowOf op) ((integerOp? op m n).bind (ofInt? type))
  | _, _ => .error (.type (.operands op left right))

/-- An arithmetic operator on two values other than null, with a result of a type. -/
def arithmetic (op : BinaryOp) (type : Ty) (left right : Value) : Evaluation Value :=
  match left, right with
  | decimal x, decimal y =>
    if divides op && y.isZero then .error .divisionByZero
    else Evaluation.require (overflowOf op) ((decimalOp? op x y).map decimal)
  | double x, double y => .ok (double (realOp op x y))
  | single x, single y => .ok (single (realOp op x.toFloat y.toFloat).toFloat32)
  | dateTime moment, timeSpan span =>
    let result? :=
      match op with
      | .add => moment.add? span
      | .subtract => moment.sub? span
      | _ => none
    Evaluation.require (overflowOf op) (result?.map dateTime)
  | timeSpan a, timeSpan b =>
    let result? :=
      match op with
      | .add => TimeSpan.ofNanos? (a.nanoseconds + b.nanoseconds)
      | .subtract => TimeSpan.ofNanos? (a.nanoseconds - b.nanoseconds)
      | _ => none
    Evaluation.require (overflowOf op) (result?.map timeSpan)
  | dateTime a, dateTime b =>
    if op = .subtract then .ok (timeSpan (a.since b))
    else integerArithmetic op type left right
  | _, _ => integerArithmetic op type left right

/-- A bitwise operator on integers of at most 64 bits. -/
def bitsOp (op : BinaryOp) (m n : Int) : Int :=
  let a := BitVec.ofInt 64 m
  let b := BitVec.ofInt 64 n
  (if op = .and then a &&& b else a ||| b).toInt

/-- A bitwise operator on two values other than null, with a result of a type. -/
def bitwise (op : BinaryOp) (type : Ty) (left right : Value) : Evaluation Value :=
  match left, right with
  | boolean a, boolean b => .ok (boolean (if op = .and then a && b else a || b))
  | _, _ =>
    match left.toInt?, right.toInt? with
    | some m, some n =>
      Evaluation.require (.type (.resultType op type)) (wrapped? type (bitsOp op m n))
    | _, _ => .error (.type (.operands op left right))

/-- The number of bits within which a shift counts. -/
def shiftWidth (type : Ty) : Int :=
  match type with
  | .int64 | .integral .uint64 => 64
  | _ => 32

/-- An integer in the 128 bits in which intermediate results are held. -/
def intermediate (n : Int) : BitVec 128 := BitVec.ofInt 128 n

/-- The bits of a count that a shift looks at. -/
def shiftCount (type : Ty) (n : Int) : Nat :=
  (intermediate n &&& intermediate (shiftWidth type - 1)).toNat

/-- An integer with its bits shifted to the left, or to the right with its sign. -/
def shifted (op : BinaryOp) (n : Int) (count : Nat) : Int :=
  (if op = .leftShift then intermediate n <<< count
    else (intermediate n).sshiftRight count).toInt

/-- A shift of a value other than null, with a result of a type. -/
def shift (op : BinaryOp) (type : Ty) (left right : Value) : Evaluation Value :=
  match left.toInt?, right.toInt? with
  | some m, some n =>
    Evaluation.require (.type (.resultType op type))
      (wrapped? type (shifted op m (shiftCount type n)))
  | _, _ => .error (.type (.shift left right))

/-- Whether an order is what a comparison asks for. -/
def orderSatisfies (op : BinaryOp) (order : Ordering) : Bool :=
  match op with
  | .lessThan => order == .lt
  | .greaterThan => order == .gt
  | .lessThanOrEqual => order != .gt
  | _ => order != .lt

/-- A binary operator applied to two values; `type` is the type of the result.  Comparisons other
than equality are false for null, and other operators yield null for it. -/
def applyBinary (op : BinaryOp) (type : Ty) (left right : Value) : Evaluation Value :=
  if op = .equal then .ok (boolean (left.equal right))
  else if op = .notEqual then .ok (boolean !(left.equal right))
  else if op.isComparison then
    .ok (boolean
      (!left.isNull && !right.isNull && (left.compare? right).any (orderSatisfies op)))
  else if left.isNull || right.isNull then .ok null
  else
    match op with
    | .and | .or => bitwise op type.core left right
    | .leftShift | .rightShift => shift op type.core left right
    | _ => arithmetic op type.core left right

/-- The opposite of a number, with a result of a type. -/
def negated (type : Ty) (value : Value) : Evaluation Value :=
  match value with
  | null => .ok null
  | double x => .ok (double (-x))
  | single x => .ok (single (-x))
  | decimal d => .ok (decimal d.neg)
  | other =>
    match other.toInt? with
    | none => .error (.type (.notNumeric other))
    | some n => Evaluation.require (.overflow "negation") (ofInt? type (-n))

/-- The opposite of a truth value. -/
def inverted (value : Value) : Evaluation Value :=
  match value with
  | null => .ok null
  | boolean b => .ok (boolean !b)
  | other => .error (.type (.negation other))

/-- The conjunction of two truth values or null, of which the left one is not false. -/
def conjoin (left right : Value) : Value :=
  match left, right with
  | _, boolean false => boolean false
  | boolean true, boolean true => boolean true
  | _, _ => null

/-- The disjunction of two truth values or null, of which the left one is not true. -/
def disjoin (left right : Value) : Value :=
  match left, right with
  | _, boolean true => boolean true
  | boolean false, boolean false => boolean false
  | _, _ => null

/-- Whether a value is a given truth value. -/
def isBoolean (wanted : Bool) : Value → Bool
  | boolean b => b == wanted
  | _ => false

/-- Whether a value is an object. -/
def isObject : Value → Bool
  | object _ => true
  | _ => false

/-- Whether a value is an array. -/
def isArray : Value → Bool
  | array _ => true
  | _ => false

/-- Whether a value is of a type, as far as values show it.  Null is of no type. -/
def isOfType (type : Ty) (value : Value) : Bool :=
  !value.isNull
    && match type.core with
      | .object => true
      | .cls _ | .record _ _ _ | .dynamic => value.isObject
      | .array _ | .list _ | .sequence _ => value.isArray
      | other => value.naturalType == other

/-- What a type test of a value yields. -/
def testType (wanted : Ty) (test : TypeTest) (value : Value) : Evaluation Value :=
  let holds := value.isOfType wanted
  match test with
  | .is => .ok (boolean holds)
  | .as => .ok (if holds then value else null)
  | .cast => if holds then .ok value else value.convertTo wanted

/-- The value of a type that stands for a missing one. -/
def default (type : Ty) : Value :=
  if type.admitsNull then null
  else
    match type with
    | .boolean => boolean false
    | .dateTime => dateTime DateTime.minValue
    | .timeSpan => timeSpan TimeSpan.zero
    | .guid => guid ⟨0⟩
    | other => (ofInt? other 0).getD null

end QueryTree.Value
