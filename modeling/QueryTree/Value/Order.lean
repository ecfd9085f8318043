import QueryTree.Number.Decimal.Binary
import QueryTree.Value.Basic

/-!
# Numbers and order of values

What values count as numbers, and how values are ordered and compared.
-/

/-!
## Numeric values

The numbers that values stand for, and values of a given type for a given number.  Characters and
members of enumerations count as integers.
-/

namespace QueryTree.Value

/-- The integer that a value stands for. -/
def toInt? : Value → Option Int
  | integral n => some n.val
  | char c => some c.toNat
  | enum _ n => some n
  | _ => none

/-- The number of 64 bits that a value stands for. -/
def toDouble? : Value → Option Float
  | single x => some x.toFloat
  | double x => some x
  | decimal d => some d.toDouble
  | other => other.toInt?.map doubleOfInt

/-- The decimal number that a value stands for. -/
def toDecimal? : Value → Option Decimal
  | decimal d => some d
  | single x => Decimal.ofSingle? x
  | double x => Decimal.ofDouble? x
  | other => other.toInt?.bind Decimal.ofInt?

/-- The character with a code. -/
def charOfInt? (n : Int) : Option Char :=
  if valid : 0 ≤ n ∧ n.toNat.isValidChar then some (Char.ofNatAux n.toNat valid.2) else none

/-- Whether an integer can be held in 64 bits with a sign. -/
def fitsInt64 (n : Int) : Bool := IntKind.int64.min ≤ n && n ≤ IntKind.int64.max

/-- The value of a numeric, character or enumeration type for an integer, if it fits. -/
def ofInt? (type : Ty) (n : Int) : Option Value :=
  match type.core with
  | .integral kind => (Integer.ofInt? kind n).map integral
  | .single => some (single (singleOfInt n))
  | .double => some (double (doubleOfInt n))
  | .decimal => (Decimal.ofInt? n).map decimal
  | .char => (charOfInt? n).map char
  | .enum e => if fitsInt64 n then some (enum e n) else none
  | _ => none

/-- The integral part of the number that a value stands for. -/
def truncate? : Value → Option Int
  | single x => some (integerOfDouble x.toFloat)
  | double x => some (integerOfDouble x)
  | decimal d => some d.toInt
  | other => other.toInt?

/-- The number of a value as a value of another type, real numbers being truncated toward zero
where an integer is wanted. -/
def toNumeric? (type : Ty) (value : Value) : Option Value :=
  match type.core with
  | .single => value.toDouble?.map fun x => single x.toFloat32
  | .double => value.toDouble?.map double
  | .decimal => value.toDecimal?.map decimal
  | target => value.truncate?.bind (ofInt? target)

/-- An integer truncated to an integral type, in two's complement. -/
def wrapped? (type : Ty) (n : Int) : Option Value :=
  match type with
  | .integral kind => some (integral (Integer.wrap kind n))
  | _ => none

end QueryTree.Value

/-!
## Order and equality of values

Values of one kind are ordered; numbers of different widths are compared as numbers.  Null comes
first.  Values that have no order are equal when they are the same.
-/

namespace QueryTree.Value

mutual

/-- Whether two values are the same: of one kind, and alike in all parts.  A real number that is no
number differs from itself. -/
def same : Value → Value → Bool
  | null, null => true
  | boolean a, boolean b => a == b
  | char a, char b => a == b
  | string a, string b => a == b
  | integral a, integral b => a == b
  | single a, single b => a == b
  | double a, double b => a == b
  | decimal a, decimal b => a.compare b == .eq
  | dateTime a, dateTime b => a == b
  | timeSpan a, timeSpan b => a == b
  | guid a, guid b => a == b
  | enum e a, enum f b => e.same f && a == b
  | type a, type b => a == b
  | array a, array b => sameItems a b
  | object a, object b => sameMembers a b
  | _, _ => false

/-- Whether two lists of values are the same. -/
def sameItems : List Value → List Value → Bool
  | [], [] => true
  | a :: as, b :: bs => same a b && sameItems as bs
  | _, _ => false

/-- Whether two lists of named values are the same. -/
def sameMembers : List (String × Value) → List (String × Value) → Bool
  | [], [] => true
  | (m, a) :: as, (n, b) :: bs => m == n && same a b && sameMembers as bs
  | _, _ => false

end

instance : BEq Value := ⟨same⟩

/-- The order of two real numbers, if both are numbers. -/
def compareReals? (x y : Float) : Option Ordering :=
  if x < y then some .lt
  else if x == y then some .eq
  else if y < x then some .gt
  else none

/-- Whether the value is a decimal number. -/
def isDecimal : Value → Bool
  | decimal _ => true
  | _ => false

/-- Whether the value is a binary real number. -/
def isReal : Value → Bool
  | single _ | double _ => true
  | _ => false

/-- The order of two numbers: as decimal numbers if one of them is decimal, as real numbers if one
of them is real, and otherwise as integers. -/
def compareNumbers? (left right : Value) : Option Ordering :=
  if left.isDecimal || right.isDecimal then do
    return (← left.toDecimal?).compare (← right.toDecimal?)
  else if left.isReal || right.isReal then do
    compareReals? (← left.toDouble?) (← right.toDouble?)
  else do
    return Ord.compare (← left.toInt?) (← right.toInt?)

/-- The order of two values, if they are comparable. -/
def compare? : Value → Value → Option Ordering
  | null, null => some .eq
  | null, _ => some .lt
  | _, null => some .gt
  | string a, string b => some (Ord.compare a b)
  | boolean a, boolean b => some (Ord.compare a b)
  | char a, char b => some (Ord.compare a b)
  | dateTime a, dateTime b => some (a.compare b)
  | timeSpan a, timeSpan b => some (Ord.compare a.nanoseconds b.nanoseconds)
  | guid a, guid b => some (a.compare b)
  | left, right => compareNumbers? left right

/-- Whether two values are equal: as their order says or, where they have none, by being the
same. -/
def equal (left right : Value) : Bool :=
  match compare? left right with
  | some order => order == .eq
  | none => left == right

end QueryTree.Value
