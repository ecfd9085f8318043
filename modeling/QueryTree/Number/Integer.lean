/-!
# Fixed-width integers

The eight integral widths of the object model, and integers that carry their width together with a
proof that they fit it.
-/

namespace QueryTree

/-- An integral width. -/
inductive IntKind where
  | sbyte | byte | int16 | uint16 | int32 | uint32 | int64 | uint64
deriving DecidableEq

namespace IntKind

/-- All widths. -/
def all : List IntKind := [sbyte, byte, int16, uint16, int32, uint32, int64, uint64]

/-- The number of members of a width. -/
def card : IntKind → Nat
  | sbyte | byte => 256
  | int16 | uint16 => 65536
  | int32 | uint32 => 4294967296
  | int64 | uint64 => 18446744073709551616

/-- Whether a width has negative members. -/
def isSigned : IntKind → Bool
  | sbyte | int16 | int32 | int64 => true
  | byte | uint16 | uint32 | uint64 => false

/-- The least integer of a width. -/
def min (kind : IntKind) : Int :=
  if kind.isSigned then -(kind.card / 2 : Nat) else 0

/-- The greatest integer of a width. -/
def max (kind : IntKind) : Int :=
  if kind.isSigned then (kind.card / 2 : Nat) - 1 else kind.card - 1

/-- The name of a width in the object model. -/
def name : IntKind → String
  | sbyte => "SByte"
  | byte => "Byte"
  | int16 => "Int16"
  | uint16 => "UInt16"
  | int32 => "Int32"
  | uint32 => "UInt32"
  | int64 => "Int64"
  | uint64 => "UInt64"

/-- The representative of `n` modulo the number of members of a width. -/
def wrapInt (kind : IntKind) (n : Int) : Int :=
  if kind.isSigned then n.bmod kind.card else n % kind.card

theorem wrapInt_mem (kind : IntKind) (n : Int) :
    kind.min ≤ kind.wrapInt n ∧ kind.wrapInt n ≤ kind.max := by
  cases kind <;> simp only [min, max, wrapInt, isSigned, card, Int.bmod] <;>
    constructor <;> simp <;> omega

end IntKind

/-- An integer of a certain width. -/
structure Integer where
  kind : IntKind
  val : Int
  inRange : kind.min ≤ val ∧ val ≤ kind.max
deriving DecidableEq

namespace Integer

/-- The integer `n` in a width, if it fits. -/
def ofInt? (kind : IntKind) (n : Int) : Option Integer :=
  if fits : kind.min ≤ n ∧ n ≤ kind.max then some ⟨kind, n, fits⟩ else none

/-- The integer `n` truncated to a width, in two's complement. -/
def wrap (kind : IntKind) (n : Int) : Integer :=
  ⟨kind, kind.wrapInt n, kind.wrapInt_mem n⟩

@[simp] theorem wrap_val (kind : IntKind) (n : Int) : (wrap kind n).val = kind.wrapInt n := rfl

theorem ofInt?_val (number : Integer) : ofInt? number.kind number.val = some number := by
  simp [ofInt?, number.inRange]

end Integer

end QueryTree
