import QueryTree.Number.Integer
import QueryTree.Text.CaseMap

/-!
# Static types

The types of the object model.  A declared class is a reference into a table of class bodies, so
that a class may mention itself; an enumeration and a record carry their members.  Two types are
the same when their constructed parts are and their declared parts have the same full name.
-/

namespace QueryTree

/-- A name with its namespace in front, if there is one. -/
def qualifiedName (qualifier : Option String) (name : String) : String :=
  match qualifier with
  | some space => if space.isEmpty then name else space ++ "." ++ name
  | none => name

/-- An enumeration: names for integers.  `lifted` marks an underlying type that is declared
nullable. -/
structure EnumType where
  name : String
  qualifier : Option String
  underlying : IntKind
  lifted : Bool
  variants : List (String × Int)
deriving DecidableEq

namespace EnumType

/-- The value of a member, its name taken without regard to the case of ASCII letters. -/
def valueOf? (e : EnumType) (name : String) : Option Int :=
  (e.variants.find? fun variant => Text.sameIgnoringAsciiCase variant.1 name).map (·.2)

/-- The first member with a value. -/
def nameOf? (e : EnumType) (value : Int) : Option String :=
  (e.variants.find? fun variant => variant.2 == value).map (·.1)

/-- The name with its namespace. -/
def fullName (e : EnumType) : String := qualifiedName e.qualifier e.name

/-- Enumerations are told apart by their full name. -/
def same (left right : EnumType) : Bool :=
  left.name == right.name && left.qualifier == right.qualifier

end EnumType

/-- A declared class; `index` is the place of its body in the class table. -/
structure ClassRef where
  name : String
  qualifier : Option String
  isValue : Bool
  index : Nat
deriving DecidableEq

namespace ClassRef

/-- The name with its namespace. -/
def fullName (c : ClassRef) : String := qualifiedName c.qualifier c.name

/-- Classes are told apart by their full name and by whether they have value semantics. -/
def same (left right : ClassRef) : Bool :=
  left.name == right.name && left.qualifier == right.qualifier && left.isValue == right.isValue

end ClassRef

/-- The types without parts. -/
inductive Atom where
  | object | boolean | char | string | integral (kind : IntKind) | single | double | decimal
  | dateTime | timeSpan | guid
  /-- The type of a type that is used as a value. -/
  | type
  /-- Bags of named values. -/
  | dynamic
deriving DecidableEq

namespace Atom

/-- The name in the object model. -/
def name : Atom → String
  | object => "Object"
  | boolean => "Boolean"
  | char => "Char"
  | string => "String"
  | integral kind => kind.name
  | single => "Single"
  | double => "Double"
  | decimal => "Decimal"
  | dateTime => "DateTime"
  | timeSpan => "TimeSpan"
  | guid => "Guid"
  | type => "Type"
  | dynamic => "DynamicClass"

/-- Whether values of the type are never null. -/
def isValue : Atom → Bool
  | object | string | type | dynamic => false
  | _ => true

/-- Whether the type belongs to the predefined namespace. -/
def isPredefined : Atom → Bool
  | type | dynamic => false
  | _ => true

/-- Whether the type is one of the integral, binary or decimal numbers. -/
def isNumeric : Atom → Bool
  | integral _ | single | double | decimal => true
  | _ => false

end Atom

/-- A static type. -/
inductive Ty where
  | atom (a : Atom)
  | nullable (inner : Ty)
  | array (element : Ty)
  | list (element : Ty)
  | sequence (element : Ty)
  | grouping (key element : Ty)
  | lambda (params : List Ty) (result : Ty)
  | enum (e : EnumType)
  | cls (c : ClassRef)
  /-- The record type of a projection. -/
  | record (id : Nat) (names : List String) (types : List Ty)

namespace Ty

/-- The top type. -/
@[match_pattern] abbrev object : Ty := atom .object
/-- Truth values. -/
@[match_pattern] abbrev boolean : Ty := atom .boolean
/-- Characters. -/
@[match_pattern] abbrev char : Ty := atom .char
/-- Texts. -/
@[match_pattern] abbrev string : Ty := atom .string
/-- Integers of a width. -/
@[match_pattern] abbrev integral (kind : IntKind) : Ty := atom (.integral kind)
/-- Integers of 32 bits. -/
@[match_pattern] abbrev int32 : Ty := integral .int32
/-- Integers of 64 bits. -/
@[match_pattern] abbrev int64 : Ty := integral .int64
/-- Binary numbers of 32 bits. -/
@[match_pattern] abbrev single : Ty := atom .single
/-- Binary numbers of 64 bits. -/
@[match_pattern] abbrev double : Ty := atom .double
/-- Decimal numbers. -/
@[match_pattern] abbrev decimal : Ty := atom .decimal
/-- Moments. -/
@[match_pattern] abbrev dateTime : Ty := atom .dateTime
/-- Durations. -/
@[match_pattern] abbrev timeSpan : Ty := atom .timeSpan
/-- Identifiers. -/
@[match_pattern] abbrev guid : Ty := atom .guid
/-- The type of types. -/
@[match_pattern] abbrev type : Ty := atom .type
/-- Bags of named values. -/
@[match_pattern] abbrev dynamic : Ty := atom .dynamic

instance : Inhabited Ty := ⟨object⟩

mutual

/-- Whether two types are the same. -/
def same : Ty → Ty → Bool
  | atom a, atom b => a == b
  | nullable a, nullable b => same a b
  | array a, array b => same a b
  | list a, list b => same a b
  | sequence a, sequence b => same a b
  | grouping k a, grouping l b => same k l && same a b
  | lambda ps r, lambda qs s => sameAll ps qs && same r s
  | enum a, enum b => a.same b
  | cls a, cls b => a.same b
  | record _ ms ts, record _ ns us => ms == ns && sameAll ts us
  | _, _ => false

/-- Whether two lists of types are the same. -/
def sameAll : List Ty → List Ty → Bool
  | [], [] => true
  | a :: as, b :: bs => same a b && sameAll as bs
  | _, _ => false

end

instance : BEq Ty := ⟨same⟩

mutual

/-- The text of a type. -/
def display : Ty → String
  | atom a => a.name
  | nullable inner => display inner ++ "?"
  | array element => display element ++ "[]"
  | list element => "List<" ++ display element ++ ">"
  | sequence element => "IEnumerable<" ++ display element ++ ">"
  | grouping key element => "IGrouping<" ++ display key ++ ", " ++ display element ++ ">"
  | lambda params result => "Func<" ++ displayParams params ++ display result ++ ">"
  | enum e => e.name
  | cls c => c.name
  | record id _ _ => "DynamicClass" ++ toString id

/-- The texts of types, each followed by a comma. -/
def displayParams : List Ty → String
  | [] => ""
  | t :: rest => display t ++ ", " ++ displayParams rest

end

/-- Whether values of the type are never null, or are null by being lifted. -/
def isValue : Ty → Bool
  | atom a => a.isValue
  | nullable _ | enum _ => true
  | cls c => c.isValue
  | _ => false

/-- Whether the type is a value type widened by null. -/
def isNullable : Ty → Bool
  | nullable _ => true
  | _ => false

/-- The type without its outermost widening. -/
def core : Ty → Ty
  | nullable inner => inner
  | t => t

/-- The type widened by null; reference types and widened types have it already. -/
def lift (t : Ty) : Ty :=
  if t.isNullable || !t.isValue then t else nullable t

/-- Whether null is a value of the type. -/
def admitsNull (t : Ty) : Bool := !t.isValue || t.isNullable

/-- The enumeration behind a type, widened or not. -/
def enum? (t : Ty) : Option EnumType :=
  match t.core with
  | enum e => some e
  | _ => none

/-- Whether the type is an enumeration, widened or not. -/
def isEnum (t : Ty) : Bool := t.enum?.isSome

/-- The class behind a type. -/
def class? : Ty → Option ClassRef
  | cls c => some c
  | _ => none

/-- The width of an integral type, widened or not. -/
def intKind? (t : Ty) : Option IntKind :=
  match t.core with
  | integral kind => some kind
  | _ => none

/-- Whether the type is integral, widened or not. -/
def isIntegral (t : Ty) : Bool := t.intKind?.isSome

/-- Whether the type is integral with negative members. -/
def isSignedIntegral (t : Ty) : Bool := t.intKind?.any (·.isSigned)

/-- Whether the type is integral without negative members. -/
def isUnsignedIntegral (t : Ty) : Bool := t.intKind?.any (!·.isSigned)

/-- Whether the type is numeric, widened or not.  Enumerations are not. -/
def isNumeric (t : Ty) : Bool :=
  match t.core with
  | atom a => a.isNumeric
  | _ => false

/-- Whether the type is that of texts. -/
def isString : Ty → Bool
  | string => true
  | _ => false

/-- The name without namespace and arguments. -/
def simpleName : Ty → String
  | enum e => e.name
  | cls c => c.name
  | nullable _ => "Nullable"
  | array _ => "Array"
  | list _ => "List"
  | sequence _ => "IEnumerable"
  | grouping _ _ => "IGrouping"
  | lambda _ _ => "Func"
  | t => t.display

/-- The name with its namespace. -/
def fullName : Ty → String
  | enum e => e.fullName
  | cls c => c.fullName
  | atom a => if a.isPredefined then "System." ++ a.name else a.name
  | t => t.display

end Ty

/-- The underlying type of an enumeration. -/
def EnumType.underlyingType (e : EnumType) : Ty :=
  if e.lifted then .nullable (.integral e.underlying) else .integral e.underlying

end QueryTree
