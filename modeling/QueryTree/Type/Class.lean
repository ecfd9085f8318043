import QueryTree.Type.Basic

/-!
# Members of types

Properties, methods, constructors, indexers and operators: those that classes declare and those
that the other types have without a declaration.  Declared members are looked up in a table of
class bodies; a class has the members of its ancestors after its own.
-/

namespace QueryTree

/-- Whether a member is declared as a property or as a field.  Both are accessed alike. -/
inductive MemberKind where
  | property | field
deriving DecidableEq

/-- A named part of a value or of a type. -/
structure Member where
  name : String
  type : Ty
  kind : MemberKind
  isStatic : Bool

/-- A method or an operator.  Without a result it cannot be part of an expression. -/
structure Method where
  name : String
  declaringType : String
  params : List Ty
  result : Option Ty
  isStatic : Bool

/-- Access by position or key. -/
structure Indexer where
  params : List Ty
  type : Ty

/-- All that a class declares. -/
structure ClassBody where
  base : Option Ty
  members : List Member
  methods : List Method
  /-- The parameter types of each constructor. -/
  constructors : List (List Ty)
  indexers : List Indexer
  operators : List Method
  /-- The element type of a class that is enumerable. -/
  element : Option Ty

/-- A class that declares nothing. -/
def ClassBody.empty : ClassBody := ⟨none, [], [], [], [], [], none⟩

/-- The bodies of the declared classes, by the index of the class; a class has none until it is
defined. -/
abbrev ClassTable := Array (Option ClassBody)

namespace ClassTable

/-- The body of a class, empty where none is attached. -/
def body (table : ClassTable) (c : ClassRef) : ClassBody :=
  (table[c.index]?.getD none).getD .empty

/-- A new class without a body. -/
def declare (table : ClassTable) (name : String) (qualifier : Option String) (isValue : Bool) :
    ClassRef × ClassTable :=
  (⟨name, qualifier, isValue, table.size⟩, table.push none)

/-- Attaches its body to a class that has none yet. -/
def define? (table : ClassTable) (c : ClassRef) (body : ClassBody) : Option ClassTable :=
  match table[c.index]? with
  | some none => some (table.setIfInBounds c.index (some body))
  | _ => none

/-- Follows declared base types.  In a table without cycles a chain has at most as many classes
as the table. -/
def chain (table : ClassTable) : Nat → Option Ty → List Ty
  | _, none => []
  | 0, some _ => []
  | fuel + 1, some base =>
    base :: chain table fuel (base.class?.bind fun c => (table.body c).base)

/-- The base types of a class, nearest first. -/
def ancestors (table : ClassTable) (c : ClassRef) : List Ty :=
  chain table (table.size + 1) (table.body c).base

/-- What a class and its ancestors declare, own declarations first. -/
def inherited {α : Type} (table : ClassTable) (part : ClassBody → List α) (c : ClassRef) : List α :=
  part (table.body c)
    ++ (table.ancestors c).flatMap fun base =>
      match base.class? with
      | some b => part (table.body b)
      | none => []

end ClassTable

namespace Member

/-- An instance property. -/
def property (name : String) (type : Ty) : Member := ⟨name, type, .property, false⟩

/-- A static property. -/
def constant (name : String) (type : Ty) : Member := ⟨name, type, .property, true⟩

end Member

namespace Method

/-- An instance method with a result. -/
def instanceMethod (declaringType name : String) (params : List Ty) (result : Ty) : Method :=
  ⟨name, declaringType, params, some result, false⟩

/-- A static method with a result. -/
def staticMethod (declaringType name : String) (params : List Ty) (result : Ty) : Method :=
  ⟨name, declaringType, params, some result, true⟩

/-- The method that every type has. -/
def toText : Method := instanceMethod "Object" "ToString" [] .string

/-- The methods of texts. -/
def ofString : List Method :=
  let own := instanceMethod "String"
  let shared := staticMethod "String"
  [own "Contains" [.string] .boolean,
   own "StartsWith" [.string] .boolean,
   own "EndsWith" [.string] .boolean,
   own "Equals" [.string] .boolean,
   own "ToUpper" [] .string,
   own "ToLower" [] .string,
   own "Trim" [] .string,
   own "Substring" [.int32] .string,
   own "Substring" [.int32, .int32] .string,
   own "IndexOf" [.string] .int32,
   own "Replace" [.string, .string] .string,
   shared "IsNullOrEmpty" [.string] .boolean,
   shared "IsNullOrWhiteSpace" [.string] .boolean,
   shared "Concat" [.object, .object] .string,
   shared "Compare" [.string, .string] .int32]

/-- The methods of moments. -/
def ofDateTime : List Method :=
  ["AddDays", "AddHours", "AddMinutes", "AddSeconds"].map fun name =>
    instanceMethod "DateTime" name [.double] .dateTime

/-- The methods of the class `Math`. -/
def ofMath : List Method :=
  let shared := staticMethod "Math"
  ([.int32, .int64, .single, .double, .decimal].flatMap fun t =>
    [shared "Abs" [t] t, shared "Max" [t, t] t, shared "Min" [t, t] t])
  ++ ([.double, .decimal].flatMap fun t =>
    [shared "Round" [t] t, shared "Round" [t, .int32] t, shared "Floor" [t] t,
     shared "Ceiling" [t] t, shared "Truncate" [t] t])
  ++ [shared "Sqrt" [.double] .double, shared "Pow" [.double, .double] .double]

end Method

/-- The class of mathematical functions, which comes first in every table. -/
def mathClass : ClassRef := ⟨"Math", some "System", false, 0⟩

/-- What the class of mathematical functions declares. -/
def mathBody : ClassBody :=
  { ClassBody.empty with
    members := [.constant "PI" .double, .constant "E" .double]
    methods := Method.ofMath }

/-- The table of the classes that are always there. -/
def ClassTable.initial : ClassTable := #[some mathBody]

namespace Ty

/-- The widths whose bounds are static members. -/
def hasBounds : IntKind → Bool
  | .int32 | .int64 | .uint32 | .uint64 | .int16 | .byte => true
  | _ => false

/-- All members of a type, instance and static, own ones before inherited ones. -/
def members (table : ClassTable) : Ty → List Member
  | string => [.property "Length" .int32, .constant "Empty" .string]
  | dateTime =>
    (["Year", "Month", "Day", "Hour", "Minute", "Second", "Millisecond", "DayOfYear"].map
      fun name => .property name .int32)
    ++ [.property "Date" .dateTime, .property "Ticks" .int64, .constant "Now" .dateTime,
        .constant "Today" .dateTime, .constant "MinValue" .dateTime,
        .constant "MaxValue" .dateTime]
  | timeSpan =>
    (["Days", "Hours", "Minutes", "Seconds"].map fun name => .property name .int32)
    ++ (["TotalDays", "TotalHours", "TotalMinutes", "TotalSeconds"].map fun name =>
      .property name .double)
  | integral kind =>
    if hasBounds kind then
      [.constant "MaxValue" (.integral kind), .constant "MinValue" (.integral kind)]
    else []
  | nullable inner => [.property "HasValue" .boolean, .property "Value" inner]
  | array _ => [.property "Length" .int32]
  | list _ => [.property "Count" .int32]
  | grouping key _ => [.property "Key" key]
  | record _ names types => List.zipWith Member.property names types
  | cls c => table.inherited (·.members) c
  | _ => []

/-- All methods of a type; the one that every type has comes last. -/
def methods (table : ClassTable) (t : Ty) : List Method :=
  let own :=
    match t with
    | string => Method.ofString
    | dateTime => Method.ofDateTime
    | cls c => table.inherited (·.methods) c
    | _ => []
  own ++ [Method.toText]

/-- The operators and conversions that a type and its ancestors declare. -/
def operators (table : ClassTable) (t : Ty) : List Method :=
  match t.core with
  | cls c => table.inherited (·.operators) c
  | _ => []

/-- All indexers of a type. -/
def indexers (table : ClassTable) : Ty → List Indexer
  | string => [⟨[.int32], .char⟩]
  | list element => [⟨[.int32], element⟩]
  | dynamic => [⟨[.string], .object⟩]
  | cls c => table.inherited (·.indexers) c
  | _ => []

/-- The parameter types of the constructors that a class itself declares. -/
def constructors (table : ClassTable) : Ty → List (List Ty)
  | cls c => (table.body c).constructors
  | _ => []

/-- The type of the elements of an enumerable type. -/
def element? (table : ClassTable) : Ty → Option Ty
  | array element | list element | sequence element | grouping _ element => some element
  | string => some .char
  | cls c => (table.body c).element
  | _ => none

end Ty

end QueryTree
