import QueryTree.Config.Keyword
import QueryTree.Model.Error
import QueryTree.Model.Schema
import QueryTree.Text.Intervals

/-!
# Models

The names of types in a schema, and the model that a schema stands for.
-/

namespace QueryTree

/-! ## Type names

Types as they are written in schemas: a name, perhaps with a type argument, followed by marks for
null and for arrays.
-/

/-- The types of a model by their names; the latest of a name comes first. -/
abbrev NamedTypes := List (String × Ty)

namespace NamedTypes

/-- The names of the types without parts. -/
def atoms : List (String × Ty) := [
  ("Object", .object), ("object", .object), ("Boolean", .boolean), ("bool", .boolean),
  ("Char", .char), ("char", .char), ("String", .string), ("string", .string),
  ("SByte", .integral .sbyte), ("sbyte", .integral .sbyte),
  ("Byte", .integral .byte), ("byte", .integral .byte),
  ("Int16", .integral .int16), ("short", .integral .int16),
  ("UInt16", .integral .uint16), ("ushort", .integral .uint16),
  ("Int32", .int32), ("int", .int32), ("UInt32", .integral .uint32), ("uint", .integral .uint32),
  ("Int64", .int64), ("long", .int64), ("UInt64", .integral .uint64), ("ulong", .integral .uint64),
  ("Single", .single), ("float", .single), ("Double", .double), ("double", .double),
  ("Decimal", .decimal), ("decimal", .decimal), ("DateTime", .dateTime), ("TimeSpan", .timeSpan),
  ("Guid", .guid), ("DynamicClass", .dynamic)]

/-- The type with a plain name. -/
def named (types : NamedTypes) (name : String) : Except SchemaFault Ty :=
  match atoms.lookup name <|> types.lookup name with
  | some type => .ok type
  | none => .error (.unknownType name)

/-- The text before a suffix, if a text ends with it. -/
def before? (suffix cs : List Char) : Option (List Char) :=
  if suffix.isSuffixOf cs then some (cs.take (cs.length - suffix.length)) else none

/-- The text before and after the first angle bracket, if there is one. -/
def splitArguments? (cs : List Char) : Option (List Char × List Char) :=
  match cs.dropWhile (· != '<') with
  | [] => none
  | _ :: rest => some (cs.takeWhile (· != '<'), rest)

/-- A type widened by null, if it can be. -/
def widened (type : Ty) : Except SchemaFault Ty :=
  if !type.isValue || type.isNullable then .error (.noNullableForm type)
  else .ok (.nullable type)

/-- A type with a type argument. -/
def generic (name : String) (element : Ty) : Except SchemaFault Ty :=
  if ["List", "IList", "ICollection"].contains name then .ok (.list element)
  else if ["IEnumerable", "IQueryable"].contains name then .ok (.sequence element)
  else .error (.unknownGeneric name)

/-- Reads a type of which the text shrinks at most so often. -/
def readFrom (types : NamedTypes) : Nat → List Char → Except SchemaFault Ty
  | 0, cs => .error (.unknownType (String.ofList cs))
  | fuel + 1, cs =>
    let cs := Text.trimChars cs
    match before? ['?'] cs with
    | some inner => do widened (← readFrom types fuel inner)
    | none =>
      match before? ['[', ']'] cs with
      | some inner => (readFrom types fuel inner).map .array
      | none =>
        match splitArguments? cs with
        | none => types.named (String.ofList cs)
        | some (outer, rest) =>
          match before? ['>'] rest with
          | none => .error (.unbalanced (String.ofList cs))
          | some inner => do
            let element ← readFrom types fuel inner
            generic (String.ofList (Text.trimChars outer)) element

/-- The type that a text names. -/
def read (types : NamedTypes) (text : String) : Except SchemaFault Ty :=
  readFrom types (text.toList.length + 1) text.toList

/-- The types that texts name. -/
def readAll (types : NamedTypes) (texts : List String) : Except SchemaFault (List Ty) :=
  texts.mapM (read types)

/-- The type that a text names, if there is a text. -/
def read? (types : NamedTypes) (text? : Option String) : Except SchemaFault (Option Ty) :=
  match text? with
  | none => .ok none
  | some text => (read types text).map some

end NamedTypes

/-! ## Models

The types that a schema declares.  Types may refer to each other in any order: all names are entered
before the bodies of classes are read.
-/

/-- A loaded schema. -/
structure Model where
  options : Options
  it : Option Ty
  /-- The declared types, the latest first. -/
  types : NamedTypes
  classes : ClassTable

/-- Types being declared, the classes among them with what is known of their bodies. -/
structure Declarations where
  types : NamedTypes
  classes : ClassTable
  pending : List (ClassRef × Schema.ClassDef)

namespace Declarations

/-- No types but those that are always there. -/
def initial : Declarations := ⟨[], ClassTable.initial, []⟩

/-- A type with a name that no other type has. -/
def enter (d : Declarations) (name : String) (type : Ty) : Except SchemaFault Declarations :=
  if (d.types.lookup name).isSome then .error (.declaredTwice name)
  else .ok { d with types := (name, type) :: d.types }

/-- The values of the members of an enumeration: as given, or one more than the value before, the
first one being zero. -/
def countUp (enumName : String) : Int → List Schema.VariantDef →
    Except SchemaFault (List (String × Int))
  | _, [] => .ok []
  | next, variant :: rest =>
    let value := variant.value.getD next
    if IntKind.int64.max < value + 1 then .error (.enumExhausted enumName)
    else (countUp enumName (value + 1) rest).map ((variant.name, value) :: ·)

/-- The enumeration that a definition describes. -/
def enumOf (d : Schema.EnumDef) : Except SchemaFault Ty := do
  let underlying ←
    match d.underlying with
    | some name => NamedTypes.read [] name
    | none => pure .int32
  match underlying.intKind? with
  | none => throw (.underlyingType d.name underlying)
  | some kind =>
    let variants ← countUp d.name 0 d.variants
    return .enum ⟨d.name, d.qualifier, kind, underlying.isNullable, variants⟩

/-- A declared type. -/
def declare (d : Declarations) : Schema.TypeDef → Except SchemaFault Declarations
  | .cls isValue definition => do
    let (c, classes) := d.classes.declare definition.name definition.qualifier isValue
    let entered ← { d with classes := classes }.enter definition.name (.cls c)
    return { entered with pending := entered.pending ++ [(c, definition)] }
  | .enum definition => do d.enter definition.name (← enumOf definition)

/-- A method of a class. -/
def methodOf (types : NamedTypes) (declaringType : String) (isStatic : Bool)
    (d : Schema.MethodDef) : Except SchemaFault Method := do
  let params ← types.readAll d.params
  let result ← types.read? d.returns
  return ⟨d.name, declaringType, params, result, isStatic⟩

/-- The body of a class. -/
def bodyOf (types : NamedTypes) (d : Schema.ClassDef) : Except SchemaFault ClassBody := do
  let members ← d.properties.mapM fun p => do
    return (⟨p.name, ← types.read p.type, .property, p.isStatic⟩ : Member)
  let methods ← d.methods.mapM fun m => methodOf types d.name m.isStatic m
  let operators ← d.operators.mapM fun m => methodOf types d.name true m
  let constructors ← d.constructors.mapM types.readAll
  let indexers ← d.indexers.mapM fun i => do
    return (⟨← types.readAll i.params, ← types.read i.returns⟩ : Indexer)
  let base ← types.read? d.base
  let element ← types.read? d.element
  return ⟨base, members, methods, constructors, indexers, operators, element⟩

/-- The classes with the bodies that are still to be read. -/
def define (types : NamedTypes) : List (ClassRef × Schema.ClassDef) → ClassTable →
    Except SchemaFault ClassTable
  | [], classes => .ok classes
  | (c, definition) :: rest, classes => do
    let body ← bodyOf types definition
    define types rest ((classes.define? c body).getD classes)

end Declarations

namespace Model

/-- The model that a schema describes. -/
def ofSchema (schema : Schema) : Except SchemaFault Model := do
  let declared ← schema.types.foldlM Declarations.declare Declarations.initial
  let classes ← Declarations.define declared.types declared.pending declared.classes
  let it ← declared.types.read? schema.it
  return ⟨schema.options, it, declared.types, classes⟩

/-- The model that a document describes. -/
def ofJson (json : Json) : Except Failure Model :=
  match Schema.ofJson? json with
  | none => .error .document
  | some schema =>
    match ofSchema schema with
    | .ok model => .ok model
    | .error fault => .error (.schema fault)

/-- The model that a text describes. -/
def ofText (text : String) : Except Failure Model :=
  match Json.ofText? text with
  | none => .error .document
  | some json => ofJson json

/-- The type that a text names. -/
def readType (model : Model) (text : String) : Except Failure Ty :=
  match model.types.read text with
  | .ok type => .ok type
  | .error fault => .error (.schema fault)

/-- The type of `it`: the one that a text names, if there is a text, or else the one of the
schema. -/
def elementType (model : Model) (name? : Option String) : Except Failure Ty :=
  match name?, model.it with
  | some name, _ => model.readType name
  | none, some type => .ok type
  | none, none => .error (.schema .noElementType)

/-- The declared types as custom types, in the order of their declaration. -/
def registry (model : Model) : TypeRegistry := .ofCustom (model.types.map (·.2)).reverse

/-- The environment in which every declared type can be named. -/
def environment (model : Model) : Environment :=
  .of model.options model.registry model.classes

end Model

end QueryTree
