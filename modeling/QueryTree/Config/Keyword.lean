import QueryTree.Compile.Error
import QueryTree.Config.Options
import QueryTree.Expr.Operator
import QueryTree.Value.Basic

/-!
# Keywords

The words with a meaning of their own: constants, the parameters of the scope, functions, and the
names of types.
-/

namespace QueryTree

/-- What a keyword stands for. -/
inductive Keyword where
  /-- A parameter of the current scope. -/
  | context (name : ContextName)
  | iif | isnull | new | nullPropagation
  | typeTest (test : TypeTest)
  | type (t : Ty)
  | constant (value : Value)

/-- The types that can always be named, with all their names. -/
def predefinedTypes : List (String × Ty) := [
  ("Object", .object), ("Boolean", .boolean), ("Char", .char), ("String", .string),
  ("SByte", .integral .sbyte), ("Byte", .integral .byte), ("Int16", .integral .int16),
  ("UInt16", .integral .uint16), ("Int32", .int32), ("UInt32", .integral .uint32),
  ("Int64", .int64), ("UInt64", .integral .uint64), ("Single", .single), ("Double", .double),
  ("Decimal", .decimal), ("DateTime", .dateTime), ("TimeSpan", .timeSpan), ("Guid", .guid),
  ("Math", .cls mathClass),
  ("object", .object), ("bool", .boolean), ("char", .char), ("string", .string),
  ("sbyte", .integral .sbyte), ("byte", .integral .byte), ("short", .integral .int16),
  ("ushort", .integral .uint16), ("int", .int32), ("uint", .integral .uint32),
  ("long", .int64), ("ulong", .integral .uint64), ("float", .single), ("double", .double),
  ("decimal", .decimal)]

/-- Keywords by their folded names. -/
abbrev KeywordTable := List (String × Keyword)

namespace KeywordTable

/-- The keywords that are not types. -/
def words : List (String × Keyword) := [
  ("true", .constant (.boolean true)), ("false", .constant (.boolean false)),
  ("null", .constant .null),
  ("it", .context .it), ("$", .context .it),
  ("parent", .context .parent), ("^", .context .parent),
  ("root", .context .root), ("~", .context .root),
  ("iif", .iif), ("isnull", .isnull), ("new", .new), ("np", .nullPropagation),
  ("is", .typeTest .is), ("as", .typeTest .as), ("cast", .typeTest .cast)]

/-- The names of the predefined types. -/
def typeNames : List (String × Keyword) :=
  predefinedTypes.map fun entry => (entry.1, .type entry.2)

/-- The names of custom types, each type by its simple and then by its full name. -/
def customNames (types : List Ty) : List (String × Keyword) :=
  types.flatMap fun t => [(t.simpleName, .type t), (t.fullName, .type t)]

/-- Enters a keyword unless its name is taken. -/
def enter (options : Options) (table : KeywordTable) (entry : String × Keyword) : KeywordTable :=
  let key := options.fold entry.1
  if (table.lookup key).isSome then table else table ++ [(key, entry.2)]

/-- The keywords under some options, with the names of the custom types.  A name keeps its first
meaning. -/
def ofTypes (options : Options) (custom : List Ty) : KeywordTable :=
  (words ++ typeNames ++ customNames custom).foldl (enter options) []

end KeywordTable

/-- All that a compile can refer to besides its own parameters and values. -/
structure Environment where
  options : Options
  registry : TypeRegistry
  classes : ClassTable
  keywords : KeywordTable

namespace Environment

/-- The environment of some options, types and classes. -/
def of (options : Options) (registry : TypeRegistry) (classes : ClassTable) : Environment :=
  ⟨options, registry, classes, KeywordTable.ofTypes options registry.custom⟩

/-- What a name means as a keyword. -/
def keyword? (env : Environment) (name : String) : Option Keyword :=
  env.keywords.lookup (env.options.fold name)

/-- Whether a type, with or without null, is predefined or custom. -/
def knowsType (env : Environment) (type : Ty) : Bool :=
  predefinedTypes.any (·.2 == type.core) || env.registry.custom.any (· == type.core)

/-- Whether a name is the name of a predefined or custom type. -/
def knowsTypeName (env : Environment) (name : String) : Bool :=
  predefinedTypes.any (·.1 == name)
    || env.registry.custom.any fun t => t.simpleName == name || t.fullName == name

/-- The type that a name stands for: a keyword, or else one of the types in scope, or else a type of
the registry.  The registry is asked for `anyType` only. -/
def resolveType? (env : Environment) (name : String) (scope : List Ty) (anyType : Bool) :
    Option Ty :=
  match env.keyword? name with
  | some (.type t) => some t
  | _ =>
    scope.find? (·.simpleName == name) <|> scope.find? (·.fullName == name)
      <|> if anyType || env.options.constructsAnyType then
          env.registry.byFullName? name
            <|> if env.options.resolvesSimpleNames then env.registry.bySimpleName? name else none
        else none

end Environment

end QueryTree
