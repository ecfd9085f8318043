import QueryTree.Config.Options
import QueryTree.Json.Reader

/-!
# Schemas

The description of a model as a document: options, the type of `it`, and the declared types.
Structures can be written as objects, or as arrays of their fields in order, of which the last ones
may be missing if they have a default.
-/

namespace QueryTree.Schema

/-- A member of a class. -/
structure PropertyDef where
  name : String
  type : String
  isStatic : Bool

/-- A method or an operator of a class. -/
structure MethodDef where
  name : String
  params : List String
  returns : Option String
  isStatic : Bool

/-- An indexer of a class. -/
structure IndexerDef where
  params : List String
  returns : String

/-- A class. -/
structure ClassDef where
  name : String
  qualifier : Option String
  base : Option String
  properties : List PropertyDef
  methods : List MethodDef
  constructors : List (List String)
  indexers : List IndexerDef
  operators : List MethodDef
  element : Option String

/-- A member of an enumeration, with its value if that is given. -/
structure VariantDef where
  name : String
  value : Option Int

/-- An enumeration. -/
structure EnumDef where
  name : String
  qualifier : Option String
  underlying : Option String
  variants : List VariantDef

/-- A declared type. -/
inductive TypeDef where
  | cls (isValue : Bool) (d : ClassDef)
  | enum (d : EnumDef)

end Schema

/-- A description of a model. -/
structure Schema where
  it : Option String
  options : Options
  types : List Schema.TypeDef

namespace Schema

/-- The fields of a structure in the order of their names, each if it is there.  A known field may
not be there twice, and other fields are passed over. -/
def fields? (names : List String) : Json → Option (List (Option Json))
  | .object members =>
    let known := (members.map (·.1)).filter names.contains
    if known.eraseDups.length = known.length then some (names.map fun name => members.lookup name)
    else none
  | .array items =>
    if items.length ≤ names.length then
      some (items.map some ++ List.replicate (names.length - items.length) none)
    else none
  | _ => none

/-- A field that may be missing. -/
def optional? {α : Type} (default : α) (read? : Json → Option α) (field : Option Json) :
    Option α :=
  match field with
  | none => some default
  | some value => read? value

/-- A field that has to be there. -/
def required? {α : Type} (read? : Json → Option α) (field : Option Json) : Option α :=
  field.bind read?

/-- A string. -/
def string? : Json → Option String
  | .string s => some s
  | _ => none

/-- A string or null. -/
def nullableString? : Json → Option (Option String)
  | .null => some none
  | .string s => some (some s)
  | _ => none

/-- A truth value. -/
def bool? : Json → Option Bool
  | .bool b => some b
  | _ => none

/-- A string of one character. -/
def char? : Json → Option Char
  | .string s =>
    match s.toList with
    | [c] => some c
    | _ => none
  | _ => none

/-- An integer of 64 bits. -/
def int64? : Json → Option Int
  | .int n => if IntKind.int64.min ≤ n ∧ n ≤ IntKind.int64.max then some n else none
  | _ => none

/-- An array of things. -/
def list? {α : Type} (read? : Json → Option α) : Json → Option (List α)
  | .array items => items.mapM read?
  | _ => none

/-- A member of a class. -/
def property? (json : Json) : Option PropertyDef := do
  match ← fields? ["name", "type", "static"] json with
  | [name, type, isStatic] =>
    return ⟨← required? string? name, ← required? string? type, ← optional? false bool? isStatic⟩
  | _ => none

/-- A method. -/
def method? (json : Json) : Option MethodDef := do
  match ← fields? ["name", "params", "returns", "static"] json with
  | [name, params, returns, isStatic] =>
    return ⟨← required? string? name, ← optional? [] (list? string?) params,
      ← optional? none nullableString? returns, ← optional? false bool? isStatic⟩
  | _ => none

/-- An indexer. -/
def indexer? (json : Json) : Option IndexerDef := do
  match ← fields? ["params", "returns"] json with
  | [params, returns] =>
    return ⟨← required? (list? string?) params, ← required? string? returns⟩
  | _ => none

/-- A class. -/
def class? (json : Json) : Option ClassDef := do
  match ← fields? ["name", "namespace", "base", "properties", "methods", "constructors",
      "indexers", "operators", "element"] json with
  | [name, qualifier, base, properties, methods, constructors, indexers, operators, element] =>
    return {
      name := ← required? string? name
      qualifier := ← optional? none nullableString? qualifier
      base := ← optional? none nullableString? base
      properties := ← optional? [] (list? property?) properties
      methods := ← optional? [] (list? method?) methods
      constructors := ← optional? [] (list? (list? string?)) constructors
      indexers := ← optional? [] (list? indexer?) indexers
      operators := ← optional? [] (list? method?) operators
      element := ← optional? none nullableString? element }
  | _ => none

/-- A member of an enumeration: a name, or an object with a name and a value. -/
def variant? : Json → Option VariantDef
  | .string name => some ⟨name, none⟩
  | .object members => do
    match ← fields? ["name", "value"] (.object members) with
    | [name, value] => return ⟨← required? string? name, some (← required? int64? value)⟩
    | _ => none
  | _ => none

/-- An enumeration. -/
def enum? (json : Json) : Option EnumDef := do
  match ← fields? ["name", "namespace", "underlying", "variants"] json with
  | [name, qualifier, underlying, variants] =>
    return ⟨← required? string? name, ← optional? none nullableString? qualifier,
      ← optional? none nullableString? underlying, ← required? (list? variant?) variants⟩
  | _ => none

/-- The kind of a declared type, and what describes it: the object without its kind, or the array
after it. -/
def kind? : Json → Option (Json × Json)
  | .object members =>
    match members.filter (·.1 == "kind") with
    | [(_, kind)] => some (kind, .object (members.filter (·.1 != "kind")))
    | _ => none
  | .array (kind :: rest) => some (kind, .array rest)
  | _ => none

/-- A declared type. -/
def type? (json : Json) : Option TypeDef := do
  let (kind, description) ← kind? json
  match ← string? kind with
  | "class" => return .cls false (← class? description)
  | "struct" => return .cls true (← class? description)
  | "enum" => return .enum (← enum? description)
  | _ => none

/-- Options, each with its default. -/
def options? (json : Json) : Option Options := do
  let initial := Options.initial
  match ← fields? ["is_case_sensitive", "use_dynamic_object_class_for_anonymous_types",
      "number_decimal_separator", "disable_member_access_to_index_accessor_fallback",
      "allow_new_to_evaluate_any_type", "resolve_types_by_simple_name",
      "prioritize_property_or_field_over_the_type"] json with
  | [caseSensitive, dynamicRecords, separator, noFallback, anyType, simpleNames, membersFirst] =>
    return {
      caseSensitive := ← optional? initial.caseSensitive bool? caseSensitive
      dynamicRecords := ← optional? initial.dynamicRecords bool? dynamicRecords
      decimalSeparator := ← optional? initial.decimalSeparator char? separator
      noIndexFallback := ← optional? initial.noIndexFallback bool? noFallback
      constructsAnyType := ← optional? initial.constructsAnyType bool? anyType
      resolvesSimpleNames := ← optional? initial.resolvesSimpleNames bool? simpleNames
      membersBeforeTypes := ← optional? initial.membersBeforeTypes bool? membersFirst }
  | _ => none

/-- The schema that a document is. -/
def ofJson? (json : Json) : Option Schema := do
  match ← fields? ["it", "config", "types"] json with
  | [it, options, types] =>
    return ⟨← optional? none nullableString? it, ← optional? Options.initial options? options,
      ← optional? [] (list? type?) types⟩
  | _ => none

end Schema

end QueryTree
