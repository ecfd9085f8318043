import QueryTree.Text.CaseMap
import QueryTree.Type.Basic
import QueryTree.Type.Class

/-!
# Configuration

What a compile can be told, and the record types that its projections make.
-/

namespace QueryTree

/-! ## Record types

The record types that projections have made.  Each shape, a list of names with their types, has one
record type, and these are numbered from one.
-/

/-- The shapes of the record types, in the order of their numbers. -/
structure RecordTypes where
  shapes : List (List String × List Ty)

namespace RecordTypes

/-- No record types. -/
def empty : RecordTypes := ⟨[]⟩

/-- The place of a shape, and the types it was first made with. -/
def find? (names : List String) (types : List Ty) :
    Nat → List (List String × List Ty) → Option (Nat × List Ty)
  | _, [] => none
  | place, (held, heldTypes) :: rest =>
    if held == names && Ty.sameAll heldTypes types then some (place, heldTypes)
    else find? names types (place + 1) rest

/-- The record type with the given members, made anew if there is none yet. -/
def intern (records : RecordTypes) (names : List String) (types : List Ty) : Ty × RecordTypes :=
  match find? names types 1 records.shapes with
  | some (id, held) => (.record id names held, records)
  | none =>
    (.record (records.shapes.length + 1) names types, ⟨records.shapes ++ [(names, types)]⟩)

end RecordTypes

/-! ## Options

What a compile can be told: how names are matched, how projections are typed and which types may be
named.
-/

/-- The options of a compile. -/
structure Options where
  /-- Names match only in the same case. -/
  caseSensitive : Bool
  /-- Projections are bags of named values instead of records. -/
  dynamicRecords : Bool
  /-- The decimal point of real literals. -/
  decimalSeparator : Char
  /-- An unknown member is not looked up by an indexer that takes a text. -/
  noIndexFallback : Bool
  /-- `new` can name every type that can be resolved. -/
  constructsAnyType : Bool
  /-- Types can be resolved by their simple name. -/
  resolvesSimpleNames : Bool
  /-- A name that is both a type and a member of `it` is the member. -/
  membersBeforeTypes : Bool

namespace Options

/-- The options of a compile that is told nothing. -/
def initial : Options := ⟨false, false, '.', false, false, false, true⟩

/-- A name in the form in which names are compared. -/
def fold (options : Options) (name : String) : String :=
  if options.caseSensitive then name else Text.foldCase name

/-- Whether two names match. -/
def sameName (options : Options) (left right : String) : Bool :=
  options.fold left == options.fold right

end Options

/-- The types besides the predefined ones: custom types can be named everywhere, and further types
can be resolved where a type is expected. -/
structure TypeRegistry where
  custom : List Ty
  resolvable : List Ty

namespace TypeRegistry

/-- A registry without types. -/
def empty : TypeRegistry := ⟨[], []⟩

/-- A registry of custom types. -/
def ofCustom (types : List Ty) : TypeRegistry := ⟨types, []⟩

/-- All types of a registry. -/
def all (registry : TypeRegistry) : List Ty := registry.custom ++ registry.resolvable

/-- The type with a full name. -/
def byFullName? (registry : TypeRegistry) (name : String) : Option Ty :=
  registry.all.find? (·.fullName == name)

/-- The type with a simple name. -/
def bySimpleName? (registry : TypeRegistry) (name : String) : Option Ty :=
  registry.all.find? (·.simpleName == name)

end TypeRegistry

end QueryTree
