import QueryTree.Expr.Literal
import QueryTree.Type.Conversion

/-!
# Promotion and overload resolution

How an argument becomes one of the type that a parameter has, and how one candidate is chosen out of
several by the types of their parameters.
-/

/-!
## Promotion

Implicit conversion of an expression to a type.  The text of a numeric literal is read again as a
value of the type, a text may name a member of an enumeration, and null takes every type that
admits it.
-/

namespace QueryTree

/-- How a promotion goes about reference types: whether the result must have exactly the type that
was asked for, and whether values are converted to reference types. -/
structure Promotion where
  exact : Bool
  boxes : Bool

namespace Promotion

/-- For results that have to have the type asked for. -/
def exactly : Promotion := ⟨true, false⟩

/-- For arguments of methods and operators. -/
def argument : Promotion := ⟨false, true⟩

/-- For arguments of sequence operations. -/
def element : Promotion := ⟨false, false⟩

/-- For members and items of a constructed value. -/
def assignment : Promotion := ⟨true, true⟩

end Promotion

namespace Expr

/-- The value of a literal of some type, its text read again as a value of another type. -/
def reread? (source : Ty) (text : String) (target : Ty) : Option Value :=
  match source with
  | .integral .int32 | .integral .uint32 | .integral .int64 | .integral .uint64 =>
    Literal.number? text target
  | .double =>
    match target with
    | .double | .decimal => Literal.number? text target
    | _ => none
  | .string => Literal.member? text target
  | _ => none

/-- A constant as a constant of another type, by what it was written as. -/
def promoteConstant? (target : Ty) : Expr → Option Expr
  | constant _ .null _ => if target.admitsNull then some (nullOf target) else none
  | constant source _ (some text) =>
    (reread? source text target.core).map fun value => constant target value (some text)
  | _ => none

/-- An expression converted to a type, if there is an implicit conversion. -/
def promoteByType? (table : ClassTable) (mode : Promotion) (target : Ty) (e : Expr) :
    Option Expr :=
  if e.type.isCompatible table target then
    if target.isValue || mode.exact || (e.type.isValue && mode.boxes) then some (convert target e)
    else some e
  else none

/-- An expression promoted to a type, if there is an implicit conversion. -/
def promote? (table : ClassTable) (mode : Promotion) (target : Ty) (e : Expr) : Option Expr :=
  if e.type == target then some e
  else promoteConstant? target e <|> promoteByType? table mode target e

/-- Expressions promoted one by one to as many types. -/
def promoteAll? (table : ClassTable) (mode : Promotion) : List Ty → List Expr → Option (List Expr)
  | [], [] => some []
  | target :: targets, e :: es => do
    let promoted ← promote? table mode target e
    let rest ← promoteAll? table mode targets es
    return promoted :: rest
  | _, _ => none

end Expr

end QueryTree

/-!
## Overload resolution

The choice of one candidate out of several by the types of their parameters: the one whose
parameters all accept the arguments and which is better than every other such candidate.
-/

namespace QueryTree

/-- The outcome of a choice: a candidate with the arguments promoted to its parameters, no
candidate at all, or so many of which none is best. -/
inductive Resolution (α : Type) where
  | found (candidate : α) (args : List Expr)
  | notFound
  | ambiguous (count : Nat)

/-- The order of two conversions from one type, the better one first. -/
def compareConversions (table : ClassTable) (source first second : Ty) : Ordering :=
  if first == second then .eq
  else if source == first then .lt
  else if source == second then .gt
  else
    let forth := first.isCompatible table second
    let back := second.isCompatible table first
    if forth && !back then .lt
    else if back && !forth then .gt
    else if first.isSignedIntegral && second.isUnsignedIntegral then .lt
    else if second.isSignedIntegral && first.isUnsignedIntegral then .gt
    else .eq

namespace Resolution

/-- The orders of the conversions of arguments to two lists of parameter types. -/
def conversionOrders (table : ClassTable) : List Expr → List Ty → List Ty → List Ordering
  | arg :: args, first :: firsts, second :: seconds =>
    compareConversions table arg.type first second :: conversionOrders table args firsts seconds
  | _, _, _ => []

/-- Whether the first parameter types suit the arguments better: no conversion is worse and one is
better. -/
def isBetter (table : ClassTable) (args : List Expr) (first second : List Ty) : Bool :=
  let orders := conversionOrders table args first second
  orders.all (· != .gt) && orders.any (· == .lt)

/-- A candidate whose parameters accept the arguments, with its place among all candidates. -/
structure Applicable (α : Type) where
  place : Nat
  candidate : α
  params : List Ty
  args : List Expr

/-- The candidates whose parameters accept the arguments. -/
def applicable {α : Type} (table : ClassTable) (mode : Promotion) (args : List Expr)
    (candidates : List (α × List Ty)) : List (Applicable α) :=
  candidates.zipIdx.filterMap fun ((candidate, params), place) =>
    (Expr.promoteAll? table mode params args).map fun args => ⟨place, candidate, params, args⟩

/-- Whether a candidate is better than all others. -/
def isBest {α : Type} (table : ClassTable) (args : List Expr) (all : List (Applicable α))
    (a : Applicable α) : Bool :=
  all.all fun other => a.place == other.place || isBetter table args a.params other.params

/-- Whether a call has two arguments of which one is an identifier or null. -/
def pairsNullableGuid (args : List Expr) : Bool :=
  args.length == 2 && args.any (·.type == .nullable .guid)

/-- Chooses the best of some candidates.  For two arguments of which one is an identifier or null
the first applicable candidate is chosen where none is best. -/
def choose {α : Type} (table : ClassTable) (mode : Promotion) (args : List Expr)
    (candidates : List (α × List Ty)) : Resolution α :=
  match applicable table mode args candidates with
  | [] => .notFound
  | [a] => .found a.candidate a.args
  | a :: others =>
    match (a :: others).filter (isBest table args (a :: others)) with
    | [best] => .found best.candidate best.args
    | _ =>
      if pairsNullableGuid args then .found a.candidate a.args
      else .ambiguous (a :: others).length

end Resolution

end QueryTree
