import QueryTree.Type.Class

/-!
# Conversions between types

The implicit conversions (identity, reference conversions, widening of numbers, lifting to nullable
types and conversions that classes declare) and the explicit ones.
-/

namespace QueryTree

/-- The wider number types that a number type converts to implicitly. -/
def Atom.widensTo : Atom → Atom → Bool
  | .integral .sbyte, target =>
    [.integral .sbyte, .integral .int16, .integral .int32, .integral .int64, .single, .double,
      .decimal].contains target
  | .integral .byte, target =>
    [.integral .byte, .integral .int16, .integral .uint16, .integral .int32, .integral .uint32,
      .integral .int64, .integral .uint64, .single, .double, .decimal].contains target
  | .integral .int16, target =>
    [.integral .int16, .integral .int32, .integral .int64, .single, .double,
      .decimal].contains target
  | .integral .uint16, target =>
    [.integral .uint16, .integral .int32, .integral .uint32, .integral .int64, .integral .uint64,
      .single, .double, .decimal].contains target
  | .integral .int32, target =>
    [.integral .int32, .integral .int64, .single, .double, .decimal].contains target
  | .integral .uint32, target =>
    [.integral .uint32, .integral .int64, .integral .uint64, .single, .double,
      .decimal].contains target
  | .integral .int64, target => [.integral .int64, .single, .double, .decimal].contains target
  | .integral .uint64, target => [.integral .uint64, .single, .double, .decimal].contains target
  | .single, target => [.single, .double].contains target
  | source, target => source == target

namespace Ty

/-- Whether a type is a number type that is not widened. -/
def isNumericAtom : Ty → Bool
  | atom a => a.isNumeric
  | _ => false

/-- Whether one type widens to another, neither of them widened by null: along the table of number
types, and otherwise only to itself. -/
def widensTo (source target : Ty) : Bool :=
  match source, target with
  | atom a, atom b => a.widensTo b
  | _, _ => if source.isNumericAtom then false else source == target

/-- Whether a value of `source` is a value of `target` as it is. -/
def isAssignable (table : ClassTable) (target source : Ty) : Bool :=
  if target == source || target == object then true
  else
    match target with
    | cls _ =>
      match source with
      | cls c => (table.ancestors c).any (· == target)
      | _ => false
    | dynamic =>
      match source with
      | record _ _ _ => true
      | _ => false
    | sequence wanted =>
      match source.element? table with
      | some element =>
        element == wanted || (!element.isValue && isAssignable table wanted element)
      | none => false
    | _ => false

/-- Whether either type declares a conversion from `source` to `target`: an implicit one or, on
demand, an explicit one. -/
def hasDeclaredConversion (table : ClassTable) (source target : Ty) (explicit : Bool) : Bool :=
  (source.operators table ++ target.operators table).any fun m =>
    (m.name == "op_Implicit" || (explicit && m.name == "op_Explicit"))
      && (match m.params with
        | [param] => param == source || param == source.core
        | _ => false)
      && (match m.result with
        | some result => result == target.core
        | none => false)

/-- Whether a value of `source` converts implicitly to `target`. -/
def isCompatible (table : ClassTable) (source target : Ty) : Bool :=
  if source == target then true
  else if !target.isValue then
    isAssignable table target source || hasDeclaredConversion table source target false
  else if source.isNullable && !target.isNullable then false
  else
    source.core.widensTo target.core || hasDeclaredConversion table source target false

/-- Whether the values of a type are numbers, members of an enumeration or characters. -/
def isNumberLike (t : Ty) : Bool := t.isNumeric || t.isEnum || t == char

/-- Whether a value of `source` can be converted explicitly to `target`. -/
def isConvertible (table : ClassTable) (source target : Ty) : Bool :=
  isCompatible table source target
    || source.core == target.core
    || (source.core.isNumberLike && target.core.isNumberLike)
    || isAssignable table source target
    || hasDeclaredConversion table source target true

end Ty

end QueryTree
