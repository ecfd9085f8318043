import QueryTree.Proofs.Evaluate.Outcome
import QueryTree.Proofs.Overload.Promotion

/-!
# Values of a type

When a value is one of a static type, and that converted values are values of the type that they are
converted to.  An operation that is applied to values of the types it is meant for fails only for
the numbers themselves: a division by zero or a result that is too large.
-/

namespace QueryTree

theorem Integer.ofInt?_eq_some {kind : IntKind} {n : Int} {integer : Integer}
    (made : Integer.ofInt? kind n = some integer) : ∃ inRange, integer = ⟨kind, n, inRange⟩ := by
  rw [Integer.ofInt?] at made
  split at made
  next inRange => exact ⟨inRange, (Option.some.inj made).symm⟩
  next => cases made

/-- The failures that come from the numbers and not from the kinds of values. -/
def EvalError.IsArithmetic : EvalError → Prop
  | .divisionByZero | .overflow _ => True
  | _ => False

/-- An evaluation yields a value that satisfies a condition, or it fails for its numbers. -/
abbrev Evaluation.Computes {α : Type} (outcome : Evaluation α) (holds : α → Prop) : Prop :=
  outcome.Meets EvalError.IsArithmetic holds

/-- Whether a value is one of a static type: null if the type admits it, and otherwise a value of
the kind that the type has without null. -/
def Value.conformsTo (value : Value) (type : Ty) : Bool :=
  if value.isNull then type.admitsNull
  else type.core == .object || value.naturalType == type.core

/-- A value other than null is of a kind. -/
def Value.HasKind (value : Value) (kind : Ty) : Prop :=
  value.isNull = false ∧ (value.naturalType == kind) = true

namespace Ty

/-- The types of the operands that the built-in operators are made for, and of all values. -/
def isOperand : Ty → Bool
  | atom .type | atom .dynamic => false
  | atom _ => true
  | nullable (atom a) => a.isValue
  | enum e | nullable (enum e) => !e.lifted
  | _ => false

/-- Values of the first type are converted to values of the second one. -/
def Converts (source target : Ty) : Prop :=
  (source.admitsNull = true → target.admitsNull = true) ∧
    ((target.core == .object) = true ∨ (source.core == target.core) = true ∨
      (source.core.isNumberLike = true ∧ target.core.isNumberLike = true ∧
        target.core.isNullable = false))

theorem core_eq_self {t : Ty} (isPlain : t.isNullable = false) : t.core = t := by
  cases t with
  | nullable inner => cases isPlain
  | _ => rfl

theorem eq_atom_of_beq {t : Ty} {a : Atom} (same : (atom a == t) = true) : t = atom a :=
  eq_of_same rfl (BEq.symm same)

theorem core_of_enum? {t : Ty} {e : EnumType} (isEnum : t.enum? = some e) : t.core = .enum e := by
  rw [enum?] at isEnum
  split at isEnum
  next same => rw [same, Option.some.inj isEnum]
  next => cases isEnum

theorem isNumberLike_same {t u : Ty} (same : (t == u) = true) :
    t.isNumberLike = u.isNumberLike := by
  have cores : Ty.same t.core u.core = true := core_same same
  have numeric : t.isNumeric = u.isNumeric := by
    unfold isNumeric
    cases t_core : t.core <;> cases u_core : u.core <;> simp_all [Ty.same]
  have char : (t == char) = (u == char) :=
    Bool.eq_iff_iff.mpr ⟨BEq.trans (BEq.symm same), BEq.trans same⟩
  rw [isNumberLike, isNumberLike, numeric, isEnum_same same, char]

end Ty

namespace Value

variable {value : Value} {source target type : Ty}

theorem conformsTo_null (admits : type.admitsNull = true) : null.conformsTo type = true := by
  simp [conformsTo, isNull, admits]

theorem HasKind.conformsTo (kind : value.HasKind type.core) : value.conformsTo type = true := by
  simp [Value.conformsTo, kind.1, kind.2]

theorem admitsNull_of_conformsTo (conforms : value.conformsTo type = true)
    (isNull : value.isNull = true) : type.admitsNull = true := by
  simpa [conformsTo, isNull] using conforms

theorem kind_of_conformsTo (conforms : value.conformsTo type = true)
    (isValue : value.isNull = false) : (type.core == .object) = true ∨ value.HasKind type.core := by
  simpa [conformsTo, HasKind, isValue] using conforms

theorem naturalType_array (items : List Value) :
    ∃ element, (array items).naturalType = .array element := by
  rw [naturalType]
  split <;> exact ⟨_, rfl⟩

/-- Values of a number, an enumeration or a character type stand for numbers. -/
theorem toDouble?_isSome (isNumber : value.naturalType.isNumberLike = true) :
    value.toDouble?.isSome = true := by
  cases value with
  | char | integral | single | double | decimal | enum => rfl
  | array items =>
      obtain ⟨element, isArray⟩ := naturalType_array items
      rw [isArray] at isNumber
      cases isNumber
  | _ => cases isNumber

/-- A number made an integer of a type is a value of the type. -/
theorem ofInt?_kind {n : Int} {converted : Value} (outcome : ofInt? type n = some converted) :
    converted.HasKind type.core := by
  unfold ofInt? at outcome
  split at outcome
  next kind isKind =>
    obtain ⟨number, fits, rfl⟩ := Option.map_eq_some_iff.mp outcome
    obtain ⟨inRange, rfl⟩ := Integer.ofInt?_eq_some fits
    rw [HasKind, naturalType, isKind]
    exact ⟨rfl, BEq.rfl⟩
  next isKind => exact Option.some.inj outcome ▸ isKind ▸ ⟨rfl, BEq.rfl⟩
  next isKind => exact Option.some.inj outcome ▸ isKind ▸ ⟨rfl, BEq.rfl⟩
  next isKind =>
    obtain ⟨d, -, rfl⟩ := Option.map_eq_some_iff.mp outcome
    exact isKind ▸ ⟨rfl, BEq.rfl⟩
  next isKind =>
    obtain ⟨c, -, rfl⟩ := Option.map_eq_some_iff.mp outcome
    exact isKind ▸ ⟨rfl, BEq.rfl⟩
  next e isKind =>
    split at outcome
    next => exact Option.some.inj outcome ▸ isKind ▸ ⟨rfl, BEq.rfl⟩
    next => cases outcome
  next => cases outcome

/-- A number made a number of another type is a value of the type. -/
theorem toNumeric?_kind {converted : Value} (outcome : value.toNumeric? type = some converted) :
    converted.HasKind type.core.core := by
  unfold toNumeric? at outcome
  split at outcome
  next isKind =>
    obtain ⟨x, -, rfl⟩ := Option.map_eq_some_iff.mp outcome
    exact isKind ▸ ⟨rfl, BEq.rfl⟩
  next isKind =>
    obtain ⟨x, -, rfl⟩ := Option.map_eq_some_iff.mp outcome
    exact isKind ▸ ⟨rfl, BEq.rfl⟩
  next isKind =>
    obtain ⟨d, -, rfl⟩ := Option.map_eq_some_iff.mp outcome
    exact isKind ▸ ⟨rfl, BEq.rfl⟩
  next =>
    obtain ⟨n, -, made⟩ := Option.bind_eq_some_iff.mp outcome
    exact ofInt?_kind made

/-- Only numbers, characters and members of enumerations change, and only to other such types. -/
theorem convertTo_eq (type : Ty) (value : Value) :
    value.convertTo type =
      if value.isNull || !type.core.isNumberLike || value.naturalType == type.core then .ok value
      else if value.toDouble?.isNone then .error (.type (.conversion value type))
      else Evaluation.require (.overflow ("conversion to " ++ type.display))
        (value.toNumeric? type.core) := rfl

/-- A conversion fails only if a number does not fit. -/
theorem convertTo_computes (conforms : value.conformsTo source = true)
    (converts : source.Converts target) :
    (value.convertTo target).Computes (·.conformsTo target = true) := by
  obtain ⟨admits, kinds⟩ := converts
  rw [convertTo_eq]
  cases isNull : value.isNull with
  | true =>
      have null_conforms := admits (admitsNull_of_conformsTo conforms isNull)
      simpa [conformsTo, isNull, Evaluation.Meets] using null_conforms
  | false =>
      have as_source := kind_of_conformsTo conforms isNull
      have as_target (same : (source.core == target.core) = true) :
          (target.core == .object) = true ∨ (value.naturalType == target.core) = true :=
        as_source.imp (BEq.trans (BEq.symm same)) fun kind => BEq.trans kind.2 same
      have keeps (kept : (target.core == .object) = true ∨
          (value.naturalType == target.core) = true) : value.conformsTo target = true := by
        simpa [conformsTo, isNull] using kept
      split
      next stays =>
        obtain isObject | same | ⟨-, isNumber, -⟩ := kinds
        · exact keeps (.inl isObject)
        · exact keeps (as_target same)
        · exact keeps (.inr (by simpa [isNull, isNumber] using stays))
      next changes =>
        obtain ⟨isNumber, other⟩ := Bool.or_eq_false_iff.mp (Bool.eq_false_iff.mpr changes)
        have isNumber : target.core.isNumberLike = true := by simpa using isNumber
        have notObject : (target.core == .object) = false := by
          refine Bool.eq_false_iff.mpr fun isObject => ?_
          rw [Ty.isNumberLike_same isObject] at isNumber
          cases isNumber
        have numbers : source.core.isNumberLike = true ∧ target.core.isNullable = false := by
          obtain isObject | same | ⟨source_number, -, isPlain⟩ := kinds
          · simp [notObject] at isObject
          · have kept := as_target same
            simp [notObject, other] at kept
          · exact ⟨source_number, isPlain⟩
        have value_number : value.naturalType.isNumberLike = true := by
          obtain isObject | same := as_source
          · rw [Ty.isNumberLike_same isObject] at numbers
            cases numbers.1
          · rw [Ty.isNumberLike_same same.2]
            exact numbers.1
        have isSome := toDouble?_isSome value_number
        rw [if_neg (by simp [Option.isSome_iff_ne_none.mp isSome])]
        refine .require (fun converted made => ?_) fun _ => trivial
        have kind := toNumeric?_kind made
        rw [Ty.core_eq_self numbers.2, Ty.core_eq_self numbers.2] at kind
        exact kind.conformsTo

end Value

end QueryTree
