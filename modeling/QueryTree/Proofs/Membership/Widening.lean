import QueryTree.Proofs.Membership.Operand

/-!
# Widened operands

An operand that is promoted for a test of equality has a value whenever it had one before, as a
wider type has room for all numbers of a narrower one.  Integers of fewer than 32 bits are always
widened for the test; they stay the same numbers, so that the test comes to the same without
widening.
-/

namespace QueryTree

/-- A wider integral type has room for the integers of a narrower one. -/
theorem IntKind.bounds_of_widensTo {kind wider : IntKind}
    (widens : (Atom.integral kind).widensTo (.integral wider) = true) :
    wider.min ≤ kind.min ∧ kind.max ≤ wider.max := by
  cases kind <;> cases wider <;> first | decide | cases widens

/-- Every integer of at most 64 bits is a decimal number. -/
theorem Integer.natAbs_lt (n : Integer) : n.val.natAbs < Decimal.coefficientBound := by
  have low : -(2 ^ 64 : Int) < n.kind.min := by cases n.kind <;> decide
  have high : n.kind.max < (2 ^ 64 : Int) := by cases n.kind <;> decide
  have bound : 2 ^ 64 ≤ Decimal.coefficientBound := by decide
  have inRange := n.inRange
  omega

theorem Integer.toDecimal_eq (n : Integer) :
    Decimal.ofInt? n.val = some ⟨n.val < 0, n.val.natAbs, 0⟩ :=
  if_pos n.natAbs_lt

theorem Integer.val_of_ofInt? {kind : IntKind} {m : Int} {n : Integer}
    (fits : Integer.ofInt? kind m = some n) : n.val = m := by
  obtain ⟨-, rfl⟩ := Integer.ofInt?_eq_some fits
  rfl

namespace Value

variable {value : Value} {t u : Ty}

theorem eq_string_of_hasKind (kind : value.HasKind .string) : ∃ s, value = string s := by
  have natural : value.naturalType = .string := Ty.eq_of_same rfl kind.2
  cases value with
  | string s => exact ⟨s, rfl⟩
  | array items =>
      obtain ⟨element, isArray⟩ := naturalType_array items
      rw [isArray] at natural
      cases natural
  | _ => cases natural

theorem eq_enum_of_hasKind {enum : EnumType} (kind : value.HasKind (.enum enum)) :
    ∃ f n, value = .enum f n := by
  have natural : Ty.same value.naturalType (.enum enum) = true := kind.2
  cases value with
  | enum f n => exact ⟨f, n, rfl⟩
  | array items =>
      obtain ⟨element, isArray⟩ := naturalType_array items
      rw [isArray] at natural
      cases natural
  | _ => cases natural

/-- Values are of no declared class. -/
theorem HasKind.class? (kind : value.HasKind t) : t.class? = none := by
  have natural : Ty.same value.naturalType t = true := kind.2
  cases t with
  | cls c =>
      cases value with
      | array items =>
          obtain ⟨element, isArray⟩ := naturalType_array items
          rw [isArray] at natural
          cases natural
      | _ => cases natural
  | _ => rfl

/-- Whether a value equals a member of an enumeration depends on the number of the member only. -/
theorem equal_enum (value : Value) (enum enum' : EnumType) (n : Int) :
    value.equal (.enum enum n) = value.equal (.enum enum' n) := by
  cases value <;> rfl

/-- Two values are both null, or they are the same integer, perhaps of different widths. -/
inductive SameInteger : Value → Value → Prop where
  | null : SameInteger null null
  | integral {m n : Integer} (same : m.val = n.val) : SameInteger (integral m) (integral n)

theorem equal_of_sameInteger {v v' w w' : Value} (left : SameInteger v v')
    (right : SameInteger w w') : v.equal w = v'.equal w' := by
  cases left with
  | null => cases right <;> rfl
  | integral same =>
      cases right with
      | null => rfl
      | integral same' =>
          simp [equal, compare?, compareNumbers?, isDecimal, isReal, toInt?, same, same']

theorem toNumeric?_integral {n : Integer} {kind : IntKind}
    (widens : (Atom.integral n.kind).widensTo (.integral kind) = true) :
    ∃ m : Integer, n.val = m.val ∧
      (integral n).toNumeric? (.integral kind) = some (.integral m) := by
  have bounds := IntKind.bounds_of_widensTo widens
  have fits : kind.min ≤ n.val ∧ n.val ≤ kind.max :=
    ⟨Int.le_trans bounds.1 n.inRange.1, Int.le_trans n.inRange.2 bounds.2⟩
  refine ⟨⟨kind, n.val, fits⟩, rfl, ?_⟩
  change (Integer.ofInt? kind n.val).map integral = _
  rw [Integer.ofInt?, dif_pos fits]
  rfl

/-- A number is one of every type that its type widens to. -/
theorem toNumeric?_isSome {a b : Atom} (kind : value.HasKind (.atom a))
    (widens : a.widensTo b = true) (differ : a ≠ b) :
    ∃ number, value.toNumeric? (.atom b) = some number := by
  have shape := kind.ofAtom
  have number := ((Atom.widensTo_isNumeric widens).resolve_left differ).2
  cases a with
  | integral width =>
      obtain ⟨n, rfl⟩ := shape
      obtain rfl : n.kind = width :=
        Atom.integral.inj (Ty.atom.inj (Ty.eq_of_same rfl kind.2))
      cases b with
      | integral wider =>
          obtain ⟨m, -, made⟩ := toNumeric?_integral widens
          exact ⟨_, made⟩
      | single | double => exact ⟨_, rfl⟩
      | decimal =>
          exact ⟨.decimal ⟨n.val < 0, n.val.natAbs, 0⟩,
            congrArg (Option.map decimal) n.toDecimal_eq⟩
      | _ => cases number
  | single =>
      obtain ⟨x, rfl⟩ := shape
      cases b with
      | single | double => exact ⟨_, rfl⟩
      | _ => cases widens
  | _ => exact absurd (beq_iff_eq.mp widens) differ

/-- A value of a type of numbers is converted to every type that this type widens to. -/
theorem convertTo_widens (conforms : t.core.isNumberLike = true → value.conformsTo t = true)
    (widens : t.core.widensTo u.core = true) : ∃ converted, value.convertTo u = .ok converted := by
  rw [convertTo_eq]
  split
  next => exact ⟨value, rfl⟩
  next changes =>
    obtain ⟨⟨isValue, isNumber⟩, other⟩ : (value.isNull = false ∧ u.core.isNumberLike = true) ∧
        (value.naturalType == u.core) = false := by
      simpa [not_or] using changes
    have source_number : t.core.isNumberLike = true := by
      obtain same | ⟨isNumber, -⟩ := Ty.widensTo_cases widens
      · rw [Ty.isNumberLike_same same]
        exact isNumber
      · exact isNumber
    have hasKind : value.HasKind t.core := by
      obtain isObject | hasKind := kind_of_conformsTo (conforms source_number) isValue
      · rw [Ty.isNumberLike_same isObject] at source_number
        cases source_number
      · exact hasKind
    obtain same | ⟨a, b, t_core, u_core, widens⟩ := Ty.widensTo_iff.mp widens
    · rw [BEq.trans hasKind.2 same] at other
      cases other
    · rw [t_core] at hasKind
      have differ : a ≠ b := by
        rintro rfl
        rw [u_core, hasKind.2] at other
        cases other
      obtain ⟨number, made⟩ := toNumeric?_isSome hasKind widens differ
      have isSome : value.toDouble?.isSome = true := by
        apply toDouble?_isSome
        rw [Ty.isNumberLike_same hasKind.2, ← t_core]
        exact source_number
      rw [if_neg (by simp [Option.isSome_iff_ne_none.mp isSome]), u_core, made]
      exact ⟨number, rfl⟩

end Value

namespace Expr

variable {table : ClassTable} {e promoted : Expr} {ctx : EvalContext} {value : Value} {t : Ty}

/-- Under the given values of the parameters an expression has a value, and one of its type if this
is a type of numbers. -/
def HasValue (ctx : EvalContext) (e : Expr) (value : Value) : Prop :=
  e.evaluate ctx = .ok value ∧
    (e.type.core.isNumberLike = true → value.conformsTo e.type = true)

theorem HasValue.of_value? {constant : Value} (hasValue : e.HasValue ctx value)
    (isConstant : e.value? = some constant) : value = constant := by
  cases e with
  | constant =>
      obtain rfl := Option.some.inj isConstant
      exact (Except.ok.inj hasValue.1).symm
  | _ => cases isConstant

theorem HasValue.convert (hasValue : e.HasValue ctx value) {converted : Value}
    (outcome : value.convertTo t = .ok converted) :
    (Expr.convert t e).evaluate ctx = .ok converted := by
  rw [evaluate, hasValue.1]
  exact outcome

/-- A promoted operand has a value if the operand has one. -/
theorem HasValue.of_promote? (hasValue : e.HasValue ctx value)
    (undeclared : e.type.Undeclared table) (isOperand : OperatorGroup.isOperandType t = true)
    (outcome : e.promote? table .argument t = some promoted) :
    ∃ value', promoted.evaluate ctx = .ok value' := by
  obtain ⟨rfl, -⟩ | ⟨constant, _, -, rfl⟩ | ⟨rfl, compatible⟩ | ⟨rfl, -⟩ := promote?_cases outcome
  · exact ⟨value, hasValue.1⟩
  · exact ⟨constant, rfl⟩
  · obtain ⟨converted, outcome⟩ := Value.convertTo_widens hasValue.2
      (Ty.widensTo_of_isCompatible undeclared isOperand compatible)
    exact ⟨converted, hasValue.convert outcome⟩
  · exact ⟨value, hasValue.1⟩

end Expr

namespace Ty

/-- The types of integers of fewer than 32 bits, with and without null. -/
def narrowTypes : List Ty :=
  OperatorGroup.withNullable
    [.integral .sbyte, .integral .byte, .integral .int16, .integral .uint16]

/-- Integers of 32 bits, with null where a type has it. -/
def widened (t : Ty) : Ty := if t.isNullable then .nullable .int32 else .int32

theorem core_widened (t : Ty) : t.widened.core = .int32 := by
  unfold widened
  split <;> rfl

variable {t : Ty}

theorem of_narrow (holds : Ty → Bool) (all : narrowTypes.all holds = true)
    (narrow : t ∈ narrowTypes) : holds t = true :=
  List.all_eq_true.mp all t narrow

theorem narrow_cases (narrow : t ∈ narrowTypes) :
    t = .integral .sbyte ∨ t = .integral .byte ∨ t = .integral .int16 ∨ t = .integral .uint16 ∨
      t = .nullable (.integral .sbyte) ∨ t = .nullable (.integral .byte) ∨
      t = .nullable (.integral .int16) ∨ t = .nullable (.integral .uint16) := by
  simpa [narrowTypes, OperatorGroup.withNullable, lift, isNullable, isValue, Atom.isValue]
    using narrow

theorem narrow_core (narrow : t ∈ narrowTypes) :
    ∃ kind, t.core = .integral kind ∧ kind ≠ .int32 ∧
      (Atom.integral kind).widensTo (.integral .int32) = true := by
  obtain rfl | rfl | rfl | rfl | rfl | rfl | rfl | rfl := narrow_cases narrow <;>
    exact ⟨_, rfl, by decide, rfl⟩

end Ty

namespace Value

/-- Widening an integer makes it the same integer of 32 bits. -/
theorem convertTo_widened {t : Ty} (narrow : t ∈ Ty.narrowTypes) {value : Value}
    (conforms : value.conformsTo t = true) :
    ∃ widened, value.convertTo t.widened = .ok widened ∧ SameInteger value widened := by
  obtain ⟨kind, core, other, widens⟩ := Ty.narrow_core narrow
  cases isNull : value.isNull with
  | true =>
      cases value with
      | null => exact ⟨.null, rfl, .null⟩
      | _ => cases isNull
  | false =>
      obtain isObject | hasKind := core ▸ kind_of_conformsTo conforms isNull
      · cases isObject
      · obtain ⟨n, rfl⟩ := hasKind.ofAtom
        have natural : (integral n).naturalType = .integral kind := Ty.eq_of_same rfl hasKind.2
        obtain rfl : n.kind = kind := Atom.integral.inj (Ty.atom.inj natural)
        have changes : ((integral n).naturalType == .int32) = false := by
          rw [natural]
          exact Bool.eq_false_iff.mpr fun same =>
            other (Atom.integral.inj (Ty.atom.inj (Ty.eq_of_same rfl same)))
        obtain ⟨m, same, converted⟩ := toNumeric?_integral widens
        refine ⟨.integral m, ?_, .integral same⟩
        rw [convertTo_eq, Ty.core_widened, changes, converted]
        rfl

end Value

namespace Expr

variable {table : ClassTable} {e promoted : Expr} {t : Ty}

/-- The only constant of a narrow type that is promoted as a constant is null. -/
theorem promoteConstant?_narrow (narrow : e.type ∈ Ty.narrowTypes)
    (outcome : promoteConstant? t e = some promoted) :
    e.value? = some .null ∧ promoted = .nullOf t := by
  cases promotedConstant outcome with
  | null => exact ⟨rfl, rfl⟩
  | @reread source _ _ text _ read =>
      have unread : reread? source text t.core = none := by
        obtain rfl | rfl | rfl | rfl | rfl | rfl | rfl | rfl := Ty.narrow_cases narrow <;> rfl
      rw [unread] at read
      cases read

/-- An operand of a narrow type is widened to the same number. -/
theorem promote?_widened (table : ClassTable) (narrow : e.type ∈ Ty.narrowTypes) :
    ∃ promoted, e.promote? table .argument e.type.widened = some promoted ∧
      ∀ ctx value, e.HasValue ctx value →
        ∃ same, promoted.evaluate ctx = .ok same ∧ value.SameInteger same := by
  have other : (e.type == e.type.widened) = false := by
    simpa using Ty.of_narrow (fun t => !(t == t.widened)) rfl narrow
  have widens : e.type.isCompatible table e.type.widened = true :=
    Ty.of_narrow (fun t => t.isCompatible table t.widened) rfl narrow
  have isValue : e.type.widened.isValue = true := Ty.of_narrow (·.widened.isValue) rfl narrow
  have isNumber : e.type.core.isNumberLike = true :=
    Ty.of_narrow (·.core.isNumberLike) rfl narrow
  rw [promote?, other]
  cases constant : promoteConstant? e.type.widened e with
  | some promoted =>
      refine ⟨promoted, rfl, fun ctx value hasValue => ?_⟩
      obtain ⟨isNull, rfl⟩ := promoteConstant?_narrow narrow constant
      obtain rfl := hasValue.of_value? isNull
      exact ⟨.null, rfl, .null⟩
  | none =>
      refine ⟨.convert e.type.widened e, ?_, fun ctx value hasValue => ?_⟩
      · simp [promoteByType?, widens, isValue]
      · obtain ⟨same, converted, isSame⟩ := Value.convertTo_widened narrow (hasValue.2 isNumber)
        exact ⟨same, hasValue.convert converted, isSame⟩

/-- An operand of a narrow type that is not written null is promoted only to types that its type is
compatible with. -/
theorem isCompatible_of_promote? (narrow : e.type ∈ Ty.narrowTypes)
    (isWritten : e.isNullConstant = false)
    (outcome : e.promote? table .argument t = some promoted) :
    e.type.isCompatible table t = true := by
  obtain ⟨-, same⟩ | ⟨_, _, constant, -⟩ | ⟨-, compatible⟩ | ⟨-, -, -, compatible⟩ :=
    promote?_cases outcome
  · simp [Ty.isCompatible, same]
  · have isNull := (promoteConstant?_narrow narrow constant).1
    simp [isNullConstant, isNull, Value.isNull] at isWritten
  · exact compatible
  · exact compatible

end Expr

/-- Two operands of one narrow type that are not both written null are widened to values that are
equal if the values of the operands are. -/
theorem OperatorGroup.operands_narrow {group : OperatorGroup} {left right : Expr}
    (compares : group = .equality ∨ group = .relational) (table : ClassTable) (symbol : String)
    (position : Nat) (narrow : left.type ∈ Ty.narrowTypes) (same : right.type = left.type)
    (isWritten : left.isNullConstant = false ∨ right.isNullConstant = false) :
    ∃ left' right', group.operands table symbol position left right = .ok (left', right') ∧
      ∀ ctx v w, left.HasValue ctx v → right.HasValue ctx w →
        ∃ v' w', left'.evaluate ctx = .ok v' ∧ right'.evaluate ctx = .ok w' ∧
          v.equal w = v'.equal w' := by
  obtain ⟨left', left_eq, left_value⟩ := Expr.promote?_widened table narrow
  obtain ⟨right', right_eq, right_value⟩ := Expr.promote?_widened table (same ▸ narrow)
  refine ⟨left', right', ?_, fun ctx v w v_value w_value => ?_⟩
  rotate_left
  · obtain ⟨v', v'_eq, v_same⟩ := left_value ctx v v_value
    obtain ⟨w', w'_eq, w_same⟩ := right_value ctx w w_value
    exact ⟨v', w', v'_eq, w'_eq, Value.equal_of_sameInteger v_same w_same⟩
  rw [same] at right_eq
  have isSignature : [left.type.widened, left.type.widened] ∈ group.signatures := by
    have lifted : Ty.int32.lift = .nullable .int32 := rfl
    unfold Ty.widened
    obtain rfl | rfl := compares <;>
      split <;> simp [signatures, pairs, withNullable, arithmeticTypes, lifted]
  have alike : group.allPairs (· == ·) = true := by obtain rfl | rfl := compares <;> rfl
  refine operands_best alike isSignature left_eq right_eq fun u member apart fits fits' => ?_
  have compatible : left.type.isCompatible table u = true := by
    obtain isWritten | isWritten := isWritten
    · obtain ⟨_, outcome⟩ := Option.isSome_iff_exists.mp fits
      exact Expr.isCompatible_of_promote? narrow isWritten outcome
    · obtain ⟨_, outcome⟩ := Option.isSome_iff_exists.mp fits'
      exact same ▸ Expr.isCompatible_of_promote? (same ▸ narrow) isWritten outcome
  have wins : compareConversions table left.type left.type.widened u = .lt := by
    have all := Ty.of_narrow (fun t => group.allPairs fun u _ =>
      !t.isCompatible table u || t.widened == u ||
        compareConversions table t t.widened u == .lt)
      (by obtain rfl | rfl := compares <;> rfl) narrow
    have best := List.all_eq_true.mp all _ member
    simpa [compatible, apart] using best
  simp [Resolution.isBetter, Resolution.conversionOrders, same, wins]

end QueryTree
