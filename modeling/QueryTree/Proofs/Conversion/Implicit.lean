import QueryTree.Model.Document
import QueryTree.Proofs.Evaluate.Outcome
import QueryTree.Proofs.Membership.Widening
import Mathlib.Algebra.Field.Rat

/-!
# Implicit conversions of values

Between the types without declared members an implicit conversion never fails: wherever the table of
conversions lets a type be converted, each value of the type is converted to one of the other type,
null to null, and exact numbers to the same number.  An expression that is promoted has the value of
the expression converted, unless it is a literal, which is read again.  What is converted may be no
value of the type of the expression, where this is a member that was read from another key.
-/

namespace QueryTree

/-- The number that a decimal number stands for. -/
def Decimal.number (d : Decimal) : ℚ := d.signed / 10 ^ d.places

theorem Decimal.number_of_ofInt? {n : Int} {d : Decimal} (made : ofInt? n = some d) :
    d.number = n := by
  rw [ofInt?] at made
  split at made
  next =>
    obtain rfl := Option.some.inj made
    have signed : signed ⟨n < 0, n.natAbs, 0⟩ = n := by
      simp only [Decimal.signed, decide_eq_true_eq]
      split <;> omega
    simp [number, signed]
  next => cases made

/-- The exact number that an integer, a member of an enumeration or a decimal number stands for. -/
def Value.number? : Value → Option ℚ
  | integral n => some n.val
  | enum _ n => some n
  | decimal d => some d.number
  | _ => none

namespace Ty

variable {table : ClassTable} {source target : Ty}

/-- The predefined types of values and of texts, the type of all values, and enumerations, those
whose values are never null also widened by null. -/
def isElementary : Ty → Bool
  | atom .type | atom .dynamic => false
  | atom _ | enum _ | nullable (enum _) => true
  | nullable (atom a) => a.isValue
  | _ => false

/-- Whether the values of a type are integers, decimal numbers or members of an enumeration, with or
without null. -/
def isExact (t : Ty) : Bool :=
  match t.core with
  | integral _ | decimal | enum _ => true
  | _ => false

theorem undeclared_of_isElementary (elementary : source.isElementary = true) :
    source.Undeclared table := by
  apply undeclared_of_class?
  cases source with
  | atom | enum => rfl
  | nullable inner => cases inner <;> first | rfl | cases elementary
  | _ => cases elementary

/-- An elementary type is converted to the type of all values, or to one that it widens to and that
has null if it has null itself. -/
theorem isCompatible_cases (source_elementary : source.isElementary = true)
    (target_elementary : target.isElementary = true)
    (compatible : source.isCompatible table target = true) :
    target = .object ∨
      ((source.admitsNull = true → target.admitsNull = true) ∧
        source.core.widensTo target.core = true) := by
  have unconverted : hasDeclaredConversion table source target false = false :=
    hasDeclaredConversion_of_undeclared (undeclared_of_isElementary source_elementary)
      (undeclared_of_isElementary target_elementary)
  have of_same (same : (source == target) = true) :
      (source.admitsNull = true → target.admitsNull = true) ∧
        source.core.widensTo target.core = true :=
    ⟨fun admits => admitsNull_same same ▸ admits, widensTo_iff.mpr (.inl (core_same same))⟩
  obtain same | ⟨isReference, assignable⟩ | ⟨-, lifts, widens⟩ :=
    (isCompatible_iff_of_undeclared unconverted).mp compatible
  · exact .inr (of_same same)
  · cases isAssignable_iff.mp assignable with
    | same same => exact .inr (of_same (BEq.symm same))
    | object => exact .inl rfl
    | ancestor | dynamic | sequence => cases target_elementary
  · exact .inr ⟨admitsNull_of_widensTo lifts widens, widens⟩

theorem isNumberLike_of_reference (elementary : target.isElementary = true)
    (isReference : target.isValue = false) : target.core.isNumberLike = false := by
  cases target with
  | atom a => cases a <;> first | rfl | cases isReference
  | enum | nullable => cases isReference
  | _ => cases elementary

end Ty

namespace Value

variable {source target : Ty} {v w : Value}

/-- A value of a type is converted to this type as it is. -/
theorem convertTo_of_conformsTo (conforms : v.conformsTo target = true) :
    v.convertTo target = .ok v := by
  rw [convertTo_eq, if_pos]
  cases isNull : v.isNull with
  | true => rfl
  | false =>
      obtain isObject | hasKind := kind_of_conformsTo conforms isNull
      · rw [Ty.isNumberLike_same isObject]
        rfl
      · simp [hasKind.2]

theorem hasKind_of_isExact (isExact : source.isExact = true) (conforms : v.conformsTo source = true)
    (notNull : v.isNull = false) : v.HasKind source.core := by
  obtain isObject | hasKind := kind_of_conformsTo conforms notNull
  · rw [Ty.isExact, Ty.eq_of_same rfl isObject] at isExact
    cases isExact
  · exact hasKind

theorem number?_isSome (isExact : source.isExact = true) (hasKind : v.HasKind source.core) :
    ∃ q, v.number? = some q := by
  unfold Ty.isExact at isExact
  split at isExact
  next core =>
    obtain ⟨n, rfl⟩ := (core ▸ hasKind).ofAtom
    exact ⟨_, rfl⟩
  next core =>
    obtain ⟨d, rfl⟩ := (core ▸ hasKind).ofAtom
    exact ⟨_, rfl⟩
  next core =>
    obtain ⟨_, n, rfl⟩ := eq_enum_of_hasKind (core ▸ hasKind)
    exact ⟨_, rfl⟩
  next => cases isExact

/-- A wider type has a number for each exact number of a narrower type. -/
theorem number?_toNumeric? {a b : Atom} (hasKind : v.HasKind (.atom a))
    (widens : a.widensTo b = true) (source_exact : (Ty.atom a).isExact = true)
    (target_exact : (Ty.atom b).isExact = true) (made : v.toNumeric? (.atom b) = some w) :
    w.number? = v.number? := by
  have shape := hasKind.ofAtom
  cases a with
  | integral width =>
      obtain ⟨n, rfl⟩ := shape
      cases b with
      | integral wider =>
          obtain ⟨m, fits, rfl⟩ := Option.map_eq_some_iff.mp made
          rw [number?, number?, Integer.val_of_ofInt? fits]
      | decimal =>
          obtain ⟨d, fits, rfl⟩ := Option.map_eq_some_iff.mp made
          rw [number?, number?, Decimal.number_of_ofInt? fits]
      | _ => cases target_exact
  | decimal =>
      obtain ⟨d, rfl⟩ := shape
      cases b with
      | decimal => exact Option.some.inj made ▸ rfl
      | _ => cases widens
  | _ => cases source_exact

theorem convertTo_eq_ok (outcome : v.convertTo target = .ok w) :
    w = v ∨ (v.isNull = false ∧ (v.naturalType == target.core) = false ∧
      v.toNumeric? target.core = some w) := by
  rw [convertTo_eq] at outcome
  split at outcome
  next => exact .inl (Except.ok.inj outcome).symm
  next changes =>
    obtain ⟨⟨notNull, -⟩, other⟩ : (v.isNull = false ∧ target.core.isNumberLike = true) ∧
        (v.naturalType == target.core) = false := by
      simpa [not_or] using changes
    split at outcome
    next => cases outcome
    next =>
      cases made : v.toNumeric? target.core with
      | none =>
          rw [made] at outcome
          cases outcome
      | some number =>
          rw [made] at outcome
          exact .inr ⟨notNull, other, congrArg some (Except.ok.inj outcome)⟩

/-- A value is converted to each type that its type widens to, null to null and an exact number to
the same number. -/
theorem convertTo_of_widensTo (conforms : v.conformsTo source = true)
    (admits : source.admitsNull = true → target.admitsNull = true)
    (widens : source.core.widensTo target.core = true) :
    ∃ w, v.convertTo target = .ok w ∧ w.conformsTo target = true ∧ w.isNull = v.isNull ∧
      (source.isExact = true → target.isExact = true → w.number? = v.number?) := by
  have converts : source.Converts target := ⟨admits, .inr (Ty.widensTo_cases widens)⟩
  have computes := convertTo_computes conforms converts
  obtain ⟨w, outcome⟩ := convertTo_widens (fun _ => conforms) widens
  rw [outcome] at computes
  refine ⟨w, outcome, computes, ?_⟩
  obtain rfl | ⟨notNull, other, made⟩ := convertTo_eq_ok outcome
  · exact ⟨rfl, fun _ _ => rfl⟩
  · refine ⟨(toNumeric?_kind made).1.trans notNull.symm, fun source_exact target_exact => ?_⟩
    have hasKind : v.HasKind source.core := hasKind_of_isExact source_exact conforms notNull
    obtain same | ⟨a, b, source_core, target_core, widens⟩ := Ty.widensTo_iff.mp widens
    · rw [BEq.trans hasKind.2 same] at other
      cases other
    · rw [Ty.isExact, source_core] at source_exact
      rw [Ty.isExact, target_core] at target_exact
      rw [source_core] at hasKind
      rw [target_core] at made
      exact number?_toNumeric? hasKind widens source_exact target_exact made

theorem convertTo_of_isCompatible {table : ClassTable}
    (source_elementary : source.isElementary = true)
    (target_elementary : target.isElementary = true)
    (compatible : source.isCompatible table target = true) (conforms : v.conformsTo source = true) :
    ∃ w, v.convertTo target = .ok w ∧ w.conformsTo target = true ∧ w.isNull = v.isNull ∧
      (source.isExact = true → target.isExact = true → w.number? = v.number?) := by
  obtain rfl | ⟨admits, widens⟩ :=
    Ty.isCompatible_cases source_elementary target_elementary compatible
  · have isObject : v.conformsTo .object = true := by
      unfold conformsTo
      split <;> rfl
    exact ⟨v, convertTo_of_conformsTo isObject, isObject, rfl, fun _ isExact => by cases isExact⟩
  · exact convertTo_of_widensTo conforms admits widens

end Value

namespace Expr

variable {table : ClassTable} {mode : Promotion} {target : Ty} {e promoted : Expr}

/-- Whether the expression is a constant that a literal was read as. -/
def isLiteral : Expr → Bool
  | constant _ _ (some _) => true
  | _ => false

theorem promote?_isSome (mode : Promotion) (compatible : e.type.isCompatible table target = true) :
    ∃ promoted, e.promote? table mode target = some promoted := by
  rw [promote?]
  split
  next => exact ⟨e, rfl⟩
  next =>
    cases promoteConstant? target e with
    | some promoted => exact ⟨promoted, rfl⟩
    | none =>
        rw [promoteByType?, if_pos compatible]
        split <;> exact ⟨_, rfl⟩

/-- Promotion of an expression that is no literal converts its value, unless the expression is of
the type already. -/
theorem evaluate_promote? (elementary : target.isElementary = true)
    (unwritten : e.isLiteral = false)
    (outcome : e.promote? table mode target = some promoted) {ctx : EvalContext} {v : Value}
    (evaluates : e.evaluate ctx = .ok v) :
    promoted.evaluate ctx = if e.type == target then .ok v else v.convertTo target := by
  cases same : e.type == target with
  | true =>
      obtain rfl : promoted = e := by
        rw [promote?, if_pos same] at outcome
        exact (Option.some.inj outcome).symm
      exact evaluates
  | false =>
      rw [if_neg Bool.false_ne_true]
      obtain ⟨rfl, isSame⟩ | ⟨value, literal?, reread, -⟩ | ⟨rfl, -⟩ | ⟨rfl, isReference, -⟩ :=
        promote?_cases outcome
      · exact absurd (same.symm.trans isSame) Bool.false_ne_true
      · cases promotedConstant reread with
        | null =>
            obtain rfl := Except.ok.inj evaluates
            exact (evaluate_promote?_null outcome evaluates).trans rfl
        | reread => cases unwritten
      · rw [evaluate, evaluates]
        rfl
      · rw [evaluates, Value.convertTo_eq, Ty.isNumberLike_of_reference elementary isReference]
        simp

end Expr

/-- An implicit conversion between elementary types converts each value of its source to a value of
its target, and each expression of its source can be promoted.  Promotion to another type converts
the value of the expression, unless it is a literal that is read again, and so it has no error of
its own where this value is one of the source. -/
theorem isCompatible_converts {table : ClassTable} {source target : Ty}
    (source_elementary : source.isElementary = true)
    (target_elementary : target.isElementary = true)
    (compatible : source.isCompatible table target = true) :
    (∀ v : Value, v.conformsTo source = true →
      ∃ w, v.convertTo target = .ok w ∧ w.conformsTo target = true ∧
        (w.isNull = true ↔ v.isNull = true) ∧
        (source.isExact = true → target.isExact = true → v.isNull = false →
          ∃ q, v.number? = some q ∧ w.number? = some q)) ∧
      ∀ (e : Expr) (mode : Promotion), e.type = source →
        ∃ promoted, e.promote? table mode target = some promoted ∧
          (mode.exact = true ∨ target.isValue = true → (promoted.type == target) = true) ∧
          (e.isLiteral = false → ∀ ctx v, e.evaluate ctx = .ok v →
            promoted.evaluate ctx = (if source == target then .ok v else v.convertTo target) ∧
              (v.conformsTo source = true →
                ∃ w, promoted.evaluate ctx = .ok w ∧ v.convertTo target = .ok w)) := by
  have converts (v : Value) (conforms : v.conformsTo source = true) :=
    Value.convertTo_of_isCompatible source_elementary target_elementary compatible conforms
  refine ⟨fun v conforms => ?_, fun e mode e_type => ?_⟩
  · obtain ⟨w, outcome, w_conforms, nulls, numbers⟩ := converts v conforms
    refine ⟨w, outcome, w_conforms, by rw [nulls], fun source_exact target_exact notNull => ?_⟩
    obtain ⟨q, number⟩ :=
      Value.number?_isSome source_exact (Value.hasKind_of_isExact source_exact conforms notNull)
    exact ⟨q, number, (numbers source_exact target_exact).trans number⟩
  · subst e_type
    obtain ⟨promoted, outcome⟩ := Expr.promote?_isSome mode compatible
    refine ⟨promoted, outcome, fun strict => Expr.promote?_type strict outcome,
      fun unwritten ctx v evaluates => ?_⟩
    have value := Expr.evaluate_promote? target_elementary unwritten outcome evaluates
    refine ⟨value, fun conforms => ?_⟩
    obtain ⟨w, converted, -⟩ := converts v conforms
    refine ⟨w, value.trans ?_, converted⟩
    split
    next same =>
      rw [← converted, Value.convertTo_of_conformsTo (Value.conformsTo_same same ▸ conforms)]
    next => exact converted

/-- The greatest integer of 16 bits without a sign is also a decimal number, and a parameter for
integers of 8 bits is promoted to one for integers of 64 bits or null. -/
theorem isCompatible_converts_uint16 :
    (∃ w, (Value.ofInteger .uint16 65535).convertTo (.nullable .decimal) = .ok w ∧
        w.number? = some 65535) ∧
      ∃ promoted, (Expr.parameter ⟨0, "x", .integral .sbyte⟩).promote? .initial .element
          (.nullable .int64) = some promoted ∧ (promoted.type == .nullable .int64) = true := by
  constructor
  · obtain ⟨w, outcome, -, -, numbers⟩ := (@isCompatible_converts .initial (.integral .uint16)
      (.nullable .decimal) rfl rfl rfl).1 (Value.ofInteger .uint16 65535) rfl
    obtain ⟨q, number, same⟩ := numbers rfl rfl rfl
    exact ⟨w, outcome, same.trans number.symm⟩
  · obtain ⟨promoted, outcome, typed, -⟩ := (@isCompatible_converts .initial (.integral .sbyte)
      (.nullable .int64) rfl rfl rfl).2 (.parameter ⟨0, "x", .integral .sbyte⟩) .element rfl
    exact ⟨promoted, outcome, typed (.inr rfl)⟩

section Example

/-- A class with an age of 16 bits. -/
def aged : ClassRef := ⟨"Aged", none, false, 0⟩

def agedTable : ClassTable :=
  #[some { ClassBody.empty with members := [⟨"Age", .integral .int16, .property, false⟩] }]

/-- An age that is read from a key in lower case was not converted to 16 bits.  It may be too large
for the 32 bits to which an expression of its type is promoted. -/
theorem lower_key_overflows : ∃ value promoted,
    Value.ofJson agedTable (.cls aged) (.object [("age", .int 99999999999)]) = .ok value ∧
      let it : Parameter := ⟨0, "it", .cls aged⟩
      let age := Expr.member (.integral .int16) (.parameter it) "Age"
      let ctx := (EvalContext.initial .minValue).bind it value
      age.evaluate ctx = .ok (.ofInteger .int64 99999999999) ∧
        age.promote? agedTable .element .int32 = some promoted ∧
        promoted.evaluate ctx = .error (.overflow "conversion to Int32") :=
  ⟨_, _, rfl, rfl, rfl, rfl⟩

end Example

end QueryTree
