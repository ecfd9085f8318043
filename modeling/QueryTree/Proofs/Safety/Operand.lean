import QueryTree.Evaluate.Expression
import QueryTree.Proofs.Safety.Operation
import QueryTree.Proofs.Typing.Operator

/-!
# Safe expressions and operands

When an expression is safe, and that the operands that are made of safe expressions are safe.
-/

/-!
## Safe expressions

An expression is safe if its value is one of its type, unless it fails for the numbers.  The nodes
that operators make are safe if their operands are and have the types that the operator is meant
for.
-/

namespace QueryTree

namespace Ty

variable {t u : Ty}

theorem admitsNull_same (same : (t == u) = true) : t.admitsNull = u.admitsNull := by
  change Ty.same t u = true at same
  cases t <;> cases u <;> simp_all [Ty.same, admitsNull, isValue, isNullable, ClassRef.same]

theorem isOperand_lift (isOperand : t.isOperand = true) : t.lift.isOperand = true := by
  rw [lift]
  split
  next => exact isOperand
  next excludes =>
    cases t with
    | atom a => cases a <;> first | rfl | simp_all [isValue, Atom.isValue]
    | enum e => exact isOperand
    | nullable => simp [isNullable] at excludes
    | _ => cases isOperand

theorem core_lift (t : Ty) : t.lift.core = t.core := by
  rw [lift]
  split
  next => rfl
  next excludes =>
    cases t with
    | nullable => simp [isNullable] at excludes
    | _ => rfl

theorem admitsNull_lift (t : Ty) : t.lift.admitsNull = true := by
  rw [lift]
  split
  next admits => simpa [admitsNull, Bool.or_comm] using admits
  next => rfl

theorem isOperand_core (isOperand : t.isOperand = true) : t.core.isOperand = true := by
  cases t with
  | nullable inner =>
      cases inner with
      | atom a => cases a <;> first | rfl | cases isOperand
      | enum e => exact isOperand
      | _ => cases isOperand
  | _ => exact isOperand

theorem core_isNullable (isOperand : t.isOperand = true) : t.core.isNullable = false := by
  cases t with
  | nullable inner =>
      cases inner with
      | atom | enum => rfl
      | _ => cases isOperand
  | _ => rfl

end Ty

namespace Value

variable {value : Value} {t u : Ty}

theorem conformsTo_same (same : (t == u) = true) : value.conformsTo t = value.conformsTo u := by
  have cores := Ty.core_same same
  have objects : (t.core == .object) = (u.core == .object) :=
    Bool.eq_iff_iff.mpr ⟨BEq.trans (BEq.symm cores), BEq.trans cores⟩
  have kinds : (value.naturalType == t.core) = (value.naturalType == u.core) :=
    Bool.eq_iff_iff.mpr ⟨(BEq.trans · cores), (BEq.trans · (BEq.symm cores))⟩
  rw [conformsTo, conformsTo, Ty.admitsNull_same same, objects, kinds]

/-- For a value other than null it does not matter whether a type admits null. -/
theorem conformsTo_core (isValue : value.isNull = false) (cores : t.core = u.core) :
    value.conformsTo t = value.conformsTo u := by
  simp [conformsTo, isValue, cores]

end Value

namespace Expr

open Evaluation (Computes Meets)

variable {ctx : EvalContext}

/-- Under given values of the parameters an expression has a value, unless it fails for the
numbers. -/
def RunsIn (ctx : EvalContext) (e : Expr) : Prop := (e.evaluate ctx).Computes fun _ => True

/-- An expression of a type that operators are made for has a value of this type, unless it fails
for the numbers. -/
structure SafeIn (ctx : EvalContext) (e : Expr) : Prop where
  isOperand : e.type.isOperand = true
  computes : (e.evaluate ctx).Computes (·.conformsTo e.type = true)

theorem SafeIn.runs {e : Expr} (safe : e.SafeIn ctx) : e.RunsIn ctx :=
  safe.computes.imp fun _ _ => trivial

theorem runsIn_constant {type : Ty} {value : Value} {literal? : Option String} :
    (Expr.constant type value literal?).RunsIn ctx :=
  trivial

namespace SafeIn

variable {type : Ty} {op : BinaryOp} {method : Option String} {left right operand : Expr}

theorem constant {value : Value} {literal? : Option String} (isOperand : type.isOperand = true)
    (conforms : value.conformsTo type = true) : (Expr.constant type value literal?).SafeIn ctx :=
  ⟨isOperand, conforms⟩

theorem nullOf (isOperand : type.isOperand = true) (admits : type.admitsNull = true) :
    (Expr.nullOf type).SafeIn ctx :=
  .constant isOperand (Value.conformsTo_null admits)

theorem convert (safe : operand.SafeIn ctx) (isOperand : type.isOperand = true)
    (converts : operand.type.Converts type) : (Expr.convert type operand).SafeIn ctx :=
  ⟨isOperand, safe.computes.bind fun _ conforms => Value.convertTo_computes conforms converts⟩

theorem comparison (isComparison : op.isComparison = true) (left_runs : left.RunsIn ctx)
    (right_runs : right.RunsIn ctx) : (Expr.binary .boolean op left right method).SafeIn ctx := by
  refine ⟨rfl, left_runs.bind fun l _ => ?_⟩
  have joined : (right.evaluate ctx >>= Value.applyBinary op .boolean l).Computes
      (·.conformsTo .boolean = true) := by
    refine right_runs.bind fun r _ => ?_
    obtain ⟨b, outcome⟩ := Value.applyBinary_comparison isComparison
    rw [outcome]
    exact Value.boolean_conformsTo rfl b
  cases op with
  | equal | notEqual | lessThan | greaterThan | lessThanOrEqual | greaterThanOrEqual => exact joined
  | _ => cases isComparison

/-- An operator that neither compares nor looks at its left operand first. -/
theorem strict (isStrict : op ≠ .andAlso ∧ op ≠ .orElse)
    (left_safe : left.SafeIn ctx) (right_safe : right.SafeIn ctx)
    (isOperand : type.isOperand = true)
    (direct : ∀ l r : Value, l.conformsTo left.type = true → r.conformsTo right.type = true →
      (Value.applyBinary op type l r).Computes (·.conformsTo type = true)) :
    (Expr.binary type op left right method).SafeIn ctx := by
  refine ⟨isOperand, left_safe.computes.bind fun l l_conforms => ?_⟩
  have joined : (right.evaluate ctx >>= Value.applyBinary op type l).Computes
      (·.conformsTo type = true) :=
    right_safe.computes.bind fun r r_conforms => direct l r l_conforms r_conforms
  cases op with
  | andAlso => exact absurd rfl isStrict.1
  | orElse => exact absurd rfl isStrict.2
  | _ => exact joined

theorem logical (isLogical : op = .andAlso ∨ op = .orElse) (isTruth : type.core = .boolean)
    (left_type : left.type = type) (right_type : right.type = type)
    (left_safe : left.SafeIn ctx) (right_safe : right.SafeIn ctx) :
    (Expr.binary type op left right method).SafeIn ctx := by
  obtain ⟨isOperand, left_computes⟩ := left_safe
  have right_computes := right_safe.computes
  rw [left_type] at isOperand left_computes
  rw [right_type] at right_computes
  refine ⟨isOperand, left_computes.bind fun l l_conforms => ?_⟩
  obtain rfl | rfl := isLogical
  · cases isFalse : l.isBoolean false with
    | true =>
        rw [combine, if_pos isFalse]
        exact l_conforms
    | false =>
        rw [combine, isFalse]
        exact Meets.map right_computes fun r r_conforms =>
          Value.conjoin_conformsTo isTruth isFalse l_conforms r_conforms
  · cases isTrue : l.isBoolean true with
    | true =>
        rw [combine, if_pos isTrue]
        exact l_conforms
    | false =>
        rw [combine, isTrue]
        exact Meets.map right_computes fun r r_conforms =>
          Value.disjoin_conformsTo isTruth isTrue l_conforms r_conforms

theorem negate {a : Atom} (safe : operand.SafeIn ctx) (numeric : a.isNumeric = true)
    (isNumber : operand.type.core = .atom a) : (Expr.negate operand.type operand).SafeIn ctx :=
  ⟨safe.isOperand, safe.computes.bind fun _ conforms =>
    Value.negated_computes numeric isNumber conforms⟩

theorem not (safe : operand.SafeIn ctx) (isTruth : operand.type.core = .boolean) :
    (Expr.not operand.type operand).SafeIn ctx :=
  ⟨safe.isOperand, safe.computes.bind fun _ conforms => Value.inverted_computes isTruth conforms⟩

theorem conditional {test ifTrue ifFalse : Expr} (test_type : test.type = .boolean)
    (same : (ifTrue.type == ifFalse.type) = true) (test_safe : test.SafeIn ctx)
    (true_safe : ifTrue.SafeIn ctx) (false_safe : ifFalse.SafeIn ctx) :
    (Expr.conditional test ifTrue ifFalse).SafeIn ctx := by
  refine ⟨true_safe.isOperand, test_safe.computes.bind fun v conforms => ?_⟩
  rw [test_type] at conforms
  obtain ⟨-, admits⟩ | ⟨b, rfl⟩ := Value.truth_of_conformsTo rfl conforms
  · cases admits
  · cases b with
    | true => exact true_safe.computes
    | false =>
        refine false_safe.computes.imp fun w conforms => ?_
        change w.conformsTo ifTrue.type = true
        rw [Value.conformsTo_same same]
        exact conforms

theorem coalesce (isOperand : type.isOperand = true) (left_core : left.type.core = type.core)
    (right_type : (right.type == type) = true) (left_safe : left.SafeIn ctx)
    (right_safe : right.SafeIn ctx) : (Expr.coalesce type left right).SafeIn ctx := by
  refine ⟨isOperand, left_safe.computes.bind fun l conforms => ?_⟩
  cases isNull : l.isNull with
  | true =>
      refine right_safe.computes.imp fun r conforms => ?_
      rw [Value.conformsTo_same right_type] at conforms
      exact conforms
  | false =>
      rw [Value.conformsTo_core isNull left_core] at conforms
      exact conforms

end SafeIn

end Expr

end QueryTree

/-!
## Safe operands

Safe expressions that are promoted, read again or widened for an operator are safe.
-/

namespace QueryTree

theorem Atom.widensTo_refl (a : Atom) : a.widensTo a = true := by
  cases a with
  | integral kind => cases kind <;> rfl
  | _ => rfl

/-- A number type widens only to number types. -/
theorem Atom.widensTo_isNumeric {a b : Atom} (widens : a.widensTo b = true) :
    a = b ∨ (a.isNumeric = true ∧ b.isNumeric = true) := by
  cases a with
  | integral kind =>
      cases kind <;> cases b <;> first | exact .inr ⟨rfl, rfl⟩ | cases widens
  | single => cases b <;> first | exact .inr ⟨rfl, rfl⟩ | cases widens
  | _ => exact .inl (beq_iff_eq.mp widens)

namespace Ty

variable {table : ClassTable} {source target : Ty}

theorem operators_of_isOperand (isOperand : source.isOperand = true) :
    source.operators table = [] := by
  unfold operators
  split
  next c isClass =>
    have core_operand := isOperand_core isOperand
    rw [isClass] at core_operand
    cases core_operand
  next => rfl

/-- Between the types that operators are made for no conversion is declared. -/
theorem hasDeclaredConversion_of_isOperand (source_operand : source.isOperand = true)
    (target_operand : target.isOperand = true) (explicit : Bool) :
    hasDeclaredConversion table source target explicit = false := by
  simp [hasDeclaredConversion, operators_of_isOperand source_operand,
    operators_of_isOperand target_operand]

theorem widensTo_iff :
    source.widensTo target = true ↔
      (source == target) = true ∨
        ∃ a b, source = atom a ∧ target = atom b ∧ a.widensTo b = true := by
  constructor
  · intro widens
    unfold widensTo at widens
    split at widens
    next a b => exact .inr ⟨a, b, rfl, rfl, widens⟩
    next =>
      split at widens
      next => cases widens
      next => exact .inl widens
  · rintro (same | ⟨a, b, rfl, rfl, widens⟩)
    · cases source with
      | atom a =>
          obtain rfl := eq_atom_of_beq same
          exact Atom.widensTo_refl a
      | _ => simp [widensTo, isNumericAtom, same]
    · exact widens

theorem widensTo_cases (widens : source.widensTo target = true) :
    (source == target) = true ∨
      (source.isNumberLike = true ∧ target.isNumberLike = true ∧ target.isNullable = false) := by
  obtain same | ⟨a, b, rfl, rfl, widens⟩ := widensTo_iff.mp widens
  · exact .inl same
  · obtain rfl | ⟨source_number, target_number⟩ := Atom.widensTo_isNumeric widens
    · exact .inl BEq.rfl
    · exact .inr ⟨by simp [isNumberLike, isNumeric, core, source_number],
        by simp [isNumberLike, isNumeric, core, target_number], rfl⟩

/-- What a value of a type that operators are made for can be as it is: anything, and a text also a
sequence of characters. -/
theorem isAssignable_cases (isOperand : source.isOperand = true)
    (assignable : isAssignable table target source = true) :
    target = .object ∨ (source == target) = true ∨
      (source = .string ∧ target = .sequence .char) := by
  cases isAssignable_iff.mp assignable with
  | same same => exact .inr (.inl (BEq.symm same))
  | object => exact .inl rfl
  | ancestor | dynamic => cases isOperand
  | sequence elements covers =>
      unfold element? at elements
      split at elements
      any_goals cases isOperand
      next =>
        obtain rfl := Option.some.inj elements
        obtain same | ⟨isReference, -⟩ := covers
        · exact .inr (.inr ⟨rfl, congrArg Ty.sequence (eq_of_same rfl (BEq.symm same))⟩)
        · cases isReference
      next => cases elements

theorem converts_of_same (same : (source == target) = true) : source.Converts target :=
  ⟨fun admits => admitsNull_same same ▸ admits, .inr (.inl (core_same same))⟩

theorem converts_object : source.Converts .object := ⟨fun _ => rfl, .inl BEq.rfl⟩

theorem converts_lift_of_core (isOperand : source.isOperand = true)
    (converts : source.core.Converts target) : source.Converts target.lift := by
  refine ⟨fun _ => admitsNull_lift target, ?_⟩
  have kinds := converts.2
  rwa [core_eq_self (core_isNullable isOperand), ← core_lift target] at kinds

theorem converts_lift (t : Ty) : t.Converts t.lift :=
  ⟨fun _ => admitsNull_lift t, .inr (.inl (by rw [core_lift]; exact BEq.rfl))⟩

theorem excludesNull_of_isNumberLike {t : Ty} (isPlain : t.isNullable = false)
    (isNumber : t.isNumberLike = true) : t.admitsNull = false := by
  cases t with
  | atom a => cases a <;> first | rfl | cases isNumber
  | enum => rfl
  | nullable => cases isPlain
  | _ => cases isNumber

/-- Null stays null in a conversion between value types. -/
theorem admitsNull_of_widensTo (lifts : source.isNullable = true → target.isNullable = true)
    (widens : source.core.widensTo target.core = true) (admits : source.admitsNull = true) :
    target.admitsNull = true := by
  cases target_null : target.isNullable with
  | true => simp [admitsNull, target_null]
  | false =>
      have source_null : source.isNullable = false := by simpa [target_null] using lifts
      rw [core_eq_self source_null, core_eq_self target_null] at widens
      obtain same | ⟨isNumber, -⟩ := widensTo_cases widens
      · rwa [← admitsNull_same same]
      · rw [excludesNull_of_isNumberLike source_null isNumber] at admits
        cases admits

/-- An implicit conversion that no class declares converts values, but for texts that are taken for
sequences of characters. -/
theorem converts_of_isCompatible (isOperand : source.isOperand = true)
    (undeclared : hasDeclaredConversion table source target false = false)
    (compatible : isCompatible table source target = true) :
    source.Converts target ∨ (source = .string ∧ target = .sequence .char) := by
  obtain same | ⟨-, assignable⟩ | ⟨-, lifts, widens⟩ :=
    (isCompatible_iff_of_undeclared undeclared).mp compatible
  · exact .inl (converts_of_same same)
  · obtain rfl | same | isText := isAssignable_cases isOperand assignable
    · exact .inl converts_object
    · exact .inl (converts_of_same same)
    · exact .inr isText
  · exact .inl ⟨admitsNull_of_widensTo lifts widens, .inr (widensTo_cases widens)⟩

/-- Between types that operators are made for values are always converted. -/
theorem converts_of_operands (source_operand : source.isOperand = true)
    (target_operand : target.isOperand = true)
    (compatible : isCompatible table source target = true) : source.Converts target := by
  have undeclared : hasDeclaredConversion table source target false = false :=
    hasDeclaredConversion_of_isOperand source_operand target_operand false
  obtain converts | ⟨-, rfl⟩ := converts_of_isCompatible source_operand undeclared compatible
  · exact converts
  · cases target_operand

end Ty

namespace Expr

variable {ctx : EvalContext} {table : ClassTable} {mode : Promotion} {e promoted : Expr}

/-- A number that is read again is of the type that it is read as. -/
theorem number?_kind {text : String} {type : Ty} {value : Value}
    (read : Literal.number? text type = some value) : value.HasKind type := by
  have integral {kind : IntKind} {value : Value}
      (read : Literal.number?.integral? text kind = some value) :
      value.HasKind (.integral kind) := by
    obtain ⟨n, -, made⟩ := Option.bind_eq_some_iff.mp read
    obtain ⟨number, fits, rfl⟩ := Option.map_eq_some_iff.mp made
    obtain ⟨-, rfl⟩ := Integer.ofInt?_eq_some fits
    exact ⟨rfl, BEq.rfl⟩
  unfold Literal.number? at read
  split at read
  next => exact integral read
  next =>
    obtain ⟨x, -, rfl⟩ := Option.map_eq_some_iff.mp read
    exact ⟨rfl, BEq.rfl⟩
  next =>
    obtain ⟨x, -, rfl⟩ := Option.map_eq_some_iff.mp read
    exact ⟨rfl, BEq.rfl⟩
  next =>
    obtain ⟨d, -, rfl⟩ := Option.map_eq_some_iff.mp read
    exact ⟨rfl, BEq.rfl⟩
  next =>
    split at read
    next => cases read
    next =>
      obtain ⟨number, -, made⟩ := Option.bind_eq_some_iff.mp read
      obtain ⟨n, -, made⟩ := Option.bind_eq_some_iff.mp made
      exact Value.ofInt?_kind made
  next => cases read

theorem reread?_kind {source target : Ty} {text : String} {value : Value}
    (read : reread? source text target = some value) : value.HasKind target := by
  cases reread read with
  | integer _ read | real _ _ read => exact number?_kind read
  | member _ isTarget => exact isTarget ▸ ⟨rfl, BEq.rfl⟩

/-- No literal is read again as a text. -/
theorem string?_of_reread? {source target : Ty} {text : String} {value : Value}
    (read : reread? source text target = some value) : value.string? = none := by
  cases value with
  | string s =>
      exfalso
      obtain rfl : target = .string := Ty.eq_atom_of_beq (reread?_kind read).2
      cases reread read with
      | integer _ read | real _ _ read => cases read
  | _ => rfl

/-- The text of a number is read as a member of an enumeration if it spells an integer of the
underlying type that has 64 bits. -/
theorem number?_member {target : Ty} {text : String} {enum : EnumType} {n : Int}
    (read : Literal.number? text target = some (.enum enum n)) :
    target = .enum enum ∧ Numeral.int? text = some n ∧
      (enum.underlying.min ≤ n ∧ n ≤ enum.underlying.max) ∧ Value.fitsInt64 n = true := by
  unfold Literal.number? at read
  split at read
  next =>
    obtain ⟨_, -, made⟩ := Option.bind_eq_some_iff.mp read
    obtain ⟨_, -, same⟩ := Option.map_eq_some_iff.mp made
    cases same
  iterate 3 next =>
    obtain ⟨_, -, same⟩ := Option.map_eq_some_iff.mp read
    cases same
  next own =>
    split at read
    next => cases read
    next =>
      obtain ⟨number, isNumber, made⟩ := Option.bind_eq_some_iff.mp read
      obtain ⟨m, spelled, made'⟩ := Option.bind_eq_some_iff.mp isNumber
      obtain ⟨i, inWidth, rfl⟩ := Option.map_eq_some_iff.mp made'
      obtain ⟨inRange, rfl⟩ := Integer.ofInt?_eq_some inWidth
      change (if Value.fitsInt64 m then some (Value.enum own m) else none) =
        some (.enum enum n) at made
      split at made
      next fits =>
        cases made
        exact ⟨rfl, spelled, inRange, fits⟩
      next => cases made
  next => cases read

/-- A literal that is read again as a member of an enumeration is a text that names it, or the text
of an integer of the underlying type that has 64 bits. -/
theorem reread?_member {source target : Ty} {text : String} {enum : EnumType} {n : Int}
    (read : reread? source text target = some (.enum enum n)) :
    target = .enum enum ∧
      (source = .string ∧ enum.valueOf? text = some n ∨
        (∃ kind, source = .integral kind) ∧ Numeral.int? text = some n ∧
          (enum.underlying.min ≤ n ∧ n ≤ enum.underlying.max) ∧ Value.fitsInt64 n = true) := by
  cases reread read with
  | integer isInteger read =>
      obtain ⟨isTarget, spelled⟩ := number?_member read
      exact ⟨isTarget, .inr ⟨⟨_, isInteger⟩, spelled⟩⟩
  | real _ isTarget read =>
      obtain rfl := (number?_member read).1
      obtain isTarget | isTarget := isTarget <;> cases isTarget
  | member isText isTarget isNamed => exact ⟨isTarget, .inl ⟨isText, isNamed⟩⟩

/-- A constant that is read again is a constant of the type that it is read as. -/
theorem promoteConstant?_conforms {target : Ty}
    (outcome : promoteConstant? target e = some promoted) :
    ∃ value literal?, promoted = constant target value literal? ∧
      value.conformsTo target = true := by
  cases promotedConstant outcome with
  | null admits => exact ⟨_, _, rfl, Value.conformsTo_null admits⟩
  | reread _ read => exact ⟨_, _, rfl, (reread?_kind read).conformsTo⟩

namespace SafeIn

theorem promote {target : Ty} (safe : e.SafeIn ctx) (isOperand : target.isOperand = true)
    (outcome : e.promote? table mode target = some promoted) : promoted.SafeIn ctx := by
  obtain ⟨rfl, -⟩ | ⟨_, _, constant, -⟩ | ⟨rfl, compatible⟩ | ⟨rfl, -⟩ := promote?_cases outcome
  · exact safe
  · obtain ⟨value, literal?, rfl, conforms⟩ := promoteConstant?_conforms constant
    exact .constant isOperand conforms
  · exact safe.convert isOperand
      (Ty.converts_of_operands safe.isOperand isOperand compatible)
  · exact safe

theorem promoteAll {targets : List Ty} {es all : List Expr} (each : ∀ e ∈ es, e.SafeIn ctx)
    (areOperands : ∀ t ∈ targets, t.isOperand = true)
    (outcome : promoteAll? table mode targets es = some all) : ∀ e ∈ all, e.SafeIn ctx := by
  induction es generalizing targets all with
  | nil =>
      obtain ⟨-, rfl⟩ := promoteAll?_nil outcome
      simp
  | cons e es ih =>
      obtain ⟨target, rest, promoted, others, rfl, rfl, head, tail⟩ := promoteAll?_cons outcome
      obtain ⟨safe, safes⟩ := List.forall_mem_cons.mp each
      obtain ⟨isOperand, operands⟩ := List.forall_mem_cons.mp areOperands
      exact List.forall_mem_cons.mpr ⟨safe.promote isOperand head, ih safes operands tail⟩

theorem isOperand_of_mem {group : OperatorGroup} {signature : List Ty} {t : Ty}
    (isSignature : signature ∈ group.signatures) (member : t ∈ signature) :
    t.isOperand = true := by
  have all : (group.signatures.all fun signature => signature.all Ty.isOperand) = true := by
    cases group <;> rfl
  exact List.all_eq_true.mp (List.all_eq_true.mp all signature isSignature) t member

/-- A safe operand that is promoted for an operator has exactly the type that the operator takes. -/
theorem promote_type {group : OperatorGroup} {signature : List Ty} {t : Ty} (safe : e.SafeIn ctx)
    (isSignature : signature ∈ group.signatures) (member : t ∈ signature)
    (outcome : e.promote? table .argument t = some promoted) :
    promoted.SafeIn ctx ∧ promoted.type = t := by
  refine ⟨safe.promote (isOperand_of_mem isSignature member) outcome, ?_⟩
  exact OperatorGroup.type_of_promote? (group.isOperandType_of_mem isSignature member)
    (Ty.hasDeclaredConversion_of_isOperand safe.isOperand rfl false) outcome

theorem operands {group : OperatorGroup} {symbol : String} {position : Nat}
    {left right left' right' : Expr} (left_safe : left.SafeIn ctx) (right_safe : right.SafeIn ctx)
    (outcome : group.operands table symbol position left right = .ok (left', right')) :
    left'.SafeIn ctx ∧ right'.SafeIn ctx ∧ InGroup group left' right' := by
  obtain ⟨t, u, isSignature, left_eq, right_eq⟩ := OperatorGroup.operands_eq_ok outcome
  obtain ⟨left_promoted, rfl⟩ := left_safe.promote_type isSignature (by simp) left_eq
  obtain ⟨right_promoted, rfl⟩ := right_safe.promote_type isSignature (by simp) right_eq
  exact ⟨left_promoted, right_promoted, isSignature⟩

theorem toUnderlying (safe : e.SafeIn ctx) : e.toUnderlying.SafeIn ctx := by
  rw [Expr.toUnderlying]
  split
  next => exact safe
  next enum isEnum =>
    have core_eq := Ty.core_of_enum? isEnum
    have plain : enum.lifted = false := by
      have core_operand := Ty.isOperand_core safe.isOperand
      rw [core_eq] at core_operand
      simpa [Ty.isOperand] using core_operand
    have underlying : enum.underlyingType = .integral enum.underlying := by
      simp [EnumType.underlyingType, plain]
    rw [underlying]
    cases nullable : e.type.isNullable with
    | true =>
        refine safe.convert rfl ⟨fun _ => rfl, .inr (.inr ⟨?_, rfl, rfl⟩)⟩
        rw [core_eq]
        rfl
    | false =>
        have self := Ty.core_eq_self nullable
        refine safe.convert rfl ⟨fun admits => ?_, .inr (.inr ⟨?_, rfl, rfl⟩)⟩
        · rw [← self, core_eq] at admits
          cases admits
        · rw [core_eq]
          rfl

theorem integerBeside {left right : Expr} (left_safe : left.SafeIn ctx)
    (right_safe : right.SafeIn ctx) :
    (Expr.integerBeside left right).1.SafeIn ctx ∧
      (Expr.integerBeside left right).2.SafeIn ctx := by
  have read {e : Expr} {holds : Value → Bool} {n : Value}
      (isInteger : e.integerText?.filter holds = some n) :
      (Expr.ofValue .int32 n).SafeIn ctx := by
    obtain ⟨isText, -⟩ := Option.filter_eq_some_iff.mp isInteger
    obtain ⟨text, -, isText⟩ := Option.bind_eq_some_iff.mp isText
    obtain ⟨i, -, made⟩ := Option.bind_eq_some_iff.mp isText
    have kind := Value.ofInt?_kind (show Value.ofInt? .int32 i = some n from made)
    exact .constant rfl kind.conformsTo
  rw [Expr.integerBeside]
  split
  next n isInteger => exact ⟨read isInteger, right_safe⟩
  next =>
    split
    next n isInteger => exact ⟨left_safe, read isInteger⟩
    next => exact ⟨left_safe, right_safe⟩

end SafeIn

end Expr

end QueryTree
