import QueryTree.Proofs.Safety.Operand

/-!
# Operands that are tested for equality

Which types two operands of different types are promoted to when they are tested for being equal.
Narrow integers are widened to 32 bits, which changes no number; operands of different kinds are not
accepted.
-/

namespace QueryTree

namespace Ty

theorem isNumeric_core {t u : Ty} (cores : (t.core == u.core) = true) :
    t.isNumeric = u.isNumeric := by
  change Ty.same t.core u.core = true at cores
  unfold isNumeric
  cases t_core : t.core <;> cases u_core : u.core <;> simp_all [Ty.same]

theorem isEnum_core {t u : Ty} (cores : (t.core == u.core) = true) : t.isEnum = u.isEnum := by
  change Ty.same t.core u.core = true at cores
  unfold isEnum enum?
  cases t_core : t.core <;> cases u_core : u.core <;> simp_all [Ty.same]

theorem isValue_of_isEnum {t : Ty} (isEnum : t.isEnum = true) : t.isValue = true := by
  cases t with
  | enum | nullable => rfl
  | _ => cases isEnum

theorem isEnum_of_reference {t : Ty} (isReference : t.isValue = false) : t.isEnum = false := by
  cases isMember : t.isEnum with
  | false => rfl
  | true =>
      rw [isValue_of_isEnum isMember] at isReference
      cases isReference

theorem exists_core_eq {t : Ty} (isMember : t.isEnum = true) : ∃ enum, t.core = .enum enum := by
  obtain ⟨enum, isEnum⟩ := Option.isSome_iff_exists.mp isMember
  exact ⟨enum, Ty.core_of_enum? isEnum⟩

theorem isEnum_of_isSimple {t : Ty} (simple : t.isSimple = true) : t.isEnum = false := by
  cases t with
  | atom => rfl
  | nullable inner => cases inner <;> first | rfl | cases simple
  | _ => cases simple

theorem beq_false_of_isEnum {t u : Ty} (apart : t.isEnum ≠ u.isEnum) : (t == u) = false :=
  Bool.eq_false_iff.mpr fun same => apart (isEnum_same same)

/-- Two types are of one kind: they have the same values besides null, or both have numbers. -/
def SameKind (t u : Ty) : Prop :=
  (t.core == u.core) = true ∨ (t.isNumeric = true ∧ u.isNumeric = true)

theorem SameKind.symm {t u : Ty} (kind : t.SameKind u) : u.SameKind t :=
  kind.imp BEq.symm And.symm

theorem SameKind.trans {t u v : Ty} (first : t.SameKind u) (second : u.SameKind v) :
    t.SameKind v := by
  obtain cores | ⟨t_number, u_number⟩ := first
  · obtain cores' | ⟨u_number, v_number⟩ := second
    · exact .inl (BEq.trans cores cores')
    · exact .inr ⟨isNumeric_core cores ▸ u_number, v_number⟩
  · obtain cores' | ⟨-, v_number⟩ := second
    · exact .inr ⟨t_number, isNumeric_core cores' ▸ u_number⟩
    · exact .inr ⟨t_number, v_number⟩

/-- The members of an enumeration are of a kind of their own. -/
theorem not_sameKind_of_isEnum {t u : Ty} (isMember : t.isEnum = true)
    (noMember : u.isEnum = false) : ¬ t.SameKind u := by
  rintro (cores | ⟨isNumber, -⟩)
  · rw [isEnum_core cores, noMember] at isMember
    cases isMember
  · obtain ⟨enum, core⟩ := exists_core_eq isMember
    simp [isNumeric, core] at isNumber

/-- The references of each type are of a kind of their own. -/
theorem not_sameKind_of_references {t u : Ty} (t_reference : t.isValue = false)
    (u_reference : u.isValue = false) (differ : (t == u) = false) : ¬ t.SameKind u := by
  rintro (cores | ⟨isNumber, -⟩)
  · have core_self {t : Ty} (isReference : t.isValue = false) : t.core = t := by
      cases t with
      | nullable => cases isReference
      | _ => rfl
    rw [core_self t_reference, core_self u_reference, differ] at cores
    cases cores
  · cases t with
    | atom a => cases a <;> first | exact absurd isNumber (by decide) | cases t_reference
    | nullable => cases t_reference
    | _ => cases isNumber

/-- A type declares no implicit conversion. -/
def Undeclared (table : ClassTable) (t : Ty) : Prop :=
  ∀ m ∈ t.operators table, m.name ≠ "op_Implicit"

theorem hasDeclaredConversion_of_undeclared {table : ClassTable} {t u : Ty}
    (t_undeclared : t.Undeclared table) (u_undeclared : u.Undeclared table) :
    hasDeclaredConversion table t u false = false := by
  refine List.any_eq_false.mpr fun m isOperator => ?_
  have unnamed : m.name ≠ "op_Implicit" := by
    obtain own | own := List.mem_append.mp isOperator
    · exact t_undeclared m own
    · exact u_undeclared m own
  simp [unnamed]

/-- Only a class declares conversions. -/
theorem undeclared_of_class? {table : ClassTable} {t : Ty} (noClass : t.core.class? = none) :
    t.Undeclared table := by
  intro m isOperator
  unfold operators at isOperator
  split at isOperator
  next c isClass =>
    rw [isClass] at noClass
    cases noClass
  next => cases isOperator

theorem undeclared_of_isOperandType {table : ClassTable} {t : Ty}
    (isOperand : OperatorGroup.isOperandType t = true) : t.Undeclared table := by
  apply undeclared_of_class?
  cases t with
  | atom => rfl
  | nullable inner => cases inner <;> first | rfl | cases isOperand
  | _ => cases isOperand

/-- Without a declared conversion a type is compatible only with operand types that it widens to. -/
theorem widensTo_of_isCompatible {table : ClassTable} {t u : Ty}
    (undeclared : t.Undeclared table) (isOperand : OperatorGroup.isOperandType u = true)
    (compatible : isCompatible table t u = true) : t.core.widensTo u.core = true := by
  have unconverted : hasDeclaredConversion table t u false = false :=
    hasDeclaredConversion_of_undeclared undeclared (undeclared_of_isOperandType isOperand)
  obtain same | ⟨isReference, assignable⟩ | ⟨-, -, widens⟩ :=
    (isCompatible_iff_of_undeclared unconverted).mp compatible
  · exact widensTo_iff.mpr (.inl (core_same same))
  · obtain ⟨-, kind⟩ := (Bool.and_eq_true _ _).mp isOperand
    have isString : u = .string := by
      cases u with
      | atom a => cases a <;> simp_all [isValue, Atom.isValue, isString]
      | _ => simp_all [isString]
    subst isString
    cases isAssignable_iff.mp assignable with
    | same same => exact widensTo_iff.mpr (.inl (core_same (BEq.symm same)))
  · exact widens

theorem sameKind_of_widensTo {t u : Ty} (widens : t.core.widensTo u.core = true) :
    t.SameKind u := by
  obtain cores | ⟨a, b, t_core, u_core, widens⟩ := widensTo_iff.mp widens
  · exact .inl cores
  · obtain rfl | ⟨a_number, b_number⟩ := Atom.widensTo_isNumeric widens
    · exact .inl (by rw [t_core, u_core]; exact BEq.rfl)
    · exact .inr ⟨by simpa [isNumeric, t_core] using a_number,
        by simpa [isNumeric, u_core] using b_number⟩

end Ty

namespace Expr

variable {table : ClassTable} {e promoted : Expr} {t : Ty}

/-- Whether an expression is null as it is written. -/
def isNullConstant (e : Expr) : Bool := e.value?.any (·.isNull)

theorem eq_nullLiteral (isNull : e.isUntypedNull = true) : e = nullLiteral := by
  obtain ⟨isNull, isObject⟩ := (Bool.and_eq_true _ _).mp isNull
  unfold isNullLiteral at isNull
  split at isNull
  next type text _ =>
    have untyped : type = Ty.object := Ty.eq_of_same rfl isObject
    rw [beq_iff_eq.mp isNull, untyped]
    rfl
  next => cases isNull

theorem isUntypedNull_of_written (isWritten : e.isNullConstant = false) :
    e.isUntypedNull = false := by
  cases isNull : e.isUntypedNull with
  | false => rfl
  | true =>
      rw [eq_nullLiteral isNull] at isWritten
      cases isWritten

/-- A literal is read again only as a value of its kind. -/
theorem sameKind_of_reread? {source target : Ty} {text : String} {value : Value}
    (noEnum : target.isEnum = false) (read : reread? source text target.core = some value) :
    source.SameKind target := by
  have number {value : Value} (read : Literal.number? text target.core = some value) :
      target.isNumeric = true := by
    unfold Literal.number? at read
    split at read
    any_goals simp_all [Ty.isNumeric, Atom.isNumeric, Ty.isEnum, Ty.enum?]
  cases reread read with
  | integer isInteger read => exact .inr ⟨isInteger ▸ rfl, number read⟩
  | real isReal _ read => exact .inr ⟨isReal ▸ rfl, number read⟩
  | member _ isEnum => simp [Ty.isEnum, Ty.enum?, isEnum] at noEnum

/-- An expression that is not written null is promoted only to an operand type of its kind. -/
theorem sameKind_of_promote? (isWritten : e.isNullConstant = false)
    (undeclared : e.type.Undeclared table) (isOperand : OperatorGroup.isOperandType t = true)
    (outcome : e.promote? table .argument t = some promoted) : e.type.SameKind t := by
  obtain ⟨-, same⟩ | ⟨_, _, constant, -⟩ | ⟨-, compatible⟩ | ⟨-, -, -, compatible⟩ :=
    promote?_cases outcome
  · exact .inl (Ty.core_same same)
  · cases promotedConstant constant with
    | null => cases isWritten
    | reread _ read =>
        exact sameKind_of_reread? (Ty.isEnum_of_isSimple ((Bool.and_eq_true _ _).mp isOperand).1)
          read
  · exact Ty.sameKind_of_widensTo (Ty.widensTo_of_isCompatible undeclared isOperand compatible)
  · exact Ty.sameKind_of_widensTo (Ty.widensTo_of_isCompatible undeclared isOperand compatible)

end Expr

namespace OperatorGroup

variable {table : ClassTable} {symbol : String} {position : Nat} {left right : Expr}

/-- Both operands that are compared are of one type. -/
theorem pair_of_signature {group : OperatorGroup} (alike : group.allPairs (· == ·) = true)
    {signature : List Ty} (isSignature : signature ∈ group.signatures) :
    ∃ t, signature = [t, t] := by
  have same := List.all_eq_true.mp alike _ isSignature
  split at same
  next t u =>
    have isOperand : isOperandType u = true := isOperandType_of_mem group isSignature (by simp)
    exact ⟨u, by rw [Ty.eq_of_same ((Bool.and_eq_true _ _).mp isOperand).1 same]⟩
  next => cases same

/-- Both operands that are tested for equality are promoted to one type. -/
theorem equality_operands_eq_ok {left' right' : Expr}
    (outcome : equality.operands table symbol position left right = .ok (left', right')) :
    ∃ t, isOperandType t = true ∧ left.promote? table .argument t = some left' ∧
      right.promote? table .argument t = some right' := by
  obtain ⟨t, u, isSignature, left_eq, right_eq⟩ := operands_eq_ok outcome
  obtain ⟨_, same⟩ := pair_of_signature rfl isSignature
  obtain ⟨rfl, same⟩ := List.cons.inj same
  obtain ⟨rfl, -⟩ := List.cons.inj same
  exact ⟨_, isOperandType_of_mem equality isSignature (by simp), left_eq, right_eq⟩

/-- Which operands are accepted does not depend on how the operator is written. -/
theorem operands_written (group : OperatorGroup) (symbol symbol' : String)
    (position position' : Nat) :
    (∃ pair, group.operands table symbol position left right = .ok pair ∧
      group.operands table symbol' position' left right = .ok pair) ∨
      ∃ error error', group.operands table symbol position left right = .error error ∧
        group.operands table symbol' position' left right = .error error' := by
  simp only [operands]
  split
  next => exact .inl ⟨_, rfl, rfl⟩
  next => exact .inr ⟨_, _, rfl, rfl⟩

/-- Operands of different kinds are not accepted. -/
theorem equality_operands_refused (symbol : String) (position : Nat)
    (left_written : left.isNullConstant = false) (right_written : right.isNullConstant = false)
    (left_undeclared : left.type.Undeclared table) (right_undeclared : right.type.Undeclared table)
    (apart : ¬ left.type.SameKind right.type) :
    ∃ error, equality.operands table symbol position left right = .error error := by
  cases outcome : equality.operands table symbol position left right with
  | error error => exact ⟨error, rfl⟩
  | ok operands =>
      obtain ⟨t, isOperand, left_eq, right_eq⟩ := equality_operands_eq_ok outcome
      have left_kind := Expr.sameKind_of_promote? left_written left_undeclared isOperand left_eq
      have right_kind := Expr.sameKind_of_promote? right_written right_undeclared isOperand right_eq
      exact absurd (left_kind.trans right_kind.symm) apart

/-- The signature of two operands of one type is chosen if it accepts them and is better than those
of all other types that accept both. -/
theorem operands_best {group : OperatorGroup} (alike : group.allPairs (· == ·) = true) {t : Ty}
    {left' right' : Expr} (isSignature : [t, t] ∈ group.signatures)
    (left_eq : left.promote? table .argument t = some left')
    (right_eq : right.promote? table .argument t = some right')
    (better : ∀ u, [u, u] ∈ group.signatures → (t == u) = false →
      (left.promote? table .argument u).isSome = true →
      (right.promote? table .argument u).isSome = true →
      Resolution.isBetter table [left, right] [t, t] [u, u] = true) :
    group.operands table symbol position left right = .ok (left', right') := by
  have fits : Expr.promoteAll? table .argument [t, t] [left, right] = some [left', right'] := by
    simp [Expr.promoteAll?, left_eq, right_eq]
  rw [operands, resolve_best isSignature fits]
  intro other member differs accepted
  obtain ⟨u, rfl⟩ := pair_of_signature alike member
  simp only [Resolution.accepts, List.zipWith_cons_cons, List.zipWith_nil_left, List.all_cons,
    List.all_nil, Bool.and_true, Bool.and_eq_true] at accepted
  have apart : (t == u) = false := by simpa [Ty.sameAll, BEq.beq] using differs
  exact better u member apart accepted.2.1 accepted.2.2

/-- A text beside null is tested as a text, with null taken for a text. -/
theorem equality_operands_text (table : ClassTable) (symbol : String) (position : Nat)
    (left_type : left.type = .string) :
    equality.operands table symbol position left .nullLiteral = .ok (left, .nullOf .string) ∧
      equality.operands table symbol position .nullLiteral left = .ok (.nullOf .string, left) := by
  have isSignature : [.string, .string] ∈ equality.signatures := by simp [signatures]
  have left_eq : left.promote? table .argument .string = some left := by
    rw [Expr.promote?, left_type]
    rfl
  have right_eq : Expr.nullLiteral.promote? table .argument .string = some (.nullOf .string) := rfl
  have wins {u : Ty} (apart : (Ty.string == u) = false) :
      compareConversions table left.type .string u = .lt := by
    rw [left_type, compareConversions, apart]
    rfl
  have ties {u : Ty} (member : [u, u] ∈ equality.signatures) :
      compareConversions table Expr.nullLiteral.type .string u = .eq := by
    have all : equality.allPairs (fun u _ =>
        compareConversions table .object .string u == .eq) = true := rfl
    exact beq_iff_eq.mp (List.all_eq_true.mp all _ member)
  constructor
  · refine operands_best rfl isSignature left_eq right_eq fun u member apart _ _ => ?_
    simp [Resolution.isBetter, Resolution.conversionOrders, wins apart, ties member]
  · refine operands_best rfl isSignature right_eq left_eq fun u member apart _ _ => ?_
    simp [Resolution.isBetter, Resolution.conversionOrders, wins apart, ties member]

end OperatorGroup

end QueryTree
