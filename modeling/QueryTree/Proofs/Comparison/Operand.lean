import QueryTree.Proofs.Comparison.Constant
import QueryTree.Proofs.Comparison.Side
import QueryTree.Proofs.Membership.Item
import QueryTree.Proofs.Order.Key

/-!
# Operands of comparisons from either side

What the operands of a comparison are brought to if they change sides.
-/

namespace QueryTree

/-- A type declares neither operators nor conversions. -/
def Ty.DeclaresNothing (table : ClassTable) (t : Ty) : Prop := t.operators table = []

theorem Ty.hasDeclaredConversion_of_declaresNothing {table : ClassTable} {t u : Ty}
    (plain : t.DeclaresNothing table) (plain' : u.DeclaresNothing table) (explicit : Bool) :
    hasDeclaredConversion table t u explicit = false := by
  rw [hasDeclaredConversion, plain, plain']
  rfl

namespace Expr

variable {table : ClassTable} {op op' : Token} {e e' a b a' b' : Expr}

theorem isNullLiteral_eq_false (isVariable : e.isConstant = false) : e.isNullLiteral = false := by
  cases e with
  | constant => cases isVariable
  | _ => rfl

theorem Twin.isUntypedNull_eq (twin : e.Twin e') : e.isUntypedNull = e'.isUntypedNull := by
  cases twin with
  | same => rfl
  | alike variable_left variable_right _ _ =>
      rw [isUntypedNull, isUntypedNull, isNullLiteral_eq_false variable_left,
        isNullLiteral_eq_false variable_right]
      rfl

/-- A conversion to a reference type leaves all values as they are. -/
theorem evaluate_convert_reference {type : Ty} (isReference : type.isValue = false) (e : Expr) :
    (convert type e).evaluate = e.evaluate := by
  funext ctx
  have unchanged (v : Value) : v.convertTo type = .ok v := by
    have core : type.core.isNumberLike = false := by
      cases type with
      | atom a => cases a <;> first | rfl | cases isReference
      | nullable => cases isReference
      | enum => cases isReference
      | _ => rfl
    rw [Value.convertTo_eq, core]
    simp
  simp only [evaluate, unchanged]
  cases e.evaluate ctx <;> rfl

section References

/-- Two pairs of operands with the same outcomes, with the sides changed. -/
def Exchanged (first second : Expr × Expr) : Prop :=
  first.1.evaluate = second.2.evaluate ∧ first.2.evaluate = second.1.evaluate

theorem Crossed.exchanged {first second : Expr × Expr} (crossed : Crossed first second) :
    Exchanged first second :=
  ⟨crossed.1.evaluate_eq, crossed.2.evaluate_eq⟩

/-- References of different types, as identifiers are of one type. -/
theorem references_of_differ (references : comparesReferences a b = true)
    (differ : (a.type == b.type) = false) : a.type.isValue = false ∧ b.type.isValue = false := by
  obtain both | guids := (Bool.or_eq_true _ _).mp references
  · simpa using both
  · obtain ⟨a_guid, b_guid⟩ := (Bool.and_eq_true _ _).mp guids
    rw [BEq.trans a_guid (BEq.symm b_guid)] at differ
    cases differ

/-- References that change sides keep their values, whichever of them is converted. -/
theorem compareReferences_sides (left : a.Twin a') (right : b.Twin b')
    (left_plain : a.type.DeclaresNothing table) (right_plain : b.type.DeclaresNothing table)
    (references : comparesReferences a b = true) :
    Option.Rel Exchanged (compareReferences table op a b).toOption
      (compareReferences table op' b' a').toOption := by
  simp only [compareReferences, ← left.type_eq, ← right.type_eq, ← left.isUntypedNull_eq,
    ← right.isUntypedNull_eq,
    Ty.hasDeclaredConversion_of_declaresNothing left_plain right_plain,
    Ty.hasDeclaredConversion_of_declaresNothing right_plain left_plain, Bool.or_false]
  have symm : (b.type == a.type) = (a.type == b.type) := BEq.comm
  rw [symm]
  cases same : a.type == b.type with
  | true => exact .some ⟨left.evaluate_eq, right.evaluate_eq⟩
  | false =>
      obtain ⟨a_reference, b_reference⟩ := references_of_differ references same
      have keeps_a : (convert b.type a').evaluate = a.evaluate :=
        (evaluate_convert_reference b_reference a').trans left.evaluate_eq.symm
      simp only [Bool.false_eq_true, if_false]
      cases b_null : b.isUntypedNull <;> cases a_null : a.isUntypedNull
      case true.true =>
          rw [eq_nullLiteral a_null, eq_nullLiteral b_null] at same
          cases same
      case true.false => exact .some ⟨left.evaluate_eq, rfl⟩
      case false.true => exact .some ⟨rfl, right.evaluate_eq⟩
      case false.false =>
          cases a.type.isAssignable table b.type <;> cases b.type.isAssignable table a.type
          case false.false => exact .none
          case false.true => exact .some ⟨(left.convert b.type).evaluate_eq, right.evaluate_eq⟩
          case true.false => exact .some ⟨left.evaluate_eq, (right.convert a.type).evaluate_eq⟩
          case true.true =>
              exact .some ⟨keeps_a.symm,
                (evaluate_convert_reference a_reference b).trans right.evaluate_eq⟩

end References

section Values

theorem Twin.text?_eq (twin : e.Twin e') : e.text? = e'.text? := by
  rw [text?, text?, twin.value?_eq]

theorem Twin.readText?_eq (twin : e.Twin e') (target : Ty) (position position' : Nat) :
    (e.readText? target position).toOption = (e'.readText? target position').toOption := by
  unfold readText?
  rw [twin.text?_eq]
  split
  next => rfl
  next => split <;> rfl

/-- Of two operands at most one is a text that may be a value of the type of the other one. -/
theorem unreadable_left_or_right (left_proper : a.Proper) :
    b.Unreadable a.type ∨ a.Unreadable b.type := by
  cases left_text : a.text? with
  | none => exact .inr (unreadable_of_text? left_text)
  | some text =>
      refine .inl fun _ _ => ?_
      rw [left_proper.text text left_text]
      rfl

/-- What a comparison of values is made of, given what is read of each operand as a value of the
type of the other one, and what the operands are promoted to. -/
def comparedValues (a b : Expr) (right left : Option (Option Expr))
    (promoted : Option (Expr × Expr)) : Option (Expr × Expr) :=
  right.bind fun
    | some right => some (a, right)
    | none => left.bind fun
      | some left => some (left, b)
      | none => promoted

theorem compareValues_toOption {operator : BinaryOp} (plain : a.type.DeclaresNothing table) :
    (compareValues table operator op a b).toOption.map (fun c => (c.left, c.right)) =
      comparedValues a b (b.readText? a.type op.position).toOption
        (a.readText? b.type op.position).toOption
        ((if operator.isEquality then OperatorGroup.equality else .relational).operands table
          op.text op.position a b).toOption := by
  have noMethod : hasOperator table a.type operator = false := by
    rw [hasOperator, plain]
    rfl
  rw [compareValues, noMethod, Bool.and_false]
  cases b.readText? a.type op.position with
  | error => rfl
  | ok right =>
      cases right with
      | some right => rfl
      | none =>
          cases a.readText? b.type op.position with
          | error => rfl
          | ok left =>
              cases left with
              | some left => rfl
              | none =>
                  change ((OperatorGroup.operands _ _ _ _ _ _).bind _).toOption.map _ =
                    (OperatorGroup.operands _ _ _ _ _ _).toOption
                  cases OperatorGroup.operands table
                    (if operator.isEquality then OperatorGroup.equality else .relational) op.text
                    op.position a b <;> rfl

/-- Values that change sides are brought to the same. -/
theorem compareValues_sides {operator operator' : BinaryOp}
    (same : operator'.isEquality = operator.isEquality) (left : a.Twin a') (right : b.Twin b')
    (left_plain : a.type.DeclaresNothing table) (right_plain : b.type.DeclaresNothing table)
    (left_proper : a.Proper) :
    Option.Rel Crossed
      ((compareValues table operator op a b).toOption.map fun c => (c.left, c.right))
      ((compareValues table operator' op' b' a').toOption.map fun c => (c.left, c.right)) := by
  rw [compareValues_toOption left_plain, compareValues_toOption (right.type_eq ▸ right_plain), same,
    ← left.type_eq, ← right.type_eq, ← right.readText?_eq a.type op.position op'.position,
    ← left.readText?_eq b.type op.position op'.position]
  have promoted : Option.Rel Crossed
      ((if operator.isEquality then OperatorGroup.equality else .relational).operands table
        op.text op.position a b).toOption
      ((if operator.isEquality then OperatorGroup.equality else .relational).operands table
        op'.text op'.position b' a').toOption := by
    split
    next =>
      exact OperatorGroup.operands_sides (fun _ => OperatorGroup.pair_of_signature rfl) left right
    next =>
      exact OperatorGroup.operands_sides (fun _ => OperatorGroup.pair_of_signature rfl) left right
  obtain unreadable | unreadable := unreadable_left_or_right (b := b) left_proper
  · rw [unreadable.readText?]
    cases (a.readText? b.type op.position).toOption with
    | none => exact .none
    | some read =>
        cases read with
        | none => exact promoted
        | some read => exact .some ⟨.same read, right⟩
  · rw [unreadable.readText?]
    cases (b.readText? a.type op.position).toOption with
    | none => exact .none
    | some read =>
        cases read with
        | none => exact promoted
        | some read => exact .some ⟨left, .same read⟩

end Values

end Expr

namespace Ty

variable {table : ClassTable} {t u : Ty}

/-- The members of an enumeration are references only as values of the type of all values. -/
theorem eq_object_of_isAssignable_member (isMember : t.isEnum = true)
    (isReference : u.isValue = false) (assignable : u.isAssignable table t = true) :
    u = .object := by
  cases isAssignable_iff.mp assignable with
  | same same =>
      rw [isValue_same same, isValue_of_isEnum isMember] at isReference
      cases isReference
  | object => rfl
  | ancestor | dynamic => cases isMember
  | sequence elements =>
      cases t with
      | enum | nullable => cases elements
      | _ => cases isMember

/-- Types that differ only in whether they admit null. -/
theorem isNullable_ne_of_cores (cores : (t.core == u.core) = true) (differ : (t == u) = false) :
    t.isNullable ≠ u.isNullable := by
  intro alike
  cases t_null : t.isNullable with
  | false =>
      rw [core_eq_self t_null, core_eq_self (alike ▸ t_null), differ] at cores
      cases cores
  | true =>
      cases t with
      | nullable =>
          cases u with
          | nullable => exact absurd cores (Bool.eq_false_iff.mp differ)
          | _ => cases alike
      | _ => cases t_null

/-- Beside the types of enumerations an implicit conversion only goes to the type of all values, or
adds null. -/
theorem isCompatible_member_cases (plain : t.DeclaresNothing table)
    (plain' : u.DeclaresNothing table) (isMember : t.isEnum = true ∨ u.isEnum = true)
    (differ : (t == u) = false) (compatible : t.isCompatible table u = true) :
    (t.isEnum = true ∧ u = .object) ∨
      (t.isEnum = true ∧ (t.core == u.core) = true ∧ t.isNullable = false ∧
        u.isNullable = true) := by
  simp only [isCompatible, differ, hasDeclaredConversion_of_declaresNothing plain plain',
    Bool.or_false, Bool.false_eq_true, if_false] at compatible
  split at compatible
  next isReference =>
    have isReference : u.isValue = false := by simpa using isReference
    have isMember : t.isEnum = true :=
      isMember.resolve_right (by simp [isEnum_of_reference isReference])
    exact .inl ⟨isMember, eq_object_of_isAssignable_member isMember isReference compatible⟩
  next =>
    split at compatible
    next => cases compatible
    next keepsNull =>
      obtain cores | ⟨a, b, t_core, u_core, -⟩ := widensTo_iff.mp compatible
      · have members := isEnum_core cores
        have t_member : t.isEnum = true := isMember.elim id members.trans
        have apart := isNullable_ne_of_cores cores differ
        refine .inr ⟨t_member, cores, ?_⟩
        cases t_null : t.isNullable <;> cases u_null : u.isNullable <;> simp_all
      · simp [isEnum, enum?, t_core, u_core] at isMember

end Ty

namespace Expr

variable {table : ClassTable} {op op' : Token} {e promoted a b a' b' : Expr} {target : Ty}

/-- Wherever an expression has a value, another one has a value that is null if and only if it
is. -/
def KeepsNull (e promoted : Expr) : Prop :=
  ∀ ctx v, e.evaluate ctx = .ok v → ∃ w, promoted.evaluate ctx = .ok w ∧ w.isNull = v.isNull

theorem keepsNull_constant {type : Ty} {v w : Value} {text? text'? : Option String}
    (alike : w.isNull = v.isNull) :
    KeepsNull (constant type v text?) (constant target w text'?) := by
  rintro ctx _ ⟨⟩
  exact ⟨w, rfl, alike⟩

theorem keepsNull_of_evaluate_eq (same : promoted.evaluate = e.evaluate) :
    e.KeepsNull promoted := by
  intro ctx v value
  exact ⟨v, same ▸ value, rfl⟩

/-- How an operand is promoted to exactly the type of another one, where one of them is a member of
an enumeration: null stays null, a member becomes a value of the type of all values or of its
enumeration with null, and a literal is read again as a member. -/
inductive PromotedBeside (target : Ty) (e : Expr) : Expr → Prop where
  | null (isNull : e.isNullConstant = true) (admits : target.admitsNull = true) :
      PromotedBeside target e (nullOf target)
  | boxed (isMember : e.type.isEnum = true) (isObject : target = .object) :
      PromotedBeside target e (convert target e)
  | lifted (isMember : e.type.isEnum = true) (cores : (e.type.core == target.core) = true)
      (excludes : e.type.isNullable = false) (admits : target.isNullable = true) :
      PromotedBeside target e (convert target e)
  | literal {promoted : Expr} (noMember : e.type.isEnum = false) (noObject : e.type ≠ .object)
      (target_member : target.isEnum = true) (keeps : e.KeepsNull promoted) :
      PromotedBeside target e promoted

theorem reread?_source {source : Ty} {text : String} {value : Value}
    (read : reread? source text target = some value) :
    source.isEnum = false ∧ source ≠ .object := by
  cases reread read with
  | integer isSource | real isSource | member isSource =>
      subst isSource
      exact ⟨rfl, nofun⟩

theorem promotedBeside (plain : e.type.DeclaresNothing table)
    (plain' : target.DeclaresNothing table)
    (isMember : e.type.isEnum = true ∨ target.isEnum = true)
    (differ : (e.type == target) = false)
    (outcome : e.promote? table .exactly target = some promoted) :
    PromotedBeside target e promoted := by
  obtain ⟨-, same⟩ | ⟨_, _, isConstant, -⟩ | ⟨rfl, compatible⟩ | ⟨-, -, loose, -⟩ :=
    promote?_cases outcome
  · rw [differ] at same
    cases same
  · cases promotedConstant isConstant with
    | null admits => exact .null rfl admits
    | @reread source value _ _ notNull read =>
        obtain ⟨noMember, noObject⟩ := reread?_source read
        refine .literal noMember noObject (isMember.resolve_left (by simp [type, noMember])) ?_
        have isWritten : value.isNull = false := by
          cases value <;> first | rfl | exact absurd rfl notNull
        exact keepsNull_constant ((reread?_kind read).1.trans isWritten.symm)
  · obtain ⟨isMember, isObject⟩ | ⟨isMember, cores, excludes, admits⟩ :=
      Ty.isCompatible_member_cases plain plain' isMember differ compatible
    · exact .boxed isMember isObject
    · exact .lifted isMember cores excludes admits
  · cases loose

theorem evaluate_isNullConstant (isNull : e.isNullConstant = true) (ctx : EvalContext) :
    e.evaluate ctx = .ok .null := by
  cases e with
  | constant type value literal? => exact congrArg Except.ok (Value.eq_null_of_isNull isNull)
  | _ => cases isNull

theorem keepsNull_null {type : Ty} (isNull : e.isNullConstant = true) :
    e.KeepsNull (nullOf type) := by
  intro ctx v value
  rw [evaluate_isNullConstant isNull] at value
  exact ⟨.null, rfl, Except.ok.inj value ▸ rfl⟩

theorem keepsNull_boxed (isObject : target = .object) : e.KeepsNull (convert target e) :=
  keepsNull_of_evaluate_eq (evaluate_convert_reference (isObject ▸ rfl) e)

/-- One of two operands is null, taken for null of the type of the other one as well, and this one
is taken for a value that is null if and only if it is. -/
def NullBeside (a promotedA b promotedB : Expr) : Prop :=
  a.isNullConstant = true ∧ promotedA.isNullConstant = true ∧ b.KeepsNull promotedB

/-- If each of two operands is promoted to the type of the other one, then one of them is null. -/
theorem null_of_both_promoted {promotedA promotedB : Expr}
    (left : PromotedBeside b.type a promotedA) (right : PromotedBeside a.type b promotedB) :
    NullBeside a promotedA b promotedB ∨ NullBeside b promotedB a promotedA := by
  cases left with
  | null a_null admits =>
      refine .inl ⟨a_null, rfl, ?_⟩
      cases right with
      | null b_null => exact keepsNull_null b_null
      | boxed _ isObject => exact keepsNull_boxed isObject
      | lifted b_member _ excludes =>
          simp [Ty.admitsNull, Ty.isValue_of_isEnum b_member, excludes] at admits
      | literal _ _ _ keeps => exact keeps
  | boxed a_member b_object =>
      cases right with
      | null b_null => exact .inr ⟨b_null, rfl, keepsNull_boxed b_object⟩
      | boxed b_member => exact absurd b_member (by rw [b_object]; decide)
      | lifted b_member => exact absurd b_member (by rw [b_object]; decide)
      | literal _ noObject => exact absurd b_object noObject
  | lifted a_member cores excludes admits =>
      have b_member := Ty.isEnum_core cores ▸ a_member
      cases right with
      | null _ a_admits => simp [Ty.admitsNull, Ty.isValue_of_isEnum a_member, excludes] at a_admits
      | boxed _ a_object => exact absurd a_member (by rw [a_object]; decide)
      | lifted _ _ b_excludes => simp [admits] at b_excludes
      | literal b_noMember => simp [b_member] at b_noMember
  | literal noMember noObject b_member keeps =>
      cases right with
      | null b_null => exact .inr ⟨b_null, rfl, keeps⟩
      | boxed _ a_object => exact absurd a_object noObject
      | lifted _ cores => simp [Ty.isEnum_core cores, noMember] at b_member
      | literal b_noMember => simp [b_member] at b_noMember

section Members

/-- Constants of two enumerations. -/
structure MembersApart (a b : Expr) : Prop where
  left_constant : a.isConstant = true
  right_constant : b.isConstant = true
  left_member : a.type.isEnum = true
  right_member : b.type.isEnum = true
  apart : (a.type.core == b.type.core) = false

/-- Constants of two enumerations, none of which is promoted to the type of the other one. -/
structure Unaligned (table : ClassTable) (a b : Expr) : Prop extends MembersApart a b where
  left_kept : a.promote? table .exactly b.type = none
  right_kept : b.promote? table .exactly a.type = none

theorem MembersApart.symm (apart : MembersApart a b) : MembersApart b a :=
  ⟨apart.right_constant, apart.left_constant, apart.right_member, apart.left_member,
    BEq.comm.trans apart.apart⟩

theorem MembersApart.differ (apart : MembersApart a b) : (a.type == b.type) = false :=
  Bool.eq_false_iff.mpr fun same =>
    Bool.eq_false_iff.mp apart.apart (Ty.core_same same)

theorem Unaligned.symm (unaligned : Unaligned table a b) : Unaligned table b a :=
  ⟨unaligned.toMembersApart.symm, unaligned.right_kept, unaligned.left_kept⟩

theorem enumConstant_toOption {type : Ty} (same : e.value? = promoted.value?)
    (position position' : Nat) : (enumConstant type position e).toOption =
      (enumConstant type position' promoted).toOption := by
  cases isEnum : type.enum? with
  | none => simp only [enumConstant, isEnum]; rfl
  | some enum =>
      rw [enumConstant_eq isEnum, enumConstant_eq isEnum, memberOf?, memberOf?, same]
      split <;> rfl

/-- What two operands are brought to of which one is of an enumeration type, and what they are
brought to if they change sides. -/
inductive Realigned (table : ClassTable) (a b b' : Expr) (first second : Option (Expr × Expr)) :
    Prop where
  /-- They are brought to the same. -/
  | crossed (crossed : Option.Rel Crossed first second)
  /-- One of them is null, and both are promoted. -/
  | null {promotedA promotedA' promotedB : Expr}
      (left : a.promote? table .exactly b.type = some promotedA)
      (right : b.promote? table .exactly a.type = some promotedB)
      (null : NullBeside a promotedA b promotedB ∨ NullBeside b promotedB a promotedA)
      (twin : promotedA.Twin promotedA') (first : first = some (a, promotedB))
      (second : second = some (b', promotedA'))

/-- Two operands of which neither is promoted: a constant is taken for a member. -/
def takenForMember (position : Nat) (a b : Expr) : Option (Expr × Expr) :=
  if a.type.isEnum && b.isConstant then
    (enumConstant a.type position b).toOption.map fun b => (a, b)
  else if b.type.isEnum && a.isConstant then
    (enumConstant b.type position a).toOption.map fun a => (a, b)
  else none

theorem promote?_of_lifted (cores : (e.type.core == target.core) = true)
    (excludes : e.type.isNullable = false) (admits : target.isNullable = true) :
    e.promote? table .exactly target ≠ none := by
  have isValue : target.isValue = true := by
    cases target with
    | nullable => rfl
    | _ => cases admits
  have compatible : e.type.isCompatible table target = true := by
    simp [Ty.isCompatible, isValue, excludes, Ty.widensTo_iff.mpr (.inl cores)]
  have byType : promoteByType? table .exactly target e = some (convert target e) := by
    rw [promoteByType?, if_pos compatible, if_pos (by rw [isValue]; rfl)]
  rw [promote?, byType]
  split
  next => exact Option.some_ne_none _
  next => cases promoteConstant? target e <;> exact Option.some_ne_none _

/-- If neither of two operands is promoted to the type of the other one, then their types differ in
more than null. -/
theorem promote?_of_cores (cores : (a.type.core == b.type.core) = true)
    (differ : (a.type == b.type) = false) (left : a.promote? table .exactly b.type = none)
    (right : b.promote? table .exactly a.type = none) : False := by
  have apart := Ty.isNullable_ne_of_cores cores differ
  cases a_null : a.type.isNullable with
  | false =>
      have b_null : b.type.isNullable = true := by simpa [a_null] using apart.symm
      exact promote?_of_lifted cores a_null b_null left
  | true =>
      have b_null : b.type.isNullable = false := by simpa [a_null] using apart.symm
      exact promote?_of_lifted (BEq.symm cores) b_null a_null right

theorem Twin.eq_of_isConstant (twin : e.Twin e') (isConstant : e.isConstant = true) : e' = e := by
  cases twin with
  | same => rfl
  | alike isVariable _ _ _ =>
      rw [isVariable] at isConstant
      cases isConstant

theorem takenForMember_sides (left : a.Twin a') (right : b.Twin b') (position position' : Nat)
    (aligned : (a.type.isEnum && b.isConstant && b.type.isEnum && a.isConstant) = false) :
    Option.Rel Crossed (takenForMember position a b) (takenForMember position' b' a') := by
  have constantA : a'.isConstant = a.isConstant := by rw [isConstant, isConstant, left.value?_eq]
  have constantB : b'.isConstant = b.isConstant := by rw [isConstant, isConstant, right.value?_eq]
  have memberA : (enumConstant b.type position a).toOption =
      (enumConstant b.type position' a').toOption :=
    enumConstant_toOption left.value?_eq position position'
  have memberB : (enumConstant a.type position b).toOption =
      (enumConstant a.type position' b').toOption :=
    enumConstant_toOption right.value?_eq position position'
  simp only [takenForMember, constantA, constantB, ← left.type_eq, ← right.type_eq]
  cases namesB : a.type.isEnum && b.isConstant with
  | true =>
      cases namesA : b.type.isEnum && a.isConstant with
      | true => simp [namesA, namesB] at aligned
      | false =>
          simp only [if_true, Bool.false_eq_true, if_false, ← memberB]
          cases (enumConstant a.type position b).toOption with
          | none => exact .none
          | some member => exact .some ⟨left, .same member⟩
  | false =>
      cases namesA : b.type.isEnum && a.isConstant with
      | true =>
          simp only [if_true, Bool.false_eq_true, if_false, ← memberA]
          cases (enumConstant b.type position a).toOption with
          | none => exact .none
          | some member => exact .some ⟨.same member, right⟩
      | false => exact .none

/-- Two operands of different types, one of them promoted, the right one if it can be. -/
def onePromoted (a b : Expr) (promotedA promotedB : Option Expr)
    (otherwise : Option (Expr × Expr)) : Option (Expr × Expr) :=
  match promotedB, promotedA with
  | some promotedB, _ => some (a, promotedB)
  | none, some promotedA => some (promotedA, b)
  | none, none => otherwise

theorem alignEnums_toOption (differ : (a.type == b.type) = false) :
    (alignEnums table op a b).toOption =
      onePromoted a b (a.promote? table .exactly b.type) (b.promote? table .exactly a.type)
        (takenForMember op.position a b) := by
  rw [alignEnums, differ]
  simp only [Bool.false_eq_true, if_false]
  cases b.promote? table .exactly a.type with
  | some promotedB => rfl
  | none =>
      cases a.promote? table .exactly b.type with
      | some promotedA => rfl
      | none =>
          simp only [onePromoted, takenForMember]
          split
          next => cases enumConstant a.type op.position b <;> rfl
          next =>
            split
            next => cases enumConstant b.type op.position a <;> rfl
            next => rfl

/-- A constant of another enumeration is taken for the member with the same number. -/
theorem alignEnums_unaligned (unaligned : Unaligned table a b) :
    (alignEnums table op a b).toOption =
      (enumConstant a.type op.position b).toOption.map fun b => (a, b) := by
  rw [alignEnums_toOption unaligned.differ, unaligned.left_kept, unaligned.right_kept, onePromoted,
    takenForMember, unaligned.left_member, unaligned.right_constant]
  rfl

/-- Other operands that change sides are brought to the same, unless one of them is null. -/
theorem alignEnums_sides (left : a.Twin a') (right : b.Twin b')
    (left_plain : a.type.DeclaresNothing table) (right_plain : b.type.DeclaresNothing table)
    (isMember : a.type.isEnum = true ∨ b.type.isEnum = true) (aligned : ¬ Unaligned table a b) :
    Realigned table a b b' (alignEnums table op a b).toOption
      (alignEnums table op' b' a').toOption := by
  have symm : (b'.type == a'.type) = (a.type == b.type) := by
    rw [← left.type_eq, ← right.type_eq, BEq.comm]
  cases same : a.type == b.type with
  | true =>
      rw [alignEnums_of_same same, alignEnums_of_same (symm.trans same)]
      exact .crossed (.some ⟨left, right⟩)
  | false =>
      rw [alignEnums_toOption same, alignEnums_toOption (symm.trans same), ← left.type_eq,
        ← right.type_eq]
      have promotesA := @Twin.promote? table .exactly a a' b.type left
      have promotesB := @Twin.promote? table .exactly b b' a.type right
      generalize outcomeA : a.promote? table .exactly b.type = promotedA,
        a'.promote? table .exactly b.type = promotedA' at promotesA ⊢
      generalize outcomeB : b.promote? table .exactly a.type = promotedB,
        b'.promote? table .exactly a.type = promotedB' at promotesB ⊢
      have symm : (b.type == a.type) = false := BEq.comm.trans same
      cases promotesA with
      | some twinA =>
          cases promotesB with
          | some twinB =>
              -- each text keeps its left operand, so that the pairs are not the same exchanged
              exact .null outcomeA outcomeB (null_of_both_promoted
                (promotedBeside left_plain right_plain isMember same outcomeA)
                (promotedBeside right_plain left_plain isMember.symm symm outcomeB)) twinA rfl rfl
          | none => exact .crossed (.some ⟨twinA, right⟩)
      | none =>
          cases promotesB with
          | some twinB => exact .crossed (.some ⟨left, twinB⟩)
          | none =>
              refine .crossed (takenForMember_sides left right op.position op'.position ?_)
              refine Bool.eq_false_iff.mpr fun names => aligned ?_
              simp only [Bool.and_eq_true] at names
              obtain ⟨⟨⟨a_member, b_constant⟩, b_member⟩, a_constant⟩ := names
              have cores : (a.type.core == b.type.core) = false := Bool.eq_false_iff.mpr
                fun cores => promote?_of_cores cores same outcomeA outcomeB
              exact ⟨⟨a_constant, b_constant, a_member, b_member, cores⟩, outcomeA, outcomeB⟩

end Members

end Expr

end QueryTree
