import QueryTree.Proofs.Overload.Promotion
import QueryTree.Compile.Operand

/-!
# Adapted operands

The ways in which an operation changes an expression whose type does not fit.  Unlike a recast, an
adaptation tells which constant stands for an expression, and by which step.
-/

namespace QueryTree.Expr

/-- A constant is taken for a member of the enumeration of the operand beside it, by a comparison or
by the test of an item. -/
def TakenBeside (table : ClassTable) (x constant member : Expr) : Prop :=
  ∃ op : Token, enumConstant x.type op.position constant = .ok member ∧
    (alignEnums table op x constant = .ok (x, member) ∨
      alignEnums table op constant x = .ok (member, x) ∨
      isItem table op x constant = .ok (test .equal x member))

theorem TakenBeside.isConstant {table : ClassTable} {x e member : Expr}
    (taken : TakenBeside table x e member) : e.isConstant = true := by
  obtain ⟨op, outcome, -⟩ := taken
  cases value : e.value? with
  | some v => rw [Expr.isConstant, value]; rfl
  | none =>
      rw [enumConstant] at outcome
      split at outcome
      next => cases outcome
      next => simp [value] at outcome

/-- An expression after some of the steps that bring an operand to another type. -/
inductive Adapted (table : ClassTable) (e : Expr) : Expr → Prop where
  | same : Adapted table e e
  | promoted {mode target first second} (before : Adapted table e first)
      (outcome : first.promote? table mode target = some second) : Adapted table e second
  /-- A text read as a value of a type. -/
  | read {target position first second} (before : Adapted table e first)
      (outcome : first.readText? target position = .ok (some second)) : Adapted table e second
  /-- A text that holds an integer. -/
  | integer {first value} (before : Adapted table e first)
      (outcome : first.integerText? = some value) : Adapted table e (.ofValue .int32 value)
  | member {x first second} (before : Adapted table e first)
      (taken : TakenBeside table x first second) : Adapted table e second
  | null {type} : Adapted table e (.nullOf type)
  | convert {type first} (before : Adapted table e first) : Adapted table e (.convert type first)

variable {table : ClassTable} {first second third : Expr}

namespace Adapted

theorem trans (left : Adapted table first second) (right : Adapted table second third) :
    Adapted table first third := by
  induction right with
  | same => exact left
  | promoted _ outcome before => exact .promoted before outcome
  | read _ outcome before => exact .read before outcome
  | integer _ outcome before => exact .integer before outcome
  | member _ taken before => exact .member before taken
  | null => exact .null
  | convert _ before => exact .convert before

theorem of_promote? {mode : Promotion} {target : Ty}
    (outcome : first.promote? table mode target = some second) : Adapted table first second :=
  .promoted .same outcome

end Adapted

theorem enumConstant_eq_ok {type : Ty} {position : Nat} {e member : Expr}
    (outcome : enumConstant type position e = .ok member) :
    ∃ enum n, type.enum? = some enum ∧ member = .constant type (.enum enum n) none := by
  rw [enumConstant] at outcome
  split at outcome
  next => cases outcome
  next enum isEnum =>
    simp only at outcome
    split at outcome
    next n _ => exact ⟨enum, n, isEnum, (Except.ok.inj outcome).symm⟩
    next => cases outcome

theorem readText?_eq_ok {target : Ty} {position : Nat} {e read : Expr}
    (outcome : e.readText? target position = .ok (some read)) :
    ∃ text value, e.text? = some text ∧ Value.ofText target text = .read value ∧
      read = .constant target value none := by
  rw [readText?] at outcome
  split at outcome
  next => cases outcome
  next text isText =>
    split at outcome
    next => cases outcome
    next value reads =>
      exact ⟨text, value, isText, reads, (Option.some.inj (Except.ok.inj outcome)).symm⟩
    next => cases outcome

/-- Adapted operands are recast. -/
theorem Adapted.recast (adapted : Adapted table first second) : Recast first second := by
  induction adapted with
  | same => exact .same
  | promoted _ outcome before => exact before.trans (promote?_recast outcome)
  | read _ outcome =>
      obtain ⟨text, value, -, -, rfl⟩ := readText?_eq_ok outcome
      exact .constant
  | integer | null => exact .constant
  | member _ taken =>
      obtain ⟨op, outcome, -⟩ := taken
      obtain ⟨enum, n, -, rfl⟩ := enumConstant_eq_ok outcome
      exact .constant
  | convert _ before => exact .convert before

theorem Adapted.recast_all {es all : List Expr} (adapted : List.Forall₂ (Adapted table) es all) :
    List.Forall₂ Recast es all :=
  adapted.imp fun _ _ isAdapted => isAdapted.recast

theorem promoteAll?_adapted {mode : Promotion} {targets : List Ty} {es all : List Expr}
    (outcome : promoteAll? table mode targets es = some all) :
    List.Forall₂ (Adapted table) es all := by
  have each (target : Ty) (e promoted : Expr)
      (outcome : promote? table mode target e = some promoted) : Adapted table e promoted ∧ True :=
    ⟨.of_promote? outcome, trivial⟩
  exact (promoteAll?_forall₂ each outcome).1

end QueryTree.Expr
