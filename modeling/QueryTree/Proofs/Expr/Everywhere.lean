import QueryTree.Expr.Basic
import Mathlib.Data.List.Forall2

/-!
# Properties of all nodes

The children of a node, properties that hold of every node of a tree, and the ways in which an
expression is recast when its type does not fit.
-/

namespace QueryTree.Expr

/-- The nodes directly below a node. -/
def children : Expr → List Expr
  | constant _ _ _ | parameter _ | staticMember _ _ => []
  | member _ target _ => [target]
  | index _ target args => target :: args
  | staticCall _ _ args => args
  | methodCall _ _ target args => target :: args
  | aggregate _ _ source _ args => source :: args
  | invoke _ target args => target :: args
  | binary _ _ left right _ => [left, right]
  | convert _ operand => [operand]
  | negate _ operand => [operand]
  | not _ operand => [operand]
  | conditional test ifTrue ifFalse => [test, ifTrue, ifFalse]
  | coalesce _ left right => [left, right]
  | lambda _ body => [body]
  | construct _ args => args
  | record _ _ members => members.map (·.2)
  | newArray _ items => items
  | typeTest _ target _ _ => [target]

/-- A property holds of a tree and of every node below it. -/
inductive Everywhere (rule : Expr → Prop) : Expr → Prop where
  | node {e} (here : rule e) (below : ∀ c ∈ e.children, Everywhere rule c) : Everywhere rule e

/-- An expression as it is, converted, or replaced by a constant. -/
inductive Recast (e : Expr) : Expr → Prop where
  | same : Recast e e
  | constant {type value literal?} : Recast e (.constant type value literal?)
  | convert {type recast} (inner : Recast e recast) : Recast e (.convert type recast)

theorem Recast.trans {first second third : Expr} (left : Recast first second)
    (right : Recast second third) : Recast first third := by
  induction right with
  | same => exact left
  | constant => exact .constant
  | convert _ ih => exact .convert ih

/-- A property of conversions and of constants. -/
structure AllowsRecast (rule : Expr → Prop) : Prop where
  constant : ∀ type value literal?, rule (.constant type value literal?)
  convert : ∀ type operand, rule (.convert type operand)

namespace Everywhere

variable {rule : Expr → Prop}

theorem leaf {e : Expr} (here : rule e) (noChildren : e.children = []) : e.Everywhere rule :=
  .node here (by simp [noChildren])

theorem at_root {e : Expr} (everywhere : e.Everywhere rule) : rule e := by
  cases everywhere with
  | node here _ => exact here

theorem child {e c : Expr} (everywhere : e.Everywhere rule) (isChild : c ∈ e.children) :
    c.Everywhere rule := by
  cases everywhere with
  | node _ below => exact below c isChild

theorem imp {weaker : Expr → Prop} {e : Expr} (everywhere : e.Everywhere rule)
    (implies : ∀ node, rule node → weaker node) : e.Everywhere weaker := by
  induction everywhere with
  | node here _ ih => exact .node (implies _ here) ih

theorem recast (allows : AllowsRecast rule) {e recast : Expr} (everywhere : e.Everywhere rule)
    (isRecast : Recast e recast) : recast.Everywhere rule := by
  induction isRecast with
  | same => exact everywhere
  | constant => exact .leaf (allows.constant _ _ _) rfl
  | convert _ ih => exact .node (allows.convert _ _) (by simpa [children] using ih)

theorem recast_all (allows : AllowsRecast rule) {es recasts : List Expr}
    (each : ∀ e ∈ es, e.Everywhere rule) (areRecasts : List.Forall₂ Recast es recasts) :
    ∀ e ∈ recasts, e.Everywhere rule := by
  induction areRecasts with
  | nil => simp
  | cons isRecast _ ih =>
      obtain ⟨head, tail⟩ := List.forall_mem_cons.mp each
      exact List.forall_mem_cons.mpr ⟨head.recast allows isRecast, ih tail⟩

end Everywhere

end QueryTree.Expr
