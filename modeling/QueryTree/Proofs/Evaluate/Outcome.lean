import QueryTree.Evaluate.Expression
import QueryTree.Proofs.Overload.Promotion

/-!
# Outcomes of evaluations

What an evaluation comes to: a value of which something is known or an error that is allowed.
Sequences of steps come to what their steps come to.
-/

/-!
## Evaluated operations

The value of an operation whose operands have values.  Null is the value of all operations on null
but comparisons and the ones that may decide without it, and it stays null when it is promoted.  An
operation on a sequence has the items of the sequence before its arguments.
-/

namespace QueryTree

/-- An operator that does not compare yields null for null. -/
theorem Value.applyBinary_null {op : BinaryOp} {type : Ty} {left right : Value}
    (isOther : op.isComparison = false) (isNull : left.isNull = true ∨ right.isNull = true) :
    applyBinary op type left right = .ok null := by
  have notEqual : op ≠ .equal ∧ op ≠ .notEqual := by
    constructor <;> rintro rfl <;> cases isOther
  unfold applyBinary
  rw [if_neg notEqual.1, if_neg notEqual.2, if_neg (by simp [isOther]),
    if_pos (by simpa using isNull)]

namespace Expr

variable {table : ClassTable} {ctx : EvalContext} {op : BinaryOp} {type : Ty}
  {e promoted left right : Expr} {method : Option String}

/-- An operator that looks at both operands is applied to their values. -/
theorem evaluate_strict (isStrict : op ≠ .andAlso ∧ op ≠ .orElse) :
    (binary type op left right method).evaluate ctx = (do
      let v ← left.evaluate ctx
      let w ← right.evaluate ctx
      Value.applyBinary op type v w) := by
  rw [evaluate]
  cases op with
  | andAlso => exact absurd rfl isStrict.1
  | orElse => exact absurd rfl isStrict.2
  | _ => rfl

/-- An operand that is null is promoted to null. -/
theorem evaluate_promote?_null {mode : Promotion} {target : Ty}
    (outcome : e.promote? table mode target = some promoted)
    (isNull : e.evaluate ctx = .ok .null) : promoted.evaluate ctx = .ok .null := by
  obtain ⟨rfl, -⟩ | ⟨value, literal?, reread, -⟩ | ⟨rfl, -⟩ | ⟨rfl, -⟩ := promote?_cases outcome
  · exact isNull
  · cases promotedConstant reread with
    | null => rfl
    | reread notNull => exact absurd (Except.ok.inj isNull) notNull
  · rw [evaluate, isNull]
    rfl
  · exact isNull

section Sequence

variable {operation : Aggregate} {source : Expr} {types : List Ty}

/-- The items that an operation on a sequence goes through. -/
def itemsFor (operation : Aggregate) (source : Expr) (ctx : EvalContext) :
    Evaluation (List Value) := do
  operation.items (← source.evaluate ctx)

/-- An operation on a sequence goes through its items before it looks at its arguments. -/
theorem evaluate_aggregate {args : List Expr} {result : List Value → Evaluation Value}
    (yields : ∀ v items, source.itemsFor operation ctx = .ok items →
      operation.items v = .ok items →
        operation.evaluate type v (arguments args ctx) = result items) :
    (aggregate type operation source types args).evaluate ctx =
      source.itemsFor operation ctx >>= result := by
  rw [evaluate]
  cases value : source.evaluate ctx with
  | error error =>
      rw [itemsFor, value]
      rfl
  | ok v =>
      have sameItems : source.itemsFor operation ctx = operation.items v := by
        rw [itemsFor, value]
        rfl
      change operation.evaluate type v (arguments args ctx) = _
      cases isSequence : operation.items v with
      | error error =>
          rw [sameItems, isSequence, Aggregate.evaluate, isSequence]
          rfl
      | ok items =>
          rw [sameItems, isSequence]
          exact yields v items (sameItems.trans isSequence) isSequence

end Sequence

end Expr

end QueryTree

namespace QueryTree

theorem EvalContext.lookup_bind (ctx : EvalContext) (p : Parameter) (v : Value) :
    (ctx.bind p v).lookup p = .ok v := by
  simp [lookup, bind, Evaluation.require]

/-- An evaluation yields a value that satisfies a condition, or it fails with an allowed error. -/
def Evaluation.Meets {α : Type} (allowed : EvalError → Prop) (outcome : Evaluation α)
    (holds : α → Prop) : Prop :=
  match outcome with
  | .ok a => holds a
  | .error error => allowed error

namespace Evaluation.Meets

variable {α β : Type} {allowed : EvalError → Prop} {holds : α → Prop} {result : β → Prop}

theorem bind {outcome : Evaluation α} {next : α → Evaluation β}
    (first : outcome.Meets allowed holds) (second : ∀ a, holds a → (next a).Meets allowed result) :
    (outcome >>= next).Meets allowed result := by
  cases outcome with
  | ok a => exact second a first
  | error error => exact first

theorem map {outcome : Evaluation α} {f : α → β} (first : outcome.Meets allowed holds)
    (second : ∀ a, holds a → result (f a)) : Meets allowed (outcome.map f) result := by
  cases outcome with
  | ok a => exact second a first
  | error error => exact first

theorem require {error : EvalError} {a? : Option α} (isSome : ∀ a, a? = some a → holds a)
    (isNone : a? = none → allowed error) : (Evaluation.require error a?).Meets allowed holds := by
  cases a? with
  | some a => exact isSome a rfl
  | none => exact isNone rfl

theorem imp {weaker : α → Prop} {outcome : Evaluation α} (met : outcome.Meets allowed holds)
    (implies : ∀ a, holds a → weaker a) : outcome.Meets allowed weaker := by
  cases outcome with
  | ok a => exact implies a met
  | error error => exact met

theorem mapM {f : α → Evaluation β} {items : List α}
    (each : ∀ a ∈ items, (f a).Meets allowed result) :
    (items.mapM f).Meets allowed (∀ b ∈ ·, result b) := by
  induction items with
  | nil => simp [Meets, Pure.pure, Except.pure]
  | cons a rest ih =>
      obtain ⟨head, tail⟩ := List.forall_mem_cons.mp each
      rw [List.mapM_cons]
      refine bind head fun b first => bind (ih tail) fun bs others => ?_
      exact List.forall_mem_cons.mpr ⟨first, others⟩

theorem foldlM {f : β → α → Evaluation β} {items : List α} {start : β} (first : result start)
    (each : ∀ b, result b → ∀ a ∈ items, (f b a).Meets allowed result) :
    (items.foldlM f start).Meets allowed result := by
  induction items generalizing start with
  | nil => exact first
  | cons a rest ih =>
      rw [List.foldlM_cons]
      refine bind (each start first a (by simp)) fun next reached => ?_
      exact ih reached fun b reached a isLater => each b reached a (List.mem_cons_of_mem _ isLater)

theorem filterM {f : α → Evaluation Bool} {items : List α}
    (each : ∀ a ∈ items, (f a).Meets allowed fun _ => True) :
    (items.filterM f).Meets allowed fun _ => True := by
  have onto (kept : List α) : (items.filterAuxM f kept).Meets allowed fun _ => True := by
    induction items generalizing kept with
    | nil => trivial
    | cons a rest ih =>
        obtain ⟨head, tail⟩ := List.forall_mem_cons.mp each
        exact bind head fun _ _ => ih tail _
  exact bind (onto []) fun _ _ => trivial

end Evaluation.Meets

/-- Several expressions have values if each of them has one. -/
theorem Expr.evaluateAll_meets {allowed : EvalError → Prop} {es : List Expr} {ctx : EvalContext}
    (each : ∀ e ∈ es, (e.evaluate ctx).Meets allowed fun _ => True) :
    (evaluateAll es ctx).Meets allowed fun _ => True := by
  induction es with
  | nil => trivial
  | cons e rest ih =>
      obtain ⟨first, others⟩ := List.forall_mem_cons.mp each
      exact first.bind fun _ _ => (ih others).bind fun _ _ => trivial

/-- An evaluation does not fail for a parameter that has no value. -/
abbrev Evaluation.Resolves {α : Type} (outcome : Evaluation α) : Prop :=
  outcome.Meets (fun error => ∀ name, error ≠ .unboundParameter name) fun _ => True

namespace Evaluation.Resolves

variable {α β : Type}

@[simp]
theorem ok (a : α) : Resolves (Except.ok a : Evaluation α) := trivial

@[simp]
theorem pure (a : α) : Resolves (Pure.pure a : Evaluation α) := trivial

@[simp]
theorem error {error : EvalError} :
    Resolves (Except.error error : Evaluation α) ↔ ∀ name, error ≠ .unboundParameter name :=
  Iff.rfl

@[simp]
theorem require {error : EvalError} {a? : Option α}
    (other : ∀ name, error ≠ .unboundParameter name) : Resolves (Evaluation.require error a?) :=
  Meets.require (fun _ _ => trivial) fun _ => other

theorem bind {outcome : Evaluation α} {next : α → Evaluation β} (first : Resolves outcome)
    (second : ∀ a, Resolves (next a)) : Resolves (outcome >>= next) :=
  Meets.bind first fun a _ => second a

theorem mapM {f : α → Evaluation β} {items : List α} (each : ∀ a ∈ items, Resolves (f a)) :
    Resolves (items.mapM f) :=
  (Meets.mapM each).imp fun _ _ => trivial

theorem foldlM {f : β → α → Evaluation β} {items : List α} {start : β}
    (each : ∀ b a, Resolves (f b a)) : Resolves (items.foldlM f start) :=
  Meets.foldlM trivial fun b _ a _ => each b a

end Evaluation.Resolves

end QueryTree
