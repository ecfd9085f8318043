import QueryTree.Compile.Function
import QueryTree.Proofs.Branch.Unification
import QueryTree.Proofs.Comparison.Mirror
import QueryTree.Proofs.Evaluate.Outcome

/-!
# Guarded expressions

The conditional that stands for a chain protected against null.  Its test goes through the parts of
the chain until one of them is null, so that the parts behind the first null and the chain itself
count for nothing then.
-/

namespace QueryTree.Expr

variable {values : EvalContext} {table : ClassTable} {position : Nat} {e a b a' b' tree : Expr}
  {parts before others : List Expr} {default? : Option Expr}

/-- An expression has a value other than null. -/
def HasSome (e : Expr) (values : EvalContext) : Prop :=
  ∃ v, e.evaluate values = .ok v ∧ v.isNull = false

/-- Whether none of some expressions is null, which are evaluated up to the first one that is. -/
def noneNull : List Expr → EvalContext → Evaluation Bool
  | [], _ => .ok true
  | e :: rest, values => do
    let value ← e.evaluate values
    if value.isNull then return false else noneNull rest values

/-- A conditional that is its first branch unless one of some parts is null; without parts it is
the first branch itself. -/
def whereNoneNull (parts : List Expr) (ifTrue ifFalse : Expr) : Expr :=
  match parts.map isNotNull with
  | [] => ifTrue
  | first :: others => conditional (others.foldl (test .andAlso) first) ifTrue ifFalse

section Evaluation

theorem noneNull_append (parts others : List Expr) :
    noneNull (parts ++ others) values = (do
      if ← noneNull parts values then noneNull others values else return false) := by
  induction parts with
  | nil => rfl
  | cons part parts ih =>
      rw [List.cons_append, noneNull, noneNull]
      cases part.evaluate values with
      | error error => rfl
      | ok v =>
          change (if v.isNull then Except.ok false else noneNull (parts ++ others) values) =
            (if v.isNull then Except.ok false else noneNull parts values) >>= _
          cases v.isNull with
          | true => rfl
          | false => exact ih

theorem noneNull_eq_true (some : ∀ part ∈ parts, part.HasSome values) :
    noneNull parts values = .ok true := by
  induction parts with
  | nil => rfl
  | cons part parts ih =>
      obtain ⟨⟨v, evaluated, notNull⟩, rest⟩ := List.forall_mem_cons.mp some
      rw [noneNull, evaluated]
      change (if v.isNull then Except.ok false else noneNull parts values) = _
      rw [notNull]
      exact ih rest

/-- Behind the first part that is null nothing is evaluated. -/
theorem noneNull_eq_false (some : ∀ part ∈ before, part.HasSome values)
    (isNull : e.evaluate values = .ok .null) (others : List Expr) :
    noneNull (before ++ e :: others) values = .ok false := by
  rw [noneNull_append, noneNull_eq_true some, noneNull, isNull]
  rfl

theorem noneNull_eq_error {error : EvalError} (some : ∀ part ∈ before, part.HasSome values)
    (failed : e.evaluate values = .error error) (others : List Expr) :
    noneNull (before ++ e :: others) values = .error error := by
  rw [noneNull_append, noneNull_eq_true some, noneNull, failed]
  rfl

theorem evaluate_isNotNull :
    e.isNotNull.evaluate values = (noneNull [e] values).map .boolean := by
  rw [isNotNull, test, evaluate_strict (by decide), noneNull]
  cases e.evaluate values with
  | error error => rfl
  | ok v =>
      have equal : v.equal .null = v.isNull := (Value.equal_null v).1
      change Value.applyBinary .notEqual .boolean v .null =
        (if v.isNull then Except.ok false else Except.ok true).map Value.boolean
      unfold Value.applyBinary
      rw [if_neg (by decide), if_pos rfl, equal]
      cases v.isNull <;> rfl

/-- A conjunction goes on from where the test before it stops. -/
theorem evaluate_andAlso {first second : Expr}
    (isFirst : first.evaluate values = (noneNull before values).map .boolean)
    (isSecond : second.evaluate values = (noneNull others values).map .boolean) :
    (test .andAlso first second).evaluate values =
      (noneNull (before ++ others) values).map .boolean := by
  rw [test, evaluate, isFirst, noneNull_append]
  cases noneNull before values with
  | error error => rfl
  | ok all =>
      cases all with
      | false => rfl
      | true =>
          change (second.evaluate values).map (Value.conjoin (.boolean true)) =
            (noneNull others values).map .boolean
          rw [isSecond]
          cases noneNull others values with
          | error error => rfl
          | ok all => cases all <;> rfl

theorem evaluate_conjunction {first : Expr}
    (isFirst : first.evaluate values = (noneNull before values).map .boolean)
    (parts : List Expr) :
    ((parts.map isNotNull).foldl (test .andAlso) first).evaluate values =
      (noneNull (before ++ parts) values).map .boolean := by
  induction parts generalizing first before with
  | nil => rw [List.append_nil, List.map_nil, List.foldl_nil, isFirst]
  | cons part parts ih =>
      rw [List.map_cons, List.foldl_cons, ih (evaluate_andAlso isFirst evaluate_isNotNull),
        List.append_assoc, List.singleton_append]

theorem evaluate_whereNoneNull (parts : List Expr) (ifTrue ifFalse : Expr) :
    (whereNoneNull parts ifTrue ifFalse).evaluate values = (do
      if ← noneNull parts values then ifTrue.evaluate values else ifFalse.evaluate values) := by
  cases parts with
  | nil => rfl
  | cons part parts =>
      rw [whereNoneNull, List.map_cons, evaluate, evaluate_conjunction evaluate_isNotNull,
        List.singleton_append]
      cases noneNull (part :: parts) values with
      | error error => rfl
      | ok all => cases all <;> rfl

variable {ifTrue ifFalse : Expr}

theorem type_whereNoneNull (parts : List Expr) :
    (whereNoneNull parts ifTrue ifFalse).type = ifTrue.type := by
  cases parts <;> rfl

theorem evaluate_whereNoneNull_true (some : ∀ part ∈ parts, part.HasSome values) :
    (whereNoneNull parts ifTrue ifFalse).evaluate values = ifTrue.evaluate values := by
  rw [evaluate_whereNoneNull, noneNull_eq_true some]
  rfl

/-- Where a part is null the other branch is all that counts, whatever the parts behind it and the
first branch are. -/
theorem evaluate_whereNoneNull_false (some : ∀ part ∈ before, part.HasSome values)
    (isNull : e.evaluate values = .ok .null) (others : List Expr) (ifTrue : Expr) :
    (whereNoneNull (before ++ e :: others) ifTrue ifFalse).evaluate values =
      ifFalse.evaluate values := by
  rw [evaluate_whereNoneNull, noneNull_eq_false some isNull]
  rfl

theorem evaluate_whereNoneNull_error {error : EvalError}
    (some : ∀ part ∈ before, part.HasSome values) (failed : e.evaluate values = .error error)
    (others : List Expr) (ifTrue ifFalse : Expr) :
    (whereNoneNull (before ++ e :: others) ifTrue ifFalse).evaluate values = .error error := by
  rw [evaluate_whereNoneNull, noneNull_eq_error some failed]
  rfl

end Evaluation

section Making

theorem type_conjunction (tests : List Expr) {first : Expr} (isBoolean : first.type = .boolean) :
    (tests.foldl (test .andAlso) first).type = .boolean := by
  induction tests generalizing first with
  | nil => exact isBoolean
  | cons next tests ih => exact ih rfl

/-- A chain of one member is left alone, and so is one without a part that may be null.  Every other
chain is what it is made by unifying it with the default, unless a part is null. -/
theorem propagateNull_eq_ok (made : e.propagateNull table position default? = .ok tree) :
    (tree = e ∧ (e.chainReceivers = [] ∧ e.isCall = false ∨ e.guarded = [])) ∨
      ((e.chainReceivers = [] → e.isCall = true) ∧ e.guarded ≠ [] ∧
        ∃ ifTrue ifFalse, Unified table e (default?.getD nullLiteral) ifTrue ifFalse ∧
          tree = whereNoneNull e.guarded ifTrue ifFalse) := by
  rw [propagateNull] at made
  split at made
  next isSingle =>
    simp only [Bool.and_eq_true, List.isEmpty_iff, Bool.not_eq_true'] at isSingle
    exact .inl ⟨(Except.ok.inj made).symm, .inl isSingle⟩
  next several =>
    simp only [Bool.and_eq_true, List.isEmpty_iff, Bool.not_eq_true', not_and,
      Bool.not_eq_false] at several
    cases parts : e.guarded with
    | nil =>
        rw [parts] at made
        exact .inl ⟨(Except.ok.inj made).symm, .inr rfl⟩
    | cons part rest =>
        rw [parts] at made
        have isBoolean := type_conjunction (rest.map isNotNull)
          (show part.isNotNull.type = .boolean from rfl)
        obtain ⟨ifTrue, ifFalse, unified, rfl⟩ := (choose_eq_ok_iff isBoolean).mp made
        exact .inr ⟨several, List.cons_ne_nil _ _, ifTrue, ifFalse, unified, rfl⟩

end Making

section Branches

/-- An expression is brought to a type: it has the type, it is a constant that is read again as a
value of the type, or it is converted. -/
inductive BroughtTo (type : Ty) (e : Expr) : Expr → Prop where
  | same (same : (e.type == type) = true) : BroughtTo type e e
  | constant {e'} (reread : promoteConstant? type e = some e') : BroughtTo type e e'
  | converted : BroughtTo type e (convert type e)

theorem promoteToward?_broughtTo (toward : promoteToward? table b a = some a') :
    a.BroughtTo b.type a' := by
  rw [promoteToward?] at toward
  split at toward
  next => cases toward
  next =>
    obtain ⟨rfl, same⟩ | ⟨_, _, reread, -⟩ | ⟨rfl, -⟩ | ⟨-, -, loose, -⟩ := promote?_cases toward
    · exact .same same
    · exact .constant reread
    · exact .converted
    · cases loose

/-- Null without a type is null of every type that admits it. -/
theorem nullOf_broughtTo {type : Ty} (isNull : a.isUntypedNull = true)
    (admits : type.admitsNull = true) : a.BroughtTo type (nullOf type) := by
  refine .constant ?_
  cases a with
  | constant source value literal? =>
      cases value with
      | null => rw [promoteConstant?, if_pos admits]
      | _ => simp [isUntypedNull, isNullLiteral] at isNull
  | _ => simp [isUntypedNull, isNullLiteral] at isNull

theorem admitsNull_lift (type : Ty) : type.lift.admitsNull = true := by
  unfold Ty.lift
  split
  next plain => simpa [Ty.admitsNull, Bool.or_comm] using plain
  next => rfl

theorem toward?_broughtTo (toward : toward? table a b = some (a', b')) :
    a.BroughtTo b'.type a' ∧ b.BroughtTo a'.type b' := by
  obtain ⟨-, -, same, -⟩ := toward?_cases toward
  rw [toward?] at toward
  split at toward
  next untyped =>
    obtain ⟨rfl, rfl⟩ := Prod.mk.inj (Option.some.inj toward)
    have isNull := ((Bool.and_eq_true _ _).mp untyped).1
    exact ⟨nullOf_broughtTo isNull (admitsNull_lift _), .converted⟩
  next =>
    obtain ⟨promoted, isPromoted, isPair⟩ := Option.map_eq_some_iff.mp toward
    obtain ⟨rfl, rfl⟩ := Prod.mk.inj isPair
    exact ⟨promoteToward?_broughtTo isPromoted, .same (BEq.symm same)⟩

/-- Unified branches are brought to the type of the whole. -/
theorem Unified.broughtTo (unified : Unified table a b a' b') :
    (∃ type, a.BroughtTo type a') ∧ b.BroughtTo a'.type b' := by
  cases unified with
  | alike same => exact ⟨⟨_, .same same⟩, .same (BEq.symm same)⟩
  | forth _ forth =>
      obtain ⟨left, right⟩ := toward?_broughtTo forth
      exact ⟨⟨_, left⟩, right⟩
  | back _ _ back =>
      obtain ⟨right, left⟩ := toward?_broughtTo back
      exact ⟨⟨_, left⟩, right⟩

/-- What is no constant is left alone or converted. -/
theorem BroughtTo.of_value? {type : Ty} (brought : e.BroughtTo type tree)
    (noConstant : e.value? = none) : tree = e ∨ tree = convert type e := by
  cases brought with
  | same => exact .inl rfl
  | constant reread =>
      cases e with
      | constant => cases noConstant
      | _ => cases reread
  | converted => exact .inr rfl

/-- Null is null of whatever type. -/
theorem BroughtTo.evaluate_null {type : Ty} (brought : nullLiteral.BroughtTo type tree) :
    tree.evaluate values = .ok .null := by
  cases brought with
  | same => rfl
  | constant reread =>
      change (if type.admitsNull then some (nullOf type) else none) = some tree at reread
      split at reread
      next => exact Option.some.inj reread ▸ rfl
      next => cases reread
  | converted => rfl

/-- A branch that is left alone or converted fails where the expression does. -/
theorem BroughtTo.evaluate_error {type : Ty} {error : EvalError} (brought : e.BroughtTo type tree)
    (noConstant : e.value? = none) (failed : e.evaluate values = .error error) :
    tree.evaluate values = .error error := by
  obtain rfl | rfl := brought.of_value? noConstant
  · exact failed
  · rw [evaluate, failed]
    rfl

end Branches

end QueryTree.Expr
