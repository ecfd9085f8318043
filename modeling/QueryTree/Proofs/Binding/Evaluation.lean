import QueryTree.Proofs.Binding.Tree
import QueryTree.Proofs.Evaluate.Resolution

/-!
# Evaluation of compiled functions

A tree in which every parameter is bound, other than in what replaces an empty sequence, never asks
for a parameter that has no value: what replaces an empty sequence is not evaluated.  Compiled
functions are such trees, and they are closed if what replaces an empty sequence does not refer to
the element of the sequence.
-/

namespace QueryTree

open Evaluation (Resolves)

namespace EvalContext

/-- Some parameters have values. -/
def Defines (ctx : EvalContext) (bound : List Parameter) : Prop :=
  ∀ q ∈ bound, ∃ value, ctx.bindings.lookup q.id = some value

theorem Defines.lookup {ctx : EvalContext} {bound : List Parameter} (defines : ctx.Defines bound)
    {p : Parameter} (isBound : ∃ q ∈ bound, q == p) : Resolves (ctx.lookup p) := by
  obtain ⟨q, isMember, same⟩ := isBound
  obtain ⟨value, found⟩ := defines q isMember
  have id_eq : q.id = p.id := beq_iff_eq.mp same
  rw [EvalContext.lookup, ← id_eq, found]
  trivial

theorem Defines.bind {ctx : EvalContext} {bound : List Parameter} (defines : ctx.Defines bound)
    (p : Parameter) (value : Value) : (ctx.bind p value).Defines (bound ++ [p]) := by
  intro q isMember
  by_cases isNew : q.id = p.id
  · exact ⟨value, by rw [EvalContext.bind, isNew, List.lookup_cons_self]⟩
  · obtain isOld | isLast := List.mem_append.mp isMember
    · obtain ⟨v, found⟩ := defines q isOld
      refine ⟨v, ?_⟩
      rw [EvalContext.bind, List.lookup_cons, beq_eq_false_iff_ne.mpr isNew]
      exact found
    · exact absurd (congrArg Parameter.id (List.mem_singleton.mp isLast)) isNew

theorem Defines.bindAll {ctx : EvalContext} {bound : List Parameter} (defines : ctx.Defines bound)
    {params : List Parameter} {values : List Value} (sameLength : params.length = values.length) :
    (ctx.bindAll params values).Defines (bound ++ params) := by
  induction params generalizing ctx bound values with
  | nil => simpa [EvalContext.bindAll] using defines
  | cons p rest ih =>
      cases values with
      | nil => cases sameLength
      | cons value values =>
          have shorter := ih (defines.bind p value) (Nat.succ.inj sameLength)
          rwa [List.append_assoc] at shorter

end EvalContext

namespace Expr

theorem evaluateMembers_resolves {members : List (String × Expr)} {ctx : EvalContext}
    (each : ∀ e ∈ members.map (·.2), Resolves (e.evaluate ctx)) :
    Resolves (evaluateMembers members ctx) := by
  induction members with
  | nil => trivial
  | cons member rest ih =>
      obtain ⟨first, others⟩ := List.forall_mem_cons.mp each
      exact Resolves.bind first fun _ => Resolves.bind (ih others) fun _ => trivial

/-- An expression asks for no parameter without a value, neither as a value nor as a function. -/
def ResolvesIn (e : Expr) (ctx : EvalContext) : Prop :=
  Resolves (e.evaluate ctx) ∧ ∀ args, Resolves (e.apply ctx args)

theorem ResolvesIn.of_value {e : Expr} {ctx : EvalContext}
    (isOther : ∀ params body, e ≠ lambda params body) (resolves : Resolves (e.evaluate ctx)) :
    e.ResolvesIn ctx := by
  refine ⟨resolves, fun args => ?_⟩
  cases e with
  | lambda params body => exact absurd rfl (isOther params body)
  | _ => exact (Resolves.error (α := Value)).mpr (by simp)

theorem arguments_resolve {es : List Expr} {ctx : EvalContext}
    (each : ∀ e ∈ es, e.ResolvesIn ctx) : ∀ arg ∈ arguments es ctx, arg.Resolves := by
  induction es with
  | nil => simp [arguments]
  | cons e rest ih =>
      obtain ⟨first, others⟩ := List.forall_mem_cons.mp each
      exact List.forall_mem_cons.mpr ⟨⟨first.1, fun item => first.2 [item]⟩, ih others⟩

theorem combine_resolves (op : BinaryOp) (type : Ty) (left : Value)
    {right : Unit → Evaluation Value} (right_resolves : Resolves (right ())) :
    Resolves (combine op type left right) := by
  have joined (join : Value → Value) : Resolves ((right ()).map join) :=
    Evaluation.Meets.map right_resolves fun _ _ => trivial
  unfold combine
  split
  next =>
    split
    next => trivial
    next => exact joined _
  next =>
    split
    next => trivial
    next => exact joined _
  next => exact Resolves.bind right_resolves fun _ => Value.applyBinary_resolves _ _ _ _

theorem chooseBranch_resolves (test : Value) {ifTrue ifFalse : Unit → Evaluation Value}
    (true_resolves : Resolves (ifTrue ())) (false_resolves : Resolves (ifFalse ())) :
    Resolves (chooseBranch test ifTrue ifFalse) := by
  unfold chooseBranch
  split
  next => exact true_resolves
  next => exact false_resolves
  next => exact (Resolves.error (α := Value)).mpr (by simp)

/-- A node that binds nothing asks for no parameter without a value if its children do not. -/
theorem evaluate_resolves {e : Expr} {ctx : EvalContext}
    (isParameter : ∀ p, e = parameter p → Resolves (ctx.lookup p))
    (each : ∀ c ∈ e.scopedChildren, c.ResolvesIn ctx)
    (isOther : ∀ params body, e ≠ lambda params body) : Resolves (e.evaluate ctx) := by
  have value {c : Expr} (isChild : c ∈ e.scopedChildren) : Resolves (c.evaluate ctx) :=
    (each c isChild).1
  cases e with
  | constant => trivial
  | parameter p => exact isParameter p rfl
  | staticMember type name => exact Value.ofStaticMember_resolves _ type name
  | member type target name =>
      exact Resolves.bind (value (by simp [scopedChildren, children])) fun v =>
        v.ofMember_resolves _ name
  | index type target args =>
      obtain ⟨target_value, arg_values⟩ := List.forall_mem_cons.mp each
      exact Resolves.bind target_value.1 fun v =>
        Resolves.bind (evaluateAll_meets fun a isArg => (arg_values a isArg).1) fun keys =>
          v.atIndex_resolves keys
  | staticCall type method args =>
      exact Resolves.bind (evaluateAll_meets fun a isArg => value isArg) fun values =>
        Value.callMethod_resolves method none values
  | methodCall type method target args =>
      obtain ⟨target_value, arg_values⟩ := List.forall_mem_cons.mp each
      exact Resolves.bind target_value.1 fun v =>
        Resolves.bind (evaluateAll_meets fun a isArg => (arg_values a isArg).1) fun values =>
          Value.callMethod_resolves method (some v) values
  | aggregate type operation source typeArgs args =>
      have source_value : Resolves (source.evaluate ctx) :=
        value (by cases operation <;> simp [scopedChildren, children])
      refine Resolves.bind source_value fun v =>
        operation.evaluate_resolves type v fun isOther => arguments_resolve fun a isArg => each a ?_
      cases operation with
      | defaultIfEmpty => exact absurd rfl isOther
      | _ => exact List.mem_cons_of_mem _ isArg
  | invoke type target args =>
      obtain ⟨function, arg_values⟩ := List.forall_mem_cons.mp each
      exact Resolves.bind (evaluateAll_meets fun a isArg => (arg_values a isArg).1) fun values =>
        function.2 values
  | binary type op left right method =>
      exact Resolves.bind (value (by simp [scopedChildren, children])) fun v =>
        combine_resolves op type v (value (by simp [scopedChildren, children]))
  | convert type operand =>
      exact Resolves.bind (value (by simp [scopedChildren, children])) fun v =>
        v.convertTo_resolves type
  | negate type operand =>
      exact Resolves.bind (value (by simp [scopedChildren, children])) fun v =>
        v.negated_resolves type
  | not type operand =>
      exact Resolves.bind (value (by simp [scopedChildren, children])) fun v => v.inverted_resolves
  | conditional test ifTrue ifFalse =>
      exact Resolves.bind (value (by simp [scopedChildren, children])) fun v =>
        chooseBranch_resolves v (value (by simp [scopedChildren, children]))
          (value (by simp [scopedChildren, children]))
  | coalesce type left right =>
      refine Resolves.bind (value (by simp [scopedChildren, children])) fun v => ?_
      split
      next => exact value (by simp [scopedChildren, children])
      next => trivial
  | lambda params body => exact absurd rfl (isOther params body)
  | construct => exact (Resolves.error (α := Value)).mpr (by simp)
  | record type form members =>
      exact Resolves.bind (evaluateMembers_resolves fun m isMember => value isMember)
        fun _ => trivial
  | newArray type items =>
      exact Resolves.bind (evaluateAll_meets fun item isItem => value isItem) fun _ => trivial
  | typeTest type target wanted test =>
      exact Resolves.bind (value (by simp [scopedChildren, children])) fun v =>
        Value.testType_resolves wanted test v

/-- Where all parameters around a tree have values, the tree asks for no other ones. -/
theorem Scoped.resolvesIn {bound : List Parameter} {e : Expr} (inScope : Scoped bound e)
    {ctx : EvalContext} (defines : ctx.Defines bound) : e.ResolvesIn ctx := by
  induction inScope generalizing ctx with
  | @node bound e here below ih =>
      by_cases isFunction : ∃ params body, e = lambda params body
      · obtain ⟨params, body, rfl⟩ := isFunction
        refine ⟨(Resolves.error (α := Value)).mpr (by simp), fun args => ?_⟩
        rw [apply, applyFunction]
        split
        next sameLength =>
          exact (ih body (List.mem_singleton_self body) (defines.bindAll sameLength)).1
        next => exact (Resolves.error (α := Value)).mpr (by simp)
      · have isOther (params : List Parameter) (body : Expr) : e ≠ lambda params body :=
          fun same => isFunction ⟨params, body, same⟩
        have plain : e.binders = [] := by
          cases e with
          | lambda params body => exact absurd rfl (isOther params body)
          | _ => rfl
        rw [plain, List.append_nil] at ih
        exact .of_value isOther (evaluate_resolves (fun p same => defines.lookup (here p same))
          (fun c isChild => ih c isChild defines) isOther)

end Expr

/-- A compiled function is closed if and only if what replaces empty sequences in it is, and its
calls never ask for a parameter that has no value, closed or not. -/
theorem compileFunction_closed_iff {env : Environment} {params : List Parameter}
    {expected? : Option Ty} {text : String} {args : List Argument} {store : Store} {e : Expr}
    (values : ∀ e, Argument.expr e ∉ args)
    (outcome : (compileFunction env params expected? text args store).1 = .ok e) :
    (e.Closed ↔ e.DefaultsBoundBy []) ∧
      ∀ now inputs name, e.call now inputs ≠ .error (.unboundParameter name) := by
  obtain ⟨body, rfl, compiled⟩ := compileFunction_eq_ok outcome
  obtain ⟨ctx, -, built⟩ := compileExpr_built values compiled
  have covers : CompileContext.Covers ([] ++ params) (· ∈ params) :=
    fun p isParam => ⟨p, isParam, beq_self_eq_true p.id⟩
  have inScope : Expr.Scoped [] (.lambda params body) := by
    refine .of_children rfl fun c isChild => ?_
    rw [List.mem_singleton.mp isChild]
    exact built.inScope covers
  refine ⟨inScope.boundBy_iff, fun now inputs name failed => ?_⟩
  have defines : (EvalContext.initial now).Defines [] := by simp [EvalContext.Defines]
  have resolves := (inScope.resolvesIn defines).2 inputs
  rw [show (Expr.lambda params body).apply (.initial now) inputs = _ from failed] at resolves
  exact resolves name rfl

/-- A sequence of integers. -/
def integersParams : List Parameter := [⟨0, "xs", .array .int32⟩]

/-- An environment without classes and named types of its own. -/
def bare : Environment := .of .initial .empty .initial

theorem compileFunction_closed_iff_skip :
    ∃ e, (compileFunction bare integersParams none "xs.Where(it > 1).Skip(xs.Count())" []
        ⟨.empty, 1⟩).1 = .ok e ∧ (e.Closed ↔ e.DefaultsBoundBy []) ∧
      ∀ now inputs name, e.call now inputs ≠ .error (.unboundParameter name) := by
  obtain ⟨e, outcome, -⟩ := exists_ok_of_any
    (show (compileFunction bare integersParams none "xs.Where(it > 1).Skip(xs.Count())" []
      ⟨.empty, 1⟩).1.toOption.any (fun _ => true) = true by decide +kernel)
  exact ⟨e, outcome, compileFunction_closed_iff (by simp) outcome⟩

/-- Whether something right below the body of a function is a parameter that nothing binds. -/
def hasLooseArgument (function : Expr) : Bool :=
  function.children.any fun body =>
    body.binders.isEmpty && body.children.any fun arg =>
      arg.parameter?.any fun q => !function.binders.any (· == q)

theorem not_closed_of_hasLooseArgument {function : Expr}
    (loose : hasLooseArgument function = true) : ¬ function.Closed := by
  intro isClosed
  obtain ⟨body, isBody, loose⟩ := List.any_eq_true.mp loose
  obtain ⟨plain, loose⟩ := (Bool.and_eq_true _ _).mp loose
  obtain ⟨arg, isArg, loose⟩ := List.any_eq_true.mp loose
  obtain ⟨q, isParameter, unbound⟩ := (Option.any_eq_true _ _).mp loose
  have arg_eq : arg = .parameter q := by
    unfold Expr.parameter? at isParameter
    split at isParameter
    next => rw [Option.some.inj isParameter]
    next => cases isParameter
  subst arg_eq
  obtain ⟨p, isBound, same⟩ := isClosed _ q (.child isBody (.child isArg .root))
  rw [List.isEmpty_iff.mp plain] at isBound
  have found : function.binders.any (· == q) = true :=
    List.any_eq_true.mpr ⟨p, by simpa using isBound, same⟩
  simp [found] at unbound

/-- What replaces an empty sequence may be an element of it, which nothing binds. -/
theorem defaultIfEmpty_element_unbound :
    ∃ e, (compileFunction bare integersParams none "xs.DefaultIfEmpty(it)" [] ⟨.empty, 1⟩).1 =
        .ok e ∧ ¬ e.Closed := by
  obtain ⟨e, outcome, loose⟩ := exists_ok_of_any
    (show (compileFunction bare integersParams none "xs.DefaultIfEmpty(it)" []
      ⟨.empty, 1⟩).1.toOption.any hasLooseArgument = true by decide +kernel)
  exact ⟨e, outcome, not_closed_of_hasLooseArgument loose⟩

end QueryTree
