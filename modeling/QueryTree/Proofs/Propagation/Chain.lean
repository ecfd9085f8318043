import QueryTree.Proofs.Compile.Level
import QueryTree.Proofs.Compile.Operation
import QueryTree.Proofs.Propagation.Guard
import QueryTree.Proofs.Propagation.Typed

/-!
# Chains and their links

The links of the chains that a text compiles to, and what such chains mean where they are protected
against null.
-/

/-!
## Links of built chains

The members and the method calls of a chain that a text compiles to are declared by the types of
what they are accessed in.
-/

namespace QueryTree

namespace Expr

/-- The members in a chain are declared by the types in which they are accessed, with the types that
they have in the chain.  Its methods have the results that they have in the chain, and those that
are called without arguments take none. -/
def Linked (table : ClassTable) : Expr → Prop
  | member type target name =>
    (∃ m, target.type.instanceMember? table name = some m ∧ m.type = type) ∧ target.Linked table
  | methodCall type method target args =>
    (method.result = some type ∧ (args = [] → method.params = [])) ∧ target.Linked table
  | _ => True

variable {table : ClassTable} {e e' : Expr}

theorem Linked.adapted (linked : e.Linked table) (isAdapted : Adapted table e e') :
    e'.Linked table := by
  cases isAdapted.recast with
  | same => exact linked
  | constant | convert => trivial

theorem linked_of_concatenates {left right : Expr} (concatenates : Concatenates table left right e) :
    e.Linked table := by
  obtain ⟨args, rfl, -⟩ := concatenates
  trivial

theorem linked_of_choose {position : Nat} {condition ifTrue ifFalse : Expr}
    (outcome : choose table position condition ifTrue ifFalse = .ok e) : e.Linked table := by
  obtain ⟨ifTrue', ifFalse', rfl, -⟩ := choose_cases outcome
  trivial

theorem Linked.propagateNull {position : Nat} {default? : Option Expr} (linked : e.Linked table)
    (outcome : e.propagateNull table position default? = .ok e') : e'.Linked table := by
  obtain rfl | ⟨first, others, -, chosen⟩ := propagateNull_cases outcome
  · exact linked
  · exact linked_of_choose chosen

theorem linked_of_ofGroup {group : OperatorGroup} {op : BinaryOp} {token : Token}
    {left right : Expr} (outcome : ofGroup table group op token left right = .ok e) :
    e.Linked table := by
  obtain ⟨l, r, rfl, -⟩ := ofGroup_cases outcome
  trivial

theorem linked_of_constructOf {type : Ty} {position : Nat} {args : List Expr}
    (each : ∀ a ∈ args, a.Linked table)
    (outcome : constructOf table type position args = .ok e) : e.Linked table := by
  obtain ⟨arg, rfl, isAdapted⟩ | ⟨params, args', rfl, -⟩ := constructOf_cases outcome
  · exact (each arg (List.mem_singleton_self arg)).adapted isAdapted
  · trivial

end Expr

namespace CompileContext

open QueryTree.Expr (Linked)

variable {ctx : CompileContext} {tokens : List Token} {granted : Expr → Prop}
  {visible : Parameter → Prop} {receiver : Receiver} {name : String} {position : Nat} {e : Expr}

/-- The first declared member with a name is the one with its own name. -/
theorem instanceMember?_of_declared {type : Ty} {m : Member}
    (found : ((type.members ctx.env.classes).find? fun m =>
      m.isStatic == false && ctx.env.options.sameName m.name name) = some m) :
    type.instanceMember? ctx.env.classes m.name = some m := by
  obtain ⟨suits, before, after, members, earlier⟩ := List.find?_eq_some_iff_append.mp found
  obtain ⟨isInstance, named⟩ := (Bool.and_eq_true _ _).mp suits
  refine List.find?_eq_some_iff_append.mpr ⟨?_, before, after, members, fun other isEarlier => ?_⟩
  · simp [beq_iff_eq.mp isInstance]
  · have unsuited := earlier other isEarlier
    simp only [Bool.not_eq_true', Bool.and_eq_false_iff] at unsuited ⊢
    obtain isStatic | unnamed := unsuited
    · exact .inl (by simpa using isStatic)
    · exact .inr (beq_eq_false_iff_ne.mpr fun same => by simp [same, named] at unnamed)

theorem namedMember_linked (linked : ∀ r ∈ receiver.value?, r.Linked ctx.env.classes)
    (outcome : ctx.namedMember receiver name position = .ok e) : e.Linked ctx.env.classes := by
  rw [namedMember] at outcome
  split at outcome
  next constant isConstant =>
    obtain rfl := Except.ok.inj outcome
    obtain ⟨_, _, _, -, -, -, rfl⟩ := enumMember?_eq_some isConstant
    trivial
  next =>
    split at outcome
    next =>
      obtain rfl := Except.ok.inj outcome
      trivial
    next =>
      split at outcome
      next found isFound =>
        obtain rfl := Except.ok.inj outcome
        rw [Option.orElse_eq_orElse, Option.orElse_eq_or] at isFound
        obtain declared | ⟨-, indexed⟩ := Option.or_eq_some_iff.mp isFound
        · obtain ⟨m, isMember, rfl⟩ := Option.map_eq_some_iff.mp declared
          cases receiver with
          | type t => trivial
          | value r => exact ⟨⟨m, instanceMember?_of_declared isMember, rfl⟩, linked r rfl⟩
        · unfold indexedMember? at indexed
          split at indexed
          next => cases indexed
          next =>
            obtain ⟨r, -, found⟩ := Option.bind_eq_some_iff.mp indexed
            obtain ⟨indexer, -, rfl⟩ := Option.map_eq_some_iff.mp found
            trivial
      next => cases outcome

/-- What is promoted to no arguments at all are the arguments of no parameters. -/
theorem params_eq_nil {mode : Promotion} {params : List Ty} {args promoted : List Expr}
    (fits : Expr.promoteAll? ctx.env.classes mode params args = some promoted)
    (none : promoted = []) : params = [] := by
  cases params with
  | nil => rfl
  | cons target targets =>
      cases args with
      | nil => cases fits
      | cons e es =>
          obtain ⟨first, -, further⟩ := Option.bind_eq_some_iff.mp fits
          obtain ⟨rest, -, same⟩ := Option.bind_eq_some_iff.mp further
          cases none.symm.trans (Option.some.inj same).symm

theorem methodCall_linked {args : List Expr}
    (linked : ∀ r ∈ receiver.value?, r.Linked ctx.env.classes)
    (outcome : ctx.methodCall receiver name position args = .ok e) : e.Linked ctx.env.classes := by
  unfold methodCall at outcome
  simp only at outcome
  split at outcome
  next => cases outcome
  next => cases outcome
  next method promoted found =>
    obtain ⟨-, -, -, fits⟩ := Ty.resolveMethod_found found
    split at outcome
    next => cases outcome
    next =>
      split at outcome
      next => cases outcome
      next type yields =>
        obtain rfl := Except.ok.inj outcome
        cases receiver with
        | type t => trivial
        | value r => exact ⟨⟨yields, params_eq_nil fits⟩, linked r rfl⟩

/-- The links of a built tree are declared, if those of the supplied expressions are. -/
theorem Built.linked (granted_linked : ∀ e, granted e → e.Linked ctx.env.classes)
    (built : ctx.Built tokens granted visible e) : e.Linked ctx.env.classes := by
  induction built with
  | literal read =>
      obtain ⟨value, text, rfl, -⟩ := read.isLiteral
      trivial
  | granted isGranted => exact granted_linked _ isGranted
  | sign _ outcome =>
      obtain ⟨operand', -, rfl | rfl⟩ := Expr.sign_cases outcome <;> trivial
  | product _ _ _ outcome | shift _ _ _ outcome | logical _ _ _ outcome =>
      exact Expr.linked_of_ofGroup outcome
  | sum _ _ outcome =>
      obtain concatenates | ⟨l, r, rfl, -⟩ := Expr.sum_cases outcome
      · exact Expr.linked_of_concatenates concatenates
      · trivial
  | difference _ _ outcome =>
      obtain ⟨l, r, rfl, -⟩ := Expr.difference_cases outcome
      trivial
  | comparison _ _ _ outcome =>
      obtain ⟨l, r, method, rfl, -⟩ := Expr.comparison_cases outcome
      trivial
  | bitConjunction _ _ outcome =>
      obtain ⟨left₁, right₁, -, -, concatenates | ⟨l, r, rfl, -⟩⟩ := Expr.conjunction_cases outcome
      · exact Expr.linked_of_concatenates concatenates
      · trivial
  | bitDisjunction _ _ outcome =>
      obtain ⟨l, r, rfl, -⟩ := Expr.disjunction_cases ctx.env.classes outcome
      trivial
  | isItem _ _ outcome =>
      obtain ⟨l, r, rfl, -⟩ := Expr.isItem_cases outcome
      trivial
  | isContained _ _ outcome =>
      obtain ⟨element, item', -, -, rfl⟩ := Expr.isContained_cases outcome
      trivial
  | choose _ _ _ outcome => exact Expr.linked_of_choose outcome
  | orElseValue _ _ outcome =>
      obtain ⟨type, l, r, rfl, -⟩ := Expr.orElseValue_cases outcome
      trivial
  | propagateNull _ _ outcome chain_linked => exact chain_linked.propagateNull outcome
  | convertTo _ outcome inner => exact inner.adapted (Expr.convertTo_adapted outcome)
  | constructOf _ outcome each => exact Expr.linked_of_constructOf each outcome
  | methodCall _ _ outcome receiver_linked => exact methodCall_linked receiver_linked outcome
  | namedMember _ _ _ outcome receiver_linked => exact namedMember_linked receiver_linked outcome
  | indexAccess _ _ outcome =>
      obtain ⟨type, args', rfl, -⟩ := indexAccess_cases outcome
      trivial
  | newArray _ outcome =>
      obtain ⟨element, items', rfl, -⟩ := newArray_cases outcome
      trivial
  | newOfType _ outcome each =>
      obtain constructed | ⟨members, rfl, -⟩ := newOfType_cases outcome
      · refine Expr.linked_of_constructOf (fun a isArg => ?_) constructed
        obtain ⟨item, isItem, rfl⟩ := List.mem_map.mp isArg
        exact each item isItem
      · trivial
  | promoted _ outcome inner => exact inner.adapted (.of_promote? outcome)
  | value | null | type | parameter | invoke | eitherItem | typeTest | aggregate | typedAggregate
  | projection | lambda => trivial

end CompileContext

end QueryTree

/-!
## Chains protected against null

The links of an expression, and what a chain of them means where it is protected against null.
-/

namespace QueryTree.Expr

/-! ### Links of chains

An expression as a chain of members, method calls and sequence operations from some start on.  The
parts of a protected chain are its links; the start is none of them.
-/

variable {values : EvalContext} {error : EvalError} {start e target link q tree : Expr}
  {links before after : List Expr}

/-- A member, a method call or a sequence operation, with what it is accessed in. -/
inductive LinkOf (target : Expr) : Expr → Prop where
  | member {type name} : LinkOf target (member type target name)
  | methodCall {type method args} : LinkOf target (methodCall type method target args)
  | aggregate {type operation typeArgs args} :
      LinkOf target (aggregate type operation target typeArgs args)

namespace LinkOf

theorem receiver?_eq (isLink : LinkOf target link) : link.receiver? = some target := by
  cases isLink <;> rfl

theorem value?_eq (isLink : LinkOf target link) : link.value? = none := by
  cases isLink <;> rfl

theorem chainReceivers_eq (isLink : LinkOf target link) : link.chainReceivers =
    if target.receiver?.isSome then target :: target.chainReceivers else [] := by
  cases isLink <;> rfl

/-- What a link is accessed in is evaluated first. -/
theorem evaluate_error (isLink : LinkOf target link) (failed : target.evaluate values = .error error) :
    link.evaluate values = .error error := by
  cases isLink with
  | member | methodCall | aggregate =>
      rw [evaluate, failed]
      rfl

end LinkOf

/-- A chain of links from a start on, the link at the start first and the chain itself last. -/
inductive Spine (start : Expr) : Expr → List Expr → Prop where
  | start : Spine start start []
  | link {earlier : Expr} {next : Expr} {others : List Expr} (chain : Spine start earlier others)
      (isLink : LinkOf earlier next) : Spine start next (others ++ [next])

namespace Spine

theorem value?_eq (spine : Spine start e links) (hasLink : links ≠ []) : e.value? = none := by
  cases spine with
  | start => exact absurd rfl hasLink
  | link _ isLink => exact isLink.value?_eq

theorem receiver?_eq (spine : Spine start e links) (noReceiver : start.receiver? = none) :
    (e.receiver? = none ∧ links = []) ∨ e.receiver?.isSome = true ∧ links ≠ [] := by
  cases spine with
  | start => exact .inl ⟨noReceiver, rfl⟩
  | link _ isLink => exact .inr ⟨by rw [isLink.receiver?_eq]; rfl, by simp⟩

/-- The receivers of a chain are its links. -/
theorem receivers_eq (spine : Spine start e links) (noReceiver : start.receiver? = none)
    (hasLink : links ≠ []) : e.chainReceivers.reverse ++ [e] = links := by
  induction spine with
  | start => exact absurd rfl hasLink
  | link earlier isLink ih =>
      rw [isLink.chainReceivers_eq]
      obtain ⟨isStart, rfl⟩ | ⟨isReceiver, further⟩ := earlier.receiver?_eq noReceiver
      · rw [isStart]
        rfl
      · rw [if_pos isReceiver, List.reverse_cons, ih further]

theorem guarded_eq (spine : Spine start e links) (noReceiver : start.receiver? = none)
    (hasLink : links ≠ []) : e.guarded = links.filter (·.type.admitsNull) := by
  rw [guarded, spine.receivers_eq noReceiver hasLink]

/-- The last link of a chain is the chain. -/
theorem mem_of_append_cons (spine : Spine start e (before ++ q :: after)) : e ∈ q :: after := by
  have isLast : (before ++ q :: after).getLast? = some e := by
    generalize whole : before ++ q :: after = links at spine
    cases spine with
    | start => simp at whole
    | link => exact List.getLast?_concat
  rw [List.getLast?_append_cons] at isLast
  exact List.mem_of_getLast? isLast

/-- Behind a link that fails every link fails. -/
theorem evaluate_error (spine : Spine start e links) (isLink : links = before ++ q :: after)
    (failed : q.evaluate values = .error error) :
    ∀ r ∈ q :: after, r.evaluate values = .error error := by
  induction spine generalizing after with
  | start => simp at isLink
  | link earlier further ih =>
      obtain rfl | ⟨after, last, rfl⟩ := after.eq_nil_or_concat'
      · exact List.forall_mem_singleton.mpr failed
      · rw [← List.cons_append, ← List.append_assoc] at isLink
        obtain ⟨rfl, isLast⟩ := List.append_inj' isLink rfl
        obtain rfl := List.singleton_inj.mp isLast
        have each := ih rfl
        rw [← List.cons_append]
        refine List.forall_mem_append.mpr ⟨each, List.forall_mem_singleton.mpr ?_⟩
        exact further.evaluate_error (each _ earlier.mem_of_append_cons)

/-- Where a link fails the whole chain fails likewise, protected or not. -/
theorem whereNoneNull_error {type : Ty} (spine : Spine start e (before ++ q :: after))
    (some : ∀ b ∈ before, b.HasSome values) (failed : q.evaluate values = .error error)
    (brought : e.BroughtTo type tree) (ifFalse : Expr) :
    (whereNoneNull ((before ++ q :: after).filter (·.type.admitsNull)) tree ifFalse).evaluate
      values = .error error := by
  have someGuarded : ∀ part ∈ before.filter (·.type.admitsNull), part.HasSome values :=
    fun part isGuarded => some part (List.mem_of_mem_filter isGuarded)
  have fails := spine.evaluate_error rfl failed
  rw [List.filter_append]
  -- The first test that is left fails, or without one the chain does.
  cases rest : (q :: after).filter (·.type.admitsNull) with
  | nil =>
      rw [List.append_nil, evaluate_whereNoneNull_true someGuarded]
      exact brought.evaluate_error (spine.value?_eq (by simp)) (fails e spine.mem_of_append_cons)
  | cons part others =>
      have isPart : part ∈ (q :: after).filter (·.type.admitsNull) := rest ▸ List.mem_cons_self
      exact evaluate_whereNoneNull_error someGuarded
        (fails part (List.mem_of_mem_filter isPart)) _ _ _

end Spine

end QueryTree.Expr

namespace QueryTree.Expr

/-! ### Member chains protected against null

A chain of members and of built-in methods that starts at a parameter.  Protected against null it
has the value of the chain where no prefix is null, and otherwise that of the default; what stands
behind the first null counts for nothing.
-/

variable {values : EvalContext} {table : ClassTable} {position : Nat} {e tree : Expr}
  {default? : Option Expr} {p : Parameter} {prefixes : List Expr} {v : Value}

section Chain

/-- A chain of members and of built-in methods without arguments that starts at a parameter, with
its prefixes, the shortest one first and the chain itself last. -/
inductive Chain (p : Parameter) : Expr → List Expr → Prop where
  | start : Chain p (parameter p) []
  | member {type target name prefixes} (before : Chain p target prefixes) :
      Chain p (member type target name) (prefixes ++ [member type target name])
  | call {type method target prefixes} (before : Chain p target prefixes)
      (builtIn : method = .toText ∨ target.type = .string ∧ method ∈ Method.ofString) :
      Chain p (methodCall type method target []) (prefixes ++ [methodCall type method target []])

/-- An expression has a value other than null that is read as its type says. -/
structure EvaluatesTyped (values : EvalContext) (table : ClassTable) (e : Expr) (v : Value) :
    Prop where
  evaluated : e.evaluate values = .ok v
  notNull : v.isNull = false
  typed : v.IsTyped table e.type

section Links

variable {target : Expr} (isTyped : EvaluatesTyped values table target v)

include isTyped

theorem EvaluatesTyped.member_meets {type : Ty} {name : String}
    (linked : (member type target name).Linked table) :
    ((member type target name).evaluate values).Meets EvalError.IsOther (·.IsTyped table type) := by
  obtain ⟨⟨m, isMember, rfl⟩, -⟩ := linked
  rw [evaluate, isTyped.evaluated]
  exact isTyped.typed.ofMember_meets isTyped.notNull isMember

theorem EvaluatesTyped.call_meets {type : Ty} {method : Method}
    (builtIn : method = .toText ∨ target.type = .string ∧ method ∈ Method.ofString)
    (linked : (methodCall type method target []).Linked table) :
    ((methodCall type method target []).evaluate values).Meets EvalError.IsOther
      (·.IsTyped table type) := by
  obtain ⟨⟨result, noParams⟩, -⟩ := linked
  obtain ⟨isText, s, called⟩ :=
    isTyped.typed.callMethod_eq isTyped.notNull builtIn (noParams rfl)
  obtain rfl : .string = type := Option.some.inj (isText.symm.trans result)
  rw [evaluate, isTyped.evaluated]
  change (Value.callMethod method (some v) []).Meets _ _
  rw [called]
  exact Value.string_isTyped s

end Links

namespace Chain

/-- The prefixes of a chain are its links. -/
theorem spine (chain : Chain p e prefixes) : Spine (parameter p) e prefixes := by
  induction chain with
  | start => exact .start
  | member _ ih => exact .link ih .member
  | call _ _ ih => exact .link ih .methodCall

theorem value?_eq (chain : Chain p e prefixes) : e.value? = none := by
  cases chain <;> rfl

/-- Every prefix of a chain is a chain, of the prefixes up to it. -/
theorem of_prefix {before after : List Expr} {q : Expr} (chain : Chain p e prefixes)
    (linked : e.Linked table) (isPrefix : prefixes = before ++ q :: after) :
    Chain p q (before ++ [q]) ∧ q.Linked table := by
  have link {prefixes after : List Expr} {link : Expr} (whole : Chain p link (prefixes ++ [link]))
      (linked : link.Linked table) (isPrefix : prefixes ++ [link] = before ++ q :: after)
      (ih : ∀ after, prefixes = before ++ q :: after → Chain p q (before ++ [q]) ∧ q.Linked table) :
      Chain p q (before ++ [q]) ∧ q.Linked table := by
    obtain rfl | ⟨after, last, rfl⟩ := after.eq_nil_or_concat'
    · obtain ⟨rfl, isLast⟩ := List.append_inj' isPrefix rfl
      obtain rfl := List.singleton_inj.mp isLast
      exact ⟨whole, linked⟩
    · rw [← List.cons_append, ← List.append_assoc] at isPrefix
      exact ih after (List.append_inj' isPrefix rfl).1
  induction chain generalizing after with
  | start => simp at isPrefix
  | member before ih => exact link (.member before) linked isPrefix fun _ => ih linked.2
  | call before builtIn ih =>
      exact link (.call before builtIn) linked isPrefix fun _ => ih linked.2

variable {start : Value} (isStart : EvaluatesTyped values table (parameter p) start)

include isStart

/-- A chain without null in it has a value as its type says. -/
theorem evaluatesTyped (chain : Chain p e prefixes) (linked : e.Linked table)
    (some : ∀ q ∈ prefixes, q.HasSome values) : ∃ v, EvaluatesTyped values table e v := by
  have next {link : Expr} (has : link.HasSome values)
      (meets : (link.evaluate values).Meets EvalError.IsOther (·.IsTyped table link.type)) :
      ∃ v, EvaluatesTyped values table link v := by
    obtain ⟨v, evaluated, notNull⟩ := has
    rw [evaluated] at meets
    exact ⟨v, evaluated, notNull, meets⟩
  induction chain with
  | start => exact ⟨start, isStart⟩
  | member before ih =>
      obtain ⟨some, last⟩ := List.forall_mem_append.mp some
      obtain ⟨v, isTyped⟩ := ih linked.2 some
      exact next (last _ (List.mem_singleton_self _)) (isTyped.member_meets linked)
  | call before builtIn ih =>
      obtain ⟨some, last⟩ := List.forall_mem_append.mp some
      obtain ⟨v, isTyped⟩ := ih linked.2 some
      exact next (last _ (List.mem_singleton_self _)) (isTyped.call_meets builtIn linked)

/-- The first prefix that may be null has a value as its type says, or fails for another reason than
null. -/
theorem first_meets {before : List Expr} {q : Expr} (chain : Chain p q (before ++ [q]))
    (linked : q.Linked table) (some : ∀ b ∈ before, b.HasSome values) :
    (q.evaluate values).Meets EvalError.IsOther (·.IsTyped table q.type) := by
  generalize whole : before ++ [q] = prefixes at chain
  cases chain with
  | start => simp at whole
  | member earlier =>
      obtain ⟨rfl, -⟩ := List.append_inj' whole rfl
      obtain ⟨v, isTyped⟩ := earlier.evaluatesTyped isStart linked.2 some
      exact isTyped.member_meets linked
  | call earlier builtIn =>
      obtain ⟨rfl, -⟩ := List.append_inj' whole rfl
      obtain ⟨v, isTyped⟩ := earlier.evaluatesTyped isStart linked.2 some
      exact isTyped.call_meets builtIn linked

end Chain

/-- A tree stands for a chain that is protected against null by a default, or by null itself. -/
structure Protects (values : EvalContext) (prefixes : List Expr) (e : Expr)
    (default? : Option Expr) (tree : Expr) : Prop where
  /-- Without null in it the chain counts. -/
  value : (∀ q ∈ prefixes, q.HasSome values) →
    tree.evaluate values = e.evaluate values >>= (·.convertTo tree.type)
  /-- Where a prefix is null the default counts.  The tests behind the one of this prefix and the
  chain do not, whatever they are. -/
  default : ∀ before q after, prefixes = before ++ q :: after →
    (∀ b ∈ before, b.HasSome values) → q.evaluate values = .ok .null →
      ∃ ifTrue brought, (default?.getD nullLiteral).BroughtTo tree.type brought ∧
        tree = whereNoneNull (prefixes.filter (·.type.admitsNull)) ifTrue brought ∧
        tree.evaluate values = brought.evaluate values ∧
        (default? = none → tree.evaluate values = .ok .null) ∧
        ∀ others ifTrue, (whereNoneNull (before.filter (·.type.admitsNull) ++ q :: others)
          ifTrue brought).evaluate values = brought.evaluate values
  /-- Where a prefix fails the tree fails likewise, and not for null. -/
  failure : ∀ before q after error, prefixes = before ++ q :: after →
    (∀ b ∈ before, b.HasSome values) → q.evaluate values = .error error →
      error.IsOther ∧ tree.evaluate values = .error error

section Protection

variable {ifTrue ifFalse : Expr}

/-- A branch that is brought to its type is converted. -/
theorem EvaluatesTyped.brought {type : Ty} (isTyped : EvaluatesTyped values table e v)
    (noConstant : e.value? = none) (brought : e.BroughtTo type tree) :
    tree.evaluate values = e.evaluate values >>= (·.convertTo tree.type) := by
  obtain rfl | rfl := brought.of_value? noConstant
  · rw [isTyped.evaluated]
    exact isTyped.typed.convertTo_eq.symm
  · rw [evaluate]
    rfl

section First

variable {before after : List Expr} {q : Expr} {start : Value}
  (chain : Chain p e (before ++ q :: after)) (linked : e.Linked table)
  (isStart : EvaluatesTyped values table (parameter p) start)
  (some : ∀ b ∈ before, b.HasSome values)

include chain linked isStart some

/-- The first prefix that is null is of a type that admits null. -/
theorem Chain.admitsNull (isNull : q.evaluate values = .ok .null) : q.type.admitsNull = true := by
  obtain ⟨isChain, isLinked⟩ := chain.of_prefix linked rfl
  have typed := isChain.first_meets isStart isLinked some
  rw [isNull] at typed
  exact Value.IsTyped.admitsNull typed rfl

theorem Chain.isOther {error : EvalError} (failed : q.evaluate values = .error error) :
    error.IsOther := by
  obtain ⟨isChain, isLinked⟩ := chain.of_prefix linked rfl
  have fails := isChain.first_meets isStart isLinked some
  rwa [failed] at fails

end First

variable {start : Value} (chain : Chain p e prefixes) (linked : e.Linked table)
  (isStart : EvaluatesTyped values table (parameter p) start)

include chain linked isStart

/-- A chain in which nothing may be null needs no protection. -/
theorem Chain.protects_self (unguarded : prefixes.filter (·.type.admitsNull) = []) :
    Protects values prefixes e default? e where
  value some := by
    obtain ⟨v, isTyped⟩ := chain.evaluatesTyped isStart linked some
    exact isTyped.brought chain.value?_eq (.same BEq.rfl)
  default before q after isPrefix some isNull := by
    subst isPrefix
    have isGuarded : q ∈ (before ++ q :: after).filter (·.type.admitsNull) :=
      List.mem_filter.mpr ⟨by simp, chain.admitsNull linked isStart some isNull⟩
    simp [unguarded] at isGuarded
  failure before q after error isPrefix some failed := by
    subst isPrefix
    exact ⟨chain.isOther linked isStart some failed,
      chain.spine.evaluate_error rfl failed _ chain.spine.mem_of_append_cons⟩

theorem Chain.protects_whereNoneNull {type : Ty} (isTrue : e.BroughtTo type ifTrue)
    (isFalse : (default?.getD nullLiteral).BroughtTo ifTrue.type ifFalse) :
    Protects values prefixes e default?
      (whereNoneNull (prefixes.filter (·.type.admitsNull)) ifTrue ifFalse) := by
  have someGuarded {others : List Expr} (some : ∀ q ∈ others, q.HasSome values) :
      ∀ q ∈ others.filter (·.type.admitsNull), q.HasSome values :=
    fun q isGuarded => some q (List.mem_of_mem_filter isGuarded)
  refine ⟨fun some => ?_, fun before q after isPrefix some isNull => ?_,
    fun before q after error isPrefix some failed => ?_⟩
  · obtain ⟨v, isTyped⟩ := chain.evaluatesTyped isStart linked some
    rw [evaluate_whereNoneNull_true (someGuarded some), type_whereNoneNull]
    exact isTyped.brought chain.value?_eq isTrue
  · subst isPrefix
    have parts : (before ++ q :: after).filter (·.type.admitsNull) =
        before.filter (·.type.admitsNull) ++ q :: after.filter (·.type.admitsNull) := by
      simp [chain.admitsNull linked isStart some isNull]
    have isDefault : (whereNoneNull ((before ++ q :: after).filter (·.type.admitsNull)) ifTrue
        ifFalse).evaluate values = ifFalse.evaluate values := by
      rw [parts]
      exact evaluate_whereNoneNull_false (someGuarded some) isNull _ _
    refine ⟨ifTrue, ifFalse, (type_whereNoneNull _).symm ▸ isFalse, rfl, isDefault, ?_,
      evaluate_whereNoneNull_false (someGuarded some) isNull⟩
    rintro rfl
    exact isDefault.trans isFalse.evaluate_null
  · subst isPrefix
    exact ⟨chain.isOther linked isStart some failed,
      chain.spine.whereNoneNull_error some failed isTrue ifFalse⟩

/-- A chain of several links is protected against null. -/
theorem Chain.protects (several : 2 ≤ prefixes.length)
    (made : e.propagateNull table position default? = .ok tree) :
    Protects values prefixes e default? tree := by
  have isLink : prefixes ≠ [] := fun none => by simp [none] at several
  have receivers := chain.spine.receivers_eq rfl isLink
  have guarded_eq := chain.spine.guarded_eq rfl isLink
  have further : e.chainReceivers ≠ [] := fun none => by
    rw [none] at receivers
    simp [← receivers] at several
  obtain ⟨rfl, single | unguarded⟩ | ⟨-, -, ifTrue, ifFalse, unified, rfl⟩ :=
    propagateNull_eq_ok made
  · exact absurd single.1 further
  · exact chain.protects_self linked isStart (guarded_eq ▸ unguarded)
  · obtain ⟨⟨type, isTrue⟩, isFalse⟩ := unified.broughtTo
    rw [guarded_eq]
    exact chain.protects_whereNoneNull linked isStart isTrue isFalse

end Protection

end Chain

end QueryTree.Expr
