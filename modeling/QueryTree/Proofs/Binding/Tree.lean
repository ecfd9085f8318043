import QueryTree.Proofs.Compile.Operation
import QueryTree.Proofs.Compile.Text
import QueryTree.Proofs.Expr.Everywhere

/-!
# Parameters of built trees

In a built tree every parameter is bound where it occurs, other than in what replaces an empty
sequence.
-/

/-!
## Occurrences of parameters

Where a node occurs in a tree, below which binders, and whether the parameters in a tree are bound.
An argument of one operation on sequences is set apart: it is a value, and yet it may refer to the
element of the operation, which nothing binds.
-/

namespace QueryTree.Expr

/-- The parameters that a node binds in its children. -/
def binders : Expr → List Parameter
  | lambda params _ => params
  | _ => []

/-- A node occurs in a tree, below nodes that bind some parameters, the outermost first. -/
inductive Occurs : List Parameter → Expr → Expr → Prop where
  | root {e} : Occurs [] e e
  | child {bound node e c} (isChild : c ∈ e.children) (inside : Occurs bound node c) :
      Occurs (e.binders ++ bound) node e

theorem Occurs.trans {outer inner : List Parameter} {node middle e : Expr}
    (above : Occurs outer middle e) (inside : Occurs inner node middle) :
    Occurs (outer ++ inner) node e := by
  induction above with
  | root => exact inside
  | child isChild _ ih =>
      rw [List.append_assoc]
      exact .child isChild (ih inside)

theorem sizeOf_child {e c : Expr} (isChild : c ∈ e.children) : sizeOf c < sizeOf e := by
  cases e with
  | constant | parameter | staticMember => simp [children] at isChild
  | record type shape members =>
      obtain ⟨⟨name, member⟩, isEntry, rfl⟩ := List.mem_map.mp isChild
      have entry_lt := List.sizeOf_lt_of_mem isEntry
      simp only [Prod.mk.sizeOf_spec] at entry_lt
      simp only [record.sizeOf_spec]
      omega
  | staticCall _ _ args | construct _ args | newArray _ args =>
      have arg_lt : sizeOf c < sizeOf args := List.sizeOf_lt_of_mem isChild
      simp only [staticCall.sizeOf_spec, construct.sizeOf_spec, newArray.sizeOf_spec]
      omega
  | index _ target args | methodCall _ _ target args | aggregate _ _ target _ args
  | invoke _ target args =>
      have child_le : sizeOf c < 1 + sizeOf target + sizeOf args := by
        obtain rfl | isArg := List.mem_cons.mp isChild
        · omega
        · have arg_lt := List.sizeOf_lt_of_mem isArg
          omega
      simp only [index.sizeOf_spec, methodCall.sizeOf_spec, aggregate.sizeOf_spec,
        invoke.sizeOf_spec]
      omega
  | member | binary | convert | negate | not | conditional | coalesce | lambda | typeTest =>
      simp only [children, List.mem_cons, List.not_mem_nil, or_false] at isChild
      rcases isChild with rfl | rfl | rfl <;> simp <;> omega

/-- What holds of every node that occurs in a tree holds everywhere in it. -/
theorem everywhere_of_occurs {rule : Expr → Prop} {e : Expr}
    (each : ∀ bound node, Occurs bound node e → rule node) : e.Everywhere rule :=
  .node (each [] e .root) fun c isChild =>
    everywhere_of_occurs fun bound node inside => each _ node (.child isChild inside)
termination_by sizeOf e
decreasing_by exact sizeOf_child isChild

/-- Every parameter that occurs in a tree is one of the given ones or bound in the tree. -/
def BoundBy (bound : List Parameter) (e : Expr) : Prop :=
  ∀ inner p, Occurs inner (parameter p) e → ∃ q ∈ bound ++ inner, q == p

/-- Every parameter that occurs in a tree is bound by a function around it. -/
def Closed (e : Expr) : Prop := e.BoundBy []

/-- The arguments of the operations that replace an empty sequence refer only to what is bound
around the operation. -/
def DefaultsBoundBy (bound : List Parameter) (e : Expr) : Prop :=
  ∀ inner type source typeArgs args,
    Occurs inner (aggregate type .defaultIfEmpty source typeArgs args) e →
      ∀ a ∈ args, a.BoundBy (bound ++ inner)

/-- The children of a node, but only the source of an operation that replaces an empty sequence. -/
def scopedChildren : Expr → List Expr
  | aggregate _ .defaultIfEmpty source _ _ => [source]
  | e => e.children

theorem mem_scopedChildren {e c : Expr} (isChild : c ∈ e.children) :
    c ∈ e.scopedChildren ∨
      ∃ type source typeArgs args, e = aggregate type .defaultIfEmpty source typeArgs args ∧
        c ∈ args := by
  unfold scopedChildren
  split
  next =>
    obtain rfl | isArg := List.mem_cons.mp isChild
    · exact .inl (by simp)
    · exact .inr ⟨_, _, _, _, rfl, isArg⟩
  next => exact .inl isChild

/-- Every parameter that occurs in a tree, other than in what replaces an empty sequence, is one of
the given ones or bound in the tree. -/
inductive Scoped : List Parameter → Expr → Prop where
  | node {bound e} (here : ∀ p, e = parameter p → ∃ q ∈ bound, q == p)
      (below : ∀ c ∈ e.scopedChildren, Scoped (bound ++ e.binders) c) : Scoped bound e

theorem DefaultsBoundBy.child {bound : List Parameter} {e c : Expr}
    (defaults : e.DefaultsBoundBy bound) (isChild : c ∈ e.children) :
    c.DefaultsBoundBy (bound ++ e.binders) := by
  intro inner type source typeArgs args occurs
  rw [List.append_assoc]
  exact defaults _ type source typeArgs args (.child isChild occurs)

theorem BoundBy.defaults {bound : List Parameter} {e : Expr} (isBound : e.BoundBy bound) :
    e.DefaultsBoundBy bound := by
  intro outer type source typeArgs args occurs a isArg inner p inside
  have isChild : a ∈ (aggregate type .defaultIfEmpty source typeArgs args).children :=
    List.mem_cons_of_mem _ isArg
  rw [List.append_assoc]
  exact isBound _ p (occurs.trans (.child isChild inside))

namespace Scoped

variable {bound : List Parameter}

theorem of_children {e : Expr} (isOther : e.parameter? = none)
    (below : ∀ c ∈ e.scopedChildren, Scoped (bound ++ e.binders) c) : Scoped bound e :=
  .node (fun p isParameter => by simp [isParameter, parameter?] at isOther) below

/-- The children of a node that binds nothing see what the node sees. -/
theorem of_plain {e : Expr} (isOther : e.parameter? = none) (plain : e.binders = [])
    (below : ∀ c ∈ e.children, Scoped bound c) : Scoped bound e := by
  refine of_children isOther fun c isChild => ?_
  rw [plain, List.append_nil]
  unfold scopedChildren at isChild
  split at isChild
  next => exact below c (List.mem_cons.mpr (.inl (List.mem_singleton.mp isChild)))
  next => exact below c isChild

theorem constant {type : Ty} {value : Value} {literal? : Option String} :
    Scoped bound (Expr.constant type value literal?) :=
  of_plain rfl rfl (by simp [children])

theorem recast {e recast : Expr} (inScope : Scoped bound e) (isRecast : Recast e recast) :
    Scoped bound recast := by
  induction isRecast with
  | same => exact inScope
  | constant => exact constant
  | convert _ ih => exact of_plain rfl rfl (by simpa [children] using ih)

theorem recast_all {es recasts : List Expr} (each : ∀ e ∈ es, Scoped bound e)
    (areRecasts : List.Forall₂ Recast es recasts) : ∀ e ∈ recasts, Scoped bound e := by
  induction areRecasts with
  | nil => simp
  | cons isRecast _ ih =>
      obtain ⟨head, tail⟩ := List.forall_mem_cons.mp each
      exact List.forall_mem_cons.mpr ⟨head.recast isRecast, ih tail⟩

/-- All parameters are bound if those in what replaces an empty sequence are. -/
theorem boundBy {e : Expr} (inScope : Scoped bound e) (defaults : e.DefaultsBoundBy bound) :
    e.BoundBy bound := by
  induction inScope with
  | @node bound e here below ih =>
      intro inner p occurs
      cases occurs with
      | root =>
          rw [List.append_nil]
          exact here p rfl
      | @child inner _ _ c isChild inside =>
          rw [← List.append_assoc]
          obtain isScoped | ⟨type, source, typeArgs, args, rfl, isArg⟩ := mem_scopedChildren isChild
          · exact ih c isScoped (defaults.child isChild) _ p inside
          · exact defaults [] type source typeArgs args .root c isArg _ p inside

theorem boundBy_iff {e : Expr} (inScope : Scoped bound e) :
    e.BoundBy bound ↔ e.DefaultsBoundBy bound :=
  ⟨BoundBy.defaults, inScope.boundBy⟩

end Scoped

end QueryTree.Expr

namespace QueryTree

namespace Expr.Scoped

variable {table : ClassTable} {bound : List Parameter}

theorem adapted {e e' : Expr} (inScope : Scoped bound e) (isAdapted : Adapted table e e') :
    Scoped bound e' :=
  inScope.recast isAdapted.recast

theorem adapted_all {es all : List Expr} (each : ∀ e ∈ es, Scoped bound e)
    (areAdapted : List.Forall₂ (Adapted table) es all) : ∀ e ∈ all, Scoped bound e :=
  recast_all each (Adapted.recast_all areAdapted)

theorem binary {type : Ty} {op : BinaryOp} {left right : Expr} {method : Option String}
    (left_scoped : Scoped bound left) (right_scoped : Scoped bound right) :
    Scoped bound (Expr.binary type op left right method) :=
  of_plain rfl rfl (by simp [children, left_scoped, right_scoped])

theorem chainReceivers {chain : Expr} (inScope : Scoped bound chain) :
    ∀ e ∈ chain.chainReceivers, Scoped bound e := by
  induction inScope with
  | @node bound chain here below ih =>
      have receivers (target : Expr) (isChild : target ∈ chain.scopedChildren)
          (plain : chain.binders = []) :
          ∀ e ∈ (if target.receiver?.isSome then target :: target.chainReceivers else []),
            Scoped bound e := by
        have target_scoped := below target isChild
        have targets_scoped := ih target isChild
        rw [plain, List.append_nil] at target_scoped targets_scoped
        split
        next => exact List.forall_mem_cons.mpr ⟨target_scoped, targets_scoped⟩
        next => simp
      cases chain with
      | member _ target _ | methodCall _ _ target _ | invoke _ target _ =>
          exact receivers target (by simp [scopedChildren, children]) rfl
      | aggregate _ operation source _ _ =>
          exact receivers source (by cases operation <;> simp [scopedChildren, children]) rfl
      | _ => simp [Expr.chainReceivers]

theorem allTests {first : Expr} {others : List Expr}
    (each : ∀ e ∈ first :: others, Scoped bound e) :
    Scoped bound (others.foldl (test .andAlso) first) := by
  induction others generalizing first with
  | nil => exact each first (by simp)
  | cons next others ih =>
      refine ih (List.forall_mem_cons.mpr ⟨binary (each first (by simp)) (each next (by simp)), ?_⟩)
      exact fun e isLater => each e (by simp [isLater])

theorem choose {position : Nat} {condition ifTrue ifFalse e : Expr}
    (condition_scoped : Scoped bound condition) (true_scoped : Scoped bound ifTrue)
    (false_scoped : Scoped bound ifFalse)
    (outcome : Expr.choose table position condition ifTrue ifFalse = .ok e) : Scoped bound e := by
  obtain ⟨ifTrue', ifFalse', rfl, -, true_adapted, false_adapted, -⟩ := choose_cases outcome
  refine of_plain rfl rfl ?_
  simp [children, condition_scoped, true_scoped.adapted true_adapted,
    false_scoped.adapted false_adapted]

theorem propagateNull {position : Nat} {chain e : Expr} {default? : Option Expr}
    (chain_scoped : Scoped bound chain) (default_scoped : ∀ d ∈ default?, Scoped bound d)
    (outcome : chain.propagateNull table position default? = .ok e) : Scoped bound e := by
  obtain rfl | ⟨first, others, tests, chosen⟩ := propagateNull_cases outcome
  · exact chain_scoped
  · refine choose (allTests fun e isTest => ?_) chain_scoped ?_ chosen
    · rw [tests] at isTest
      obtain ⟨part, isGuarded, rfl⟩ := List.mem_map.mp isTest
      obtain rfl | isReceiver := guarded_eq isGuarded
      · exact binary chain_scoped constant
      · exact binary (chain_scoped.chainReceivers part isReceiver) constant
    · cases default? with
      | none => exact constant
      | some d => exact default_scoped d rfl

end Expr.Scoped

namespace CompileContext

open QueryTree.Expr (Scoped)

variable {ctx : CompileContext} {tokens : List Token}

/-- Each parameter of a kind is one of the given ones. -/
def Covers (bound : List Parameter) (visible : Parameter → Prop) : Prop :=
  ∀ p, visible p → ∃ q ∈ bound, q == p

theorem Covers.append {bound : List Parameter} {visible : Parameter → Prop}
    (covers : Covers bound visible) (others : List Parameter) :
    Covers (bound ++ others) visible := by
  intro p isVisible
  obtain ⟨q, isBound, same⟩ := covers p isVisible
  exact ⟨q, List.mem_append_left _ isBound, same⟩

theorem Receiver.call_scoped {bound : List Parameter} {receiver : Receiver} {type : Ty}
    {method : Method} {args : List Expr} (receiver_scoped : ∀ r ∈ receiver.value?, Scoped bound r)
    (args_scoped : ∀ a ∈ args, Scoped bound a) : Scoped bound (receiver.call type method args) := by
  cases receiver with
  | type t => exact .of_plain rfl rfl args_scoped
  | value r =>
      exact .of_plain rfl rfl (List.forall_mem_cons.mpr ⟨receiver_scoped r rfl, args_scoped⟩)

theorem Receiver.access_scoped {bound : List Parameter} {receiver : Receiver} {m : Member}
    (receiver_scoped : ∀ r ∈ receiver.value?, Scoped bound r) :
    Scoped bound (receiver.access m) := by
  cases receiver with
  | type t =>
      rw [Receiver.access]
      exact .of_plain rfl rfl (by simp [Expr.children])
  | value r =>
      rw [Receiver.access]
      exact .of_plain rfl rfl (by simpa [Expr.children] using receiver_scoped r rfl)

theorem constructOf_scoped {table : ClassTable} {bound : List Parameter} {type : Ty}
    {position : Nat} {args : List Expr} {e : Expr} (args_scoped : ∀ a ∈ args, Scoped bound a)
    (outcome : Expr.constructOf table type position args = .ok e) : Scoped bound e := by
  obtain ⟨arg, rfl, isAdapted⟩ | ⟨params, args', rfl, areAdapted, -⟩ :=
    Expr.constructOf_cases outcome
  · exact (args_scoped arg (by simp)).adapted isAdapted
  · exact .of_plain rfl rfl (Scoped.adapted_all args_scoped areAdapted)

theorem concatenation_scoped {table : ClassTable} {bound : List Parameter} {left right e : Expr}
    (left_scoped : Scoped bound left) (right_scoped : Scoped bound right)
    (concatenates : Expr.Concatenates table left right e) : Scoped bound e := by
  obtain ⟨args, rfl, areAdapted, -⟩ := concatenates
  exact .of_plain rfl rfl (Scoped.adapted_all (by simp [left_scoped, right_scoped]) areAdapted)

/-- In the arguments of an operation its element is bound, other than in those that are values. -/
theorem aggregate_scoped {bound : List Parameter} {visible inside : Parameter → Prop}
    {type : Ty} {operation : Aggregate} {source : Expr} {typeArgs : List Ty} {p : Parameter}
    {args : List Expr} (covers : Covers bound visible)
    (outer : ∀ q, inside q → visible q ∨ (operation.seesOuterScope = false ∧ q = p))
    (source_scoped : Scoped bound source)
    (each : ∀ within, Covers within inside → ∀ a ∈ args, Scoped within a) :
    Scoped bound (.aggregate type operation source typeArgs (operation.bindElement p args)) := by
  by_cases isDefault : operation = .defaultIfEmpty
  · subst isDefault
    refine .of_children rfl fun c isChild => ?_
    have plain : (Expr.aggregate type .defaultIfEmpty source typeArgs
        (Aggregate.bindElement .defaultIfEmpty p args)).binders = [] := rfl
    rw [plain, List.append_nil, List.mem_singleton.mp isChild]
    exact source_scoped
  refine .of_plain rfl rfl (List.forall_mem_cons.mpr ⟨source_scoped, ?_⟩)
  rw [Aggregate.bindElement]
  split
  next isValue =>
    have seesOuter : operation.seesOuterScope = true := by
      cases operation <;> first | rfl | exact absurd rfl isDefault | cases isValue
    refine each bound fun q isInside => ?_
    obtain isVisible | ⟨seesElement, -⟩ := outer q isInside
    · exact covers q isVisible
    · simp [seesOuter] at seesElement
  next =>
    intro arg isArg
    obtain ⟨body, isBody, rfl⟩ := List.mem_map.mp isArg
    refine .of_children rfl fun c isChild => ?_
    rw [List.mem_singleton.mp isChild]
    refine each _ (fun q isInside => ?_) body isBody
    obtain isVisible | ⟨-, rfl⟩ := outer q isInside
    · exact covers.append [p] q isVisible
    · exact ⟨q, by simp [Expr.binders], beq_self_eq_true q.id⟩

/-- In a built tree every parameter is bound where it occurs, other than in what replaces an empty
sequence, if nothing is taken for granted. -/
theorem Built.inScope {visible : Parameter → Prop} {e : Expr}
    (built : ctx.Built tokens (fun _ => False) visible e) {bound : List Parameter}
    (covers : Covers bound visible) : Scoped bound e := by
  induction built generalizing bound with
  | literal read =>
      obtain ⟨value, text, rfl, -⟩ := read.isLiteral
      exact .constant
  | value | null | type => exact .constant
  | parameter isVisible =>
      refine .node (fun p same => ?_) (by simp [Expr.scopedChildren, Expr.children])
      cases same
      exact covers _ isVisible
  | granted isGranted => exact isGranted.elim
  | invoke _ _ _ fits target each =>
      refine .of_plain rfl rfl (List.forall_mem_cons.mpr ⟨target covers, ?_⟩)
      exact Scoped.adapted_all (fun a isArg => each a isArg covers) (Expr.promoteAll?_adapted fits)
  | sign _ outcome inner =>
      obtain ⟨operand', isAdapted, rfl | rfl⟩ := Expr.sign_cases outcome
      · exact .of_plain rfl rfl (by simpa [Expr.children] using (inner covers).adapted isAdapted)
      · exact .of_plain rfl rfl (by simpa [Expr.children] using (inner covers).adapted isAdapted)
  | product _ _ _ outcome left right | shift _ _ _ outcome left right
  | logical _ _ _ outcome left right =>
      obtain ⟨l, r, rfl, l_adapted, r_adapted, -⟩ := Expr.ofGroup_cases outcome
      exact .binary ((left covers).adapted l_adapted) ((right covers).adapted r_adapted)
  | sum _ _ outcome left right =>
      obtain concatenates | ⟨l, r, rfl, l_adapted, r_adapted, -⟩ := Expr.sum_cases outcome
      · exact concatenation_scoped (left covers) (right covers) concatenates
      · exact .binary ((left covers).adapted l_adapted) ((right covers).adapted r_adapted)
  | difference _ _ outcome left right =>
      obtain ⟨l, r, rfl, l_adapted, r_adapted, -⟩ := Expr.difference_cases outcome
      exact .binary ((left covers).adapted l_adapted) ((right covers).adapted r_adapted)
  | comparison _ _ _ outcome left right =>
      obtain ⟨l, r, method, rfl, l_adapted, r_adapted, -⟩ := Expr.comparison_cases outcome
      exact .binary ((left covers).adapted l_adapted) ((right covers).adapted r_adapted)
  | bitConjunction _ _ outcome left right =>
      obtain ⟨left₁, right₁, left_adapted, right_adapted, concatenates |
        ⟨l, r, rfl, l_adapted, r_adapted, -⟩⟩ := Expr.conjunction_cases outcome
      · exact concatenation_scoped ((left covers).adapted left_adapted)
          ((right covers).adapted right_adapted) concatenates
      · exact .binary ((left covers).adapted (left_adapted.trans l_adapted))
          ((right covers).adapted (right_adapted.trans r_adapted))
  | bitDisjunction _ _ outcome left right =>
      obtain ⟨l, r, rfl, l_adapted, r_adapted, -⟩ :=
        Expr.disjunction_cases ctx.env.classes outcome
      exact .binary ((left covers).adapted l_adapted) ((right covers).adapted r_adapted)
  | isItem _ _ outcome left right =>
      obtain ⟨l, r, rfl, l_adapted, r_adapted, -⟩ := Expr.isItem_cases outcome
      exact .binary ((left covers).adapted l_adapted) ((right covers).adapted r_adapted)
  | eitherItem _ _ _ _ left right => exact .binary (left covers) (right covers)
  | isContained _ _ outcome item sequence =>
      obtain ⟨element, item', -, isAdapted, rfl⟩ := Expr.isContained_cases outcome
      refine .of_plain rfl rfl ?_
      simp [Expr.children, sequence covers, (item covers).adapted isAdapted]
  | choose _ _ _ outcome condition ifTrue ifFalse =>
      exact .choose (condition covers) (ifTrue covers) (ifFalse covers) outcome
  | orElseValue _ _ outcome left right =>
      obtain ⟨type, l, r, rfl, l_adapted, r_adapted, -⟩ := Expr.orElseValue_cases outcome
      refine .of_plain rfl rfl ?_
      simp [Expr.children, (left covers).adapted l_adapted, (right covers).adapted r_adapted]
  | propagateNull _ _ outcome chain default =>
      exact .propagateNull (chain covers) (fun d isDefault => default d isDefault covers) outcome
  | typeTest _ _ inner =>
      exact .of_plain rfl rfl (by simpa [Expr.children] using inner covers)
  | convertTo _ outcome inner => exact (inner covers).adapted (Expr.convertTo_adapted outcome)
  | constructOf _ outcome each =>
      exact constructOf_scoped (fun a isArg => each a isArg covers) outcome
  | methodCall _ _ outcome receiver each =>
      obtain ⟨method, type, args', rfl, -, -, -, areAdapted, -⟩ := methodCall_cases outcome
      exact Receiver.call_scoped (fun r isValue => receiver r isValue covers)
        (Scoped.adapted_all (fun a isArg => each a isArg covers) areAdapted)
  | namedMember _ _ _ outcome receiver =>
      obtain ⟨type, enum, n, -, -, rfl⟩ | ⟨m, -, -, rfl⟩ |
        ⟨target, indexer, -, isValue, -, rfl⟩ := namedMember_cases outcome
      · exact .constant
      · exact Receiver.access_scoped fun r isValue => receiver r isValue covers
      · refine .of_plain rfl rfl (List.forall_mem_cons.mpr ⟨receiver target isValue covers, ?_⟩)
        simp [Expr.ofValue, Scoped.constant]
  | indexAccess _ _ outcome target each =>
      obtain ⟨type, args', rfl, areAdapted, -⟩ := indexAccess_cases outcome
      refine .of_plain rfl rfl (List.forall_mem_cons.mpr ⟨target covers, ?_⟩)
      exact Scoped.adapted_all (fun a isArg => each a isArg covers) areAdapted
  | aggregate _ _ _ _ outer resolved _ source each =>
      obtain ⟨params, -, fits⟩ := Resolution.choose_found resolved
      refine aggregate_scoped covers outer (source covers) fun within coversInside => ?_
      exact Scoped.adapted_all (fun a isArg => each a isArg coversInside)
        (Expr.promoteAll?_adapted fits)
  | typedAggregate _ _ isTyped source =>
      exact .of_plain rfl rfl (by simpa [Expr.children] using source covers)
  | newArray _ outcome each =>
      obtain ⟨element, items', rfl, areAdapted, -⟩ := newArray_cases outcome
      exact .of_plain rfl rfl
        (Scoped.adapted_all (fun a isArg => each a isArg covers) areAdapted)
  | newOfType _ outcome each =>
      obtain outcome | ⟨members, rfl, members_eq⟩ := newOfType_cases outcome
      · refine constructOf_scoped (fun a isArg => ?_) outcome
        obtain ⟨item, isItem, rfl⟩ := List.mem_map.mp isArg
        exact each item isItem covers
      · refine .of_plain rfl rfl fun value isValue => ?_
        obtain ⟨entry, isEntry, rfl⟩ := List.mem_map.mp isValue
        obtain ⟨⟨item, isItem, isAdapted⟩, -⟩ := bindings_cases members_eq entry isEntry
        exact (each item isItem covers).adapted isAdapted
  | projection _ _ each =>
      refine .of_plain rfl rfl fun value isValue => ?_
      obtain ⟨entry, isEntry, rfl⟩ := List.mem_map.mp isValue
      obtain ⟨item, isItem, named⟩ := List.mem_filterMap.mp isEntry
      obtain ⟨name, -, rfl⟩ := Option.map_eq_some_iff.mp named
      exact each item isItem covers
  | lambda _ _ inner =>
      refine .of_children rfl fun c isChild => ?_
      rw [List.mem_singleton.mp isChild]
      exact inner (covers.append _)
  | promoted _ outcome inner => exact (inner covers).adapted (Expr.Adapted.of_promote? outcome)

end CompileContext

end QueryTree
