import QueryTree.Proofs.Compile.Text
import QueryTree.Proofs.Typing.Operator

/-!
# Compiled trees are well typed

Every tree that is built of well-typed trees is well typed, and so is every tree that a text
compiles to.
-/

namespace QueryTree

namespace Expr

variable {table : ClassTable}

theorem WellTyped.adapted {e e' : Expr} (typed : e.WellTyped table)
    (isAdapted : Adapted table e e') : e'.WellTyped table :=
  Everywhere.recast (nodeTyped_allowsRecast table) typed isAdapted.recast

theorem WellTyped.adapted_all {es all : List Expr} (each : ∀ e ∈ es, e.WellTyped table)
    (areAdapted : List.Forall₂ (Adapted table) es all) : ∀ e ∈ all, e.WellTyped table :=
  Everywhere.recast_all (nodeTyped_allowsRecast table) each (Adapted.recast_all areAdapted)

theorem WellTyped.constant {type : Ty} {value : Value} {literal? : Option String} :
    (Expr.constant type value literal?).WellTyped table :=
  .node trivial (by simp [children])

theorem WellTyped.binary {type : Ty} {op : BinaryOp} {left right : Expr}
    {method : Option String} (typed : BinaryTyped type op left right)
    (left_typed : left.WellTyped table) (right_typed : right.WellTyped table) :
    (Expr.binary type op left right method).WellTyped table :=
  .node typed (by simp [children, left_typed, right_typed])

theorem WellTyped.isNotNull {e : Expr} (typed : e.WellTyped table) :
    e.isNotNull.WellTyped table :=
  .binary ⟨rfl, .inl BEq.rfl⟩ typed .constant

theorem WellTyped.allTests {first : Expr} {others : List Expr}
    (each : ∀ e ∈ first :: others, e.WellTyped table ∧ e.type = .boolean) :
    (others.foldl (test .andAlso) first).WellTyped table ∧
      (others.foldl (test .andAlso) first).type = .boolean := by
  induction others generalizing first with
  | nil => exact each first (by simp)
  | cons next others ih =>
      obtain ⟨⟨first_typed, first_type⟩, ⟨next_typed, next_type⟩, rest⟩ :
          (first.WellTyped table ∧ first.type = .boolean) ∧
            (next.WellTyped table ∧ next.type = .boolean) ∧
            ∀ e ∈ others, e.WellTyped table ∧ e.type = .boolean := by
        simpa only [List.forall_mem_cons] using each
      refine ih (List.forall_mem_cons.mpr ⟨⟨?_, rfl⟩, rest⟩)
      exact .binary ⟨first_type, next_type, .inl rfl⟩ first_typed next_typed

theorem WellTyped.choose {position : Nat} {condition ifTrue ifFalse e : Expr}
    (condition_typed : condition.WellTyped table) (true_typed : ifTrue.WellTyped table)
    (false_typed : ifFalse.WellTyped table)
    (outcome : Expr.choose table position condition ifTrue ifFalse = .ok e) :
    e.WellTyped table := by
  obtain ⟨ifTrue', ifFalse', rfl, test_type, true_adapted, false_adapted, same⟩ :=
    choose_cases outcome
  refine .node ⟨test_type, same⟩ ?_
  simp [children, condition_typed, true_typed.adapted true_adapted,
    false_typed.adapted false_adapted]

theorem WellTyped.propagateNull {position : Nat} {chain e : Expr} {default? : Option Expr}
    (chain_typed : chain.WellTyped table) (default_typed : ∀ d ∈ default?, d.WellTyped table)
    (outcome : chain.propagateNull table position default? = .ok e) : e.WellTyped table := by
  obtain rfl | ⟨first, others, tests, chosen⟩ := propagateNull_cases outcome
  · exact chain_typed
  · have each : ∀ e ∈ first :: others, e.WellTyped table ∧ e.type = .boolean := by
      rw [tests]
      intro e isTest
      obtain ⟨part, isGuarded, rfl⟩ := List.mem_map.mp isTest
      refine ⟨WellTyped.isNotNull ?_, rfl⟩
      obtain rfl | isReceiver := guarded_eq isGuarded
      · exact chain_typed
      · exact Everywhere.chainReceivers chain_typed part isReceiver
    refine .choose (WellTyped.allTests each).1 chain_typed ?_ chosen
    cases default? with
    | none => exact .constant
    | some d => exact default_typed d rfl

end Expr

namespace Aggregate

theorem map_bodyType_bindElement (operation : Aggregate) (p : Parameter) (args : List Expr) :
    (operation.bindElement p args).map (Expr.bodyType operation) = args.map (·.type) := by
  rw [bindElement]
  cases values : operation.takesValues with
  | true => simp [Expr.bodyType, values]
  | false => simp [Expr.bodyType, values, Function.comp_def]

end Aggregate

namespace CompileContext

open QueryTree.Expr (WellTyped)

variable {ctx : CompileContext} {tokens : List Token}

theorem receiver_call_typed {table : ClassTable} {receiver : Receiver} {type : Ty}
    {method : Method} {args : List Expr}
    (receiver_typed : ∀ r ∈ receiver.value?, r.WellTyped table)
    (isMethod : method ∈ receiver.memberType.methods table)
    (kind : method.isStatic = receiver.isStatic) (result : method.result = some type)
    (args_typed : ∀ a ∈ args, a.WellTyped table)
    (fits : List.Forall₂ (Expr.Fits table) method.params args) :
    (receiver.call type method args).WellTyped table := by
  cases receiver with
  | type t => exact .node ⟨kind, result, fits⟩ args_typed
  | value r =>
      exact .node ⟨isMethod, kind, result, fits⟩
        (List.forall_mem_cons.mpr ⟨receiver_typed r rfl, args_typed⟩)

theorem receiver_access_typed {table : ClassTable} {receiver : Receiver} {m : Member}
    (receiver_typed : ∀ r ∈ receiver.value?, r.WellTyped table)
    (isMember : m ∈ receiver.memberType.members table) (kind : m.isStatic = receiver.isStatic) :
    (receiver.access m).WellTyped table := by
  cases receiver with
  | type t =>
      exact .node ⟨t, m, isMember, kind, rfl, rfl⟩ (by simp [Receiver.access, Expr.children])
  | value r =>
      exact .node ⟨m, isMember, kind, rfl, rfl⟩
        (by simpa [Receiver.access, Expr.children] using receiver_typed r rfl)

theorem constructOf_typed {table : ClassTable} (plain : table.DeclaresNoConversion) {type : Ty}
    {position : Nat} {args : List Expr} {e : Expr} (args_typed : ∀ a ∈ args, a.WellTyped table)
    (outcome : Expr.constructOf table type position args = .ok e) : e.WellTyped table := by
  obtain ⟨arg, rfl, isAdapted⟩ | ⟨params, args', rfl, areAdapted, isConstructor, fits⟩ :=
    Expr.constructOf_cases outcome
  · exact (args_typed arg (by simp)).adapted isAdapted
  · exact .node ⟨params, isConstructor, fits plain⟩ (WellTyped.adapted_all args_typed areAdapted)

theorem concatenation_typed {table : ClassTable} (plain : table.DeclaresNoConversion)
    {left right e : Expr} (left_typed : left.WellTyped table) (right_typed : right.WellTyped table)
    (concatenates : Expr.Concatenates table left right e) : e.WellTyped table := by
  obtain ⟨args, rfl, areAdapted, fits⟩ := concatenates
  exact .node ⟨rfl, rfl, fits plain⟩
    (WellTyped.adapted_all (by simp [left_typed, right_typed]) areAdapted)

theorem testTyped_of_type {test : TypeTest} {wanted type : Ty} {position : Nat}
    (outcome : typeTestType test wanted position = .ok type) :
    Expr.TestTyped type wanted test := by
  unfold typeTestType at outcome
  split at outcome
  next => exact (Except.ok.inj outcome).symm
  next =>
    split at outcome
    next admits => exact ⟨(Except.ok.inj outcome).symm, admits⟩
    next => cases outcome
  next => exact (Except.ok.inj outcome).symm

/-- The name of a member is an argument for an indexer that takes a text. -/
theorem fits_name {table : ClassTable} {params : List Ty} {name : String}
    (takesName : Ty.sameAll params [.string] = true) :
    List.Forall₂ (Expr.Fits table) params [.ofValue .string (.string name)] := by
  cases params with
  | nil => cases takesName
  | cons param rest =>
      obtain ⟨takesText, alone⟩ := (Bool.and_eq_true _ _).mp takesName
      cases rest with
      | nil => exact .cons (.inl (Ty.same_symm takesText)) .nil
      | cons => cases alone

/-- A built tree is well typed if no class declares a conversion and nothing is taken for
granted. -/
theorem Built.wellTyped (plain : ctx.env.classes.DeclaresNoConversion)
    {visible : Parameter → Prop} {e : Expr}
    (built : ctx.Built tokens (fun _ => False) visible e) : e.WellTyped ctx.env.classes := by
  induction built with
  | literal read =>
      obtain ⟨value, text, rfl, -⟩ := read.isLiteral
      exact .constant
  | value | null | type => exact .constant
  | parameter => exact .node trivial (by simp [Expr.children])
  | granted isGranted => exact isGranted.elim
  | invoke _ typed _ fits target each =>
      have exact_types (target : Ty) (e promoted : Expr)
          (outcome : e.promote? ctx.env.classes .exactly target = some promoted) :
          True ∧ (promoted.type == target) = true :=
        ⟨trivial, Expr.promote?_type (.inl rfl) outcome⟩
      refine .node ⟨_, typed, (Expr.promoteAll?_forall₂ exact_types fits).2⟩ ?_
      exact List.forall_mem_cons.mpr
        ⟨target, WellTyped.adapted_all each (Expr.promoteAll?_adapted fits)⟩
  | sign _ outcome inner =>
      obtain ⟨operand', isAdapted, rfl | rfl⟩ := Expr.sign_cases outcome
      · exact .node rfl (by simpa [Expr.children] using inner.adapted isAdapted)
      · exact .node rfl (by simpa [Expr.children] using inner.adapted isAdapted)
  | product isOperator _ _ outcome left right =>
      obtain ⟨l, r, rfl, l_adapted, r_adapted, inGroup⟩ := Expr.ofGroup_cases outcome
      exact .binary (Expr.product_typed isOperator (inGroup plain)) (left.adapted l_adapted)
        (right.adapted r_adapted)
  | sum _ _ outcome left right =>
      obtain concatenates | ⟨l, r, rfl, l_adapted, r_adapted, inGroup⟩ := Expr.sum_cases outcome
      · exact concatenation_typed plain left right concatenates
      · exact .binary (Expr.sum_typed (inGroup plain)) (left.adapted l_adapted)
          (right.adapted r_adapted)
  | difference _ _ outcome left right =>
      obtain ⟨l, r, rfl, l_adapted, r_adapted, inGroup⟩ := Expr.difference_cases outcome
      exact .binary (Expr.difference_typed (inGroup plain)) (left.adapted l_adapted)
        (right.adapted r_adapted)
  | shift isOperator _ _ outcome left right =>
      obtain ⟨l, r, rfl, l_adapted, r_adapted, inGroup⟩ := Expr.ofGroup_cases outcome
      exact .binary (Expr.shift_typed isOperator (inGroup plain)) (left.adapted l_adapted)
        (right.adapted r_adapted)
  | comparison isOperator _ _ outcome left right =>
      obtain ⟨l, r, method, rfl, l_adapted, r_adapted, same⟩ := Expr.comparison_cases outcome
      exact .binary (Expr.comparison_typed isOperator (same plain)) (left.adapted l_adapted)
        (right.adapted r_adapted)
  | bitConjunction _ _ outcome left right =>
      obtain ⟨left₁, right₁, left_adapted, right_adapted, concatenates |
        ⟨l, r, rfl, l_adapted, r_adapted, same, -⟩⟩ := Expr.conjunction_cases outcome
      · exact concatenation_typed plain (left.adapted left_adapted) (right.adapted right_adapted)
          concatenates
      · exact .binary ⟨rfl, BEq.symm same⟩ (left.adapted (left_adapted.trans l_adapted))
          (right.adapted (right_adapted.trans r_adapted))
  | bitDisjunction _ _ outcome left right =>
      obtain ⟨l, r, rfl, l_adapted, r_adapted, same, -⟩ :=
        Expr.disjunction_cases ctx.env.classes outcome
      exact .binary ⟨rfl, BEq.symm same⟩ (left.adapted l_adapted) (right.adapted r_adapted)
  | isItem _ _ outcome left right =>
      obtain ⟨l, r, rfl, l_adapted, r_adapted, same⟩ := Expr.isItem_cases outcome
      exact .binary ⟨rfl, .inl (same plain)⟩ (left.adapted l_adapted) (right.adapted r_adapted)
  | eitherItem _ _ left_type right_type left right =>
      exact .binary ⟨left_type, right_type, .inl rfl⟩ left right
  | isContained _ _ outcome item sequence =>
      obtain ⟨element, item', elements, isAdapted, rfl⟩ := Expr.isContained_cases outcome
      refine .node ⟨element, elements, rfl⟩ ?_
      simp [Expr.children, sequence, item.adapted isAdapted]
  | logical isOperator _ _ outcome left right =>
      obtain ⟨l, r, rfl, l_adapted, r_adapted, inGroup⟩ := Expr.ofGroup_cases outcome
      exact .binary (Expr.logical_typed isOperator (inGroup plain)) (left.adapted l_adapted)
        (right.adapted r_adapted)
  | choose _ _ _ outcome condition ifTrue ifFalse =>
      exact .choose condition ifTrue ifFalse outcome
  | orElseValue _ _ outcome left right =>
      obtain ⟨type, l, r, rfl, l_adapted, r_adapted, right_type, left_type⟩ :=
        Expr.orElseValue_cases outcome
      refine .node ⟨right_type, left_type⟩ ?_
      simp [Expr.children, left.adapted l_adapted, right.adapted r_adapted]
  | propagateNull _ _ outcome chain default => exact .propagateNull chain default outcome
  | typeTest _ outcome inner =>
      refine .node (testTyped_of_type outcome) ?_
      simpa [Expr.children] using inner
  | convertTo _ outcome inner => exact inner.adapted (Expr.convertTo_adapted outcome)
  | constructOf _ outcome each => exact constructOf_typed plain each outcome
  | methodCall _ _ outcome receiver each =>
      obtain ⟨method, type, args', rfl, isMethod, kind, result, areAdapted, fits, -⟩ :=
        methodCall_cases outcome
      exact receiver_call_typed receiver isMethod kind result
        (WellTyped.adapted_all each areAdapted) (fits plain)
  | namedMember _ _ _ outcome receiver =>
      obtain ⟨type, enum, n, -, -, rfl⟩ | ⟨m, isMember, kind, rfl⟩ |
        ⟨target, indexer, isIndexer, isValue, takesName, rfl⟩ := namedMember_cases outcome
      · exact .constant
      · exact receiver_access_typed receiver isMember kind
      · refine .node (.inr ⟨indexer, isIndexer, rfl, fits_name takesName⟩) ?_
        refine List.forall_mem_cons.mpr ⟨receiver target isValue, ?_⟩
        simp [WellTyped.constant, Expr.ofValue]
  | indexAccess _ _ outcome target each =>
      obtain ⟨type, args', rfl, areAdapted, typed⟩ := indexAccess_cases outcome
      refine .node ?_ (List.forall_mem_cons.mpr ⟨target, WellTyped.adapted_all each areAdapted⟩)
      obtain ofArray | ⟨indexer, isIndexer, same, fits⟩ := typed
      · exact .inl ofArray
      · exact .inr ⟨indexer, isIndexer, same, fits plain⟩
  | @aggregate _ _ operation _ _ _ _ p _ _ promoted _ _ _ elements _ _ resolved typed source each =>
      refine .node ⟨_, elements, ?_⟩ ?_
      · rw [Aggregate.map_bodyType_bindElement]
        cases operation with
        | ofType | cast => cases typed
        | _ => exact typed
      · obtain ⟨params, -, fits⟩ := Resolution.choose_found resolved
        have promoted_typed := WellTyped.adapted_all each (Expr.promoteAll?_adapted fits)
        refine List.forall_mem_cons.mpr ⟨source, ?_⟩
        rw [Aggregate.bindElement]
        split
        next => exact promoted_typed
        next =>
          intro arg isArg
          obtain ⟨body, isBody, rfl⟩ := List.mem_map.mp isArg
          exact .node trivial (by simpa [Expr.children] using promoted_typed body isBody)
  | typedAggregate _ elements isTyped source =>
      refine .node ⟨_, elements, ?_⟩ (by simpa [Expr.children] using source)
      obtain rfl | rfl := isTyped
      · exact ⟨_, rfl, rfl, rfl⟩
      · exact ⟨_, rfl, rfl, rfl⟩
  | newArray _ outcome each =>
      obtain ⟨element, items', rfl, areAdapted, types⟩ := newArray_cases outcome
      exact .node ⟨element, rfl, types⟩ (WellTyped.adapted_all each areAdapted)
  | newOfType _ outcome each =>
      obtain outcome | ⟨members, rfl, bound⟩ := newOfType_cases outcome
      · refine constructOf_typed plain (fun a isArg => ?_) outcome
        obtain ⟨item, isItem, rfl⟩ := List.mem_map.mp isArg
        exact each item isItem
      · refine .node (fun entry isEntry => (bindings_cases bound entry isEntry).2) ?_
        intro value isValue
        obtain ⟨entry, isEntry, rfl⟩ := List.mem_map.mp isValue
        obtain ⟨⟨item, isItem, isAdapted⟩, -⟩ := bindings_cases bound entry isEntry
        exact (each item isItem).adapted isAdapted
  | projection _ isRecord each =>
      refine .node isRecord fun value isValue => ?_
      obtain ⟨entry, isEntry, rfl⟩ := List.mem_map.mp isValue
      obtain ⟨item, isItem, named⟩ := List.mem_filterMap.mp isEntry
      obtain ⟨name, -, rfl⟩ := Option.map_eq_some_iff.mp named
      exact each item isItem
  | lambda _ _ inner => exact .node trivial (by simpa [Expr.children] using inner)
  | promoted _ outcome inner => exact inner.adapted (Expr.Adapted.of_promote? outcome)

end CompileContext

/-- Every tree that a text compiles to is well typed, whatever its parameters, its values and the
type asked for, if no class declares a conversion. -/
theorem compileFunction_wellTyped {env : Environment} {params : List Parameter}
    {expected? : Option Ty} {text : String} {args : List Argument} {store : Store} {e : Expr}
    (plain : env.classes.DeclaresNoConversion) (values : ∀ e, Argument.expr e ∉ args)
    (outcome : (compileFunction env params expected? text args store).1 = .ok e) :
    e.WellTyped env.classes := by
  obtain ⟨body, rfl, compiled⟩ := compileFunction_eq_ok outcome
  obtain ⟨ctx, rfl, built⟩ := compileExpr_built values compiled
  exact .node trivial (by simpa [Expr.children] using built.wellTyped plain)

/-- Two enumerations of one name, one of bytes and one of integers of 32 bits. -/
def namesake (underlying : IntKind) : EnumType := ⟨"E", none, underlying, false, [("A", 0)]⟩

/-- A class with a member of the enumeration of bytes. -/
def holder : ClassRef := ⟨"P", none, false, 1⟩

/-- An environment in which the class with the member is declared. -/
def overNamesakes : Environment :=
  .of .initial (.ofCustom [.enum (namesake .byte), .cls holder])
    #[some mathBody,
      some { ClassBody.empty with members := [.property "X" (.enum (namesake .byte))] }]

/-- A value of the class, and a member of the enumeration of integers of 32 bits. -/
def namesakeParams : List Parameter :=
  [⟨0, "q", .cls holder⟩, ⟨1, "b", .enum (namesake .int32)⟩]

theorem overNamesakes_plain : overNamesakes.classes.DeclaresNoConversion := by
  intro c m isOperator
  have none : (overNamesakes.classes.body c).operators = [] := by
    rcases index : c.index with _ | _ | n
    · simp [ClassTable.body, overNamesakes, Environment.of, index, mathBody, ClassBody.empty]
    · simp [ClassTable.body, overNamesakes, Environment.of, index, ClassBody.empty]
    · simp [ClassTable.body, overNamesakes, Environment.of, index, ClassBody.empty]
  simp [none] at isOperator

theorem compileFunction_wellTyped_namesakes :
    ∃ e, (compileFunction overNamesakes namesakeParams none "q.X < b" [] ⟨.empty, 2⟩).1 = .ok e ∧
      e.WellTyped overNamesakes.classes := by
  obtain ⟨e, outcome, -⟩ := exists_ok_of_any
    (show (compileFunction overNamesakes namesakeParams none "q.X < b" []
      ⟨.empty, 2⟩).1.toOption.any (fun _ => true) = true by decide +kernel)
  exact ⟨e, outcome, compileFunction_wellTyped overNamesakes_plain (by simp) outcome⟩

/-- Whether a function compares operands of two types. -/
def comparesUnlike : Expr → Bool
  | .lambda _ (.binary _ op left right _) => op.isComparison && !(left.type == right.type)
  | _ => false

/-- An ordering of members of two enumerations of one name compares integers of two widths. -/
theorem namesakes_compared_unlike :
    ∃ e, (compileFunction overNamesakes namesakeParams none "q.X < b" [] ⟨.empty, 2⟩).1 = .ok e ∧
      ¬ e.Everywhere fun node => ∀ type op left right method,
        node = .binary type op left right method → op.isComparison = true →
          (left.type == right.type) = true := by
  obtain ⟨e, outcome, unlike⟩ := exists_ok_of_any
    (show (compileFunction overNamesakes namesakeParams none "q.X < b" []
      ⟨.empty, 2⟩).1.toOption.any comparesUnlike = true by decide +kernel)
  refine ⟨e, outcome, fun everywhere => ?_⟩
  unfold comparesUnlike at unlike
  split at unlike
  next params type op left right method =>
    obtain ⟨isComparison, differ⟩ := (Bool.and_eq_true _ _).mp unlike
    have body := everywhere.child (List.mem_singleton_self _)
    have same := body.at_root type op left right method rfl isComparison
    simp [same] at differ
  next => cases unlike

end QueryTree
