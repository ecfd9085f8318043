import QueryTree.Proofs.Grouping.Partition
import QueryTree.Proofs.Order.Items

/-!
# Least and greatest values

The least of several values is the first one of those that are sorted in ascending order, and the
greatest the first one of those in descending order.  Of values that are equal both are the one that
comes first.
-/

namespace QueryTree

section Least

variable {α : Type} {order : α → α → Ordering} {items rest : List α} {a b : α}

/-- An item is the first of the least ones. -/
structure IsFirstLeast (order : α → α → Ordering) (items : List α) (a : α) : Prop where
  least : ∀ b ∈ items, order a b ≠ .gt
  first : items.find? (order a · == .eq) = some a

namespace IsFirstLeast

theorem mem (isLeast : IsFirstLeast order items a) : a ∈ items :=
  List.mem_of_find?_eq_some isLeast.first

theorem singleton (self : order a a = .eq) : IsFirstLeast order [a] a where
  least b isItem := by
    rw [List.mem_singleton.mp isItem, self]
    nofun
  first := by simp [self]

/-- One more item is the first of the least ones if it is less than the one that was it. -/
theorem append_singleton (consistent : ConsistentOn order (items ++ [b]))
    (isLeast : IsFirstLeast order items a) :
    IsFirstLeast order (items ++ [b]) (if order b a == .lt then b else a) := by
  have ha : a ∈ items ++ [b] := List.mem_append_left _ isLeast.mem
  have hb : b ∈ items ++ [b] := List.mem_append_right _ List.mem_cons_self
  have self := consistent.self b hb
  split
  next isLess =>
    have above (c : α) (hc : c ∈ items) : order b c = .lt :=
      consistent.lt_of_lt_of_ne_gt hb ha (List.mem_append_left _ hc) (beq_iff_eq.mp isLess)
        (isLeast.least c hc)
    constructor
    · refine List.forall_mem_append.mpr ⟨fun c hc => by rw [above c hc]; nofun, fun c hc => ?_⟩
      rw [List.mem_singleton.mp hc, self]
      nofun
    · rw [List.find?_append, List.find?_eq_none.mpr fun c hc => by simp [above c hc]]
      simp [self]
  next notLess =>
    constructor
    · refine List.forall_mem_append.mpr ⟨isLeast.least, fun c hc => ?_⟩
      rw [List.mem_singleton.mp hc, consistent.swap b hb a ha]
      simpa using notLess
    · rw [List.find?_append, isLeast.first]
      rfl

/-- Keeping the lesser one of two items finds the first of the least ones. -/
theorem foldl (consistent : ConsistentOn order (a :: rest)) :
    IsFirstLeast order (a :: rest)
      (rest.foldl (fun best b => if order b best == .lt then b else best) a) := by
  induction rest using List.reverseRecOn with
  | nil => exact singleton (consistent.self a List.mem_cons_self)
  | append_singleton rest b ih =>
      rw [List.foldl_append, List.foldl_cons, List.foldl_nil, ← List.cons_append]
      refine append_singleton consistent (ih (consistent.subset fun c hc => ?_))
      exact List.mem_append_left [b] hc

/-- There is one item only that is the first of the least ones. -/
protected theorem unique (consistent : ConsistentOn order items)
    (isLeast : IsFirstLeast order items a) (isOther : IsFirstLeast order items b) : a = b := by
  have equal : order a b = .eq := by
    have above := isOther.least a isLeast.mem
    rw [consistent.swap a isLeast.mem b isOther.mem] at above
    have below := isLeast.least b isOther.mem
    cases outcome : order a b <;> simp_all
  have alike : ∀ c ∈ items, (order a c == .eq) = (order b c == .eq) := by
    intro c hc
    rw [Bool.eq_iff_iff, beq_iff_eq, beq_iff_eq]
    exact ⟨consistent.eq_trans b isOther.mem a isLeast.mem c hc
        (consistent.eq_symm isLeast.mem isOther.mem equal),
      consistent.eq_trans a isLeast.mem b isOther.mem c hc equal⟩
  have firsts := isLeast.first
  rw [← List.head?_filter, List.filter_congr alike, List.head?_filter, isOther.first] at firsts
  exact (Option.some.inj firsts).symm

end IsFirstLeast

/-- Sorting puts the first of the least items in front. -/
theorem IsStableSort.isFirstLeast (consistent : ConsistentOn order items)
    (isSort : IsStableSort order items (a :: rest)) : IsFirstLeast order items a := by
  have isItem : a ∈ items := isSort.perm.mem_iff.mp List.mem_cons_self
  have self := consistent.self a isItem
  constructor
  · intro b hb
    obtain rfl | isLater := List.mem_cons.mp (isSort.perm.mem_iff.mpr hb)
    · rw [self]
      nofun
    · exact List.rel_of_pairwise_cons isSort.ordered isLater
  · rw [← List.head?_filter, ← isSort.stable a isItem, List.filter_cons_of_pos (by simp [self])]
    rfl

end Least

/-- A value is the first of the least of several values, or of the greatest, by the ranks that the
values of a kind have. -/
structure KeyKind.IsFirstExtreme (kind : KeyKind) (ascending : Bool) (values : List Value)
    (best : Value) : Prop where
  bound : ∀ v ∈ values,
    if ascending then kind.rank best ≤ kind.rank v else kind.rank v ≤ kind.rank best
  first : values.find? (fun v => decide (kind.rank v = kind.rank best)) = some best

section Directed

variable {kind : KeyKind} {values : List Value} {v w : Value}

/-- What is the first of the least by the comparison of values is it by their ranks. -/
theorem IsFirstLeast.isFirstExtreme {ascending : Bool}
    (ofKind : ∀ v ∈ values, (kind.rank? v).isSome = true)
    (isLeast : IsFirstLeast (Value.directedOrder ascending) values v) :
    kind.IsFirstExtreme ascending values v := by
  have order (w : Value) (hw : w ∈ values) :=
    KeyKind.directedOrder_eq ascending (ofKind v isLeast.mem) (ofKind w hw)
  constructor
  · intro w hw
    have bound := isLeast.least w hw
    rw [order w hw] at bound
    cases ascending with
    | true => exact compare_le_iff_le.mp bound
    | false => exact compare_le_iff_le.mp bound
  · rw [← isLeast.first, ← List.head?_filter, ← List.head?_filter]
    refine congrArg List.head? (List.filter_congr fun w hw => ?_)
    rw [Bool.eq_iff_iff, decide_eq_true_eq, beq_iff_eq, order w hw]
    cases ascending with
    | true => exact eq_comm.trans compare_eq_iff_eq.symm
    | false => exact compare_eq_iff_eq.symm

end Directed

namespace Aggregate

/-- The operation that finds the least value, or the greatest. -/
def extremum (ascending : Bool) : Aggregate := if ascending then min else max

variable {ascending : Bool} {operation : Aggregate} {v best : Value} {values rest : List Value}

/-- A value takes the place of the best one so far if it stands before it in order. -/
theorem compare?_beq_wanted (v w : Value) :
    (v.compare? w == some (if ascending then .lt else .gt)) =
      (Value.directedOrder ascending v w == .lt) := by
  rw [Value.directedOrder]
  cases ascending <;> cases v.compare? w with
  | none => rfl
  | some order => cases order <;> rfl

/-- The first of the best values is found, if there is a value other than null. -/
theorem extreme_isFirstLeast (operation : Aggregate) (type : Ty)
    (present : values.filter (!·.isNull) = v :: rest)
    (consistent : ConsistentOn (Value.directedOrder ascending) (v :: rest)) :
    ∃ best, extreme operation (if ascending then .lt else .gt) type values = .ok best ∧
      IsFirstLeast (Value.directedOrder ascending) (v :: rest) best := by
  refine ⟨_, ?_, IsFirstLeast.foldl consistent⟩
  rw [extreme, present]
  simp only [compare?_beq_wanted]

theorem extreme_of_none_present (operation : Aggregate) (wanted : Ordering) (type : Ty)
    (absent : values.filter (!·.isNull) = []) :
    extreme operation wanted type values =
      if type.admitsNull then .ok .null else .error (.emptySequence operation) := by
  rw [extreme, absent]
  rfl

theorem filtered_eq_ok {predicate : SequenceArgument} {holds : Value → Bool}
    (each : ∀ v ∈ values, predicate.apply v = .ok (.boolean (holds v))) :
    filtered (some predicate) values = .ok (values.filter holds) := by
  refine filterM_eq_ok fun v isItem => ?_
  rw [each v isItem]
  cases holds v <;> rfl

theorem evaluate_filter (type : Ty) {items kept : List Value} {args : List SequenceArgument}
    (isSequence : Aggregate.items .filter v = .ok items)
    (isKept : filtered args.head? items = .ok kept) :
    filter.evaluate type v args = .ok (.array kept) := by
  rw [evaluate, isSequence]
  simp only [bind, Except.bind, isKept]
  rfl

theorem evaluate_extremum (ascending : Bool) (type : Ty) {items selected : List Value}
    {args : List SequenceArgument} (isSequence : Aggregate.items .select v = .ok items)
    (isSelected : projected args.head? items = .ok selected) :
    (extremum ascending).evaluate type v args =
      extreme (extremum ascending) (if ascending then .lt else .gt) type selected := by
  have sameItems : (extremum ascending).items v = .ok items := items_eq isSequence
  rw [evaluate, sameItems]
  cases ascending <;> simp only [extremum, bind, Except.bind, isSelected] <;> rfl

end Aggregate

namespace Expr

/-- The elements of a sequence other than null. -/
def present (element : Parameter) (source : Expr) : Expr :=
  .aggregate (.sequence element.type) .filter source [element.type]
    [.lambda [element] (.isNotNull (.parameter element))]

/-- The first element of a sequence sorted by the elements themselves. -/
def firstInOrder (element : Parameter) (ascending : Bool) (source : Expr) : Expr :=
  .aggregate element.type .first
    (sortedBy element [⟨.parameter element, ascending, false⟩] source) [element.type] []

variable {ctx : EvalContext} {source : Expr} {items : List Value}

theorem apply_isNotNull (ctx : EvalContext) (element : Parameter) (v : Value) :
    (lambda [element] (isNotNull (parameter element))).apply ctx [v] =
      .ok (.boolean !v.isNull) := by
  have tested : (lambda [element] (isNotNull (parameter element))).apply ctx [v] =
      .ok (.boolean !(v.equal .null)) := by
    simp only [apply, applyFunction, List.length_singleton, if_true, EvalContext.bindAll, isNotNull,
      test, nullOf, evaluate, EvalContext.lookup_bind]
    rfl
  rw [tested]
  cases v <;> rfl

theorem evaluate_present (element : Parameter)
    (isSource : source.evaluate ctx = .ok (.array items)) :
    (present element source).evaluate ctx = .ok (.array (items.filter (!·.isNull))) := by
  have kept : Aggregate.filtered (some (argument ctx (lambda [element]
      (isNotNull (parameter element))))) items = .ok (items.filter (!·.isNull)) :=
    Aggregate.filtered_eq_ok fun item _ => apply_isNotNull ctx element item
  rw [present, evaluate, isSource]
  change Aggregate.filter.evaluate element.type.sequence (.array items) [argument ctx _] = _
  exact Aggregate.evaluate_filter _ rfl kept

/-- Sorting by the elements themselves and taking the first yields the first of the least. -/
theorem evaluate_firstInOrder {ascending : Bool} (element : Parameter) (nonempty : items ≠ [])
    (consistent : ConsistentOn (Value.directedOrder ascending) items)
    (isSource : source.evaluate ctx = .ok (.array items)) :
    ∃ first, (firstInOrder element ascending source).evaluate ctx = .ok first ∧
      IsFirstLeast (Value.directedOrder ascending) items first := by
  have key (item : Value) (_ : item ∈ items) :
      (parameter element).evaluate (ctx.bind element item) = .ok item :=
    ctx.lookup_bind element item
  have sorted := @evaluate_sortedBy_cons element ⟨.parameter element, ascending, false⟩ [] source
    ctx items (fun _ item => item) isSource key
  have isSort := stableSort_isStableSort consistent
  cases order : stableSort (fun a b => Value.directedOrder ascending a b == .lt) items with
  | nil =>
      rw [order] at isSort
      exact absurd isSort.perm.nil_eq.symm nonempty
  | cons first rest =>
      rw [order] at isSort
      refine ⟨first, ?_, isSort.isFirstLeast consistent⟩
      rw [firstInOrder, evaluate, sorted, order]
      rfl

end Expr

/-- The least value of a selector for the elements of a sequence is the first one of those other
than null in ascending order, and the greatest one the first in descending order: of values of one
kind the first of those that rank lowest, or highest.  Without a value other than null the result is
null, or an error if its type does not admit null. -/
theorem extremum_eq_firstInOrder {ctx : EvalContext} {source selector : Expr} {v : Value}
    {items : List Value} {key : Value → Value} {kind : KeyKind} (ascending : Bool)
    (element : Parameter) (type keysType : Ty) (types keysTypes : List Ty)
    (isSource : source.evaluate ctx = .ok v) (isSequence : Aggregate.items .select v = .ok items)
    (keys : Expr.Selects ctx items key (some selector))
    (ofKind : ∀ item ∈ items, (kind.rank? (key item)).isSome = true) :
    let extremum := Expr.aggregate type (.extremum ascending) source types [selector]
    let sorted := Expr.firstInOrder element ascending
      (.present element (.aggregate keysType .select source keysTypes [selector]))
    let present := (items.map key).filter (!·.isNull)
    (present = [] → extremum.evaluate ctx =
      if extremum.type.admitsNull then .ok .null
      else .error (.emptySequence (.extremum ascending))) ∧
    (present ≠ [] → ∃ best, extremum.evaluate ctx = .ok best ∧ sorted.evaluate ctx = .ok best ∧
      kind.IsFirstExtreme ascending present best) := by
  intro extremum sorted present
  have evaluated : extremum.evaluate ctx = Aggregate.extreme (.extremum ascending)
      (if ascending then .lt else .gt) type (items.map key) := by
    rw [Expr.evaluate, isSource]
    exact Aggregate.evaluate_extremum ascending type isSequence keys.projected
  have keysOfKind : ∀ v ∈ items.map key, (kind.rank? v).isSome = true :=
    List.forall_mem_map.mpr ofKind
  have presentOfKind : ∀ v ∈ present, (kind.rank? v).isSome = true := fun v hv =>
    keysOfKind v (List.mem_of_mem_filter hv)
  have consistent := Value.consistent_of_kind kind presentOfKind ascending
  constructor
  · intro absent
    exact evaluated.trans (Aggregate.extreme_of_none_present _ _ type absent)
  · intro nonempty
    obtain ⟨first, rest, isPresent⟩ := List.exists_cons_of_ne_nil nonempty
    obtain ⟨best, isBest, isLeast⟩ := Aggregate.extreme_isFirstLeast (.extremum ascending) type
      isPresent (isPresent ▸ consistent)
    rw [← isPresent] at isLeast
    have selected : (Expr.aggregate keysType .select source keysTypes [selector]).evaluate ctx =
        .ok (.array (items.map key)) := by
      rw [Expr.evaluate, isSource]
      exact Aggregate.evaluate_select keysType isSequence keys.projected
    obtain ⟨least, isFirst, isOther⟩ := Expr.evaluate_firstInOrder element nonempty consistent
      (Expr.evaluate_present element selected)
    obtain rfl := isLeast.unique consistent isOther
    exact ⟨best, evaluated.trans isBest, isFirst, isLeast.isFirstExtreme presentOfKind⟩

/-- One is both an integer and a decimal number, and is read twice. -/
def decimalReadings : List Value := [.null, .int32 2, .decimal ⟨false, 10, 1⟩, .int32 1]

theorem extremum_eq_firstInOrder_readings :
    ∃ best, (Expr.aggregate .object .min
        (.constant (.array .object) (.array decimalReadings) none) [] [identityFunction]).evaluate
          (.initial .minValue) = .ok best ∧
      KeyKind.exact.IsFirstExtreme true (decimalReadings.filter (!·.isNull)) best := by
  have isSource : (Expr.constant (.array .object) (.array decimalReadings) none).evaluate
      (.initial .minValue) = .ok (.array decimalReadings) := rfl
  have keys : Expr.Selects (.initial .minValue) decimalReadings (fun item => item)
      (some identityFunction) := fun _ _ => rfl
  have ofKind : ∀ item ∈ decimalReadings, (KeyKind.exact.rank? item).isSome = true := by
    simp only [decimalReadings, List.forall_mem_cons]
    exact ⟨rfl, rfl, rfl, rfl, nofun⟩
  obtain ⟨-, found⟩ := extremum_eq_firstInOrder true ⟨0, "it", .object⟩ .object .object [] []
    isSource rfl keys ofKind
  obtain ⟨best, isBest, -, isFirst⟩ := found (by decide)
  rw [List.map_id'] at isFirst
  exact ⟨best, isBest, isFirst⟩

example : Aggregate.extreme .min .lt .object decimalReadings = .ok (.decimal ⟨false, 10, 1⟩) := by
  rfl

end QueryTree
