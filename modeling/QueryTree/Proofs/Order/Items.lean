import QueryTree.Proofs.Order.Consistency
import QueryTree.Proofs.Outcome

/-!
# Items in order

Sorting items by several keys puts them in the lexicographic order of their keys, each ascending or
descending, and keeps the order of items that have the same keys.  Sorting them by one key after the
other, the last key first, comes to the same.
-/

namespace QueryTree

/-- The rank of a value that is null or of a kind. -/
def KeyKind.rank (kind : KeyKind) (v : Value) : WithBot kind.Rank := (kind.rank? v).getD ⊥

/-- Values of a kind are in the order of their ranks, ascending or descending. -/
theorem KeyKind.directedOrder_eq {kind : KeyKind} {v w : Value} (ascending : Bool)
    (left : (kind.rank? v).isSome = true) (right : (kind.rank? w).isSome = true) :
    Value.directedOrder ascending v w =
      if ascending then compare (kind.rank v) (kind.rank w)
      else compare (kind.rank w) (kind.rank v) := by
  obtain ⟨p, isLeft⟩ := Option.isSome_iff_exists.mp left
  obtain ⟨q, isRight⟩ := Option.isSome_iff_exists.mp right
  rw [Value.directedOrder, Value.compare?_rank isLeft isRight, rank, rank, isLeft, isRight,
    Std.OrientedOrd.eq_swap (a := (some q).getD ⊥)]
  rfl

/-- The selectors of sort keys have values for all items, which are null or of one kind for each
key. -/
structure Sortable (now : DateTime) (element : Parameter) (keys : List SortKey)
    (items : List Value) (value : SortKey → Value → Value) (kind : SortKey → KeyKind) : Prop where
  evaluates : ∀ key ∈ keys, ∀ item ∈ items,
    key.selector.evaluate ((EvalContext.initial now).bind element item) = .ok (value key item)
  comparable : ∀ key ∈ keys, ∀ item ∈ items, ((kind key).rank? (value key item)).isSome = true

section Specification

variable (value : SortKey → Value → Value) (kind : SortKey → KeyKind)

/-- The rank of an item under a sort key. -/
def SortKey.rankOf (key : SortKey) (item : Value) : WithBot (kind key).Rank :=
  (kind key).rank (value key item)

/-- One item is to stand before another one: the first key under which they differ has a lesser
value for it, or a greater one if the key is descending. -/
def Precedes : List SortKey → Value → Value → Prop
  | [], _, _ => False
  | key :: rest, a, b =>
    (if key.ascending then key.rankOf value kind a < key.rankOf value kind b
      else key.rankOf value kind b < key.rankOf value kind a) ∨
    key.rankOf value kind a = key.rankOf value kind b ∧ Precedes rest a b

/-- Whether two items have the same keys. -/
def sameKeys (keys : List SortKey) (a b : Value) : Bool :=
  keys.all fun key => decide (key.rankOf value kind a = key.rankOf value kind b)

end Specification

namespace Sortable

variable {now : DateTime} {element : Parameter} {key : SortKey} {keys : List SortKey}
  {items : List Value} {value : SortKey → Value → Value} {kind : SortKey → KeyKind} {a b : Value}

theorem of_cons (sortable : Sortable now element (key :: keys) items value kind) :
    Sortable now element keys items value kind where
  evaluates other isKey := sortable.evaluates other (List.mem_cons_of_mem key isKey)
  comparable other isKey := sortable.comparable other (List.mem_cons_of_mem key isKey)

theorem consistent_key (sortable : Sortable now element keys items value kind)
    (isKey : key ∈ keys) :
    ConsistentOn (Value.directedOrder key.ascending) (items.map (value key)) := by
  refine Value.consistent_of_kind (kind key) (fun v hv => ?_) _
  obtain ⟨item, isItem, rfl⟩ := List.mem_map.mp hv
  exact sortable.comparable key isKey item isItem

theorem consistent (sortable : Sortable now element keys items value kind) :
    ConsistentOn (itemOrder value keys) items :=
  itemOrder_consistent fun _ => sortable.consistent_key

/-- The values of a key are in the order of their ranks. -/
theorem directedOrder_eq (sortable : Sortable now element keys items value kind)
    (isKey : key ∈ keys) (ha : a ∈ items) (hb : b ∈ items) :
    Value.directedOrder true (value key a) (value key b) =
      compare (key.rankOf value kind a) (key.rankOf value kind b) :=
  KeyKind.directedOrder_eq true (sortable.comparable key isKey a ha)
    (sortable.comparable key isKey b hb)

/-- The comparison of items is the order that they are to stand in. -/
theorem itemOrder_eq_lt_iff (sortable : Sortable now element keys items value kind)
    (ha : a ∈ items) (hb : b ∈ items) :
    itemOrder value keys a b = .lt ↔ Precedes value kind keys a b := by
  induction keys with
  | nil => exact ⟨nofun, nofun⟩
  | cons key rest ih =>
      have order := sortable.directedOrder_eq List.mem_cons_self ha hb
      rw [itemOrder_cons, Precedes, Ordering.then_eq_lt, ih sortable.of_cons]
      cases key.ascending with
      | true => rw [order, compare_lt_iff_lt, compare_eq_iff_eq, if_pos rfl]
      | false =>
          rw [Value.directedOrder_descending, order, Ordering.swap_eq_lt, Ordering.swap_eq_eq,
            compare_gt_iff_gt, compare_eq_iff_eq, if_neg (by simp)]

theorem itemOrder_eq_eq_iff (sortable : Sortable now element keys items value kind)
    (ha : a ∈ items) (hb : b ∈ items) :
    itemOrder value keys a b = .eq ↔ sameKeys value kind keys a b = true := by
  induction keys with
  | nil => exact ⟨fun _ => rfl, fun _ => rfl⟩
  | cons key rest ih =>
      have order := sortable.directedOrder_eq List.mem_cons_self ha hb
      have same : Value.directedOrder key.ascending (value key a) (value key b) = .eq ↔
          key.rankOf value kind a = key.rankOf value kind b := by
        cases key.ascending with
        | true => rw [order, compare_eq_iff_eq]
        | false =>
            rw [Value.directedOrder_descending, order, Ordering.swap_eq_eq, compare_eq_iff_eq]
      rw [itemOrder_cons, Ordering.then_eq_eq, same, ih sortable.of_cons, sameKeys, sameKeys,
        List.all_cons, Bool.and_eq_true, decide_eq_true_eq]

/-- The items with their keys are sorted as the items are. -/
theorem sortItems_eq (sortable : Sortable now element keys items value kind) :
    sortItems now element keys items =
      .ok (stableSort (fun a b => itemOrder value keys a b == .lt) items) := by
  have keyed : items.mapM (SortKey.keyed now element keys) =
      .ok (items.map fun item => (keys.map (value · item), item)) :=
    mapM_eq_ok fun item isItem => by
      rw [SortKey.keyed, mapM_eq_ok fun key isKey => sortable.evaluates key isKey item isItem]
      rfl
  rw [sortItems, keyed]
  refine congrArg Except.ok ?_
  rw [stableSort_map, List.map_map]
  exact List.map_id _

theorem isStableSort (sortable : Sortable now element keys items value kind) :
    IsStableSort (itemOrder value keys) items
      (stableSort (fun a b => itemOrder value keys a b == .lt) items) :=
  stableSort_isStableSort sortable.consistent

end Sortable

/-- Items are sorted by the lexicographic order of their keys, and those with the same keys keep
their order; nothing is sorted if a selector fails for an item. -/
theorem sortItems_sorts (now : DateTime) (element : Parameter) (keys : List SortKey)
    (items : List Value) :
    (∀ value kind, Sortable now element keys items value kind →
      ∃ sorted, sortItems now element keys items = .ok sorted ∧ sorted.Perm items ∧
        sorted.Pairwise (fun a b => ¬ Precedes value kind keys b a) ∧
        ∀ a ∈ items, sorted.filter (sameKeys value kind keys a) =
          items.filter (sameKeys value kind keys a)) ∧
    ∀ key ∈ keys, ∀ item ∈ items, ∀ error,
      key.selector.evaluate ((EvalContext.initial now).bind element item) = .error error →
        ∃ first, sortItems now element keys items = .error first := by
  constructor
  · intro value kind sortable
    have sorts := sortable.isStableSort
    refine ⟨_, sortable.sortItems_eq, sorts.perm, ?_, fun a ha => ?_⟩
    · refine sorts.ordered.imp_of_mem fun {a b} ha hb notAbove => ?_
      have isLeft := sorts.perm.mem_iff.mp ha
      have isRight := sorts.perm.mem_iff.mp hb
      rw [← sortable.itemOrder_eq_lt_iff isRight isLeft,
        sortable.consistent.swap a isLeft b isRight, Ordering.swap_eq_lt]
      exact notAbove
    · have filters (l : List Value) (among : ∀ b ∈ l, b ∈ items) :
          l.filter (sameKeys value kind keys a) =
            l.filter (itemOrder value keys a · == .eq) :=
        List.filter_congr fun b hb => by
          rw [Bool.eq_iff_iff, ← sortable.itemOrder_eq_eq_iff ha (among b hb), beq_iff_eq]
      rw [filters _ fun b hb => sorts.perm.mem_iff.mp hb, filters items fun _ hb => hb]
      exact sorts.stable a ha
  · intro key isKey item isItem error fails
    have keyedFails : ∃ first, SortKey.keyed now element keys item = .error first := by
      obtain ⟨first, failed⟩ := mapM_eq_error
        (f := fun key => key.selector.evaluate ((EvalContext.initial now).bind element item))
        isKey fails
      exact ⟨first, by rw [SortKey.keyed, failed]; rfl⟩
    obtain ⟨first, keyedFails⟩ := keyedFails
    obtain ⟨first, failed⟩ := mapM_eq_error isItem keyedFails
    exact ⟨first, by rw [sortItems, failed]; rfl⟩

/-- The element that is sorted. -/
def numberElement : Parameter := ⟨0, "it", .int32⟩

/-- Numbers above one first, each part in the order of its numbers. -/
def aboveOneFirst : List SortKey :=
  [⟨.binary .boolean .greaterThan (.parameter numberElement) (.constant .int32 (.int32 1) none)
      none, false, false⟩,
    ⟨.parameter numberElement, true, true⟩]

def threeNumbers : List Value := [.int32 1, .int32 3, .int32 2]

/-- The keys of a number. -/
def numberKey (key : SortKey) (item : Value) : Value :=
  match key.ascending, item with
  | false, .integral n => .boolean (decide (1 < n.val))
  | _, _ => item

def numberKeyKind (key : SortKey) : KeyKind := if key.ascending then .exact else .truth

theorem threeNumbers_sortable :
    Sortable .minValue numberElement aboveOneFirst threeNumbers numberKey numberKeyKind where
  evaluates := by
    simp only [aboveOneFirst, threeNumbers, List.forall_mem_cons]
    exact ⟨⟨rfl, rfl, rfl, nofun⟩, ⟨rfl, rfl, rfl, nofun⟩, nofun⟩
  comparable := by
    simp only [aboveOneFirst, threeNumbers, List.forall_mem_cons]
    exact ⟨⟨rfl, rfl, rfl, nofun⟩, ⟨rfl, rfl, rfl, nofun⟩, nofun⟩

theorem sortItems_sorts_numbers :
    ∃ sorted, sortItems .minValue numberElement aboveOneFirst threeNumbers = .ok sorted ∧
      sorted.Perm threeNumbers ∧
      sorted.Pairwise fun a b => ¬ Precedes numberKey numberKeyKind aboveOneFirst b a := by
  obtain ⟨sorts, -⟩ := sortItems_sorts .minValue numberElement aboveOneFirst threeNumbers
  obtain ⟨sorted, succeeds, isPerm, ordered, -⟩ :=
    sorts numberKey numberKeyKind threeNumbers_sortable
  exact ⟨sorted, succeeds, isPerm, ordered⟩

namespace Expr

/-- A sequence sorted by keys one after the other, the last key first. -/
def sortedBy (element : Parameter) : List SortKey → Expr → Expr
  | [], source => source
  | key :: rest, source =>
    .aggregate (.sequence element.type)
      (if key.ascending then .orderBy else .orderByDescending) (sortedBy element rest source)
      [element.type, key.selector.type] [.lambda [element] key.selector]

/-- Sorting by one key. -/
theorem evaluate_sortedBy_cons {element : Parameter} {key : SortKey} {rest : List SortKey}
    {source : Expr} {ctx : EvalContext} {items : List Value} {value : SortKey → Value → Value}
    (evaluated : (sortedBy element rest source).evaluate ctx = .ok (.array items))
    (each : ∀ item ∈ items, key.selector.evaluate (ctx.bind element item) = .ok (value key item)) :
    (sortedBy element (key :: rest) source).evaluate ctx =
      .ok (.array (stableSort (fun a b =>
        Value.directedOrder key.ascending (value key a) (value key b) == .lt) items)) := by
  have keys : items.mapM ((Expr.lambda [element] key.selector).apply ctx [·]) =
      .ok (items.map (value key)) :=
    mapM_eq_ok each
  have sorted (ascending : Bool) :
      Aggregate.sorted ascending (some ⟨fun _ => (Expr.lambda [element] key.selector).evaluate ctx,
        fun item => (Expr.lambda [element] key.selector).apply ctx [item]⟩) items =
        .ok (stableSort (fun a b =>
          Value.directedOrder ascending (value key a) (value key b) == .lt) items) := by
    have pairs : (items.map (value key)).zip items =
        items.map fun item => (value key item, item) := by
      rw [List.zip_map_left, List.zip_eq_zipWith]
      simp
    simp only [Aggregate.sorted, Aggregate.projected, keys, bind, Except.bind, pure, Except.pure,
      pairs, stableSort_map, List.map_map]
    exact congrArg Except.ok (List.map_id _)
  rw [sortedBy, evaluate, evaluated]
  have asArray {outcome : Evaluation (List Value)} {held : List Value} (made : outcome = .ok held) :
      (do return Value.array (← outcome)) = (.ok (.array held) : Evaluation Value) := by
    rw [made]
    rfl
  cases key.ascending with
  | true => exact asArray (sorted true)
  | false => exact asArray (sorted false)

end Expr

namespace Sortable

variable {now : DateTime} {element : Parameter} {key : SortKey} {keys : List SortKey}
  {items : List Value} {value : SortKey → Value → Value} {kind : SortKey → KeyKind}

theorem stableSort_nil (sortable : Sortable now element [] items value kind) :
    stableSort (fun a b => itemOrder value [] a b == .lt) items = items :=
  sortable.isStableSort.unique sortable.consistent
    ⟨.refl items, List.pairwise_of_forall fun _ _ => nofun, fun _ _ => rfl⟩

/-- Items that are sorted by the other keys and then by the first one are sorted by all keys. -/
theorem stableSort_cons (sortable : Sortable now element (key :: keys) items value kind) :
    stableSort (fun a b => Value.directedOrder key.ascending (value key a) (value key b) == .lt)
        (stableSort (fun a b => itemOrder value keys a b == .lt) items) =
      stableSort (fun a b => itemOrder value (key :: keys) a b == .lt) items := by
  have others := sortable.of_cons.isStableSort
  have first := (sortable.consistent_key List.mem_cons_self).comap (value key)
  have last := stableSort_isStableSort (first.subset fun a ha => others.perm.mem_iff.mp ha)
  exact (others.andThen first last).unique sortable.consistent sortable.isStableSort

end Sortable

/-- Sorting by several keys and sorting by one key after the other, the last key first, yield the
same items. -/
theorem sortItems_successive {now : DateTime} {element : Parameter} {keys : List SortKey}
    {items : List Value} {value : SortKey → Value → Value} {kind : SortKey → KeyKind}
    {source : Expr} (sortable : Sortable now element keys items value kind)
    (isSource : source.evaluate (.initial now) = .ok (.array items)) :
    ∃ sorted, sortItems now element keys items = .ok sorted ∧
      (Expr.sortedBy element keys source).evaluate (.initial now) = .ok (.array sorted) := by
  refine ⟨_, sortable.sortItems_eq, ?_⟩
  induction keys with
  | nil => rw [sortable.stableSort_nil, Expr.sortedBy, isSource]
  | cons key rest ih =>
      rw [← sortable.stableSort_cons]
      refine Expr.evaluate_sortedBy_cons (ih sortable.of_cons) fun item isItem => ?_
      exact sortable.evaluates key List.mem_cons_self item
        (sortable.of_cons.isStableSort.perm.mem_iff.mp isItem)

theorem sortItems_successive_numbers :
    ∃ sorted, sortItems .minValue numberElement aboveOneFirst threeNumbers = .ok sorted ∧
      (Expr.sortedBy numberElement aboveOneFirst
        (.constant (.sequence .int32) (.array threeNumbers) none)).evaluate (.initial .minValue) =
          .ok (.array sorted) :=
  sortItems_successive threeNumbers_sortable rfl

end QueryTree
