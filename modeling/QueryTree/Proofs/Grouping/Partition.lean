import QueryTree.Evaluate.Expression
import QueryTree.Proofs.Grouping.Equality
import QueryTree.Proofs.Outcome

/-!
# Groups

Grouping splits a sequence by keys: the keys of the groups are what is left of all keys when equal
ones are dropped, and each element is in the group with its key.
-/

namespace QueryTree

section Sequence

variable {α β : Type}

/-- The parts of a list that marks select hold its items, each once, if each item is selected by one
mark only. -/
theorem flatMap_filter_perm (selects : β → α → Bool) {marks : List β} {items : List α}
    (covers : ∀ a ∈ items, ∃ b ∈ marks, selects b a = true)
    (separate : marks.Pairwise fun b c => ∀ a ∈ items, selects b a = true → selects c a = false) :
    (marks.flatMap fun b => items.filter (selects b)).Perm items := by
  induction marks generalizing items with
  | nil =>
      obtain rfl : items = [] := List.eq_nil_iff_forall_not_mem.mpr fun a ha => by
        obtain ⟨b, isMark, -⟩ := covers a ha
        cases isMark
      exact .refl _
  | cons b rest ih =>
      obtain ⟨apart, others⟩ := List.pairwise_cons.mp separate
      have isLater {a : α} (left : a ∈ items.filter fun a => !selects b a) :
          a ∈ items ∧ selects b a = false := by simpa using left
      have remaining :
          (rest.flatMap fun c => (items.filter fun a => !selects b a).filter (selects c)).Perm
            (items.filter fun a => !selects b a) := by
        refine ih (fun a left => ?_) (others.imp fun apart a left => apart a (isLater left).1)
        obtain ⟨c, isMark, selected⟩ := covers a (isLater left).1
        obtain rfl | isMark := List.mem_cons.mp isMark
        · rw [(isLater left).2] at selected
          cases selected
        · exact ⟨c, isMark, selected⟩
      have untouched : (rest.flatMap fun c => items.filter (selects c)) =
          rest.flatMap fun c => (items.filter fun a => !selects b a).filter (selects c) := by
        refine List.flatMap_congr fun c isMark => ?_
        rw [List.filter_filter]
        refine List.filter_congr fun a ha => ?_
        cases selected : selects b a with
        | true => simp [apart c isMark a ha selected]
        | false => simp
      rw [List.flatMap_cons, untouched]
      exact (remaining.append_left _).trans (List.filter_append_perm _ _)

end Sequence

namespace Aggregate

open Value (containsReal equal_refl equal_symm equal_trans)

/-- The keys of which no equal one comes before, in their order. -/
structure IsDistinct (keys kept : List Value) : Prop where
  first : ∀ d ∈ kept, keys.find? d.equal = some d
  ordered : kept.Pairwise fun d e => keys.findIdx d.equal < keys.findIdx e.equal
  separate : kept.Pairwise fun d e => d.equal e = false
  covers : ∀ key ∈ keys, ∃ d ∈ kept, d.equal key = true

namespace IsDistinct

variable {keys kept : List Value} {v d : Value}

theorem mem (distinct : IsDistinct keys kept) (hd : d ∈ kept) : d ∈ keys :=
  List.mem_of_find?_eq_some (distinct.first d hd)

theorem findIdx_lt (distinct : IsDistinct keys kept) (hd : d ∈ kept) :
    keys.findIdx d.equal < keys.length := by
  have found := distinct.first d hd
  exact List.findIdx_lt_length.mpr ⟨d, distinct.mem hd, List.find?_some found⟩

/-- One more key does not change where a distinct key is found. -/
theorem findIdx_append (distinct : IsDistinct keys kept) (hd : d ∈ kept) :
    (keys ++ [v]).findIdx d.equal = keys.findIdx d.equal := by
  rw [List.findIdx_append, if_pos (distinct.findIdx_lt hd)]

theorem find?_append (distinct : IsDistinct keys kept) (hd : d ∈ kept) :
    (keys ++ [v]).find? d.equal = some d := by
  rw [List.find?_append, distinct.first d hd, Option.some_or]

theorem ordered_append (distinct : IsDistinct keys kept) (v : Value) :
    kept.Pairwise fun d e => (keys ++ [v]).findIdx d.equal < (keys ++ [v]).findIdx e.equal :=
  distinct.ordered.imp_of_mem fun hd he before => by
    rw [distinct.findIdx_append hd, distinct.findIdx_append he]
    exact before

theorem skip (distinct : IsDistinct keys kept) (isEqual : kept.any (Value.equal · v) = true) :
    IsDistinct (keys ++ [v]) kept where
  first _ hd := distinct.find?_append hd
  ordered := distinct.ordered_append v
  separate := distinct.separate
  covers key hkey := by
    obtain hkey | hkey := List.mem_append.mp hkey
    · exact distinct.covers key hkey
    · obtain rfl := List.mem_singleton.mp hkey
      exact List.any_eq_true.mp isEqual

/-- A key that no distinct key is equal to is equal to no key. -/
theorem not_equal (distinct : IsDistinct keys kept)
    (isExact : ∀ key ∈ keys ++ [v], key.containsReal = false)
    (isNew : ∀ d ∈ kept, d.equal v = false) {key : Value} (hkey : key ∈ keys) :
    v.equal key = false := by
  have ofKey {key : Value} (hkey : key ∈ keys) : key.containsReal = false :=
    isExact key (List.mem_append_left _ hkey)
  have ofNew : v.containsReal = false := isExact v (by simp)
  by_contra alike
  rw [Bool.not_eq_false] at alike
  obtain ⟨d, hd, covered⟩ := distinct.covers key hkey
  have reaches := equal_trans (ofKey (distinct.mem hd)) (ofKey hkey) ofNew covered
    (equal_symm ofNew (ofKey hkey) alike)
  rw [isNew d hd] at reaches
  cases reaches

theorem add (distinct : IsDistinct keys kept)
    (isExact : ∀ key ∈ keys ++ [v], key.containsReal = false)
    (isNew : ∀ d ∈ kept, d.equal v = false) : IsDistinct (keys ++ [v]) (kept ++ [v]) := by
  have itself : v.equal v = true := equal_refl (isExact v (by simp))
  have isFirst : ∀ key ∈ keys, v.equal key = false := fun _ => distinct.not_equal isExact isNew
  have place : (keys ++ [v]).findIdx v.equal = keys.length := by
    have unfound : keys.findIdx v.equal = keys.length := List.findIdx_eq_length.mpr isFirst
    rw [List.findIdx_append, if_neg (by omega)]
    simp [itself]
  refine ⟨fun d hd => ?_, ?_, ?_, fun key hkey => ?_⟩
  · obtain hd | hd := List.mem_append.mp hd
    · exact distinct.find?_append hd
    · obtain rfl := List.mem_singleton.mp hd
      have unfound : keys.find? d.equal = none :=
        List.find?_eq_none.mpr fun key hkey => by simp [isFirst key hkey]
      rw [List.find?_append, unfound, Option.none_or, List.find?_singleton, if_pos itself]
  · refine List.pairwise_append.mpr ⟨distinct.ordered_append v, List.pairwise_singleton _ _, ?_⟩
    intro d hd e he
    obtain rfl := List.mem_singleton.mp he
    rw [place, distinct.findIdx_append hd]
    exact distinct.findIdx_lt hd
  · refine List.pairwise_append.mpr ⟨distinct.separate, List.pairwise_singleton _ _, ?_⟩
    intro d hd e he
    obtain rfl := List.mem_singleton.mp he
    exact isNew d hd
  · obtain hkey | hkey := List.mem_append.mp hkey
    · obtain ⟨d, hd, covered⟩ := distinct.covers key hkey
      exact ⟨d, List.mem_append_left _ hd, covered⟩
    · obtain rfl := List.mem_singleton.mp hkey
      exact ⟨key, by simp, itself⟩

end IsDistinct

theorem distinctItems_append (keys : List Value) (v : Value) :
    distinctItems (keys ++ [v]) =
      if (distinctItems keys).any (Value.equal · v) then distinctItems keys
      else distinctItems keys ++ [v] := by
  rw [distinctItems, List.foldl_append]
  rfl

theorem distinctItems_isDistinct {keys : List Value}
    (isExact : ∀ key ∈ keys, key.containsReal = false) : IsDistinct keys (distinctItems keys) := by
  induction keys using List.reverseRecOn with
  | nil => exact ⟨nofun, .nil, .nil, nofun⟩
  | append_singleton keys v ih =>
      have distinct := ih fun key hkey => isExact key (List.mem_append_left _ hkey)
      rw [distinctItems_append]
      split
      next isEqual => exact distinct.skip isEqual
      next isNew => exact distinct.add isExact (by simpa using isNew)

/-- The members with keys equal to a key. -/
def membersWith (keyed : List (Value × Value)) (key : Value) : List Value :=
  (keyed.filter (key.equal ·.1)).map (·.2)

/-- A member is put into the only group with an equal key, or into a new one behind the others. -/
theorem addToGroup_map {kept : List Value} (members : Value → List Value) {key : Value}
    (member : Value)
    (separate : kept.Pairwise fun d e => d.equal key = true → e.equal key = false) :
    addToGroup key member (kept.map fun d => (d, members d)) =
      (kept.map fun d => (d, members d ++ if d.equal key then [member] else [])) ++
        if kept.any (Value.equal · key) then [] else [(key, [member])] := by
  induction kept with
  | nil => rfl
  | cons d rest ih =>
      obtain ⟨apart, others⟩ := List.pairwise_cons.mp separate
      rw [List.map_cons, List.map_cons, addToGroup, List.any_cons]
      cases isEqual : d.equal key with
      | true =>
          have untouched :
              (rest.map fun e => (e, members e ++ if e.equal key then [member] else [])) =
                rest.map fun e => (e, members e) :=
            List.map_congr_left fun e he => by simp [apart e he isEqual]
          simp [untouched]
      | false => simp [ih others]

theorem membersWith_append (keyed : List (Value × Value)) (entry : Value × Value) (key : Value) :
    membersWith (keyed ++ [entry]) key =
      membersWith keyed key ++ if key.equal entry.1 then [entry.2] else [] := by
  rw [membersWith, List.filter_append, List.map_append, membersWith, List.filter_singleton]
  cases key.equal entry.1 <;> rfl

/-- The groups are those of the distinct keys. -/
theorem groups_eq {keyed : List (Value × Value)}
    (isExact : ∀ entry ∈ keyed, entry.1.containsReal = false) :
    groups keyed =
      (distinctItems (keyed.map (·.1))).map fun d => (d, membersWith keyed d) := by
  induction keyed using List.reverseRecOn with
  | nil => rfl
  | append_singleton keyed entry ih =>
      have exactKeys : ∀ key ∈ keyed.map (·.1) ++ [entry.1], key.containsReal = false := by
        rw [← List.map_singleton, ← List.map_append]
        exact List.forall_mem_map.mpr isExact
      have earlier {key : Value} (hkey : key ∈ keyed.map (·.1)) : key.containsReal = false :=
        exactKeys key (List.mem_append_left _ hkey)
      have distinct := distinctItems_isDistinct fun key hkey => earlier hkey
      have ofEntry : entry.1.containsReal = false := exactKeys entry.1 (by simp)
      have oneOnly : (distinctItems (keyed.map (·.1))).Pairwise fun d e =>
          d.equal entry.1 = true → e.equal entry.1 = false := by
        refine distinct.separate.imp_of_mem fun {d e} hd he apart left => ?_
        by_contra right
        rw [Bool.not_eq_false] at right
        have ofLeft := earlier (distinct.mem hd)
        have ofRight := earlier (distinct.mem he)
        have both := equal_trans ofLeft ofEntry ofRight left (equal_symm ofRight ofEntry right)
        rw [apart] at both
        cases both
      have added : groups (keyed ++ [entry]) = addToGroup entry.1 entry.2 (groups keyed) := by
        rw [groups, List.foldl_append]
        rfl
      rw [added, ih fun entry isEntry => isExact entry (List.mem_append_left _ isEntry),
        addToGroup_map (membersWith keyed) entry.2 oneOnly, List.map_append, List.map_singleton,
        distinctItems_append]
      simp only [membersWith_append]
      split
      next => rw [List.append_nil]
      next isNew =>
        have alone : membersWith keyed entry.1 = [] := by
          have isNew : ∀ d ∈ distinctItems (keyed.map (·.1)), d.equal entry.1 = false := by
            simpa using isNew
          rw [membersWith, List.map_eq_nil_iff, List.filter_eq_nil_iff]
          intro other isEntry
          simp [distinct.not_equal exactKeys isNew (List.mem_map_of_mem isEntry)]
        rw [List.map_append, List.map_singleton, alone, equal_refl ofEntry]
        rfl

/-- What grouping by keys yields: the groups have keys of which no two are equal, in the order of
the first elements with these, and hold what is selected of the elements with equal keys, in their
order, so that each element is in one group. -/
structure IsGrouping (items : List Value) (key member : Value → Value) (groups : List Group) :
    Prop where
  separate : groups.Pairwise fun g h => g.1.equal h.1 = false
  ordered : groups.Pairwise fun g h =>
    items.findIdx (fun item => g.1.equal (key item)) <
      items.findIdx (fun item => h.1.equal (key item))
  first : ∀ g ∈ groups, (items.find? fun item => g.1.equal (key item)).map key = some g.1
  members : ∀ g ∈ groups, g.2 = (items.filter fun item => g.1.equal (key item)).map member
  nonempty : ∀ g ∈ groups, g.2 ≠ []
  partition : (groups.flatMap (·.2)).Perm (items.map member)

theorem IsDistinct.isGrouping {items kept : List Value} {key : Value → Value}
    (member : Value → Value) (isExact : ∀ item ∈ items, (key item).containsReal = false)
    (distinct : IsDistinct (items.map key) kept) :
    IsGrouping items key member
      (kept.map fun d => (d, (items.filter fun item => d.equal (key item)).map member)) where
  separate := List.pairwise_map.mpr distinct.separate
  ordered := by
    refine List.pairwise_map.mpr (distinct.ordered.imp fun before => ?_)
    rw [List.findIdx_map, List.findIdx_map] at before
    exact before
  first := List.forall_mem_map.mpr fun d hd => by
    rw [← distinct.first d hd, List.find?_map]
    rfl
  members := List.forall_mem_map.mpr fun _ _ => rfl
  nonempty := List.forall_mem_map.mpr fun d hd => by
    have found := distinct.first d hd
    rw [List.find?_map, Option.map_eq_some_iff] at found
    obtain ⟨item, found, -⟩ := found
    have isEqual : (d.equal ∘ key) item = true := List.find?_some found
    have isMember : item ∈ items.filter fun item => d.equal (key item) :=
      List.mem_filter.mpr ⟨List.mem_of_find?_eq_some found, isEqual⟩
    exact List.ne_nil_of_mem (List.mem_map_of_mem isMember)
  partition := by
    rw [List.flatMap_map, ← List.map_flatMap]
    refine .map member (flatMap_filter_perm (fun (d : Value) item => d.equal (key item))
      (fun item hitem => distinct.covers (key item) (List.mem_map_of_mem hitem)) ?_)
    refine distinct.separate.imp_of_mem fun {d e} hd he apart item hitem left => ?_
    by_contra right
    rw [Bool.not_eq_false] at right
    have ofKey : ∀ d ∈ items.map key, d.containsReal = false := List.forall_mem_map.mpr isExact
    have ofItem := isExact item hitem
    have ofLeft := ofKey d (distinct.mem hd)
    have ofRight := ofKey e (distinct.mem he)
    have both := equal_trans ofLeft ofItem ofRight left (equal_symm ofRight ofItem right)
    rw [apart] at both
    cases both

/-- Elements are grouped by keys without binary numbers, and the keys of the groups are the distinct
ones. -/
theorem groups_isGrouping {items : List Value} {key : Value → Value} (member : Value → Value)
    (isExact : ∀ item ∈ items, (key item).containsReal = false) :
    IsGrouping items key member (groups ((items.map key).zip (items.map member))) ∧
      (groups ((items.map key).zip (items.map member))).map (·.1) =
        distinctItems (items.map key) := by
  have distinct := distinctItems_isDistinct (List.forall_mem_map.mpr isExact)
  have keyed : groups ((items.map key).zip (items.map member)) =
      (distinctItems (items.map key)).map fun d =>
        (d, (items.filter fun item => d.equal (key item)).map member) := by
    rw [List.zip_map', groups_eq (List.forall_mem_map.mpr isExact), List.map_map]
    simp only [membersWith, List.filter_map, List.map_map]
    rfl
  rw [keyed]
  refine ⟨distinct.isGrouping member isExact, ?_⟩
  rw [List.map_map]
  exact List.map_id _

end Aggregate

namespace Expr

/-- What the elements of a sequence are selected as; without a selector they are themselves. -/
def Selects (ctx : EvalContext) (items : List Value) (selected : Value → Value) :
    Option Expr → Prop
  | none => ∀ item ∈ items, selected item = item
  | some selector => ∀ item ∈ items, selector.apply ctx [item] = .ok (selected item)

/-- An expression as an argument of a sequence operation. -/
def argument (ctx : EvalContext) (e : Expr) : SequenceArgument :=
  ⟨fun _ => e.evaluate ctx, fun item => e.apply ctx [item]⟩

theorem Selects.projected {ctx : EvalContext} {items : List Value} {selected : Value → Value}
    {selector? : Option Expr} (selects : Selects ctx items selected selector?) :
    Aggregate.projected (selector?.map (argument ctx)) items = .ok (items.map selected) := by
  cases selector? with
  | none =>
      have unchanged : items.map selected = items :=
        (List.map_congr_left selects).trans (List.map_id items)
      rw [unchanged]
      rfl
  | some selector => exact mapM_eq_ok selects

end Expr

namespace Aggregate

/-- Every operation takes the same items from a sequence. -/
theorem items_eq {operation other : Aggregate} {v : Value} {items : List Value}
    (isSequence : Aggregate.items operation v = .ok items) :
    Aggregate.items other v = .ok items := by
  cases v with
  | object members =>
      simp only [Aggregate.items] at isSequence ⊢
      split at isSequence
      next => exact isSequence
      next => cases isSequence
  | array | string => exact isSequence
  | _ => cases isSequence

theorem evaluate_groupBy (type : Ty) {v : Value} {items keys members : List Value}
    {args : List SequenceArgument} (isSequence : Aggregate.items .groupBy v = .ok items)
    (isKeys : projected args.head? items = .ok keys)
    (isMembers : projected args[1]? items = .ok members) :
    groupBy.evaluate type v args = .ok (.array ((groups (keys.zip members)).map groupValue)) := by
  rw [evaluate, isSequence]
  simp only [bind, Except.bind, isKeys, isMembers]
  rfl

theorem evaluate_select (type : Ty) {v : Value} {items selected : List Value}
    {args : List SequenceArgument} (isSequence : Aggregate.items .select v = .ok items)
    (isSelected : projected args.head? items = .ok selected) :
    select.evaluate type v args = .ok (.array selected) := by
  rw [evaluate, isSequence]
  simp only [bind, Except.bind, isSelected]
  rfl

end Aggregate

/-- Grouping by keys without binary numbers partitions a sequence, and yields the keys that are
distinct among those of all elements. -/
theorem groupBy_partitions {ctx : EvalContext} {source keySelector : Expr}
    {memberSelector? : Option Expr} {v : Value} {items : List Value} {key member : Value → Value}
    (type keyType distinctType : Ty) (types keyTypes distinctTypes : List Ty)
    (isSource : source.evaluate ctx = .ok v) (isSequence : Aggregate.items .groupBy v = .ok items)
    (keys : Expr.Selects ctx items key (some keySelector))
    (members : Expr.Selects ctx items member memberSelector?)
    (isExact : ∀ item ∈ items, (key item).containsReal = false) :
    ∃ groups : List Aggregate.Group,
      (Expr.aggregate type .groupBy source types
        (keySelector :: memberSelector?.toList)).evaluate ctx =
          .ok (.array (groups.map Aggregate.groupValue)) ∧
      Aggregate.IsGrouping items key member groups ∧
      (Expr.aggregate distinctType .distinct
        (.aggregate keyType .select source keyTypes [keySelector]) distinctTypes []).evaluate ctx =
          .ok (.array (groups.map (·.1))) := by
  obtain ⟨isGrouping, distinctKeys⟩ := Aggregate.groups_isGrouping member isExact
  refine ⟨_, ?_, isGrouping, ?_⟩
  · rw [Expr.evaluate, isSource]
    refine Aggregate.evaluate_groupBy type isSequence keys.projected ?_
    rw [← members.projected]
    cases memberSelector? <;> rfl
  · have selected : (Expr.aggregate keyType .select source keyTypes [keySelector]).evaluate ctx =
        .ok (.array (items.map key)) := by
      rw [Expr.evaluate, isSource]
      exact Aggregate.evaluate_select keyType (Aggregate.items_eq isSequence) keys.projected
    rw [distinctKeys, Expr.evaluate, selected]
    rfl

/-- Keys that are one number as an integer and as a decimal number, a text, and null. -/
def mixedKeys : List Value :=
  [.int32 1, .string "a", .null, .decimal ⟨false, 10, 1⟩, .null]

/-- The function that yields its argument. -/
def identityFunction : Expr := .lambda [⟨0, "it", .object⟩] (.parameter ⟨0, "it", .object⟩)

/-- The keys as a sequence. -/
def mixedSource : Expr := .constant (.array .object) (.array mixedKeys) none

theorem groupBy_partitions_mixed :
    ∃ groups : List Aggregate.Group,
      (Expr.aggregate .object .groupBy mixedSource [] [identityFunction]).evaluate
        (.initial .minValue) = .ok (.array (groups.map Aggregate.groupValue)) ∧
      Aggregate.IsGrouping mixedKeys (fun item => item) (fun item => item) groups := by
  have isSource : mixedSource.evaluate (.initial .minValue) = .ok (.array mixedKeys) := rfl
  have keys : Expr.Selects (.initial .minValue) mixedKeys (fun item => item)
      (some identityFunction) := fun _ _ => rfl
  have members : Expr.Selects (.initial .minValue) mixedKeys (fun item => item) none :=
    fun _ _ => rfl
  obtain ⟨groups, evaluates, isGrouping, -⟩ :=
    groupBy_partitions .object .object .object [] [] [] isSource rfl keys members (by decide)
  exact ⟨groups, evaluates, isGrouping⟩

example : Aggregate.distinctItems mixedKeys = [.int32 1, .string "a", .null] := by rfl

end QueryTree
