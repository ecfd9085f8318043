import QueryTree.Evaluate.Sequence
import Mathlib.Data.List.Induction
import Mathlib.Data.List.Perm.Basic
import Mathlib.Order.Compare

/-!
# Stable sorting

What a comparison has to be like so that items can be sorted by it, and what sorting them does.
There is one way only to sort items stably, and sorting them by one key after the other, the least
important key first, sorts them by all of them.
-/

namespace QueryTree

variable {α β : Type}

/-- A comparison is a total preorder on some items. -/
structure ConsistentOn (order : α → α → Ordering) (items : List α) : Prop where
  self : ∀ a ∈ items, order a a = .eq
  swap : ∀ a ∈ items, ∀ b ∈ items, order b a = (order a b).swap
  lt_trans : ∀ a ∈ items, ∀ b ∈ items, ∀ c ∈ items,
    order a b = .lt → order b c = .lt → order a c = .lt
  eq_trans : ∀ a ∈ items, ∀ b ∈ items, ∀ c ∈ items,
    order a b = .eq → order b c = .eq → order a c = .eq

namespace ConsistentOn

variable {order second : α → α → Ordering} {items : List α} {a b c : α}

theorem subset {fewer : List α} (consistent : ConsistentOn order items)
    (among : ∀ a ∈ fewer, a ∈ items) : ConsistentOn order fewer where
  self a ha := consistent.self a (among a ha)
  swap a ha b hb := consistent.swap a (among a ha) b (among b hb)
  lt_trans a ha b hb c hc := consistent.lt_trans a (among a ha) b (among b hb) c (among c hc)
  eq_trans a ha b hb c hc := consistent.eq_trans a (among a ha) b (among b hb) c (among c hc)

theorem congr (consistent : ConsistentOn order items)
    (same : ∀ a ∈ items, ∀ b ∈ items, second a b = order a b) : ConsistentOn second items where
  self a ha := by rw [same a ha a ha, consistent.self a ha]
  swap a ha b hb := by rw [same a ha b hb, same b hb a ha, consistent.swap a ha b hb]
  lt_trans a ha b hb c hc := by
    rw [same a ha b hb, same b hb c hc, same a ha c hc]
    exact consistent.lt_trans a ha b hb c hc
  eq_trans a ha b hb c hc := by
    rw [same a ha b hb, same b hb c hc, same a ha c hc]
    exact consistent.eq_trans a ha b hb c hc

/-- Items that have ranks in a linear order are compared consistently by them. -/
theorem of_rank {ρ : Type} [LinearOrder ρ] (rank : α → ρ)
    (ranked : ∀ a ∈ items, ∀ b ∈ items, order a b = compare (rank a) (rank b)) :
    ConsistentOn order items := by
  have byRank : ConsistentOn (fun a b => compare (rank a) (rank b)) items :=
    { self := fun _ _ => compare_eq_iff_eq.mpr rfl
      swap := fun a _ b _ => Std.OrientedOrd.eq_swap (a := rank b) (b := rank a)
      lt_trans := fun _ _ _ _ _ _ ab bc =>
        compare_lt_iff_lt.mpr ((compare_lt_iff_lt.mp ab).trans (compare_lt_iff_lt.mp bc))
      eq_trans := fun _ _ _ _ _ _ ab bc =>
        compare_eq_iff_eq.mpr ((compare_eq_iff_eq.mp ab).trans (compare_eq_iff_eq.mp bc)) }
  exact byRank.congr ranked

/-- A comparison is as consistent for items as it is for what it looks at. -/
theorem comap {order : β → β → Ordering} (key : α → β)
    (consistent : ConsistentOn order (items.map key)) :
    ConsistentOn (fun a b => order (key a) (key b)) items where
  self _ ha := consistent.self _ (List.mem_map_of_mem ha)
  swap _ ha _ hb := consistent.swap _ (List.mem_map_of_mem ha) _ (List.mem_map_of_mem hb)
  lt_trans _ ha _ hb _ hc := consistent.lt_trans _ (List.mem_map_of_mem ha) _
    (List.mem_map_of_mem hb) _ (List.mem_map_of_mem hc)
  eq_trans _ ha _ hb _ hc := consistent.eq_trans _ (List.mem_map_of_mem ha) _
    (List.mem_map_of_mem hb) _ (List.mem_map_of_mem hc)

/-- Descending is as consistent as ascending. -/
theorem reversed (consistent : ConsistentOn order items) :
    ConsistentOn (fun a b => (order a b).swap) items where
  self a ha := by rw [consistent.self a ha]; rfl
  swap a ha b hb := by rw [consistent.swap a ha b hb]
  lt_trans a ha b hb c hc ab bc := by
    rw [← consistent.swap a ha b hb] at ab
    rw [← consistent.swap b hb c hc] at bc
    rw [← consistent.swap a ha c hc]
    exact consistent.lt_trans c hc b hb a ha bc ab
  eq_trans a ha b hb c hc ab bc := by
    rw [Ordering.swap_eq_eq] at ab bc ⊢
    exact consistent.eq_trans a ha b hb c hc ab bc

theorem eq_symm (consistent : ConsistentOn order items) (ha : a ∈ items) (hb : b ∈ items)
    (same : order a b = .eq) : order b a = .eq := by
  rw [consistent.swap a ha b hb, same]
  rfl

/-- Items that are equal are less than the same ones. -/
theorem lt_of_eq_of_lt (consistent : ConsistentOn order items) (ha : a ∈ items) (hb : b ∈ items)
    (hc : c ∈ items) (same : order a b = .eq) (less : order b c = .lt) : order a c = .lt := by
  cases outcome : order a c with
  | lt => rfl
  | eq =>
      have equal := consistent.eq_trans b hb a ha c hc (consistent.eq_symm ha hb same) outcome
      rw [equal] at less
      cases less
  | gt =>
      have greater : order c a = .lt := by rw [consistent.swap a ha c hc, outcome]; rfl
      have between := consistent.lt_trans b hb c hc a ha less greater
      rw [consistent.eq_symm ha hb same] at between
      cases between

/-- Items that are equal have the same ones above them. -/
theorem lt_of_lt_of_eq (consistent : ConsistentOn order items) (ha : a ∈ items) (hb : b ∈ items)
    (hc : c ∈ items) (less : order a b = .lt) (same : order b c = .eq) : order a c = .lt := by
  have flipped := consistent.reversed.lt_of_eq_of_lt (a := c) (b := b) (c := a) hc hb ha
    (by rw [Ordering.swap_eq_eq]; exact consistent.eq_symm hb hc same)
    (by rw [consistent.swap a ha b hb, less]; rfl)
  rwa [← consistent.swap c hc a ha] at flipped

/-- What is above an item is above all that is not above the item. -/
theorem lt_of_lt_of_ne_gt (consistent : ConsistentOn order items) (ha : a ∈ items)
    (hb : b ∈ items) (hc : c ∈ items) (less : order a b = .lt) (notAbove : order b c ≠ .gt) :
    order a c = .lt := by
  cases outcome : order b c with
  | lt => exact consistent.lt_trans a ha b hb c hc less outcome
  | eq => exact consistent.lt_of_lt_of_eq ha hb hc less outcome
  | gt => exact absurd outcome notAbove

theorem ne_gt_trans (consistent : ConsistentOn order items) (ha : a ∈ items) (hb : b ∈ items)
    (hc : c ∈ items) (first : order a b ≠ .gt) (last : order b c ≠ .gt) : order a c ≠ .gt := by
  intro above
  have less : order c a = .lt := by rw [consistent.swap a ha c hc, above]; rfl
  have between := consistent.lt_of_lt_of_ne_gt hc ha hb less first
  rw [consistent.swap b hb c hc] at between
  exact last (Ordering.swap_eq_lt.mp between)

/-- Of two consistent comparisons the second one may decide where the first one does not. -/
protected theorem andThen (consistent : ConsistentOn order items)
    (finer : ConsistentOn second items) :
    ConsistentOn (fun a b => (order a b).then (second a b)) items where
  self a ha := by simp [consistent.self a ha, finer.self a ha]
  swap a ha b hb := by rw [consistent.swap a ha b hb, finer.swap a ha b hb, Ordering.swap_then]
  lt_trans a ha b hb c hc ab bc := by
    rw [Ordering.then_eq_lt] at ab bc ⊢
    obtain ab | ⟨ab, ab'⟩ := ab <;> obtain bc | ⟨bc, bc'⟩ := bc
    · exact .inl (consistent.lt_trans a ha b hb c hc ab bc)
    · exact .inl (consistent.lt_of_lt_of_eq ha hb hc ab bc)
    · exact .inl (consistent.lt_of_eq_of_lt ha hb hc ab bc)
    · exact .inr ⟨consistent.eq_trans a ha b hb c hc ab bc, finer.lt_trans a ha b hb c hc ab' bc'⟩
  eq_trans a ha b hb c hc ab bc := by
    rw [Ordering.then_eq_eq] at ab bc ⊢
    exact ⟨consistent.eq_trans a ha b hb c hc ab.1 bc.1,
      finer.eq_trans a ha b hb c hc ab.2 bc.2⟩

end ConsistentOn

/-- A list is what stable sorting by a comparison makes of another one: it has the same items, none
stands before a lesser one, and items that are equal stand in the order that they had. -/
structure IsStableSort (order : α → α → Ordering) (items sorted : List α) : Prop where
  perm : sorted.Perm items
  ordered : sorted.Pairwise (order · · ≠ .gt)
  stable : ∀ a ∈ items, sorted.filter (order a · == .eq) = items.filter (order a · == .eq)

namespace IsStableSort

variable {order second : α → α → Ordering} {items middle sorted : List α}

/-- A sorted list is determined by its items and by the order of those that are equal. -/
theorem eq_of_filter_eq {left right : List α} (consistent : ConsistentOn order left)
    (perm : left.Perm right) (leftOrdered : left.Pairwise (order · · ≠ .gt))
    (rightOrdered : right.Pairwise (order · · ≠ .gt))
    (same : ∀ a ∈ left, left.filter (order a · == .eq) = right.filter (order a · == .eq)) :
    left = right := by
  induction left generalizing right with
  | nil => exact perm.nil_eq
  | cons a rest ih =>
      cases right with
      | nil => exact absurd perm.symm.nil_eq nofun
      | cons b others =>
          have hb : b ∈ a :: rest := perm.mem_iff.mpr List.mem_cons_self
          have ha : a ∈ b :: others := perm.mem_iff.mp List.mem_cons_self
          have selfA := consistent.self a List.mem_cons_self
          -- both heads are least, so that they are equal and stand first among their equals
          have ab : order a b ≠ .gt := by
            obtain rfl | isLater := List.mem_cons.mp hb
            · simp [selfA]
            · exact List.rel_of_pairwise_cons leftOrdered isLater
          have ba : order b a ≠ .gt := by
            obtain rfl | isLater := List.mem_cons.mp ha
            · simp [selfA]
            · exact List.rel_of_pairwise_cons rightOrdered isLater
          have equal : order a b = .eq := by
            rw [consistent.swap a List.mem_cons_self b hb] at ba
            cases outcome : order a b <;> simp_all
          have heads := same a List.mem_cons_self
          rw [List.filter_cons_of_pos (by simp [selfA]), List.filter_cons_of_pos (by simp [equal])]
            at heads
          obtain ⟨rfl, -⟩ := List.cons.inj heads
          refine congrArg (a :: ·) (ih (consistent.subset fun c => List.mem_cons_of_mem a)
            (List.perm_cons a |>.mp perm) leftOrdered.of_cons rightOrdered.of_cons fun c hc => ?_)
          have whole := same c (List.mem_cons_of_mem a hc)
          rw [List.filter_cons, List.filter_cons] at whole
          split at whole
          next => exact (List.cons.inj whole).2
          next => exact whole

/-- There is one way only to sort items stably. -/
protected theorem unique {other : List α} (consistent : ConsistentOn order items)
    (isSort : IsStableSort order items sorted) (isOther : IsStableSort order items other) :
    sorted = other := by
  refine eq_of_filter_eq (consistent.subset fun a => isSort.perm.mem_iff.mp)
    (isSort.perm.trans isOther.perm.symm) isSort.ordered isOther.ordered fun a ha => ?_
  have isItem := isSort.perm.mem_iff.mp ha
  rw [isSort.stable a isItem, isOther.stable a isItem]

/-- Sorting what is sorted by a second key by a first one sorts by both. -/
protected theorem andThen (consistent : ConsistentOn order items)
    (isFirst : IsStableSort second items middle) (isLast : IsStableSort order middle sorted) :
    IsStableSort (fun a b => (order a b).then (second a b)) items sorted where
  perm := isLast.perm.trans isFirst.perm
  ordered := by
    refine List.pairwise_iff_forall_sublist.mpr fun {a b} isPart => ?_
    have ha : a ∈ sorted := isPart.subset List.mem_cons_self
    have notAbove := List.pairwise_iff_forall_sublist.mp isLast.ordered isPart
    cases outcome : order a b with
    | lt => simp
    | gt => exact absurd outcome notAbove
    | eq =>
        -- equals kept the order that the second key gave them
        have self := consistent.self a
          (isFirst.perm.mem_iff.mp (isLast.perm.mem_iff.mp ha))
        have among := isPart.filter (order a · == .eq)
        rw [isLast.stable a (isLast.perm.mem_iff.mp ha)] at among
        simp only [List.filter_cons, self, outcome, BEq.rfl, if_true, List.filter_nil] at among
        exact List.pairwise_iff_forall_sublist.mp isFirst.ordered
          (among.trans List.filter_sublist)
  stable a ha := by
    have split (l : List α) : l.filter (fun b => (order a b).then (second a b) == .eq) =
        (l.filter (order a · == .eq)).filter (second a · == .eq) := by
      rw [List.filter_filter]
      refine List.filter_congr fun b _ => ?_
      cases order a b <;> cases second a b <;> rfl
    have swapped (l : List α) : (l.filter (order a · == .eq)).filter (second a · == .eq) =
        (l.filter (second a · == .eq)).filter (order a · == .eq) := by
      simp only [List.filter_filter, Bool.and_comm]
    rw [split, isLast.stable a (isFirst.perm.mem_iff.mpr ha), swapped,
      isFirst.stable a ha, ← swapped, ← split]

end IsStableSort

section Insertion

variable {order : α → α → Ordering} {items whole held : List α} {item a : α}

/-- Putting an item into a list that descends: the order that sorting by a comparison uses. -/
def insertBy (order : α → α → Ordering) (item : α) (held : List α) : List α :=
  insertDescending (fun a b => order a b == .lt) item held

theorem insertBy_perm (order : α → α → Ordering) (item : α) (held : List α) :
    (insertBy order item held).Perm (item :: held) := by
  induction held with
  | nil => exact .refl _
  | cons b rest ih =>
      rw [insertBy, insertDescending]
      split
      next => exact (ih.cons b).trans (.swap item b rest)
      next => exact .refl _

theorem insertBy_descends (consistent : ConsistentOn order whole) (isItem : item ∈ whole)
    (among : ∀ b ∈ held, b ∈ whole) (descends : held.Pairwise fun a b => order b a ≠ .gt) :
    (insertBy order item held).Pairwise fun a b => order b a ≠ .gt := by
  induction held with
  | nil => exact List.pairwise_singleton _ _
  | cons b rest ih =>
      obtain ⟨isHeld, restAmong⟩ := List.forall_mem_cons.mp among
      obtain ⟨below, restDescends⟩ := List.pairwise_cons.mp descends
      rw [insertBy, insertDescending]
      split
      next isLess =>
        refine List.pairwise_cons.mpr ⟨fun c hc => ?_, ih restAmong restDescends⟩
        obtain rfl | isRest := List.mem_cons.mp ((insertBy_perm order item rest).mem_iff.mp hc)
        · simp [beq_iff_eq.mp isLess]
        · exact below c isRest
      next notLess =>
        have notAbove : order b item ≠ .gt := by
          rw [consistent.swap item isItem b isHeld]
          simpa using notLess
        refine List.pairwise_cons.mpr ⟨fun c hc => ?_, descends⟩
        obtain rfl | isRest := List.mem_cons.mp hc
        · exact notAbove
        · exact consistent.ne_gt_trans (restAmong c isRest) isHeld isItem (below c isRest) notAbove

/-- An item is put in front of its equals. -/
theorem insertBy_filter (consistent : ConsistentOn order whole) (isItem : item ∈ whole)
    (among : ∀ b ∈ held, b ∈ whole) (ha : a ∈ whole) :
    (insertBy order item held).filter (order a · == .eq) =
      (item :: held).filter (order a · == .eq) := by
  induction held with
  | nil => rfl
  | cons b rest ih =>
      obtain ⟨isHeld, restAmong⟩ := List.forall_mem_cons.mp among
      rw [insertBy, insertDescending]
      split
      next isLess =>
        have tail := ih restAmong
        rw [insertBy] at tail
        rw [List.filter_cons, tail, List.filter_cons, List.filter_cons, List.filter_cons]
        by_cases equal : order a item = .eq
        · have above := consistent.lt_of_eq_of_lt ha isItem isHeld equal (beq_iff_eq.mp isLess)
          simp [equal, above]
        · simp [equal]
      next => rfl

theorem stableSort_append_singleton (order : α → α → Ordering) (items : List α) (item : α) :
    (stableSort (fun a b => order a b == .lt) (items ++ [item])).reverse =
      insertBy order item (stableSort (fun a b => order a b == .lt) items).reverse := by
  simp [stableSort, insertBy]

theorem stableSort_perm (order : α → α → Ordering) (items : List α) :
    (stableSort (fun a b => order a b == .lt) items).Perm items := by
  induction items using List.reverseRecOn with
  | nil => exact .refl _
  | append_singleton items item ih =>
      have step := insertBy_perm order item (stableSort (fun a b => order a b == .lt) items).reverse
      rw [← stableSort_append_singleton] at step
      have grown : (stableSort (fun a b => order a b == .lt) items).reverse.Perm items :=
        (List.reverse_perm _).trans ih
      exact (List.reverse_perm _).symm.trans (step.trans
        ((grown.cons item).trans (List.perm_append_singleton item items).symm))

/-- Sorting by a comparison that is consistent is stable sorting. -/
theorem stableSort_isStableSort (consistent : ConsistentOn order items) :
    IsStableSort order items (stableSort (fun a b => order a b == .lt) items) := by
  have among {part : List α} (isPart : ∀ b ∈ part, b ∈ items) :
      ∀ b ∈ (stableSort (fun a b => order a b == .lt) part).reverse, b ∈ items := fun b hb =>
    isPart b ((stableSort_perm order part).mem_iff.mp (List.mem_reverse.mp hb))
  -- the items that are sorted already are always among all items
  have steps (part : List α) (isPart : ∀ b ∈ part, b ∈ items) :
      (stableSort (fun a b => order a b == .lt) part).Pairwise (order · · ≠ .gt) ∧
        ∀ a ∈ items, (stableSort (fun a b => order a b == .lt) part).filter (order a · == .eq) =
          part.filter (order a · == .eq) := by
    induction part using List.reverseRecOn with
    | nil => exact ⟨.nil, fun _ _ => rfl⟩
    | append_singleton part item ih =>
        obtain ⟨partAmong, isItem⟩ := List.forall_mem_append.mp isPart
        have isItem := isItem item List.mem_cons_self
        obtain ⟨ordered, stable⟩ := ih partAmong
        have shape := stableSort_append_singleton order part item
        rw [← List.reverse_reverse (stableSort _ (part ++ [item])), shape]
        refine ⟨List.pairwise_reverse.mpr (insertBy_descends consistent isItem (among partAmong)
          (List.pairwise_reverse.mpr ordered)), fun a ha => ?_⟩
        rw [List.filter_reverse, insertBy_filter consistent isItem (among partAmong) ha,
          ← List.filter_reverse, List.reverse_cons, List.reverse_reverse, List.filter_append,
          List.filter_append, stable a ha]
  obtain ⟨ordered, stable⟩ := steps items fun _ hb => hb
  exact ⟨stableSort_perm order items, ordered, stable⟩

end Insertion

/-- Sorting by what is looked at in items sorts the items. -/
theorem stableSort_map (less : β → β → Bool) (key : α → β) (items : List α) :
    stableSort less (items.map key) =
      (stableSort (fun a b => less (key a) (key b)) items).map key := by
  have insert (item : α) (held : List α) :
      insertDescending less (key item) (held.map key) =
        (insertDescending (fun a b => less (key a) (key b)) item held).map key := by
    induction held with
    | nil => rfl
    | cons a rest ih =>
        simp only [List.map_cons, insertDescending, ih]
        split <;> rfl
  have steps (held : List α) :
      (items.map key).foldl (fun sorted item => insertDescending less item sorted)
          (held.map key) =
        (items.foldl (fun sorted item =>
          insertDescending (fun a b => less (key a) (key b)) item sorted) held).map key := by
    induction items generalizing held with
    | nil => rfl
    | cons a rest ih => rw [List.map_cons, List.foldl_cons, List.foldl_cons, insert, ih]
  rw [stableSort, stableSort, List.map_reverse]
  exact congrArg List.reverse (steps [])

end QueryTree
