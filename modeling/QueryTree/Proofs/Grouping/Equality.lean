import QueryTree.Proofs.Order.Key
import QueryTree.Proofs.Type.Equality

/-!
# Equality and order of values

When the equality of values is an equivalence, and what becomes of it and of the order of two values
that change places.
-/

/-!
## Equality as an equivalence

Values are equal if they are the same or, being numbers, stand for the same number, whatever their
types are.  Among values that contain no binary numbers this is an equivalence relation.
-/

namespace QueryTree.Value

mutual

/-- Whether the value is or contains a binary number. -/
def containsReal : Value → Bool
  | single _ | double _ => true
  | array items => itemsContainReal items
  | object members => membersContainReal members
  | _ => false

/-- Whether one of several values is or contains a binary number. -/
def itemsContainReal : List Value → Bool
  | [] => false
  | item :: rest => item.containsReal || itemsContainReal rest

/-- Whether one of several named values is or contains a binary number. -/
def membersContainReal : List (String × Value) → Bool
  | [] => false
  | (_, value) :: rest => value.containsReal || membersContainReal rest

end

mutual

theorem same_refl : ∀ {v : Value}, v.containsReal = false → same v v = true
  | null, _ => rfl
  | boolean _, _ | char _, _ | string _, _ | integral _, _ | dateTime _, _ | timeSpan _, _
  | guid _, _ => beq_self_eq_true _
  | decimal d, _ => by rw [same, Decimal.compare_eq, compare_eq_iff_eq.mpr rfl]; rfl
  | enum e n, _ => by simp [same, EnumType.same]
  | type _, _ => BEq.refl _
  | array items, isExact => by
      rw [containsReal] at isExact
      exact sameItems_refl isExact
  | object members, isExact => by
      rw [containsReal] at isExact
      exact sameMembers_refl isExact

theorem sameItems_refl : ∀ {vs : List Value}, itemsContainReal vs = false → sameItems vs vs = true
  | [], _ => rfl
  | v :: vs, isExact => by
      rw [itemsContainReal, Bool.or_eq_false_iff] at isExact
      rw [sameItems, same_refl isExact.1, sameItems_refl isExact.2]
      rfl

theorem sameMembers_refl : ∀ {vs : List (String × Value)},
    membersContainReal vs = false → sameMembers vs vs = true
  | [], _ => rfl
  | (name, v) :: vs, isExact => by
      rw [membersContainReal, Bool.or_eq_false_iff] at isExact
      rw [sameMembers, same_refl isExact.1, sameMembers_refl isExact.2, beq_self_eq_true]
      rfl

end

mutual

theorem same_symm : ∀ {v w : Value}, v.containsReal = false → same v w = true → same w v = true
  | null, w, _, h => by cases w <;> first | rfl | cases h
  | boolean _, w, _, h | char _, w, _, h | string _, w, _, h | integral _, w, _, h
  | dateTime _, w, _, h | timeSpan _, w, _, h | guid _, w, _, h | type _, w, _, h => by
      cases w <;> first | exact BEq.symm h | cases h
  | decimal d, w, _, h => by
      cases w <;> simp only [same, Bool.false_eq_true, beq_iff_eq, Decimal.compare_eq,
        compare_eq_iff_eq] at h ⊢
      exact h.symm
  | enum e n, w, _, h => by cases w <;> simp_all [same, EnumType.same]
  | array items, w, isExact, h => by
      cases w <;> simp only [same, containsReal, Bool.false_eq_true] at h isExact ⊢
      exact sameItems_symm isExact h
  | object members, w, isExact, h => by
      cases w <;> simp only [same, containsReal, Bool.false_eq_true] at h isExact ⊢
      exact sameMembers_symm isExact h

theorem sameItems_symm : ∀ {vs ws : List Value},
    itemsContainReal vs = false → sameItems vs ws = true → sameItems ws vs = true
  | [], ws, _, h => by cases ws <;> first | rfl | cases h
  | v :: vs, ws, isExact, h => by
      rw [itemsContainReal, Bool.or_eq_false_iff] at isExact
      cases ws <;> simp only [sameItems, Bool.false_eq_true, Bool.and_eq_true] at h ⊢
      exact ⟨same_symm isExact.1 h.1, sameItems_symm isExact.2 h.2⟩

theorem sameMembers_symm : ∀ {vs ws : List (String × Value)},
    membersContainReal vs = false → sameMembers vs ws = true → sameMembers ws vs = true
  | [], ws, _, h => by cases ws <;> first | rfl | cases h
  | (name, v) :: vs, ws, isExact, h => by
      rw [membersContainReal, Bool.or_eq_false_iff] at isExact
      cases ws <;> simp only [sameMembers, Bool.false_eq_true, Bool.and_eq_true, beq_iff_eq] at h ⊢
      exact ⟨⟨h.1.1.symm, same_symm isExact.1 h.1.2⟩, sameMembers_symm isExact.2 h.2⟩

end

mutual

theorem same_trans : ∀ {v w u : Value},
    v.containsReal = false → same v w = true → same w u = true → same v u = true
  | null, w, u, _, h, k => by cases w <;> first | exact k | cases h
  | boolean _, w, u, _, h, k | char _, w, u, _, h, k | string _, w, u, _, h, k
  | integral _, w, u, _, h, k | dateTime _, w, u, _, h, k | timeSpan _, w, u, _, h, k
  | guid _, w, u, _, h, k | type _, w, u, _, h, k => by
      cases w <;> first | cases h | skip
      cases u <;> first | exact PartialEquivBEq.trans h k | cases k
  | decimal d, w, u, _, h, k => by
      cases w <;> simp only [same, Bool.false_eq_true, beq_iff_eq, Decimal.compare_eq,
        compare_eq_iff_eq] at h
      cases u <;> simp only [same, Bool.false_eq_true, beq_iff_eq, Decimal.compare_eq,
        compare_eq_iff_eq] at k ⊢
      exact h.trans k
  | enum e n, w, u, _, h, k => by cases w <;> cases u <;> simp_all [same, EnumType.same]
  | array items, w, u, isExact, h, k => by
      cases w <;> simp only [same, containsReal, Bool.false_eq_true] at h isExact
      cases u <;> simp only [same, Bool.false_eq_true] at k ⊢
      exact sameItems_trans isExact h k
  | object members, w, u, isExact, h, k => by
      cases w <;> simp only [same, containsReal, Bool.false_eq_true] at h isExact
      cases u <;> simp only [same, Bool.false_eq_true] at k ⊢
      exact sameMembers_trans isExact h k

theorem sameItems_trans : ∀ {vs ws us : List Value}, itemsContainReal vs = false →
    sameItems vs ws = true → sameItems ws us = true → sameItems vs us = true
  | [], ws, us, _, h, k => by cases ws <;> first | exact k | cases h
  | v :: vs, ws, us, isExact, h, k => by
      rw [itemsContainReal, Bool.or_eq_false_iff] at isExact
      cases ws <;> simp only [sameItems, Bool.false_eq_true, Bool.and_eq_true] at h
      cases us <;> simp only [sameItems, Bool.false_eq_true, Bool.and_eq_true] at k ⊢
      exact ⟨same_trans isExact.1 h.1 k.1, sameItems_trans isExact.2 h.2 k.2⟩

theorem sameMembers_trans : ∀ {vs ws us : List (String × Value)}, membersContainReal vs = false →
    sameMembers vs ws = true → sameMembers ws us = true → sameMembers vs us = true
  | [], ws, us, _, h, k => by cases ws <;> first | exact k | cases h
  | (name, v) :: vs, ws, us, isExact, h, k => by
      rw [membersContainReal, Bool.or_eq_false_iff] at isExact
      cases ws <;> simp only [sameMembers, Bool.false_eq_true, Bool.and_eq_true, beq_iff_eq] at h
      cases us <;> simp only [sameMembers, Bool.false_eq_true, Bool.and_eq_true, beq_iff_eq] at k ⊢
      exact ⟨⟨h.1.1.trans k.1.1, same_trans isExact.1 h.1.2 k.1.2⟩,
        sameMembers_trans isExact.2 h.2 k.2⟩

end

variable {v w u : Value} {p q : ℚ × Bool}

/-- What is the same stands for the same number. -/
theorem mark?_of_same (alike : same v w = true) : v.mark? = w.mark? := by
  cases v <;> cases w <;> first | rfl | cases alike | skip
  next c d =>
    rw [eq_of_beq (show (c == d) = true from alike)]
  next m n =>
    rw [eq_of_beq (show (m == n) = true from alike)]
  next d e =>
    simp only [same, Decimal.compare_eq, beq_iff_eq, compare_eq_iff_eq] at alike
    rw [mark?, mark?, alike]
  next e m f n =>
    rw [same, Bool.and_eq_true, beq_iff_eq] at alike
    obtain ⟨-, rfl⟩ := alike
    rfl

theorem kind?_of_mark? (marked : v.mark? = some p) : v.kind? = some .exact := by
  cases v <;> first | rfl | cases marked

/-- Values that stand for numbers are equal if and only if these are. -/
theorem equal_of_mark? (left : v.mark? = some p) (right : w.mark? = some q) :
    v.equal w = decide (p = q) := by
  have compared : v.compare? w = _ :=
    (compare?_numbers (.inl (kind?_of_mark? left)) (.inl (kind?_of_mark? right))).trans
      (compareNumbers?_of_mark? left right)
  split at compared
  next apart =>
    -- an integer that decimal numbers cannot hold differs from all of them
    have differ : p ≠ q := by
      rintro rfl
      have isHeld : p.2 = true := (Bool.or_eq_true _ _ ▸ apart.1).elim
        (mark?_of_isDecimal left) (mark?_of_isDecimal right)
      exact apart.2 ⟨isHeld, isHeld⟩
    rw [equal, compared, decide_eq_false differ]
    exact Bool.eq_false_iff.mpr fun alike =>
      differ (Option.some.inj (left.symm.trans ((mark?_of_same alike).trans right)))
  next together =>
    have marks : p.1 = q.1 → p.2 = q.2 := by
      intro numbers
      by_cases decimals : (v.isDecimal || w.isDecimal) = true
      · obtain ⟨leftHeld, rightHeld⟩ := not_not.mp fun apart => together ⟨decimals, apart⟩
        rw [leftHeld, rightHeld]
      · simp only [Bool.or_eq_true, not_or, Bool.not_eq_true] at decimals
        obtain ⟨m, -, rfl⟩ := toInt?_of_mark? left decimals.1
        obtain ⟨n, -, rfl⟩ := toInt?_of_mark? right decimals.2
        rw [Int.cast_inj.mp numbers]
    rw [equal, compared, Bool.eq_iff_iff, beq_iff_eq, compare_eq_iff_eq, decide_eq_true_eq,
      Prod.ext_iff]
    exact ⟨fun numbers => ⟨numbers, marks numbers⟩, And.left⟩

theorem equal_of_valueRank (kind : KeyKind) {p q : kind.Rank} (left : kind.valueRank? v = some p)
    (right : kind.valueRank? w = some q) (faithful : same v w = true ↔ p = q) :
    v.equal w = same v w := by
  rw [equal, compare?_valueRank left right, Bool.eq_iff_iff, beq_iff_eq, compare_eq_iff_eq,
    faithful]

/-- Values that do not both stand for numbers are equal if and only if they are the same. -/
theorem equal_of_unmarked (leftExact : v.isReal = false) (rightExact : w.isReal = false)
    (unmarked : v.mark? = none ∨ w.mark? = none) : v.equal w = same v w := by
  cases v <;> cases w <;>
    first
    | rfl
    | (cases leftExact; done)
    | (cases rightExact; done)
    | (obtain unmarked | unmarked := unmarked <;> cases unmarked; done)
    | skip
  next a b => exact equal_of_valueRank .truth rfl rfl beq_iff_eq
  next s t => exact equal_of_valueRank .text rfl rfl beq_iff_eq
  next m n =>
    refine equal_of_valueRank .moment rfl rfl (beq_iff_eq.trans ⟨(· ▸ rfl), fun ranks => ?_⟩)
    obtain ⟨days, times⟩ := Prod.mk.inj (toLex.injective ranks)
    obtain ⟨seconds, nanoseconds⟩ := Prod.mk.inj (toLex.injective times)
    exact (DateTime.mk.injEq ..).mpr ⟨days, seconds, nanoseconds⟩
  next s t =>
    refine equal_of_valueRank .duration rfl rfl (beq_iff_eq.trans ⟨(· ▸ rfl), fun ranks => ?_⟩)
    exact congrArg TimeSpan.mk ranks
  next a b =>
    refine equal_of_valueRank .identifier rfl rfl (beq_iff_eq.trans ⟨(· ▸ rfl), fun ranks => ?_⟩)
    exact congrArg Guid.mk (BitVec.eq_of_toNat_eq ranks)

theorem isReal_of_containsReal (isExact : v.containsReal = false) : v.isReal = false := by
  cases v with
  | single | double => cases isExact
  | _ => rfl

/-- Values are equal if and only if they stand for the same number or, if they stand for none, are
the same. -/
theorem equal_iff (left : v.containsReal = false) (right : w.containsReal = false) :
    v.equal w = true ↔ v.mark? = w.mark? ∧ (v.mark? = none → same v w = true) := by
  by_cases unmarked : v.mark? = none ∨ w.mark? = none
  · rw [equal_of_unmarked (isReal_of_containsReal left) (isReal_of_containsReal right) unmarked]
    refine ⟨fun alike => ⟨mark?_of_same alike, fun _ => alike⟩, fun ⟨marks, alike⟩ => alike ?_⟩
    exact unmarked.elim id marks.trans
  · rw [not_or] at unmarked
    obtain ⟨p, leftMark⟩ := Option.ne_none_iff_exists'.mp unmarked.1
    obtain ⟨q, rightMark⟩ := Option.ne_none_iff_exists'.mp unmarked.2
    rw [equal_of_mark? leftMark rightMark, decide_eq_true_eq, leftMark, rightMark,
      Option.some.injEq]
    exact ⟨fun numbers => ⟨numbers, nofun⟩, And.left⟩

theorem equal_refl (isExact : v.containsReal = false) : v.equal v = true :=
  (equal_iff isExact isExact).mpr ⟨rfl, fun _ => same_refl isExact⟩

theorem equal_symm (left : v.containsReal = false) (right : w.containsReal = false)
    (alike : v.equal w = true) : w.equal v = true := by
  obtain ⟨marks, alike⟩ := (equal_iff left right).mp alike
  refine (equal_iff right left).mpr ⟨marks.symm, fun none => ?_⟩
  exact same_symm left (alike (marks.trans none))

theorem equal_trans (first : v.containsReal = false) (second : w.containsReal = false)
    (third : u.containsReal = false) (alike : v.equal w = true) (next : w.equal u = true) :
    v.equal u = true := by
  obtain ⟨marks, alike⟩ := (equal_iff first second).mp alike
  obtain ⟨nextMarks, next⟩ := (equal_iff second third).mp next
  refine (equal_iff first third).mpr ⟨marks.trans nextMarks, fun none => ?_⟩
  exact same_trans first (alike none) (next (marks.symm.trans none))

/-- The number that an integer, a character, a member of an enumeration or a decimal number
denotes. -/
def exactNumber? : Value → Option ℚ
  | integral n => some n.val
  | char c => some c.toNat
  | enum _ n => some n
  | decimal d => some d.number
  | _ => none

theorem mark?_map_fst (v : Value) : v.mark?.map (·.1) = v.exactNumber? := by
  cases v <;> rfl

/-- Decimal numbers can hold all numbers that values denote. -/
theorem mark?_of_exactNumber? {x : ℚ} (held : v.isHeld = true) (denotes : v.exactNumber? = some x) :
    v.mark? = some (x, true) := by
  have isExact : v.kind? = some .exact := by
    cases v <;> first | rfl | cases denotes
  obtain ⟨y, ranked⟩ :=
    Option.isSome_iff_exists.mp (valueRank_of_kind? isExact held (by decide))
  obtain ⟨⟨z, fits⟩, isMarked, rfl⟩ := Option.map_eq_some_iff.mp ranked
  obtain ⟨marked, rfl : fits = true⟩ := Option.filter_eq_some_iff.mp isMarked
  rw [← mark?_map_fst, marked] at denotes
  obtain rfl : z = x := Option.some.inj denotes
  exact marked

/-- Among values that contain no binary numbers equality is an equivalence relation.  It is equality
of numbers among the values that denote numbers, and all others are equal only to the same ones. -/
theorem equal_equivalence :
    Equivalence (fun v w : {v : Value // v.containsReal = false} => v.val.equal w.val = true) ∧
    (∀ (v w : Value) (x y : ℚ), v.isHeld = true → w.isHeld = true → v.exactNumber? = some x →
      w.exactNumber? = some y → (v.equal w = true ↔ x = y)) ∧
    ∀ v w : Value, v.containsReal = false → w.containsReal = false →
      v.exactNumber? = none ∨ w.exactNumber? = none → v.equal w = same v w := by
  refine ⟨⟨fun v => equal_refl v.property, fun {v w} => equal_symm v.property w.property,
    fun {v w u} => equal_trans v.property w.property u.property⟩, ?_, ?_⟩
  · intro v w x y leftHeld rightHeld left right
    rw [equal_of_mark? (mark?_of_exactNumber? leftHeld left)
      (mark?_of_exactNumber? rightHeld right), decide_eq_true_eq, Prod.mk.injEq]
    exact and_iff_left rfl
  · intro v w left right none
    have unmarked {u : Value} (none : u.exactNumber? = .none) : u.mark? = .none :=
      Option.map_eq_none_iff.mp ((mark?_map_fst u).trans none)
    exact equal_of_unmarked (isReal_of_containsReal left) (isReal_of_containsReal right)
      (none.imp unmarked unmarked)

/-- One as an integer and as a decimal number is one number, and a text is not a list of it. -/
theorem equal_equivalence_one :
    (exactNumber? (.int32 1) = some 1 ∧ exactNumber? (.decimal ⟨false, 10, 1⟩) = some 1 ∧
      equal (.int32 1) (.decimal ⟨false, 10, 1⟩) = true) ∧
    equal (.array [.char 'a']) (.string "a") = false := by
  obtain ⟨-, numbers, others⟩ := equal_equivalence
  have isOne : exactNumber? (.decimal ⟨false, 10, 1⟩) = some 1 :=
    congrArg some (by norm_num [Decimal.number, Decimal.signed])
  have integer : exactNumber? (.int32 1) = some 1 := congrArg some Int.cast_one
  exact ⟨⟨integer, isOne, (numbers _ _ 1 1 rfl rfl integer isOne).mpr rfl⟩,
    others _ _ rfl rfl (.inl rfl)⟩

end QueryTree.Value

/-!
## Comparisons from either side

The order of two values is reversed if they change places, and their equality is not affected, for
all values.
-/

namespace QueryTree

/-- Real numbers that change places are in the reversed order. -/
theorem unpacked_compare_swap (u v : Float.Model.UnpackedFloat) :
    v.compare u = (u.compare v).map Ordering.swap := by
  rw [unpacked_compare, unpacked_compare]
  cases unpackedRank? u with
  | none => cases unpackedRank? v <;> rfl
  | some p =>
      cases unpackedRank? v with
      | none => rfl
      | some q => exact congrArg some Std.OrientedOrd.eq_swap

theorem swap_beq_eq (order : Ordering) : (order.swap == .eq) = (order == .eq) := by
  cases order <;> rfl

theorem map_swap_beq_eq (order? : Option Ordering) :
    (order?.map Ordering.swap == some .eq) = (order? == some .eq) := by
  cases order? with
  | none => rfl
  | some order => exact swap_beq_eq order

theorem double_beq_comm (x y : Float) : (x == y) = (y == x) := by
  change (x.toModel.unpack.compare y.toModel.unpack == some .eq) =
    (y.toModel.unpack.compare x.toModel.unpack == some .eq)
  rw [unpacked_compare_swap x.toModel.unpack, map_swap_beq_eq]

theorem single_beq_comm (x y : Float32) : (x == y) = (y == x) := by
  change (x.toModel.unpack.compare y.toModel.unpack == some .eq) =
    (y.toModel.unpack.compare x.toModel.unpack == some .eq)
  rw [unpacked_compare_swap x.toModel.unpack, map_swap_beq_eq]

theorem compareReals?_swap (x y : Float) :
    Value.compareReals? y x = (Value.compareReals? x y).map Ordering.swap := by
  rw [compareReals?_eq, compareReals?_eq]
  cases realRank? x with
  | none => cases realRank? y <;> rfl
  | some p =>
      cases realRank? y with
      | none => rfl
      | some q => exact congrArg some Std.OrientedOrd.eq_swap

theorem Decimal.compare_swap (d e : Decimal) : e.compare d = (d.compare e).swap := by
  rw [compare_eq, compare_eq]
  exact Std.OrientedOrd.eq_swap

theorem DateTime.compare_swap (a b : DateTime) : b.compare a = (a.compare b).swap := by
  simp only [DateTime.compare, Ordering.swap_then]
  rw [Std.OrientedOrd.eq_swap (a := b.day), Std.OrientedOrd.eq_swap (a := b.second),
    Std.OrientedOrd.eq_swap (a := b.nanosecond)]

namespace Value

theorem compareNumbers?_swap (v w : Value) :
    w.compareNumbers? v = (v.compareNumbers? w).map Ordering.swap := by
  unfold compareNumbers?
  rw [Bool.or_comm w.isDecimal, Bool.or_comm w.isReal]
  split
  next =>
    cases v.toDecimal? with
    | none => cases w.toDecimal? <;> rfl
    | some d =>
        cases w.toDecimal? with
        | none => rfl
        | some e => exact congrArg some (Decimal.compare_swap d e)
  next =>
    split
    next =>
      cases v.toDouble? with
      | none => cases w.toDouble? <;> rfl
      | some x =>
          cases w.toDouble? with
          | none => rfl
          | some y => exact compareReals?_swap x y
    next =>
      cases v.toInt? with
      | none => cases w.toInt? <;> rfl
      | some m =>
          cases w.toInt? with
          | none => rfl
          | some n => exact congrArg some Std.OrientedOrd.eq_swap

/-- Values that change places are in the reversed order. -/
theorem compare?_swap (v w : Value) : w.compare? v = (v.compare? w).map Ordering.swap := by
  cases v <;> cases w <;>
    first
    | rfl
    | exact compareNumbers?_swap _ _
    | exact congrArg some Std.OrientedOrd.eq_swap
    | exact congrArg some (DateTime.compare_swap _ _)

mutual

theorem same_comm : ∀ v w : Value, same v w = same w v
  | null, w => by cases w <;> rfl
  | boolean _, w | char _, w | string _, w | integral _, w | dateTime _, w | timeSpan _, w
  | guid _, w | type _, w => by cases w <;> first | rfl | exact BEq.comm
  | single x, w => by cases w <;> first | rfl | exact single_beq_comm x _
  | double x, w => by cases w <;> first | rfl | exact double_beq_comm x _
  | decimal d, w => by
      cases w <;> first | rfl | skip
      next e => rw [same, same, Decimal.compare_swap d e, swap_beq_eq]
  | enum e m, w => by
      cases w <;> first | rfl | skip
      next f n =>
        simp only [same, EnumType.same]
        rw [BEq.comm (a := m), BEq.comm (a := e.name), BEq.comm (a := e.qualifier)]
  | array items, w => by
      cases w <;> first | rfl | skip
      next items' => exact sameItems_comm items items'
  | object members, w => by
      cases w <;> first | rfl | skip
      next members' => exact sameMembers_comm members members'

theorem sameItems_comm : ∀ vs ws : List Value, sameItems vs ws = sameItems ws vs
  | [], ws => by cases ws <;> rfl
  | v :: vs, ws => by
      cases ws with
      | nil => rfl
      | cons w ws => rw [sameItems, sameItems, same_comm v w, sameItems_comm vs ws]

theorem sameMembers_comm : ∀ vs ws : List (String × Value), sameMembers vs ws = sameMembers ws vs
  | [], ws => by cases ws <;> rfl
  | (m, v) :: vs, ws => by
      cases ws with
      | nil => rfl
      | cons w ws =>
          obtain ⟨n, w⟩ := w
          rw [sameMembers, sameMembers, same_comm v w, sameMembers_comm vs ws, BEq.comm (a := m)]

end

/-- Equality does not depend on the side. -/
theorem equal_comm (v w : Value) : v.equal w = w.equal v := by
  rw [equal, equal, compare?_swap v w]
  cases v.compare? w with
  | none => exact same_comm v w
  | some order => exact (swap_beq_eq order).symm

end Value

end QueryTree
