import QueryTree.Proofs.Compile.Operation

/-!
# Branches of one type

Which of two branches is brought to the type of the other one does not depend on which of them
stands first.  A conditional is made if the branches have one type or exactly one of them can be
brought to the type of the other; swapped branches give the same branches swapped.
-/

namespace QueryTree.Expr

variable {table : ClassTable} {position : Nat} {test a b a' b' : Expr}

/-- The first of two branches brought to the type of the second one, with the second one.  Null
without a type makes of a value a value that may be null, and nothing is brought to the type of null
without a type. -/
def toward? (table : ClassTable) (a b : Expr) : Option (Expr × Expr) :=
  if a.isUntypedNull && b.excludesNull then some (nullOf b.type.lift, convert b.type.lift b)
  else (promoteToward? table b a).map fun promoted => (promoted, b)

/-- A branch can be brought to the type of the other one. -/
def ConvertsToward (table : ClassTable) (a b : Expr) : Prop := (toward? table a b).isSome = true

/-- What two branches of a conditional become: they are left as they are if they have one type, and
otherwise the only one that can be is brought to the type of the other one. -/
inductive Unified (table : ClassTable) (a b : Expr) : Expr → Expr → Prop where
  | alike (same : (a.type == b.type) = true) : Unified table a b a b
  | forth {a' b' : Expr} (differ : (a.type == b.type) = false)
      (forth : toward? table a b = some (a', b')) (noBack : toward? table b a = none) :
      Unified table a b a' b'
  | back {a' b' : Expr} (differ : (a.type == b.type) = false)
      (noForth : toward? table a b = none) (back : toward? table b a = some (b', a')) :
      Unified table a b a' b'

theorem admitsNull_of_isUntypedNull (isNull : a.isUntypedNull = true) : a.excludesNull = false := by
  have isObject : a.type = .object := Ty.eq_of_same rfl ((Bool.and_eq_true _ _).mp isNull).2
  rw [excludesNull, isObject]
  rfl

/-- A value is not brought to the type of null without a type. -/
theorem toward?_isUntypedNull (isNull : b.isUntypedNull = true) : toward? table a b = none := by
  rw [toward?, admitsNull_of_isUntypedNull isNull, Bool.and_false, promoteToward?, if_pos isNull]
  rfl

/-- Where no branch is null beside a value, each of them is promoted to the type of the other. -/
theorem toward?_eq_promoteToward? (noNull : (a.isUntypedNull && b.excludesNull) = false) :
    toward? table a b = (promoteToward? table b a).map fun promoted => (promoted, b) := by
  rw [toward?, noNull]
  rfl

/-- The outcome of a conditional by the two directions. -/
theorem choose_eq_of_differ (isBoolean : test.type = .boolean)
    (differ : (a.type == b.type) = false) :
    choose table position test a b =
      match toward? table a b, toward? table b a with
      | some (a', b'), none | none, some (b', a') => .ok (conditional test a' b')
      | some _, some _ => .error ⟨position, .bothBranchesConvert a.branchName b.branchName⟩
      | none, none => .error ⟨position, .neitherBranchConverts a.branchName b.branchName⟩ := by
  have test_boolean : (test.type != .boolean) = false := by
    rw [isBoolean]
    rfl
  simp only [choose, test_boolean, differ, Bool.false_eq_true, if_false]
  cases aNull : a.isUntypedNull && b.excludesNull with
  | true =>
      obtain ⟨isNull, -⟩ := (Bool.and_eq_true _ _).mp aNull
      rw [toward?_isUntypedNull (a := b) isNull, toward?, if_pos aNull]
      rfl
  | false =>
      cases bNull : b.isUntypedNull && a.excludesNull with
      | true =>
          obtain ⟨isNull, -⟩ := (Bool.and_eq_true _ _).mp bNull
          rw [toward?_isUntypedNull (a := a) isNull, toward?, if_pos bNull]
          rfl
      | false =>
          rw [toward?_eq_promoteToward? aNull, toward?_eq_promoteToward? bNull]
          cases promoteToward? table b a <;> cases promoteToward? table a b <;> rfl

theorem choose_of_beq (isBoolean : test.type = .boolean) (same : (a.type == b.type) = true) :
    choose table position test a b = .ok (conditional test a b) := by
  have test_boolean : (test.type != .boolean) = false := by
    rw [isBoolean]
    rfl
  simp only [choose, test_boolean, same, Bool.false_eq_true, if_false, if_true]

theorem choose_eq_ok_iff {e : Expr} (isBoolean : test.type = .boolean) :
    choose table position test a b = .ok e ↔
      ∃ a' b', Unified table a b a' b' ∧ e = conditional test a' b' := by
  cases differ : a.type == b.type with
  | true =>
      rw [choose_of_beq isBoolean differ]
      constructor
      · rintro ⟨⟩
        exact ⟨a, b, .alike differ, rfl⟩
      · rintro ⟨a', b', unified, rfl⟩
        cases unified with
        | alike => rfl
        | forth differ' | back differ' => exact absurd differ (by rw [differ']; decide)
  | false =>
      rw [choose_eq_of_differ isBoolean differ]
      constructor
      · intro made
        split at made
        next forth back => exact ⟨_, _, .forth differ forth back, (Except.ok.inj made).symm⟩
        next forth back => exact ⟨_, _, .back differ forth back, (Except.ok.inj made).symm⟩
        all_goals cases made
      · rintro ⟨a', b', unified, rfl⟩
        cases unified with
        | alike same => exact absurd differ (by rw [same]; decide)
        | forth _ forth back | back _ forth back => rw [forth, back]

namespace Unified

theorem swap (unified : Unified table a b a' b') : Unified table b a b' a' := by
  have swapped {differs : Bool} (h : (a.type == b.type) = differs) : (b.type == a.type) = differs :=
    (BEq.comm ..).trans h
  cases unified with
  | alike same => exact .alike (swapped same)
  | forth differ forth noBack => exact .back (swapped differ) noBack forth
  | back differ noForth back => exact .forth (swapped differ) back noForth

end Unified

/-- A branch that is brought to the type of the other one gets that type, or the one with null. -/
theorem toward?_cases (outcome : toward? table a b = some (a', b')) :
    Recast a a' ∧ Recast b b' ∧ (a'.type == b'.type) = true ∧
      (b'.type = b.type ∨ b'.type = b.type.lift) := by
  rw [toward?] at outcome
  split at outcome
  next =>
    obtain ⟨rfl, rfl⟩ := Prod.mk.inj (Option.some.inj outcome)
    exact ⟨.constant, .convert .same, BEq.rfl, .inr rfl⟩
  next =>
    obtain ⟨promoted, toward, same⟩ := Option.map_eq_some_iff.mp outcome
    obtain ⟨rfl, rfl⟩ := Prod.mk.inj same
    obtain ⟨adapted, type⟩ := promoteToward?_cases toward
    exact ⟨adapted.recast, .same, type, .inl rfl⟩

/-- The types that the branches of a conditional may get: those of the two branches, with null or
without it. -/
def branchTypes (a b : Expr) : List Ty := [a.type, b.type, a.type.lift, b.type.lift]

theorem Unified.cases (unified : Unified table a b a' b') :
    Recast a a' ∧ Recast b b' ∧ (a'.type == b'.type) = true ∧
      ∃ t ∈ branchTypes a b, (a'.type == t) = true := by
  cases unified with
  | alike same => exact ⟨.same, .same, same, a.type, by simp [branchTypes], BEq.rfl⟩
  | forth _ forth =>
      obtain ⟨a_recast, b_recast, same, type⟩ := toward?_cases forth
      refine ⟨a_recast, b_recast, same, b'.type, ?_, same⟩
      obtain type | type := type <;> simp [branchTypes, type]
  | back _ _ back =>
      obtain ⟨b_recast, a_recast, same, type⟩ := toward?_cases back
      refine ⟨a_recast, b_recast, BEq.symm same, a'.type, ?_, BEq.rfl⟩
      obtain type | type := type <;> simp [branchTypes, type]

/-- Of branches of two types at most one is brought to the type of the other one.  If both can be or
none can, there is an error that says so. -/
theorem choose_differ (isBoolean : test.type = .boolean) (differ : (a.type == b.type) = false) :
    ((∃ e, choose table position test a b = .ok e) ↔
        ¬ (ConvertsToward table a b ↔ ConvertsToward table b a)) ∧
      (ConvertsToward table a b → ConvertsToward table b a →
        choose table position test a b =
          .error ⟨position, .bothBranchesConvert a.branchName b.branchName⟩) ∧
      (¬ ConvertsToward table a b → ¬ ConvertsToward table b a →
        choose table position test a b =
          .error ⟨position, .neitherBranchConverts a.branchName b.branchName⟩) := by
  rw [choose_eq_of_differ isBoolean differ]
  simp only [ConvertsToward]
  cases toward? table a b <;> cases toward? table b a <;> simp

/-- A conditional does not depend on which of its branches stands first: with swapped branches it is
made if and only if it is made without, and it then has the same type and the same branches in the
other places.  They have one type, which is that of one of the two branches, with null or without
it.  Unless the branches have one type from the start, exactly one of them can be brought to the
type of the other one; if both can be or none can, there is an error that says so. -/
theorem choose_symmetric (isBoolean : test.type = .boolean) :
    ((∃ e, choose table position test a b = .ok e) ↔
        ∃ e, choose table position test b a = .ok e) ∧
      (∀ e, choose table position test a b = .ok e →
        ∃ a' b', e = conditional test a' b' ∧
          choose table position test b a = .ok (conditional test b' a') ∧
          ((conditional test b' a').type == e.type) = true ∧
          (a'.type == e.type) = true ∧ (b'.type == e.type) = true ∧
          (∃ t ∈ branchTypes a b, (e.type == t) = true) ∧ Recast a a' ∧ Recast b b') ∧
      ((a.type == b.type) = false →
        ((∃ e, choose table position test a b = .ok e) ↔
            ¬ (ConvertsToward table a b ↔ ConvertsToward table b a)) ∧
          (ConvertsToward table a b → ConvertsToward table b a →
            choose table position test a b =
              .error ⟨position, .bothBranchesConvert a.branchName b.branchName⟩) ∧
          (¬ ConvertsToward table a b → ¬ ConvertsToward table b a →
            choose table position test a b =
              .error ⟨position, .neitherBranchConverts a.branchName b.branchName⟩)) := by
  have swapped {a b e : Expr} (made : choose table position test a b = .ok e) :
      ∃ a' b', Unified table a b a' b' ∧ e = conditional test a' b' ∧
        choose table position test b a = .ok (conditional test b' a') := by
    obtain ⟨a', b', unified, shape⟩ := (choose_eq_ok_iff isBoolean).mp made
    exact ⟨a', b', unified, shape, (choose_eq_ok_iff isBoolean).mpr ⟨b', a', unified.swap, rfl⟩⟩
  refine ⟨⟨fun ⟨_, made⟩ => ?_, fun ⟨_, made⟩ => ?_⟩, fun e made => ?_, choose_differ isBoolean⟩
  · obtain ⟨a', b', -, -, made'⟩ := swapped made
    exact ⟨_, made'⟩
  · obtain ⟨a', b', -, -, made'⟩ := swapped made
    exact ⟨_, made'⟩
  · obtain ⟨a', b', unified, rfl, made'⟩ := swapped made
    obtain ⟨a_recast, b_recast, same, isBranchType⟩ := unified.cases
    exact ⟨a', b', rfl, made', BEq.symm same, BEq.rfl, BEq.symm same, isBranchType, a_recast,
      b_recast⟩

/-- Null beside a number makes the number one that may be null, on either side. -/
theorem choose_symmetric_null :
    choose #[] 0 (parameter ⟨0, "b", .boolean⟩) nullLiteral (parameter ⟨1, "n", .int32⟩) =
        .ok (conditional (parameter ⟨0, "b", .boolean⟩) (nullOf (.nullable .int32))
          (convert (.nullable .int32) (parameter ⟨1, "n", .int32⟩))) ∧
      choose #[] 0 (parameter ⟨0, "b", .boolean⟩) (parameter ⟨1, "n", .int32⟩) nullLiteral =
        .ok (conditional (parameter ⟨0, "b", .boolean⟩)
          (convert (.nullable .int32) (parameter ⟨1, "n", .int32⟩))
          (nullOf (.nullable .int32))) := by
  have swaps := (@choose_symmetric #[] 0 (parameter ⟨0, "b", .boolean⟩) nullLiteral
    (parameter ⟨1, "n", .int32⟩) rfl).2.1
  obtain ⟨null, number, shape, swapped, -⟩ := swaps _ rfl
  obtain ⟨-, rfl, rfl⟩ := conditional.inj shape
  exact ⟨rfl, swapped⟩

end QueryTree.Expr
