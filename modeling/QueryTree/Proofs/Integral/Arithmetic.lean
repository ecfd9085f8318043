import QueryTree.Evaluate.Operation
import Mathlib.Algebra.Group.Nat.Defs

/-!
# Arithmetic on integers

Sums, differences, products, quotients and remainders of integers of one width are exact where the
width has room for them, and an overflow where it has not.  The 128 bits in which they are computed
are too few only for products that have no room in any width.
-/

namespace QueryTree

/-- Whether an operator computes a number from two numbers. -/
def BinaryOp.isArithmetic : BinaryOp → Bool
  | add | subtract | multiply | divide | modulo => true
  | _ => false

namespace Integer

/-- Integers have at most 64 bits. -/
theorem natAbs_lt_pow (n : Integer) : n.val.natAbs < 2 ^ 64 := by
  have widest : ∀ kind : IntKind, -(2 ^ 63 : Int) ≤ kind.min ∧ kind.max < (2 ^ 64 : Int) := by
    intro kind
    cases kind <;> decide
  have bounds := widest n.kind
  have inRange := n.inRange
  omega

/-- Integers of all widths but one have at most 63 bits besides a sign. -/
theorem natAbs_le_pow {n : Integer} (narrow : n.kind ≠ .uint64) : n.val.natAbs ≤ 2 ^ 63 := by
  have others : ∀ kind : IntKind, kind ≠ .uint64 →
      -(2 ^ 63 : Int) ≤ kind.min ∧ kind.max ≤ (2 ^ 63 : Int) := by
    intro kind
    cases kind <;> decide
  have bounds := others n.kind narrow
  have inRange := n.inRange
  omega

end Integer

namespace Value

/-- What an arithmetic operator makes of two integers if nothing bounds it.  A quotient is truncated
toward zero, and a remainder has the sign of the dividend. -/
def exactResult (op : BinaryOp) (m n : Int) : Int :=
  match op with
  | .add => m + n
  | .subtract => m - n
  | .multiply => m * n
  | .divide => m.tdiv n
  | _ => m.tmod n

variable {op : BinaryOp} {m n : Int} {type : Ty} {a b : Integer}

theorem fitsIntermediate_of_natAbs_lt (short : n.natAbs < 2 ^ 127) : fitsIntermediate n = true := by
  have power : (Nat.pow 2 127 : Int) = 2 ^ 127 := by decide
  simp only [fitsIntermediate, power, Bool.and_eq_true, decide_eq_true_eq]
  omega

/-- Only a product can have many more digits than its operands. -/
theorem natAbs_exactResult_le (other : op ≠ .multiply) :
    (exactResult op m n).natAbs ≤ m.natAbs + n.natAbs := by
  have quotient : (m.tdiv n).natAbs ≤ m.natAbs := Int.natAbs_tdiv_le_natAbs m n
  have remainder : (m.tmod n).natAbs ≤ m.natAbs := by
    rw [Int.natAbs_tmod]
    exact Nat.mod_le _ _
  cases op with
  | multiply => exact absurd rfl other
  | add | subtract | divide =>
      simp only [exactResult]
      omega
  | _ => exact Nat.le_trans remainder (Nat.le_add_right _ _)

/-- The exact result for two integers of one width has room in 128 bits, unless it is a product that
has no room in the width. -/
theorem fitsIntermediate_exactResult (op : BinaryOp) (same : a.kind = b.kind) :
    fitsIntermediate (exactResult op a.val b.val) = true ∨
      op = .multiply ∧ a.kind = .uint64 ∧ a.kind.max < exactResult op a.val b.val := by
  have a_short := a.natAbs_lt_pow
  have b_short := b.natAbs_lt_pow
  by_cases isProduct : op = .multiply
  · subst isProduct
    by_cases isWide : a.kind = .uint64
    · have nonnegative : 0 ≤ a.val ∧ 0 ≤ b.val := by
        have a_range := a.inRange.1
        have b_range := b.inRange.1
        rw [isWide] at a_range
        rw [← same, isWide] at b_range
        exact ⟨a_range, b_range⟩
      have product : 0 ≤ a.val * b.val := Int.mul_nonneg nonnegative.1 nonnegative.2
      by_cases short : (a.val * b.val).natAbs < 2 ^ 127
      · exact .inl (fitsIntermediate_of_natAbs_lt short)
      · refine .inr ⟨rfl, isWide, ?_⟩
        have widest : IntKind.uint64.max = 2 ^ 64 - 1 := by decide
        rw [isWide, widest, exactResult]
        omega
    · have short : (a.val * b.val).natAbs ≤ 2 ^ 63 * 2 ^ 63 := by
        rw [Int.natAbs_mul]
        exact Nat.mul_le_mul (Integer.natAbs_le_pow isWide)
          (Integer.natAbs_le_pow (same ▸ isWide))
      exact .inl (fitsIntermediate_of_natAbs_lt (Nat.lt_of_le_of_lt short (by decide)))
  · have short : (exactResult op a.val b.val).natAbs ≤ a.val.natAbs + b.val.natAbs :=
      natAbs_exactResult_le isProduct
    exact .inl (fitsIntermediate_of_natAbs_lt (by omega))

/-- Unless the divisor is zero, the intermediate result is the exact one if 128 bits hold it. -/
theorem integerOp?_eq (isArithmetic : op.isArithmetic = true)
    (nonzero : (divides op && n == 0) = false) :
    integerOp? op m n = (some (exactResult op m n)).filter fitsIntermediate := by
  cases op with
  | divide | modulo =>
      have divisor : n ≠ 0 := by simpa [divides] using nonzero
      simp [integerOp?, exactResult, divisor]
  | add | subtract | multiply => rfl
  | _ => cases isArithmetic

theorem ofInt?_of_inRange {kind : IntKind} (inRange : kind.min ≤ n ∧ n ≤ kind.max) :
    ofInt? (.integral kind) n = some (integral ⟨kind, n, inRange⟩) := by
  change (Integer.ofInt? kind n).map integral = _
  rw [Integer.ofInt?, dif_pos inRange]
  rfl

theorem ofInt?_of_outside {kind : IntKind} (outside : ¬ (kind.min ≤ n ∧ n ≤ kind.max)) :
    ofInt? (.integral kind) n = none := by
  change (Integer.ofInt? kind n).map integral = _
  rw [Integer.ofInt?, dif_neg outside]
  rfl

/-- What 128 bits do not hold is no integer of the width of the operands either. -/
theorem bind_integerOp? {kind : IntKind} (isArithmetic : op.isArithmetic = true)
    (nonzero : (divides op && b.val == 0) = false) (left_kind : a.kind = kind)
    (right_kind : b.kind = kind) :
    (integerOp? op a.val b.val).bind (ofInt? (.integral kind)) =
      ofInt? (.integral kind) (exactResult op a.val b.val) := by
  rw [integerOp?_eq isArithmetic nonzero, Option.filter_some]
  split
  next => rfl
  next overflows =>
    obtain fits | ⟨-, -, tooLarge⟩ :=
      fitsIntermediate_exactResult op (left_kind.trans right_kind.symm)
    · exact absurd fits overflows
    · rw [left_kind] at tooLarge
      exact (ofInt?_of_outside fun inRange => Int.not_lt.mpr inRange.2 tooLarge).symm

/-- Integers are handed on to the arithmetic on integers. -/
theorem applyBinary_eq_integerArithmetic (isArithmetic : op.isArithmetic = true) :
    applyBinary op type (integral a) (integral b) =
      integerArithmetic op type.core (integral a) (integral b) := by
  cases op with
  | add | subtract | multiply | divide | modulo => rfl
  | _ => cases isArithmetic

/-- Arithmetic on two integers of one width divides by no zero, and otherwise yields the exact
result as an integer of this width, or an overflow if it is not in the range of the width.  No
intermediate result loses anything: 128 bits hold the exact result, but for products of integers of
64 bits without a sign that are not in the range anyway. -/
theorem applyBinary_integral {kind : IntKind} (isArithmetic : op.isArithmetic = true)
    (isKind : type.core = .integral kind) (left_kind : a.kind = kind) (right_kind : b.kind = kind) :
    let r := exactResult op a.val b.val
    let outcome := applyBinary op type (integral a) (integral b)
    (divides op = true ∧ b.val = 0 → outcome = .error .divisionByZero) ∧
      (¬ (divides op = true ∧ b.val = 0) →
        (∀ inRange : kind.min ≤ r ∧ r ≤ kind.max, outcome = .ok (integral ⟨kind, r, inRange⟩)) ∧
          (¬ (kind.min ≤ r ∧ r ≤ kind.max) → outcome = .error (overflowOf op)) ∧
          (integerOp? op a.val b.val = some r ∨
            op = .multiply ∧ kind = .uint64 ∧ kind.max < r)) := by
  intro r outcome
  have outcome_eq : outcome =
      if divides op && b.val == 0 then .error .divisionByZero
      else Evaluation.require (overflowOf op)
        ((integerOp? op a.val b.val).bind (ofInt? (.integral kind))) := by
    rw [← isKind]
    exact applyBinary_eq_integerArithmetic isArithmetic
  refine ⟨fun isZero => ?_, fun nonzero => ?_⟩
  · rw [outcome_eq, if_pos (by simp [isZero])]
  · have nonzero : (divides op && b.val == 0) = false := by simpa using nonzero
    rw [nonzero, bind_integerOp? isArithmetic nonzero left_kind right_kind] at outcome_eq
    refine ⟨fun inRange => ?_, fun outside => ?_, ?_⟩
    · rw [outcome_eq, ofInt?_of_inRange inRange]
      rfl
    · rw [outcome_eq, ofInt?_of_outside outside]
      rfl
    · rw [integerOp?_eq isArithmetic nonzero, ← left_kind]
      exact (fitsIntermediate_exactResult op (left_kind.trans right_kind.symm)).imp_left
        (Option.filter_some_pos ·)

/-- The least integer of 32 bits has no opposite among them, and the square of the greatest integer
of 64 bits without a sign has no room in 128 bits. -/
theorem applyBinary_integral_extremes :
    applyBinary .divide (.nullable .int32) (int32 (-2147483648)) (int32 (-1)) =
        .error (overflowOf .divide) ∧
      applyBinary .multiply (.integral .uint64) (ofInteger .uint64 18446744073709551615)
          (ofInteger .uint64 18446744073709551615) = .error (overflowOf .multiply) := by
  constructor
  · exact ((applyBinary_integral (a := Integer.wrap .int32 (-2147483648))
      (b := Integer.wrap .int32 (-1)) rfl rfl rfl rfl).2 (by decide)).2.1 (by decide)
  · exact ((applyBinary_integral (a := Integer.wrap .uint64 18446744073709551615)
      (b := Integer.wrap .uint64 18446744073709551615) rfl rfl rfl rfl).2 (by decide)).2.1
      (by decide)

end Value

end QueryTree
