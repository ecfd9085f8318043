import Mathlib.Data.Int.Bitwise
import QueryTree.Evaluate.Operation
import QueryTree.Proofs.Compile.Operation
import QueryTree.Proofs.Evaluate.Outcome
import QueryTree.Proofs.Integral.Arithmetic

/-!
# Shifts

A shift to the left multiplies by a power of two and truncates the product, and a shift to the right
divides by a power of two and rounds down.  Counts are taken modulo the number of bits, so that no
count is too large, and none is negative.
-/

/-!
## Truncation to a width

An integer truncated to a width depends on its residue modulo the number of members of the width
only, so that results computed in words of at least as many bits are truncated to the same integer.
Conjunctions and disjunctions of bits are those of the integers without bound.
-/

namespace QueryTree

namespace IntKind

/-- The number of bits of a width. -/
def bits : IntKind → Nat
  | sbyte | byte => 8
  | int16 | uint16 => 16
  | int32 | uint32 => 32
  | int64 | uint64 => 64

theorem card_eq (kind : IntKind) : kind.card = 2 ^ kind.bits := by
  cases kind <;> rfl

theorem bits_le (kind : IntKind) : kind.bits ≤ 64 := by
  cases kind <;> decide

theorem card_dvd (kind : IntKind) {width : Nat} (wide : 64 ≤ width) :
    (kind.card : Int) ∣ ((2 ^ width : Nat) : Int) := by
  rw [Int.natCast_dvd_natCast, card_eq]
  exact Nat.pow_dvd_pow 2 (Nat.le_trans kind.bits_le wide)

theorem wrapInt_congr {kind : IntKind} {m n : Int} (same : m % kind.card = n % kind.card) :
    kind.wrapInt m = kind.wrapInt n := by
  simp only [wrapInt, Int.bmod, same]

/-- What is truncated to a word of 64 or more bits first is truncated to the same integer. -/
theorem wrapInt_bmod (kind : IntKind) {width : Nat} (wide : 64 ≤ width) (n : Int) :
    kind.wrapInt (n.bmod (2 ^ width)) = kind.wrapInt n := by
  apply wrapInt_congr
  calc n.bmod (2 ^ width) % kind.card
      = n.bmod (2 ^ width) % ((2 ^ width : Nat) : Int) % kind.card :=
        (Int.emod_emod_of_dvd _ (kind.card_dvd wide)).symm
    _ = n % ((2 ^ width : Nat) : Int) % kind.card := by rw [Int.bmod_emod]
    _ = n % kind.card := Int.emod_emod_of_dvd _ (kind.card_dvd wide)

theorem wrapInt_toInt_ofInt (kind : IntKind) {width : Nat} (wide : 64 ≤ width) (n : Int) :
    kind.wrapInt (BitVec.ofInt width n).toInt = kind.wrapInt n := by
  rw [BitVec.toInt_ofInt, wrapInt_bmod kind wide]

/-- Nothing is lost of an integer that the width has room for. -/
theorem wrapInt_of_inRange {kind : IntKind} {n : Int} (inRange : kind.min ≤ n ∧ n ≤ kind.max) :
    kind.wrapInt n = n := by
  unfold wrapInt
  unfold min max at inRange
  split
  next isSigned =>
    simp only [isSigned, if_true] at inRange
    have even : (kind.card : Int) = 2 * (kind.card / 2 : Nat) := by cases kind <;> decide
    exact Int.bmod_eq_of_le (by omega) (by omega)
  next unsigned =>
    simp only [unsigned] at inRange
    exact Int.emod_eq_of_lt inRange.1 (by omega)

end IntKind

@[ext] theorem Integer.ext {m n : Integer} (kind : m.kind = n.kind) (val : m.val = n.val) :
    m = n := by
  cases m
  cases n
  cases kind
  cases val
  rfl

theorem Integer.wrap_of_inRange {kind : IntKind} {n : Int}
    (inRange : kind.min ≤ n ∧ n ≤ kind.max) : wrap kind n = ⟨kind, n, inRange⟩ := by
  simp only [wrap, IntKind.wrapInt_of_inRange inRange]

/-- The bits of a word are those of the integer. -/
theorem BitVec.getLsbD_ofInt (width : Nat) (n : Int) (i : Nat) :
    (BitVec.ofInt width n).getLsbD i = (decide (i < width) && n.testBit i) := by
  cases n with
  | ofNat n => exact BitVec.getLsbD_ofNat width n i
  | negSucc n =>
      rw [BitVec.ofInt_negSucc_eq_not_ofNat, BitVec.getLsbD_not, BitVec.getLsbD_ofNat]
      by_cases inside : i < width <;> simp [inside, Int.testBit]

theorem BitVec.ofInt_land (width : Nat) (m n : Int) :
    BitVec.ofInt width (m.land n) = BitVec.ofInt width m &&& BitVec.ofInt width n := by
  refine BitVec.eq_of_getLsbD_eq fun i inside => ?_
  rw [BitVec.getLsbD_and, getLsbD_ofInt, getLsbD_ofInt, getLsbD_ofInt, Int.testBit_land]
  simp [inside]

theorem BitVec.ofInt_lor (width : Nat) (m n : Int) :
    BitVec.ofInt width (m.lor n) = BitVec.ofInt width m ||| BitVec.ofInt width n := by
  refine BitVec.eq_of_getLsbD_eq fun i inside => ?_
  rw [BitVec.getLsbD_or, getLsbD_ofInt, getLsbD_ofInt, getLsbD_ofInt, Int.testBit_lor]
  simp [inside]

end QueryTree

namespace QueryTree

/-- Whether integers of a width are shifted; narrower ones are widened before. -/
def IntKind.isShifted : IntKind → Bool
  | int32 | uint32 | int64 | uint64 => true
  | _ => false

namespace Value

variable {kind : IntKind} {n : Int}

/-- The low bits of an integer are its residue modulo a power of two. -/
theorem toNat_intermediate_and {mask : BitVec 128} (bits : Nat) (short : bits ≤ 128)
    (isMask : mask.toNat = 2 ^ bits - 1) (n : Int) :
    (intermediate n &&& mask).toNat = (n % ((2 ^ bits : Nat) : Int)).toNat := by
  have dvd : ((2 ^ bits : Nat) : Int) ∣ ((2 ^ 128 : Nat) : Int) :=
    Int.natCast_dvd_natCast.mpr (Nat.pow_dvd_pow 2 short)
  have residue : 0 ≤ n % ((2 ^ 128 : Nat) : Int) := Int.emod_nonneg n (by decide)
  rw [BitVec.toNat_and, isMask, Nat.and_two_pow_sub_one_eq_mod, intermediate, BitVec.toNat_ofInt]
  calc (n % ((2 ^ 128 : Nat) : Int)).toNat % 2 ^ bits
      = (n % ((2 ^ 128 : Nat) : Int) % ((2 ^ bits : Nat) : Int)).toNat :=
        (Int.toNat_emod residue (Int.natCast_nonneg _)).symm
    _ = (n % ((2 ^ bits : Nat) : Int)).toNat := by rw [Int.emod_emod_of_dvd n dvd]

/-- A shift counts modulo the number of bits. -/
theorem shiftCount_eq (isShifted : kind.isShifted = true) (n : Int) :
    shiftCount (.integral kind) n = (n % kind.bits).toNat := by
  cases kind with
  | int32 | uint32 => exact toNat_intermediate_and 5 (by decide) (by decide) n
  | int64 | uint64 => exact toNat_intermediate_and 6 (by decide) (by decide) n
  | _ => cases isShifted

theorem intermediate_shiftLeft (n : Int) (count : Nat) :
    intermediate n <<< count = intermediate (n * 2 ^ count) := by
  have power : BitVec.twoPow 128 count = BitVec.ofInt 128 (2 ^ count) := by
    have cast : (2 : Int) ^ count = ((2 ^ count : Nat) : Int) := by push_cast; rfl
    rw [cast, BitVec.ofInt_natCast]
    exact BitVec.eq_of_toNat_eq (BitVec.toNat_twoPow 128 count)
  rw [BitVec.shiftLeft_eq_mul_twoPow, power, intermediate, intermediate, BitVec.ofInt_mul]

/-- A product with a power of two is truncated to the same integer as the shifted word. -/
theorem wrapInt_shifted_left (kind : IntKind) (n : Int) (count : Nat) :
    kind.wrapInt (shifted .leftShift n count) = kind.wrapInt (n * 2 ^ count) := by
  rw [shifted, if_pos rfl, intermediate_shiftLeft, intermediate,
    kind.wrapInt_toInt_ofInt (by decide)]

/-- A word shifted with its sign is the quotient rounded down. -/
theorem shifted_right (short : n.natAbs < 2 ^ 127) (count : Nat) :
    shifted .rightShift n count = n / 2 ^ count := by
  have value : (intermediate n).toInt = n :=
    BitVec.toInt_ofInt_eq_self (by decide) (by omega) (by omega)
  rw [shifted, if_neg (by decide), BitVec.toInt_sshiftRight, value, Int.shiftRight_eq_div_pow]
  push_cast
  rfl

/-- A quotient by a positive number has room in each width that has room for the dividend. -/
theorem inRange_ediv (inRange : kind.min ≤ n ∧ n ≤ kind.max) {divisor : Int}
    (positive : 0 < divisor) : kind.min ≤ n / divisor ∧ n / divisor ≤ kind.max := by
  have zero : kind.min ≤ 0 ∧ 0 ≤ kind.max := by cases kind <;> decide
  have short : (n / divisor).natAbs ≤ n.natAbs := Int.natAbs_ediv_le_natAbs n divisor
  by_cases nonnegative : 0 ≤ n
  · have low : 0 ≤ n / divisor := Int.ediv_nonneg nonnegative (Int.le_of_lt positive)
    omega
  · have high : n / divisor < 0 := Int.ediv_neg_of_neg_of_pos (Int.not_le.mp nonnegative) positive
    omega

variable {type : Ty} {a b : Integer}

theorem applyBinary_shift {op : BinaryOp} (isShift : op = .leftShift ∨ op = .rightShift)
    (isShifted : kind.isShifted = true) (isKind : type.core = .integral kind) :
    applyBinary op type (integral a) (integral b) =
      .ok (integral (Integer.wrap kind (shifted op a.val (b.val % kind.bits).toNat))) := by
  have outcome : applyBinary op type (integral a) (integral b) =
      shift op type.core (integral a) (integral b) := by
    obtain rfl | rfl := isShift <;> rfl
  rw [outcome, isKind, ← shiftCount_eq isShifted]
  rfl

theorem applyBinary_leftShift (isShifted : kind.isShifted = true)
    (isKind : type.core = .integral kind) :
    applyBinary .leftShift type (integral a) (integral b) =
      .ok (integral (Integer.wrap kind (a.val * 2 ^ (b.val % kind.bits).toNat))) := by
  rw [applyBinary_shift (.inl rfl) isShifted isKind]
  simp only [Integer.wrap, wrapInt_shifted_left]

theorem applyBinary_rightShift (isShifted : kind.isShifted = true)
    (isKind : type.core = .integral kind) (left_kind : a.kind = kind) :
    ∃ quotient : Integer, quotient.kind = kind ∧
      quotient.val = a.val.fdiv (2 ^ (b.val % kind.bits).toNat) ∧
      applyBinary .rightShift type (integral a) (integral b) = .ok (integral quotient) := by
  have positive : (0 : Int) < 2 ^ (b.val % kind.bits).toNat := Int.pow_pos (by decide)
  have inRange := inRange_ediv (left_kind ▸ a.inRange) positive
  have short : a.val.natAbs < 2 ^ 127 := Nat.lt_trans a.natAbs_lt_pow (by decide)
  refine ⟨⟨kind, _, inRange⟩, rfl, (Int.fdiv_eq_ediv_of_nonneg _ (Int.le_of_lt positive)).symm, ?_⟩
  rw [applyBinary_shift (.inr rfl) isShifted isKind, shifted_right short,
    Integer.wrap_of_inRange inRange]

end Value

namespace Expr

variable {table : ClassTable}

/-- The types that the operands of a shift are promoted to: a width that is shifted and 32 bits with
a sign, both with or both without null. -/
theorem shift_signatures {t u : Ty} (isSignature : [t, u] ∈ OperatorGroup.shift.signatures) :
    ∃ kind : IntKind, kind.isShifted = true ∧
      ((t = .integral kind ∧ u = .int32) ∨
        (t = .nullable (.integral kind) ∧ u = .nullable .int32)) := by
  have listed : [t, u] ∈ [Ty.int32, .integral .uint32, .int64, .integral .uint64].flatMap
      fun t => [[t, .int32], [.nullable t, .nullable .int32]] := isSignature
  simp only [List.mem_flatMap, List.mem_cons, List.cons.injEq, List.not_mem_nil, or_false,
    and_true] at listed
  obtain ⟨_, rfl | rfl | rfl | rfl, types⟩ := listed <;> exact ⟨_, rfl, types⟩

theorem shift_operands {symbol : String} {position : Nat} {left right left' right' : Expr}
    (outcome : OperatorGroup.shift.operands table symbol position left right =
      .ok (left', right')) :
    ∃ kind : IntKind, kind.isShifted = true ∧
      ((left'.type = .integral kind ∧ right'.type = .int32) ∨
        (left'.type = .nullable (.integral kind) ∧ right'.type = .nullable .int32)) ∧
      ∀ ctx, (left.evaluate ctx = .ok .null → left'.evaluate ctx = .ok .null) ∧
        (right.evaluate ctx = .ok .null → right'.evaluate ctx = .ok .null) := by
  obtain ⟨t, u, isSignature, left_eq, right_eq⟩ := OperatorGroup.operands_eq_ok outcome
  obtain ⟨kind, isShifted, types⟩ := shift_signatures isSignature
  have typed {w : Ty} {e promoted : Expr} (simple : w.isSimple = true) (isValue : w.isValue = true)
      (outcome : e.promote? table .argument w = some promoted) : promoted.type = w :=
    Ty.eq_of_same simple (promote?_type (.inr isValue) outcome)
  refine ⟨kind, isShifted, ?_, fun ctx =>
    ⟨evaluate_promote?_null left_eq, evaluate_promote?_null right_eq⟩⟩
  obtain ⟨rfl, rfl⟩ | ⟨rfl, rfl⟩ := types
  · exact .inl ⟨typed rfl rfl left_eq, typed rfl rfl right_eq⟩
  · exact .inr ⟨typed rfl rfl left_eq, typed rfl rfl right_eq⟩

end Expr

/-- Shifts look at both operands and do not compare them. -/
theorem CompileContext.shiftOperator?_isStrict {token : Token} {operator : BinaryOp}
    (isOperator : shiftOperator? token = some operator) :
    (operator ≠ .andAlso ∧ operator ≠ .orElse) ∧ operator.isComparison = false := by
  obtain rfl | rfl := CompileContext.shiftOperator?_eq_some isOperator
  · exact ⟨by decide, rfl⟩
  · exact ⟨by decide, rfl⟩

/-- Shifts multiply and divide by powers of two for every count, and a shift is built only for
operands that are promoted to a width that is shifted and a count of 32 bits. -/
theorem shift_fixedWidth :
    (∀ (kind : IntKind) (type : Ty) (a b : Integer), kind.isShifted = true →
      type.core = .integral kind → a.kind = kind →
        Value.applyBinary .leftShift type (.integral a) (.integral b) =
            .ok (.integral (Integer.wrap kind (a.val * 2 ^ (b.val % kind.bits).toNat))) ∧
          ∃ quotient : Integer, quotient.kind = kind ∧
            quotient.val = a.val.fdiv (2 ^ (b.val % kind.bits).toNat) ∧
            Value.applyBinary .rightShift type (.integral a) (.integral b) =
              .ok (.integral quotient)) ∧
    (∀ (table : ClassTable) (token : Token) (operator : BinaryOp) (left right e : Expr),
      CompileContext.shiftOperator? token = some operator →
      Expr.ofGroup table .shift operator token left right = .ok e →
        ∃ kind left' right', kind.isShifted = true ∧
          e = .binary left'.type operator left' right' none ∧
          ((left'.type = .integral kind ∧ right'.type = .int32) ∨
            (left'.type = .nullable (.integral kind) ∧ right'.type = .nullable .int32)) ∧
          ∀ ctx v w, left'.evaluate ctx = .ok v → right'.evaluate ctx = .ok w →
            e.evaluate ctx = Value.applyBinary operator left'.type v w ∧
              (left.evaluate ctx = .ok .null ∨ right.evaluate ctx = .ok .null →
                e.evaluate ctx = .ok .null)) := by
  refine ⟨fun kind type a b isShifted isKind left_kind =>
    ⟨Value.applyBinary_leftShift isShifted isKind,
      Value.applyBinary_rightShift isShifted isKind left_kind⟩,
    fun table token operator left right e isOperator outcome => ?_⟩
  obtain ⟨⟨left', right'⟩, operands, same⟩ := bind_eq_ok_iff.mp outcome
  obtain rfl := pure_eq_ok_iff.mp same
  obtain ⟨kind, isShifted, types, nulls⟩ := Expr.shift_operands operands
  obtain ⟨isStrict, isOther⟩ := CompileContext.shiftOperator?_isStrict isOperator
  refine ⟨kind, left', right', isShifted, rfl, types, fun ctx v w left_value right_value => ?_⟩
  rw [Expr.evaluate_strict isStrict, left_value, right_value]
  refine ⟨rfl, fun isNull => Value.applyBinary_null isOther ?_⟩
  obtain isNull | isNull := isNull
  · obtain rfl := Except.ok.inj (left_value.symm.trans ((nulls ctx).1 isNull))
    exact .inl rfl
  · obtain rfl := Except.ok.inj (right_value.symm.trans ((nulls ctx).2 isNull))
    exact .inr rfl

/-- The top bit is lost to the left, the greatest power of two of 64 bits is shifted to the right by
the count -1, and a null integer of 8 bits shifted is null. -/
theorem shift_fixedWidth_extremes :
    Value.applyBinary .leftShift (.nullable .int32) (Value.int32 (-2147483648)) (Value.int32 33) =
        .ok (Value.int32 0) ∧
      Value.applyBinary .rightShift (.integral .uint64)
          (Value.ofInteger .uint64 9223372036854775808) (Value.int32 (-1)) =
        .ok (Value.ofInteger .uint64 1) ∧
      ∃ e, Expr.ofGroup .initial .shift .leftShift ⟨.doubleLessThan, "<<", 0⟩
          (.constant (.nullable (.integral .sbyte)) .null none)
          (.constant (.nullable .int32) .null none) = .ok e ∧
        e.evaluate (.initial DateTime.minValue) = .ok .null := by
  refine ⟨?_, ?_, _, rfl, ?_⟩
  · exact (shift_fixedWidth.1 .int32 (.nullable .int32) (Integer.wrap .int32 (-2147483648))
      (Integer.wrap .int32 33) rfl rfl rfl).1
  · obtain ⟨quotient, kind, val, outcome⟩ :=
      (shift_fixedWidth.1 .uint64 (.integral .uint64) (Integer.wrap .uint64 9223372036854775808)
        (Integer.wrap .int32 (-1)) rfl rfl rfl).2
    obtain rfl : quotient = Integer.wrap .uint64 1 := Integer.ext kind (val.trans (by decide))
    exact outcome
  · obtain ⟨-, left', right', -, same, -, runs⟩ :=
      shift_fixedWidth.2 .initial ⟨.doubleLessThan, "<<", 0⟩ .leftShift
        (.constant (.nullable (.integral .sbyte)) .null none)
        (.constant (.nullable .int32) .null none) _ rfl rfl
    obtain ⟨-, -, rfl, rfl, -⟩ := Expr.binary.inj same
    exact (runs (.initial DateTime.minValue) .null .null rfl rfl).2 (.inl rfl)

end QueryTree
