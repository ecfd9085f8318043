import Mathlib.Algebra.Order.Field.Basic
import Mathlib.Algebra.Order.Field.Rat
import Mathlib.Data.Prod.Lex
import Mathlib.Data.Rat.Cast.Order
import Mathlib.Data.String.Basic
import Mathlib.Order.WithBot
import QueryTree.Proofs.Conversion.Implicit
import QueryTree.Proofs.Order.Sorting

/-!
# Kinds of sort keys

Values that are keys of one kind are in the order of their ranks in a linear order: texts by their
characters, truth values, moments, durations and identifiers by themselves, numbers by what they
are, and null before all of them.  Values of two kinds have no order.
-/

/-!
## The order of numbers

Exact numbers are in the order of their values, whatever their widths.  Real numbers are in a linear
order too, other than what is no number, which has no order.
-/

namespace QueryTree

theorem compare_map {ρ σ : Type} [LinearOrder ρ] [LinearOrder σ] {f : ρ → σ} (mono : StrictMono f)
    (p q : ρ) : compare (f p) (f q) = compare p q := by
  rw [← cmp_eq_compare, ← cmp_eq_compare, mono.cmp_map_eq]

theorem compare_lex {ρ σ : Type} [LinearOrder ρ] [LinearOrder σ] (a c : ρ) (b d : σ) :
    compare (toLex (a, b)) (toLex (c, d)) = (compare a c).then (compare b d) := by
  rw [Prod.Lex.compare_def]
  rfl

/-- Decimal numbers are in the order of their values. -/
theorem Decimal.compare_eq (d e : Decimal) : d.compare e = Ord.compare d.number e.number := by
  have cast (n : ℕ) : (Nat.pow 10 n : ℚ) = 10 ^ n := Nat.cast_pow 10 n
  have left_pos : (0 : ℚ) < 10 ^ d.places := pow_pos (by norm_num) _
  have right_pos : (0 : ℚ) < 10 ^ e.places := pow_pos (by norm_num) _
  have scale : StrictMono fun x : ℚ => x * (10 ^ d.places * 10 ^ e.places) :=
    strictMono_mul_right_of_pos (mul_pos left_pos right_pos)
  have left_eq : d.number * (10 ^ d.places * 10 ^ e.places) =
      ((d.signed * Nat.pow 10 e.places : ℤ) : ℚ) := by
    rw [number, ← mul_assoc, div_mul_cancel₀ _ left_pos.ne', Int.cast_mul, Int.cast_natCast, cast]
  have right_eq : e.number * (10 ^ d.places * 10 ^ e.places) =
      ((e.signed * Nat.pow 10 d.places : ℤ) : ℚ) := by
    rw [number, mul_comm (10 ^ d.places : ℚ), ← mul_assoc, div_mul_cancel₀ _ right_pos.ne',
      Int.cast_mul, Int.cast_natCast, cast]
  rw [← compare_map scale, left_eq, right_eq]
  exact (compare_map Int.cast_strictMono _ _).symm

/-- The rank of a real number that is one: negative infinity, the negative numbers from the greatest
exponent on, zero, the positive numbers from the least exponent on, and infinity. -/
def unpackedRank? : Float.Model.UnpackedFloat → Option (ℤ ×ₗ ℤ ×ₗ ℤ)
  | .notANumber => none
  | .infinity .negative => some (toLex (-2, toLex (0, 0)))
  | .finite .negative significand exponent _ => some (toLex (-1, toLex (-exponent, -significand)))
  | .zero _ => some (toLex (0, toLex (0, 0)))
  | .finite .positive significand exponent _ => some (toLex (1, toLex (exponent, significand)))
  | .infinity .positive => some (toLex (2, toLex (0, 0)))

theorem compare_neg_neg (a b : ℤ) : compare (-a) (-b) = (compare a b).swap := by
  rw [← Std.OrientedOrd.eq_swap (a := b)]
  obtain less | rfl | greater := lt_trichotomy a b
  · rw [compare_gt_iff_gt.mpr less, compare_gt_iff_gt.mpr (neg_lt_neg less)]
  · rw [compare_eq_iff_eq.mpr rfl, compare_eq_iff_eq.mpr rfl]
  · rw [compare_lt_iff_lt.mpr greater, compare_lt_iff_lt.mpr (neg_lt_neg greater)]

/-- The order of real numbers is that of their ranks; what is no number has none. -/
theorem unpacked_compare (u v : Float.Model.UnpackedFloat) :
    u.compare v = (unpackedRank? u).bind fun p => (unpackedRank? v).map fun q => compare p q := by
  have above (m n : ℕ) (e f : ℤ) :
      (compare e f).then (compare m n) = (compare e f).then (compare (m : ℤ) (n : ℤ)) := by
    rw [compare_map Nat.strictMono_cast]
  have below (m n e f : ℤ) :
      ((compare e f).then (compare m n)).swap =
        (compare (-e) (-f)).then (compare (-m) (-n)) := by
    rw [Ordering.swap_then, compare_neg_neg, compare_neg_neg]
  rcases u with (_ | _) | _ | _ | ⟨(_ | _), m, e, hm⟩ <;>
    rcases v with (_ | _) | _ | _ | ⟨(_ | _), n, f, hn⟩ <;>
    dsimp only [Float.Model.UnpackedFloat.compare, unpackedRank?, Option.bind_none,
      Option.bind_some, Option.map_none, Option.map_some] <;>
    simp only [compare_lex, above, below] <;>
    rfl

/-- The rank of a real number, unless it is no number. -/
def realRank? (x : Float) : Option (ℤ ×ₗ ℤ ×ₗ ℤ) := unpackedRank? x.toModel.unpack

theorem compareReals?_eq (x y : Float) :
    Value.compareReals? x y =
      (realRank? x).bind fun p => (realRank? y).map fun q => compare p q := by
  have less (x y : Float) : x < y ↔ x.toModel.unpack.compare y.toModel.unpack = some .lt := by
    simp [LT.lt, Float.lt, Float.Model.lt, Float.Model.UnpackedFloat.lt]
  have same (x y : Float) : x == y ↔ x.toModel.unpack.compare y.toModel.unpack = some .eq :=
    show (x.toModel.unpack.compare y.toModel.unpack == some .eq) = true ↔ _ from beq_iff_eq
  unfold Value.compareReals? realRank?
  simp only [less, same, unpacked_compare]
  cases unpackedRank? x.toModel.unpack with
  | none => cases unpackedRank? y.toModel.unpack <;> rfl
  | some p =>
      cases unpackedRank? y.toModel.unpack with
      | none => rfl
      | some q =>
          simp only [Option.bind_some, Option.map_some, Option.some.injEq]
          rw [Std.OrientedOrd.eq_swap (a := q)]
          cases compare p q <;> rfl

namespace Value

variable {v w : Value}

/-- The number that an integer, a character, a member of an enumeration or a decimal number stands
for, and whether it is a decimal number or can be made one. -/
def mark? : Value → Option (ℚ × Bool)
  | decimal d => some (d.number, true)
  | v => v.toInt?.map fun n : ℤ => (↑n, (Decimal.ofInt? n).isSome)

/-- The number that a value is compared as with others that decimal numbers can hold. -/
def rational? (v : Value) : Option ℚ := (v.mark?.filter (·.2)).map (·.1)

/-- The real number that a value is compared as. -/
def real? : Value → Option Float
  | single x => some x.toFloat
  | double x => some x
  | _ => none

section Marked

variable {p q : ℚ × Bool}

theorem isReal_of_mark? (marked : v.mark? = some p) : v.isReal = false := by
  cases v with
  | single | double => cases marked
  | _ => rfl

theorem mark?_of_isDecimal (marked : v.mark? = some p) (isDecimal : v.isDecimal = true) :
    p.2 = true := by
  cases v with
  | decimal => obtain rfl := Option.some.inj marked; rfl
  | _ => cases isDecimal

theorem toInt?_of_mark? (marked : v.mark? = some p) (notDecimal : v.isDecimal = false) :
    ∃ n : ℤ, v.toInt? = some n ∧ p = (↑n, (Decimal.ofInt? n).isSome) := by
  cases v with
  | decimal => cases notDecimal
  | integral | char | enum => exact ⟨_, rfl, (Option.some.inj marked).symm⟩
  | _ => cases marked

/-- The decimal number that a value is compared as has its number. -/
theorem toDecimal?_of_mark? (marked : v.mark? = some p) :
    v.toDecimal?.map (·.number) = if p.2 then some p.1 else none := by
  by_cases isDecimal : v.isDecimal = true
  · cases v with
    | decimal d =>
        obtain rfl := Option.some.inj marked
        rfl
    | _ => cases isDecimal
  · obtain ⟨n, isInt, rfl⟩ := toInt?_of_mark? marked (Bool.eq_false_iff.mpr isDecimal)
    have made : v.toDecimal? = Decimal.ofInt? n := by
      cases v with
      | decimal => exact absurd rfl isDecimal
      | integral | char | enum => exact congrArg (Option.bind · Decimal.ofInt?) isInt
      | _ => cases isInt
    rw [made]
    cases isHeld : Decimal.ofInt? n with
    | none => rfl
    | some d => exact congrArg some (Decimal.number_of_ofInt? isHeld)

/-- Exact numbers are compared by their values, unless only one of them is decimal or can be made
so. -/
theorem compareNumbers?_of_mark? (left : v.mark? = some p) (right : w.mark? = some q) :
    compareNumbers? v w =
      if (v.isDecimal || w.isDecimal) = true ∧ ¬ (p.2 = true ∧ q.2 = true) then none
      else some (compare p.1 q.1) := by
  unfold compareNumbers?
  by_cases decimals : (v.isDecimal || w.isDecimal) = true
  · have ranks : (do return (← v.toDecimal?).compare (← w.toDecimal?)) =
        (v.toDecimal?.map (·.number)).bind fun x =>
          (w.toDecimal?.map (·.number)).map fun y => compare x y := by
      cases v.toDecimal? <;> cases w.toDecimal? <;> first | rfl | skip
      next d e => exact congrArg some (Decimal.compare_eq d e)
    rw [if_pos decimals, ranks, toDecimal?_of_mark? left, toDecimal?_of_mark? right]
    cases p.2 <;> cases q.2 <;> simp [decimals]
  · rw [if_neg decimals, if_neg (by simp [isReal_of_mark? left, isReal_of_mark? right]),
      if_neg fun both => decimals both.1]
    simp only [Bool.or_eq_true, not_or, Bool.not_eq_true] at decimals
    obtain ⟨m, isLeft, rfl⟩ := toInt?_of_mark? left decimals.1
    obtain ⟨n, isRight, rfl⟩ := toInt?_of_mark? right decimals.2
    rw [isLeft, isRight, compare_map Int.cast_strictMono]
    rfl

end Marked

/-- Numbers that decimal numbers can hold are compared by their values. -/
theorem compareNumbers?_rational {p q : ℚ} (left : v.rational? = some p)
    (right : w.rational? = some q) : compareNumbers? v w = some (compare p q) := by
  simp only [rational?, Option.map_eq_some_iff, Option.filter_eq_some_iff] at left right
  obtain ⟨p, ⟨leftMark, leftHeld⟩, rfl⟩ := left
  obtain ⟨q, ⟨rightMark, rightHeld⟩, rfl⟩ := right
  rw [compareNumbers?_of_mark? leftMark rightMark, if_neg (by simp [leftHeld, rightHeld])]

theorem rational?_of_toInt? {n : ℤ} (isInt : v.toInt? = some n)
    (bound : n.natAbs < Decimal.coefficientBound) : v.rational? = some ↑n := by
  have isHeld : (Decimal.ofInt? n).isSome = true := by rw [Decimal.ofInt?, if_pos bound]; rfl
  have marked : v.mark? = some (↑n, true) := by
    rw [← isHeld]
    cases v with
    | integral | char | enum =>
        obtain rfl := Option.some.inj isInt
        rfl
    | _ => cases isInt
  rw [rational?, marked]
  rfl

/-- Real numbers are compared by their ranks. -/
theorem compareNumbers?_real {x y : Float} (left : v.real? = some x) (right : w.real? = some y) :
    compareNumbers? v w =
      (realRank? x).bind fun p => (realRank? y).map fun q => compare p q := by
  rw [← compareReals?_eq]
  cases v <;> cases left <;> cases w <;> cases right <;> rfl

end Value

end QueryTree

namespace QueryTree

theorem compare_coe_coe {ρ : Type} [LinearOrder ρ] (p q : ρ) :
    compare (p : WithBot ρ) (q : WithBot ρ) = compare p q :=
  compare_map (WithBot.coe_strictMono) p q

namespace Value

/-- The truth value in a value, if it is one. -/
def truth? : Value → Option Bool
  | boolean b => some b
  | _ => none

/-- The moment in a value, if it is one. -/
def moment? : Value → Option DateTime
  | dateTime moment => some moment
  | _ => none

/-- The duration in a value, if it is one. -/
def duration? : Value → Option TimeSpan
  | timeSpan span => some span
  | _ => none

/-- The identifier in a value, if it is one. -/
def identifier? : Value → Option Guid
  | guid id => some id
  | _ => none

end Value

/-- The kinds of values that are in order among themselves. -/
inductive KeyKind where
  | text | truth | moment | duration | identifier
  /-- Integers, characters, members of enumerations and decimal numbers. -/
  | exact
  /-- Binary numbers, other than what is no number. -/
  | real
deriving DecidableEq

namespace KeyKind

/-- The ranks of the values of a kind. -/
def Rank : KeyKind → Type
  | text => String
  | truth => Bool
  | moment => ℤ ×ₗ ℕ ×ₗ ℕ
  | duration => ℤ
  | identifier => ℕ
  | exact => ℚ
  | real => ℤ ×ₗ ℤ ×ₗ ℤ

instance : (kind : KeyKind) → LinearOrder kind.Rank
  | text => inferInstanceAs (LinearOrder String)
  | truth => inferInstanceAs (LinearOrder Bool)
  | moment => inferInstanceAs (LinearOrder (ℤ ×ₗ ℕ ×ₗ ℕ))
  | duration => inferInstanceAs (LinearOrder ℤ)
  | identifier => inferInstanceAs (LinearOrder ℕ)
  | exact => inferInstanceAs (LinearOrder ℚ)
  | real => inferInstanceAs (LinearOrder (ℤ ×ₗ ℤ ×ₗ ℤ))

/-- The rank of a value other than null, if it is of the kind. -/
def valueRank? : (kind : KeyKind) → Value → Option kind.Rank
  | text => Value.string?
  | truth => Value.truth?
  | moment => fun v => v.moment?.map fun m => toLex (m.day, toLex (m.second, m.nanosecond))
  | duration => fun v => v.duration?.map TimeSpan.nanoseconds
  | identifier => fun v => v.identifier?.map fun id => id.bits.toNat
  | exact => Value.rational?
  | real => fun v => v.real?.bind realRank?

/-- The rank of a value, if it is null or of the kind.  Null is below everything else. -/
def rank? (kind : KeyKind) (v : Value) : Option (WithBot kind.Rank) :=
  if v.isNull then some ⊥ else (kind.valueRank? v).map (↑)

end KeyKind

namespace Value

variable {kind : KeyKind} {v w : Value}

/-- Whether the number of a member of an enumeration has 64 bits, as all such numbers have. -/
def isHeld : Value → Bool
  | enum _ n => fitsInt64 n
  | _ => true

/-- The kind that a value other than null belongs to, if it belongs to one. -/
def kind? : Value → Option KeyKind
  | string _ => some .text
  | boolean _ => some .truth
  | dateTime _ => some .moment
  | timeSpan _ => some .duration
  | guid _ => some .identifier
  | integral _ | char _ | enum _ _ | decimal _ => some .exact
  | single _ | double _ => some .real
  | null | type _ | array _ | object _ => none

theorem kind?_of_valueRank? {rank : kind.Rank} (ranked : kind.valueRank? v = some rank) :
    v.kind? = some kind := by
  cases kind <;> cases v <;> first | rfl | cases ranked

/-- Numbers are compared as numbers. -/
theorem compare?_numbers (left : v.kind? = some .exact ∨ v.kind? = some .real)
    (right : w.kind? = some .exact ∨ w.kind? = some .real) :
    v.compare? w = v.compareNumbers? w := by
  cases v <;> simp only [kind?, Option.some.injEq, reduceCtorEq, or_self] at left <;>
    cases w <;> simp only [kind?, Option.some.injEq, reduceCtorEq, or_self] at right <;>
    first | rfl | skip
  next c d =>
    have codes : StrictMono fun c : Char => (c.toNat : ℤ) := fun c d less =>
      Int.ofNat_lt.mpr (UInt32.lt_iff_toNat_lt.mp (Char.lt_def.mp less))
    exact congrArg some (compare_map codes c d).symm

theorem compare?_valueRank {p q : kind.Rank} (left : kind.valueRank? v = some p)
    (right : kind.valueRank? w = some q) : v.compare? w = some (compare p q) := by
  cases kind with
  | text =>
      cases v <;> cases left
      cases w <;> cases right
      rfl
  | truth =>
      cases v <;> cases left
      cases w <;> cases right
      rfl
  | moment =>
      cases v <;> cases left
      cases w <;> cases right
      refine congrArg some ?_
      refine Eq.trans ?_ (compare_lex _ _ _ _).symm
      rw [compare_lex]
      rfl
  | duration =>
      cases v <;> cases left
      cases w <;> cases right
      rfl
  | identifier =>
      cases v <;> cases left
      cases w <;> cases right
      rfl
  | exact =>
      refine Eq.trans ?_ (compareNumbers?_rational left right)
      exact compare?_numbers (.inl (kind?_of_valueRank? left))
        (.inl (kind?_of_valueRank? right))
  | real =>
      obtain ⟨x, isLeft, leftRank⟩ := Option.bind_eq_some_iff.mp left
      obtain ⟨y, isRight, rightRank⟩ := Option.bind_eq_some_iff.mp right
      have ranks := compareNumbers?_real isLeft isRight
      rw [leftRank, rightRank] at ranks
      refine Eq.trans ?_ ranks
      exact compare?_numbers (.inr (kind?_of_valueRank? left))
        (.inr (kind?_of_valueRank? right))

theorem eq_null_of_isNull (isNull : v.isNull = true) : v = null := by
  cases v with
  | null => rfl
  | _ => cases isNull

theorem compare?_null_left (nonnull : w.isNull = false) : null.compare? w = some .lt := by
  cases w with
  | null => cases nonnull
  | _ => rfl

theorem compare?_null_right (nonnull : v.isNull = false) : v.compare? null = some .gt := by
  cases v with
  | null => cases nonnull
  | _ => rfl

/-- Keys of one kind are in the order of their ranks. -/
theorem compare?_rank {p q : WithBot kind.Rank} (left : kind.rank? v = some p)
    (right : kind.rank? w = some q) : v.compare? w = some (compare p q) := by
  unfold KeyKind.rank? at left right
  split at left
  next leftNull =>
    obtain rfl := Option.some.inj left
    obtain rfl := eq_null_of_isNull leftNull
    split at right
    next rightNull =>
      obtain rfl := Option.some.inj right
      obtain rfl := eq_null_of_isNull rightNull
      exact congrArg some (compare_eq_iff_eq.mpr rfl).symm
    next nonnull =>
      obtain ⟨q, -, rfl⟩ := Option.map_eq_some_iff.mp right
      rw [compare?_null_left (Bool.eq_false_iff.mpr nonnull),
        compare_lt_iff_lt.mpr (WithBot.bot_lt_coe q)]
  next leftNonnull =>
    obtain ⟨p, leftRank, rfl⟩ := Option.map_eq_some_iff.mp left
    split at right
    next rightNull =>
      obtain rfl := Option.some.inj right
      obtain rfl := eq_null_of_isNull rightNull
      rw [compare?_null_right (Bool.eq_false_iff.mpr leftNonnull),
        compare_gt_iff_gt.mpr (WithBot.bot_lt_coe p)]
    next =>
      obtain ⟨q, rightRank, rfl⟩ := Option.map_eq_some_iff.mp right
      rw [compare?_valueRank leftRank rightRank, compare_coe_coe]

theorem valueRank_of_kind? (isKind : v.kind? = some kind) (held : v.isHeld = true)
    (notReal : kind ≠ .real) : (kind.valueRank? v).isSome = true := by
  have wide : 2 ^ 64 ≤ Decimal.coefficientBound := by decide
  cases v with
  | integral n =>
      cases isKind
      exact Option.isSome_of_eq_some (rational?_of_toInt? rfl n.natAbs_lt)
  | char c =>
      cases isKind
      refine Option.isSome_of_eq_some (rational?_of_toInt? rfl ?_)
      have small : c.toNat < 2 ^ 32 := c.val.toNat_lt
      omega
  | enum e n =>
      cases isKind
      refine Option.isSome_of_eq_some (rational?_of_toInt? rfl ?_)
      have fits : fitsInt64 n = true := held
      simp only [fitsInt64, IntKind.min, IntKind.max, IntKind.isSigned, IntKind.card,
        Bool.and_eq_true, decide_eq_true_eq, if_true] at fits
      omega
  | single | double => cases isKind; exact absurd rfl notReal
  | _ => cases isKind <;> rfl

theorem real?_of_kind? (isReal : v.kind? = some .real) : ∃ x, v.real? = some x := by
  cases v with
  | single x => exact ⟨x.toFloat, rfl⟩
  | double x => exact ⟨x, rfl⟩
  | _ => cases isReal

/-- Values that have an order are of one kind, unless an exact number is compared with a binary
one. -/
theorem kind?_of_compare? {order : Ordering} (leftNonnull : v.isNull = false)
    (rightNonnull : w.isNull = false)
    (unmixed : ¬ (v.kind? = some .exact ∧ w.kind? = some .real) ∧
      ¬ (v.kind? = some .real ∧ w.kind? = some .exact))
    (ordered : v.compare? w = some order) : ∃ kind, v.kind? = some kind ∧ w.kind? = some kind := by
  cases v <;> cases w <;>
    first
    | exact ⟨_, rfl, rfl⟩
    | (cases leftNonnull; done)
    | (cases rightNonnull; done)
    | cases ordered
    | exact absurd ⟨rfl, rfl⟩ unmixed.1
    | exact absurd ⟨rfl, rfl⟩ unmixed.2

end Value

end QueryTree
