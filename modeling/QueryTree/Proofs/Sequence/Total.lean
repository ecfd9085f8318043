import QueryTree.Proofs.Integral.Bitwise
import QueryTree.Proofs.Literal.Integer

/-!
# Sums and means of integers

The sum of integers of one width is the exact one where the width has room for every total on the
way to it, and otherwise an overflow.  A mean depends on the numbers only; what it is converted to
at last depends on the type of the result.
-/

namespace QueryTree

theorem Integer.holds_val (n : Integer) : n.kind.holds n.val = true :=
  IntKind.holds_iff.mpr n.inRange

namespace Aggregate

open Value (OfWidth)

/-- The numbers among values, null not counted. -/
def numbers (values : List Value) : List Int := values.filterMap Value.toInt?

/-- The sum of numbers in a width that they are added in one after the other. -/
def totalIn (kind : IntKind) (numbers : List Int) : Evaluation Value :=
  if (numbers.scanl (· + ·) 0).all kind.holds then .ok (.ofInteger kind numbers.sum)
  else .error (Value.overflowOf .add)

/-- The mean of numbers as a value of a type. -/
def meanIn (type : Ty) : List Int → Evaluation Value
  | [] => emptyResult average type
  | n :: rest =>
    (Value.double ((n :: rest).foldl (fun total n => total + doubleOfInt n) 0.0 /
      doubleOfInt (n :: rest).length)).convertTo type

variable {kind : IntKind} {type : Ty} {values : List Value} {n : Integer}

section Sum

/-- Integers are added to a total as long as their width has room for it. -/
theorem addAll_integral (ofWidth : ∀ v ∈ values, v.OfWidth kind) (isKind : n.kind = kind) :
    addAll (.integral kind) values (.integral n) =
      if ((numbers values).scanl (· + ·) n.val).all kind.holds then
        .ok (.ofInteger kind ((numbers values).foldl (· + ·) n.val))
      else .error (Value.overflowOf .add) := by
  have fits : kind.holds n.val = true := isKind ▸ n.holds_val
  induction values generalizing n with
  | nil =>
      have same : Integer.wrap kind n.val = n := by
        rw [Integer.wrap_of_inRange (IntKind.holds_iff.mp fits)]
        exact Integer.ext isKind.symm rfl
      simp [addAll, numbers, fits, Value.ofInteger, same, pure, Except.pure]
  | cons v rest ih =>
      obtain ⟨head, tail⟩ := List.forall_mem_cons.mp ofWidth
      rw [addAll, List.foldlM_cons]
      cases head with
      | null => exact ih tail isKind fits
      | @integral m isKind' =>
          have converted : (Value.integral m).convertTo (.integral kind) = .ok (.integral m) :=
            Value.convertTo_of_conformsTo (isKind' ▸ Value.conformsTo_type m false)
          have sum : Value.applyBinary .add (.integral kind) (.integral n) (.integral m) =
              Evaluation.require (Value.overflowOf .add)
                (Value.ofInt? (.integral kind) (n.val + m.val)) := by
            rw [Value.applyBinary_eq_integerArithmetic rfl]
            exact congrArg (Evaluation.require _) (Value.bind_integerOp? rfl rfl isKind isKind')
          have step : ((numbers (.integral m :: rest)).scanl (· + ·) n.val).all kind.holds =
              ((numbers rest).scanl (· + ·) (n.val + m.val)).all kind.holds := by
            simp [numbers, Value.toInt?, fits]
          have later : (numbers (.integral m :: rest)).foldl (· + ·) n.val =
              (numbers rest).foldl (· + ·) (n.val + m.val) := rfl
          simp only [Value.isNull, Bool.false_eq_true, if_false, converted, step, later]
          by_cases inRange : kind.min ≤ n.val + m.val ∧ n.val + m.val ≤ kind.max
          · rw [Value.ofInt?_of_inRange inRange] at sum
            exact (congrArg (· >>= _) sum).trans
              (ih tail (n := ⟨kind, n.val + m.val, inRange⟩) rfl (IntKind.holds_iff.mpr inRange))
          · rw [Value.ofInt?_of_outside inRange] at sum
            have noRoom : kind.holds (n.val + m.val) = false :=
              Bool.eq_false_iff.mpr fun holds => inRange (IntKind.holds_iff.mp holds)
            have stops : ((numbers rest).scanl (· + ·) (n.val + m.val)).all kind.holds = false := by
              cases numbers rest <;> simp [noRoom]
            rw [stops]
            exact congrArg (· >>= _) sum

/-- Integers of one width are summed in it. -/
theorem evaluate_sum {v : Value} {items : List Value} {args : List SequenceArgument}
    (isWidth : type.core = .integral kind) (isSequence : Aggregate.items .sum v = .ok items)
    (isProjected : projected args.head? items = .ok values)
    (ofWidth : ∀ v ∈ values, v.OfWidth kind) :
    sum.evaluate type v args = totalIn kind (numbers values) := by
  have inRange : kind.min ≤ 0 ∧ 0 ≤ kind.max := by cases kind <;> decide
  have zero : emptySum type = .ok (.integral ⟨kind, 0, inRange⟩) := by
    rw [emptySum, isWidth, Value.ofInt?_of_inRange inRange]
    rfl
  have added := addAll_integral ofWidth (n := ⟨kind, 0, inRange⟩) rfl
  rw [← List.sum_eq_foldl] at added
  rw [evaluate, isSequence]
  simp only [bind, Except.bind, zero, isProjected, isWidth]
  exact added

theorem foldl_mem_scanl (numbers : List Int) (start : Int) :
    numbers.foldl (· + ·) start ∈ numbers.scanl (· + ·) start := by
  induction numbers generalizing start with
  | nil => simp
  | cons n rest ih =>
      rw [List.scanl_cons]
      exact List.mem_cons_of_mem _ (ih (start + n))

theorem toInt?_of_totalIn {numbers : List Int} {total : Value}
    (outcome : totalIn kind numbers = .ok total) :
    (∀ n ∈ numbers.scanl (· + ·) 0, kind.holds n = true) ∧ total.toInt? = some numbers.sum := by
  rw [totalIn] at outcome
  split at outcome
  next holds =>
    have all := List.all_eq_true.mp holds
    have inRange := IntKind.holds_iff.mp (all _ (foldl_mem_scanl numbers 0))
    rw [← List.sum_eq_foldl] at inRange
    obtain rfl := Except.ok.inj outcome
    refine ⟨all, ?_⟩
    rw [Value.ofInteger, Integer.wrap_of_inRange inRange]
    rfl
  next => cases outcome

/-- A width with more room sums what one with less room does. -/
theorem totalIn_wider {wider : IntKind} {numbers : List Int} {total : Value}
    (hasRoom : wider.min ≤ kind.min ∧ kind.max ≤ wider.max)
    (outcome : totalIn kind numbers = .ok total) :
    ∃ same, totalIn wider numbers = .ok same ∧ same.toInt? = total.toInt? := by
  obtain ⟨holds, isSum⟩ := toInt?_of_totalIn outcome
  have wide : totalIn wider numbers = .ok (.ofInteger wider numbers.sum) := by
    refine if_pos (List.all_eq_true.mpr fun n isTotal => IntKind.holds_iff.mpr ?_)
    have inRange := IntKind.holds_iff.mp (holds n isTotal)
    exact ⟨Int.le_trans hasRoom.1 inRange.1, Int.le_trans inRange.2 hasRoom.2⟩
  exact ⟨_, wide, (toInt?_of_totalIn wide).2.trans isSum.symm⟩

end Sum

section Mean

theorem present_integral (ofWidth : ∀ v ∈ values, v.OfWidth kind) :
    ∃ integers : List Integer, values.filter (!·.isNull) = integers.map .integral ∧
      numbers values = integers.map (·.val) := by
  induction values with
  | nil => exact ⟨[], rfl, rfl⟩
  | cons v rest ih =>
      obtain ⟨head, tail⟩ := List.forall_mem_cons.mp ofWidth
      obtain ⟨integers, present, isNumbers⟩ := ih tail
      cases head with
      | null => exact ⟨integers, present, isNumbers⟩
      | @integral n =>
          exact ⟨n :: integers, congrArg (Value.integral n :: ·) present,
            congrArg (n.val :: ·) isNumbers⟩

theorem realMean_integral (integers : List Integer) :
    realMean type (integers.map .integral) =
      (Value.double ((integers.map (·.val)).foldl (fun total n => total + doubleOfInt n) 0.0 /
        doubleOfInt (integers.map (·.val)).length)).convertTo type := by
  have total (start : Float) :
      (integers.map Value.integral).foldlM (fun (total : Float) value => do
        let x ← Evaluation.require (.type (.notNumeric value)) value.toDouble?
        return total + x) start =
          .ok ((integers.map (·.val)).foldl (fun total n => total + doubleOfInt n) start) := by
    induction integers generalizing start with
    | nil => rfl
    | cons n rest ih => exact ih (start + doubleOfInt n.val)
  rw [realMean, total, List.length_map, List.length_map]
  rfl

/-- The mean of integers is that of their numbers. -/
theorem evaluate_average {v : Value} {items : List Value} {args : List SequenceArgument}
    (isReal : (type.core == .decimal) = false) (isSequence : Aggregate.items .average v = .ok items)
    (isProjected : projected args.head? items = .ok values)
    (ofWidth : ∀ v ∈ values, v.OfWidth kind) :
    average.evaluate type v args = meanIn type (numbers values) := by
  obtain ⟨integers, present, isNumbers⟩ := present_integral ofWidth
  rw [evaluate, isSequence]
  simp only [bind, Except.bind, isProjected, averageOf, present, isNumbers, isReal]
  cases integers with
  | nil => rfl
  | cons n rest => exact realMean_integral (n :: rest)

/-- A mean as a value of a type is the one of 64 bits converted to it. -/
theorem meanIn_eq_convertTo {real : Ty} (isDouble : real.core = .double)
    (nullable : real.admitsNull = type.admitsNull) (numbers : List Int) :
    meanIn type numbers = meanIn real numbers >>= (·.convertTo type) := by
  cases numbers with
  | nil =>
      simp only [meanIn, emptyResult, nullable]
      split <;> rfl
  | cons n rest =>
      have unchanged (x : Float) : (Value.double x).convertTo real = .ok (.double x) :=
        Value.convertTo_of_conformsTo (Value.HasKind.conformsTo (isDouble ▸ ⟨rfl, BEq.rfl⟩))
      simp only [meanIn, unchanged]
      rfl

end Mean

end Aggregate

end QueryTree
