import QueryTree.Evaluate.Expression
import QueryTree.Proofs.Integral.Arithmetic
import QueryTree.Proofs.Model.Conformance

/-!
# Ticks of moments

Every moment that is read from a text or a document, or reached by moving another one, is a moment
of the calendar.  The ticks of a moment, each a ten-millionth of a second, are taken from whole
microseconds, so that those behind the last microsecond are lost.
-/

namespace QueryTree

/-! ## Moments of the calendar -/

namespace Calendar

variable {year : Int} {month day : Nat} {found : Int}

/-- The days before a year that begins in March. -/
def daysBefore (year : Int) : Int :=
  let era := year / 400
  let yearOfEra := year - era * 400
  era * daysPerEra + (yearOfEra * 365 + yearOfEra / 4 - yearOfEra / 100)

/-- Every year has at least 365 days. -/
theorem daysBefore_le {left right : Int} (le : left ≤ right) :
    daysBefore left + 365 * (right - left) ≤ daysBefore right := by
  have era : daysPerEra = 146097 := rfl
  simp only [daysBefore, era]
  omega

theorem toDay_eq (date : CalendarDate) :
    toDay date =
      daysBefore (if date.month ≤ 2 then date.year - 1 else date.year) +
        ((153 * (if date.month ≤ 2 then date.month + 9 else date.month - 3) + 2) / 5 + date.day - 1
          : Nat) - marchOffset := by
  have era (year : Int) : year.fdiv 400 = year / 400 := Int.fdiv_eq_ediv_of_nonneg _ (by decide)
  simp only [toDay, daysBefore, era]
  omega

theorem monthLength_le (year : Int) (month : Nat) : monthLength year month ≤ 31 := by
  unfold monthLength
  split
  next => split <;> decide
  next => split <;> decide

/-- The day of a date lies between the first day and the last one. -/
theorem day?_mem (isDay : day? year month day = some found) :
    firstDay ≤ found ∧ found ≤ lastDay := by
  unfold day? at isDay
  split at isDay
  next valid =>
    obtain rfl := Option.some.inj isDay
    simp only [Bool.and_eq_true, decide_eq_true_eq] at valid
    obtain ⟨⟨⟨⟨⟨first, last⟩, month_pos⟩, month_le⟩, day_pos⟩, inMonth⟩ := valid
    have length := monthLength_le year month
    have offset : marchOffset = 306 := rfl
    have least : firstDay = daysBefore (firstYear - 1) := rfl
    have greatest : lastDay = daysBefore lastYear - 1 := rfl
    rw [toDay_eq, least, greatest, offset]
    by_cases early : month ≤ 2
    · have lower := daysBefore_le (Int.sub_le_sub_right first 1)
      have upper := daysBefore_le (show year - 1 ≤ lastYear by omega)
      simp only [early, if_true]
      omega
    · have lower := daysBefore_le (show firstYear - 1 ≤ year by omega)
      have upper := daysBefore_le last
      simp only [early, if_false]
      omega
  next => cases isDay

end Calendar

namespace DateTime

/-- A moment of the calendar, which may lie in the leap second after a second. -/
structure InCalendar (moment : DateTime) : Prop where
  firstDay_le : Calendar.firstDay ≤ moment.day
  le_lastDay : moment.day ≤ Calendar.lastDay
  second_lt : moment.second < 86400
  nanosecond_lt : moment.nanosecond < 2000000000

variable {moment moved : DateTime} {span : TimeSpan} {cs rest : List Char} {text : String}

theorem midnight_inCalendar {day : Int} (first : Calendar.firstDay ≤ day)
    (last : day ≤ Calendar.lastDay) : (midnight day).InCalendar :=
  ⟨first, last, Nat.zero_lt_succ _, Nat.zero_lt_succ _⟩

/-- Moving a moment stays within a second or its leap second. -/
theorem shift_nanosecond (inSecond : moment.nanosecond < 2000000000) (span : TimeSpan) :
    0 ≤ (moment.shift span).2 ∧ (moment.shift span).2 < 2000000000 := by
  have second : TimeSpan.nanosPerSecond = 1000000000 := rfl
  have below := Int.tmod_lt_of_pos span.nanoseconds (show 0 < TimeSpan.nanosPerSecond by decide)
  have above := Int.lt_tmod_of_pos span.nanoseconds (show 0 < TimeSpan.nanosPerSecond by decide)
  rw [second] at below above
  have carried (second n : Int) (least : -1000000000 < n) (greatest : n < 2000000000) :
      let carry := if n < 0 then (second - 1, n + 1000000000)
        else if 1000000000 ≤ n then (second + 1, n - 1000000000) else (second, n)
      0 ≤ carry.2 ∧ carry.2 < 2000000000 := by
    intro carry
    simp only [carry]
    split
    next => constructor <;> simp only <;> omega
    next => split <;> constructor <;> simp only <;> omega
  unfold shift
  simp only [second, Bool.or_eq_true, Bool.and_eq_true, decide_eq_true_eq]
  generalize span.nanoseconds.tmod 1000000000 = nanos at below above
  -- a moment in a leap second either leaves it or stays inside
  split
  next => exact carried _ _ (by omega) (by omega)
  next =>
    split
    next => exact carried _ _ (by omega) (by omega)
    next =>
      split
      next => exact carried _ _ (by omega) (by omega)
      next => constructor <;> simp only <;> omega

/-- Where a moment is moved to, given the second and the nanosecond that it is shifted to. -/
theorem add?_of_shift {second nanosecond : Int}
    (shifted : moment.shift span = (second, nanosecond)) :
    moment.add? span =
      if Calendar.firstDay ≤ moment.day + second.fdiv secondsPerDay &&
          moment.day + second.fdiv secondsPerDay ≤ Calendar.lastDay then
        some ⟨moment.day + second.fdiv secondsPerDay,
          (second - second.fdiv secondsPerDay * secondsPerDay).toNat, nanosecond.toNat⟩
      else none := by
  -- the definition is opened before it is applied, so that the shift of a moment is not evaluated
  have opened : add? = add? := rfl
  conv at opened =>
    rhs
    delta add?
  have applied := congrFun (congrFun opened moment) span
  rw [applied, shifted]

/-- A moment that is moved within the calendar is a moment of it. -/
theorem add?_inCalendar (inCalendar : moment.InCalendar) (isMoved : moment.add? span = some moved) :
    moved.InCalendar := by
  have inSecond := shift_nanosecond inCalendar.nanosecond_lt span
  cases shifted : moment.shift span with
  | mk second nanosecond =>
      rw [shifted] at inSecond
      rw [add?_of_shift shifted] at isMoved
      have days : second.fdiv secondsPerDay = second / secondsPerDay :=
        Int.fdiv_eq_ediv_of_nonneg _ (by decide)
      have perDay : secondsPerDay = 86400 := rfl
      rw [days, perDay] at isMoved
      split at isMoved
      next inside =>
        obtain rfl := Option.some.inj isMoved
        simp only [Bool.and_eq_true, decide_eq_true_eq] at inside
        exact
          { firstDay_le := inside.1
            le_lastDay := inside.2
            second_lt := by simp only; omega
            nanosecond_lt := by simp only at inSecond ⊢; omega }
      next => cases isMoved

/-! ## Moments that are read -/

/-- So many digits stand for a number with so many digits. -/
theorem foldl_digits_lt {digits : List Char} (each : digits.all Char.isDigit = true) (n : Nat) :
    digits.foldl (fun n c => n * 10 + (c.toNat - 48)) n < (n + 1) * 10 ^ digits.length := by
  induction digits generalizing n with
  | nil => simp
  | cons d digits ih =>
      obtain ⟨isDigit, more⟩ := (Bool.and_eq_true _ _).mp each
      have worth : d.toNat - 48 ≤ 9 := by
        have bound : d.toNat ≤ 57 := by
          simp only [Char.isDigit, Bool.and_eq_true, decide_eq_true_eq] at isDigit
          exact isDigit.2
        omega
      have next := ih more (n * 10 + (d.toNat - 48))
      have wider : (n * 10 + (d.toNat - 48) + 1) * 10 ^ digits.length ≤
          (n + 1) * 10 ^ (digits.length + 1) := by
        rw [Nat.pow_succ', ← Nat.mul_assoc]
        exact Nat.mul_le_mul_right _ (by omega)
      exact Nat.lt_of_lt_of_le next wider

/-- The fraction of a second is less than a second. -/
theorem fraction?_lt {n : Nat} (read : fraction? cs = some (n, rest)) : n < 1000000000 := by
  unfold fraction? at read
  split at read
  next decimals =>
    simp only at read
    split at read
    next => cases read
    next =>
      obtain ⟨rfl, -⟩ := Prod.mk.inj (Option.some.inj read)
      have each : ((decimals.take 9).takeWhile Char.isDigit).all Char.isDigit = true :=
        List.all_takeWhile
      have short : ((decimals.take 9).takeWhile Char.isDigit).length ≤ 9 :=
        Nat.le_trans (List.takeWhile_prefix _).length_le (List.length_take_le ..)
      have value := foldl_digits_lt each 0
      generalize (decimals.take 9).takeWhile Char.isDigit = digits at short value ⊢
      have scale : 0 < 10 ^ (9 - digits.length) := Nat.pow_pos (by decide)
      rw [Nat.zero_add, Nat.one_mul] at value
      calc _ < 10 ^ digits.length * 10 ^ (9 - digits.length) :=
            Nat.mul_lt_mul_of_pos_right value scale
        _ = 10 ^ 9 := by rw [← Nat.pow_add, Nat.add_sub_cancel' short]
  next =>
    obtain ⟨rfl, -⟩ := Prod.mk.inj (Option.some.inj read)
    decide

/-- A time of day is a second of a day, with the leap second after it. -/
theorem time?_lt {withSeconds : Bool} {second nanosecond : Nat}
    (read : time? withSeconds cs = some ((second, nanosecond), rest)) :
    second < 86400 ∧ nanosecond < 2000000000 := by
  simp only [time?, Option.bind_eq_bind, Option.bind_eq_some_iff, Prod.exists] at read
  obtain ⟨hour, cs₁, -, cs₂, -, minute, cs₃, -, read⟩ := read
  simp only [Bool.or_eq_true, decide_eq_true_eq] at read
  split at read
  next => cases read
  next inDay =>
    split at read
    next =>
      simp only [Option.bind_eq_some_iff, Prod.exists] at read
      obtain ⟨cs₄, -, seconds, cs₅, -, decimals, cs₆, fraction, read⟩ := read
      have small := fraction?_lt fraction
      split at read
      next => cases read
      next inMinute =>
        split at read
        next =>
          simp only [Option.pure_def, Option.some.injEq, Prod.mk.injEq] at read
          obtain ⟨⟨rfl, rfl⟩, -⟩ := read
          omega
        next =>
          simp only [Option.pure_def, Option.some.injEq, Prod.mk.injEq] at read
          obtain ⟨⟨rfl, rfl⟩, -⟩ := read
          omega
    next =>
      simp only [Option.pure_def, Option.some.injEq, Prod.mk.injEq] at read
      obtain ⟨⟨rfl, rfl⟩, -⟩ := read
      omega

theorem date?_mem {day : Int} (read : date? cs = some (day, rest)) :
    Calendar.firstDay ≤ day ∧ day ≤ Calendar.lastDay := by
  simp only [date?, Option.bind_eq_bind, Option.bind_eq_some_iff, Prod.exists] at read
  obtain ⟨year, _, -, _, -, month, _, -, _, -, date, _, -, found, isDay, same⟩ := read
  simp only [Option.pure_def, Option.some.injEq, Prod.mk.injEq] at same
  obtain ⟨rfl, -⟩ := same
  exact Calendar.day?_mem isDay

theorem moment?_inCalendar {separator : List Char → Option (List Char)} {withSeconds : Bool}
    (read : moment? separator withSeconds cs = some moment) : moment.InCalendar := by
  simp only [moment?, Option.bind_eq_bind, Option.bind_eq_some_iff, Prod.exists] at read
  obtain ⟨day, _, isDate, _, -, second, nanosecond, _, isTime, read⟩ := read
  obtain ⟨first, last⟩ := date?_mem isDate
  obtain ⟨inDay, inSecond⟩ := time?_lt isTime
  split at read
  next =>
    simp only [Option.pure_def, Option.some.injEq] at read
    subst read
    exact ⟨first, last, inDay, inSecond⟩
  next => cases read

/-- A moment that is read from a text is a moment of the calendar. -/
theorem ofText?_inCalendar (read : ofText? text = some moment) : moment.InCalendar := by
  simp only [ofText?, Option.orElse_eq_orElse, Option.orElse_eq_or, Option.or_eq_some_iff] at read
  rcases read with read | ⟨-, read | ⟨-, read | ⟨-, read⟩⟩⟩
  · exact moment?_inCalendar read
  · exact moment?_inCalendar read
  · exact moment?_inCalendar read
  · obtain ⟨⟨day, rest⟩, isDate, read⟩ := Option.bind_eq_some_iff.mp read
    obtain ⟨first, last⟩ := date?_mem isDate
    split at read
    next =>
      obtain rfl := Option.some.inj read
      exact midnight_inCalendar first last
    next => cases read

end DateTime

namespace Value

variable {moment : DateTime}

/-- A text that is read as a moment has the form of one. -/
theorem ofText?_of_ofText {type : Ty} {text : String}
    (read : ofText type text = .read (.dateTime moment)) :
    DateTime.ofText? (Text.trim text) = some moment := by
  unfold ofText at read
  split at read
  next => cases read
  next isReader =>
    split at read
    next => cases read
    next made =>
      obtain rfl := TextReading.read.inj read
      have isMoment : type.core = .dateTime := Ty.eq_atom_of_beq (reader?_kind isReader made).2
      rw [isMoment] at isReader
      cases isReader
      obtain ⟨found, isFound, same⟩ := Option.map_eq_some_iff.mp made
      exact Value.dateTime.inj same ▸ isFound

/-- A number is not read as a moment. -/
theorem ofNumber_ne_dateTime {type : Ty} {json : Json} {natural : Value}
    (noMoment : natural ≠ .dateTime moment) :
    ofNumber type json natural ≠ .ok (.dateTime moment) := by
  intro read
  simp only [ofNumber] at read
  split at read
  next => exact noMoment (Except.ok.inj read)
  next =>
    split at read
    next isNumber =>
      split at read
      next made =>
        obtain rfl := Except.ok.inj read
        have kind := toNumeric?_kind made
        rcases (Bool.or_eq_true _ _).mp isNumber with isNumeric | isEnum
        · cases core : type.core.core with
          | atom a =>
              rw [core] at kind
              obtain rfl := Ty.atom.inj (Ty.eq_atom_of_beq kind.2)
              simp only [Ty.isNumeric, core] at isNumeric
              cases isNumeric
          | _ => simp [Ty.isNumeric, core] at isNumeric
        · obtain ⟨e, isEnum⟩ := Option.isSome_iff_exists.mp isEnum
          rw [Ty.core_of_enum? isEnum] at kind
          cases kind.2
      next => cases read
    next => cases read

/-- A moment that a document is read as is read from a text. -/
theorem ofText?_of_ofJson {table : ClassTable} {type : Ty} {json : Json}
    (read : ofJson table type json = .ok (.dateTime moment)) :
    ∃ text, DateTime.ofText? text = some moment := by
  cases json with
  | null => cases read
  | bool b =>
      simp only [ofJson] at read
      split at read <;> cases read
  | int n =>
      refine absurd read (ofNumber_ne_dateTime ?_)
      unfold ofIntegerNumber
      split <;> exact Value.noConfusion
  | real x => exact absurd read (ofNumber_ne_dateTime Value.noConfusion)
  | string s =>
      simp only [ofJson, ofString] at read
      split at read
      next => split at read <;> cases read
      next =>
        split at read
        next made =>
          obtain rfl := Except.ok.inj read
          exact ⟨_, ofText?_of_ofText made⟩
        next => cases read
        next => cases read
  | array items =>
      obtain ⟨values, -, built⟩ := map_eq_ok_iff.mp read
      cases built
  | object members =>
      obtain ⟨values, -, built⟩ := map_eq_ok_iff.mp read
      cases built

end Value

namespace DateTime

/-- The moments that come from texts, documents and the clock, and those that are derived from them
by moving them and by taking their dates. -/
inductive Made (now : DateTime) : DateTime → Prop where
  | text {moment : DateTime} {text : String} (read : ofText? text = some moment) : Made now moment
  | document {moment : DateTime} {table : ClassTable} {type : Ty} {json : Json}
      (read : Value.ofJson table type json = .ok (.dateTime moment)) : Made now moment
  | now : Made now now
  | least : Made now minValue
  | greatest : Made now maxValue
  | date {moment : DateTime} (made : Made now moment) : Made now (midnight moment.day)
  | add {moment moved : DateTime} {span : TimeSpan} (made : Made now moment)
      (isMoved : moment.add? span = some moved) : Made now moved
  | sub {moment moved : DateTime} {span : TimeSpan} (made : Made now moment)
      (isMoved : moment.sub? span = some moved) : Made now moved

/-- All of them are moments of the calendar. -/
theorem Made.inCalendar {now moment : DateTime} (present : now.InCalendar)
    (made : Made now moment) : moment.InCalendar := by
  induction made with
  | text read => exact ofText?_inCalendar read
  | document read =>
      obtain ⟨text, isMoment⟩ := Value.ofText?_of_ofJson read
      exact ofText?_inCalendar isMoment
  | now => exact present
  | least => exact midnight_inCalendar (by decide) (by decide)
  | greatest => exact ⟨by decide, by decide, by decide, by decide⟩
  | date _ inCalendar => exact midnight_inCalendar inCalendar.firstDay_le inCalendar.le_lastDay
  | add _ isMoved inCalendar => exact add?_inCalendar inCalendar isMoved
  | sub _ isMoved inCalendar => exact add?_inCalendar inCalendar isMoved

/-! ## Ticks -/

/-- The nanoseconds from the first moment of year 1 to a moment. -/
def elapsed (moment : DateTime) : Int :=
  (moment.day * 86400 + moment.second) * 1000000000 + moment.nanosecond

/-- The number of whole ticks, of 100 nanoseconds each, from the first moment of year 1. -/
def wholeTicks (moment : DateTime) : Int := moment.elapsed / 100

/-- The ticks in the whole microseconds between the first moment of year 1 and a moment. -/
def countedTicks (moment : DateTime) : Int := moment.elapsed.tdiv 1000 * 10

/-- The number of whole ticks as a value, or the failure that it does not fit. -/
def exactTicks (moment : DateTime) : Evaluation Value :=
  Evaluation.require (.overflow "Ticks") (Value.ofInt? .int64 moment.wholeTicks)

theorem since_minValue (moment : DateTime) :
    (moment.since minValue).nanoseconds = moment.elapsed := by
  have perDay : secondsPerDay = 86400 := rfl
  have perSecond : TimeSpan.nanosPerSecond = 1000000000 := rfl
  have noLeap : ¬ (1000000000 : Nat) ≤ 0 := by decide
  simp only [since, elapsed, minValue, midnight, perDay, perSecond, noLeap, Nat.not_lt_zero,
    decide_false, Bool.and_false, Bool.false_and, Bool.false_eq_true, if_false]
  omega

/-- A quotient toward zero is rounded down from zero on and rounded up before it. -/
theorem tdiv_cases (n d : Int) :
    0 ≤ n ∧ n.tdiv d = n / d ∨ n < 0 ∧ n.tdiv d = -(-n / d) := by
  rcases Int.lt_or_le n 0 with negative | nonneg
  · have magnitude : (-n).tdiv d = -n / d := Int.tdiv_eq_ediv_of_nonneg (by omega)
    rw [Int.neg_tdiv] at magnitude
    exact .inr ⟨negative, by omega⟩
  · exact .inl ⟨nonneg, Int.tdiv_eq_ediv_of_nonneg nonneg⟩

/-- The microseconds from the first moment of year 1 to a moment of the calendar fit 64 bits. -/
theorem InCalendar.fits {moment : DateTime} (inCalendar : moment.InCalendar) :
    Value.fitsInt64 (moment.elapsed.tdiv 1000) = true := by
  obtain ⟨first, last, inDay, inSecond⟩ := inCalendar
  have firstDay : Calendar.firstDay = -95746130 := by decide
  have lastDay : Calendar.lastDay = 95745398 := by decide
  have least : IntKind.int64.min = -9223372036854775808 := rfl
  have greatest : IntKind.int64.max = 9223372036854775807 := rfl
  have rounded := tdiv_cases moment.elapsed 1000
  simp only [Value.fitsInt64, least, greatest, Bool.and_eq_true, decide_eq_true_eq]
  unfold elapsed at rounded ⊢
  omega

/-- The number of whole ticks fits 64 bits. -/
def HasTicks (moment : DateTime) : Prop :=
  IntKind.int64.min ≤ moment.wholeTicks ∧ moment.wholeTicks ≤ IntKind.int64.max

/-- No tick is lost: the moment is a whole microsecond, or, from year 1 on, less than a tick after
one. -/
def CountsEach (moment : DateTime) : Prop :=
  moment.nanosecond % 1000 = 0 ∨ 0 ≤ moment.elapsed ∧ moment.nanosecond % 1000 < 100

/-- The ticks that are counted are all ticks if and only if none is lost. -/
theorem countedTicks_eq_iff (moment : DateTime) :
    moment.countedTicks = moment.wholeTicks ↔ moment.CountsEach := by
  have rounded := tdiv_cases moment.elapsed 1000
  have remainder : moment.elapsed % 1000 = (moment.nanosecond % 1000 : Nat) := by
    unfold elapsed
    omega
  unfold countedTicks wholeTicks CountsEach
  omega

/-- At most ten ticks are lost, or counted too many. -/
theorem countedTicks_near (moment : DateTime) :
    (moment.countedTicks - moment.wholeTicks).natAbs ≤ 10 := by
  have rounded := tdiv_cases moment.elapsed 1000
  unfold countedTicks wholeTicks
  omega

/-- The ticks of a moment of the calendar, of which those within a microsecond are left out.  An
evaluation is aborted where they do not fit. -/
theorem InCalendar.ticks_eq {moment : DateTime} (inCalendar : moment.InCalendar) :
    Value.ticks moment = Evaluation.require .aborted (Value.ofInt? .int64 moment.countedTicks) := by
  unfold Value.ticks
  simp only [since_minValue, inCalendar.fits, Bool.not_true, Bool.false_eq_true, if_false]
  rfl

end DateTime

/-- Two integers of a width, each of which may fail not to fit in a way of its own, come out the
same if and only if they are the same and fit. -/
theorem Value.require_ofInt?_eq_iff (kind : IntKind) {e f : EvalError} (differ : e ≠ f)
    (m n : Int) :
    Evaluation.require e (ofInt? (.integral kind) m) =
        Evaluation.require f (ofInt? (.integral kind) n) ↔
      (kind.min ≤ n ∧ n ≤ kind.max) ∧ m = n := by
  constructor
  · intro same
    by_cases left : kind.min ≤ m ∧ m ≤ kind.max
    · by_cases right : kind.min ≤ n ∧ n ≤ kind.max
      · rw [ofInt?_of_inRange left, ofInt?_of_inRange right] at same
        have equal := Value.integral.inj (Except.ok.inj same)
        exact ⟨right, congrArg Integer.val equal⟩
      · rw [ofInt?_of_inRange left, ofInt?_of_outside right] at same
        cases same
    · by_cases right : kind.min ≤ n ∧ n ≤ kind.max
      · rw [ofInt?_of_outside left, ofInt?_of_inRange right] at same
        cases same
      · rw [ofInt?_of_outside left, ofInt?_of_outside right] at same
        exact absurd (Except.error.inj same) differ
  · rintro ⟨inRange, rfl⟩
    rw [ofInt?_of_inRange inRange]
    rfl

namespace Expr

open DateTime (Made)

variable {ctx : EvalContext} {target : Expr} {type : Ty} {moment : DateTime}

theorem evaluate_ticks (isMoment : target.evaluate ctx = .ok (.dateTime moment)) :
    (member type target "Ticks").evaluate ctx = Value.ticks moment := by
  rw [evaluate, isMoment]
  change Value.ofMember target.type "Ticks" (.dateTime moment) = _
  simp only [Value.ofMember, Value.ofOwnMember, Value.ofDateTimeMember]
  simp

/-- The ticks of a moment are those in the whole microseconds between the first moment of year 1 and
the moment, at most ten more or fewer than there are, or the evaluation is aborted because they do
not fit 64 bits.  They are the exact number if and only if it fits and none is lost, and where it
does not fit there is no failure that says so. -/
theorem ticks_of_made (present : ctx.now.InCalendar) (made : Made ctx.now moment)
    (isMoment : target.evaluate ctx = .ok (.dateTime moment)) :
    ((∃ inRange, (member type target "Ticks").evaluate ctx =
          .ok (.integral ⟨.int64, moment.countedTicks, inRange⟩)) ∨
        ¬ (IntKind.int64.min ≤ moment.countedTicks ∧ moment.countedTicks ≤ IntKind.int64.max) ∧
          (member type target "Ticks").evaluate ctx = .error .aborted) ∧
      (moment.countedTicks - moment.wholeTicks).natAbs ≤ 10 ∧
      ((member type target "Ticks").evaluate ctx = moment.exactTicks ↔
        moment.HasTicks ∧ moment.CountsEach) := by
  have outcome := (made.inCalendar present).ticks_eq
  rw [evaluate_ticks isMoment, outcome]
  have differ : EvalError.aborted ≠ .overflow "Ticks" := EvalError.noConfusion
  have exact_iff :=
    Value.require_ofInt?_eq_iff .int64 differ moment.countedTicks moment.wholeTicks
  rw [moment.countedTicks_eq_iff] at exact_iff
  refine ⟨?_, moment.countedTicks_near, exact_iff⟩
  by_cases counted : IntKind.int64.min ≤ moment.countedTicks ∧
      moment.countedTicks ≤ IntKind.int64.max
  · rw [Value.ofInt?_of_inRange counted]
    exact .inl ⟨counted, rfl⟩
  · rw [Value.ofInt?_of_outside counted]
    exact .inr ⟨counted, rfl⟩

section Example

/-- A moment as a constant. -/
def ofMoment (moment : DateTime) : Expr := ofValue .dateTime (.dateTime moment)

/-- The last microsecond before noon of the first of March of the year 2024. -/
def beforeNoon : DateTime := ⟨738945, 43199, 999999000⟩

theorem ticks_of_made_beforeNoon :
    DateTime.ofText? "2024-03-01T11:59:59.999999" = some beforeNoon ∧
      (member .int64 (ofMoment beforeNoon) "Ticks").evaluate (.initial .minValue) =
        .ok (.integral ⟨.int64, 638448911999999990, by decide⟩) := by
  have read : DateTime.ofText? "2024-03-01T11:59:59.999999" = some beforeNoon := by decide +kernel
  have present : DateTime.minValue.InCalendar :=
    DateTime.midnight_inCalendar (by decide) (by decide)
  have hasTicks : beforeNoon.HasTicks := by unfold DateTime.HasTicks; decide
  have isMoment : (ofMoment beforeNoon).evaluate (.initial .minValue) =
      .ok (.dateTime beforeNoon) := rfl
  have counted : (member .int64 (ofMoment beforeNoon) "Ticks").evaluate (.initial .minValue) =
      beforeNoon.exactTicks :=
    (ticks_of_made present (.text read) isMoment).2.2.mpr ⟨hasTicks, .inl (by decide)⟩
  refine ⟨read, counted.trans ?_⟩
  rw [DateTime.exactTicks, Value.ofInt?_of_inRange hasTicks]
  rfl

/-- A ten-millionth of a second after the first moment of year 1 is a tick, which is not counted. -/
theorem ticks_first_lost :
    ∃ moment, DateTime.ofText? "0001-01-01T00:00:00.0000001" = some moment ∧
      moment.wholeTicks = 1 ∧ Value.ticks moment = .ok (.integral ⟨.int64, 0, by decide⟩) :=
  ⟨⟨0, 0, 100⟩, by decide +kernel, by decide, rfl⟩

/-- The ticks up to the year 30000 do not fit, which is not reported as an overflow. -/
theorem ticks_late_aborted :
    ∃ moment, DateTime.ofText? "+30000-01-01T00:00:00" = some moment ∧
      ¬ moment.HasTicks ∧ Value.ticks moment = .error .aborted :=
  ⟨⟨10956909, 0, 0⟩, by decide +kernel, by unfold DateTime.HasTicks; decide, rfl⟩

end Example

end Expr

end QueryTree
