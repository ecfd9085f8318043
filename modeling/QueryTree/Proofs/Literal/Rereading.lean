import QueryTree.Proofs.Literal.Integer
import QueryTree.Proofs.Membership.Widening

/-!
# Integer literals as values of other types

The constant of an integer literal is promoted to a type by reading its text again as a value of
this type.  Without letters that choose a width this succeeds wherever the type has room for the
number, and never makes it another number; with such letters there is no other reading, so that only
an implicit conversion is left.
-/

namespace QueryTree

open Literal (integerChars signed isDigit_noSign)

section Reading

variable {digits letters : List Char} {d c : Char} {rest : List Char} {negative : Bool}

/-- The characters of an integer literal are a minus sign, digits and letters. -/
theorem mem_integerChars (each : digits.all Char.isDigit = true)
    (isLetter : ∀ c ∈ letters, c = 'U' ∨ c = 'L')
    (member : c ∈ integerChars negative digits letters) :
    c = '-' ∨ c.isDigit = true ∨ c = 'U' ∨ c = 'L' := by
  rcases List.mem_append.mp member with sign | member
  · cases negative <;> simp_all
  · rcases List.mem_append.mp member with member | member
    · exact .inr (.inl (List.all_eq_true.mp each c member))
    · exact .inr (.inr (isLetter c member))

namespace Numeral

theorem digits?_toDigits (n : Nat) : digits? 10 (Nat.toDigits 10 n) = some n := by
  rw [digits?_ten Nat.toDigits_ne_nil, if_pos (all_isDigit_toDigits n),
    Nat.ofDigitChars_ten_toDigits]

/-- Digits with a sign are read as the digits are. -/
theorem signed?_integerChars (isDigit : d.isDigit = true) (negative : Bool) :
    signed? (integerChars negative (d :: digits) letters) =
      (digits? 10 (d :: digits ++ letters)).map (signed negative) := by
  obtain ⟨noMinus, noPlus⟩ := isDigit_noSign isDigit
  cases negative with
  | true =>
      change signed? ('-' :: (d :: digits ++ letters)) = _
      rw [signed?]
      cases digits? 10 (d :: digits ++ letters) <;> rfl
  | false =>
      change signed? (d :: digits ++ letters) = _
      unfold signed? unsigned?
      split
      next same => exact absurd (List.cons.inj same).1 noMinus
      next =>
        split
        next same => exact absurd (List.cons.inj same).1 noPlus
        next => cases digits? 10 (d :: digits ++ letters) <;> rfl

end Numeral

namespace Decimal

theorem le_ofDigitChars (digits : List Char) (n : Nat) : n ≤ Nat.ofDigitChars 10 digits n := by
  induction digits generalizing n with
  | nil => exact Nat.le_refl n
  | cons d digits ih =>
      rw [Nat.ofDigitChars_cons]
      have longer := ih (10 * n + (d.toNat - '0'.toNat))
      omega

/-- Digits are read as their number while there is room for it. -/
theorem run_digits (crowded : Bool) (each : digits.all Char.isDigit = true) (n : Nat)
    (hasDigit : Bool) (bound : Nat.ofDigitChars 10 digits n < coefficientBound) :
    Reading.run crowded ⟨n, 0, false, hasDigit⟩ digits =
      some ⟨Nat.ofDigitChars 10 digits n, 0, false, hasDigit || !digits.isEmpty⟩ := by
  induction digits generalizing n hasDigit with
  | nil => simp [Reading.run]
  | cons d digits ih =>
      obtain ⟨isDigit, more⟩ := (Bool.and_eq_true _ _).mp each
      have zero : '0'.toNat = 48 := rfl
      rw [Nat.ofDigitChars_cons, zero] at bound ⊢
      have room : 10 * n + (d.toNat - 48) < coefficientBound :=
        Nat.lt_of_le_of_lt (le_ofDigitChars digits _) bound
      simp [Reading.run, isDigit, Nat.mul_comm n, room, ih more _ true bound]

/-- Nothing but digits, points and underscores is read. -/
theorem run_letters (crowded : Bool) (each : digits.all Char.isDigit = true) (n : Nat)
    (hasDigit : Bool) (isLetter : c = 'U' ∨ c = 'L') (rest : List Char) :
    Reading.run crowded ⟨n, 0, false, hasDigit⟩ (digits ++ c :: rest) = none := by
  induction digits generalizing n hasDigit with
  | nil => rcases isLetter with rfl | rfl <;> simp [Reading.run]
  | cons d digits ih =>
      obtain ⟨isDigit, more⟩ := (Bool.and_eq_true _ _).mp each
      simp [Reading.run, isDigit, ih more]

theorem ofPositional?_integerChars (isDigit : d.isDigit = true) (negative : Bool) :
    ofPositional? (String.ofList (integerChars negative (d :: digits) letters)) =
      (Reading.run
        (18 ≤ (String.ofList (integerChars negative (d :: digits) letters)).utf8ByteSize)
        ⟨0, 0, false, false⟩ (d :: digits ++ letters)).bind fun reading =>
          if reading.hasDigit then some (ofParts negative reading.coefficient reading.places)
          else none := by
  obtain ⟨noMinus, noPlus⟩ := isDigit_noSign isDigit
  cases negative with
  | true => rw [ofPositional?, String.toList_ofList]; rfl
  | false =>
      have plain : integerChars false (d :: digits) letters = d :: digits ++ letters := rfl
      rw [ofPositional?, String.toList_ofList, plain]
      simp only
      split
      next same => exact absurd (List.cons.inj same).1 noMinus
      next same => exact absurd (List.cons.inj same).1 noPlus
      next => rfl

/-- The digits of a number with a sign are read as this number if there is room for it. -/
theorem ofText?_digits (negative : Bool) {n : Nat} (bound : n < coefficientBound) :
    ofText? (String.ofList (integerChars negative (Nat.toDigits 10 n) [])) =
      some (ofParts negative n 0) := by
  obtain ⟨d, digits, digits_eq, isDigit⟩ := (Numeral.spelled_toDigits n).exists_cons
  have each := Numeral.all_isDigit_toDigits n
  have worth : Nat.ofDigitChars 10 (Nat.toDigits 10 n) 0 = n := Nat.ofDigitChars_ten_toDigits
  rw [digits_eq] at each worth ⊢
  have reading := run_digits
    (18 ≤ (String.ofList (integerChars negative (d :: digits) [])).utf8ByteSize) each 0 false
    (worth.symm ▸ bound)
  rw [ofText?, ofPositional?_integerChars isDigit, List.append_nil, reading, worth]
  rfl

/-- Letters that choose a width are no part of a decimal number. -/
theorem ofText?_letters (negative : Bool) (isDigit : d.isDigit = true)
    (each : digits.all Char.isDigit = true) (isLetter : ∀ c ∈ letters, c = 'U' ∨ c = 'L')
    (qualified : letters ≠ []) :
    ofText? (String.ofList (integerChars negative (d :: digits) letters)) = none := by
  obtain ⟨c, rest, rfl⟩ := List.exists_cons_of_ne_nil qualified
  have each_digit : (d :: digits).all Char.isDigit = true := by simp [isDigit, each]
  have unmarked : (integerChars negative (d :: digits) (c :: rest)).dropWhile
      (fun c => !(c = 'e' || c = 'E')) = [] := by
    rw [List.dropWhile_eq_nil_iff]
    intro c member
    rcases mem_integerChars each_digit isLetter member with rfl | isDigit | rfl | rfl
    · decide
    · have noMark : c ≠ 'e' ∧ c ≠ 'E' := by
        constructor
        all_goals
          rintro rfl
          cases isDigit
      simp [noMark]
    · decide
    · decide
  have reading := run_letters
    (18 ≤ (String.ofList (integerChars negative (d :: digits) (c :: rest))).utf8ByteSize)
    each_digit 0 false (isLetter c (by simp)) rest
  rw [ofText?, ofPositional?_integerChars isDigit, reading, ofScientific?, String.toList_ofList]
  simp only [unmarked]
  rfl

end Decimal

namespace Numeral

theorem digits?_letters (isLetter : ∀ c ∈ letters, c = 'U' ∨ c = 'L') (qualified : letters ≠ []) :
    digits? 10 (digits ++ letters) = none := by
  obtain ⟨c, rest, rfl⟩ := List.exists_cons_of_ne_nil qualified
  have noDigit : c.isDigit = false := by
    rcases isLetter c (by simp) with rfl | rfl <;> decide
  rw [digits?_ten (by simp)]
  simp [noDigit]

/-- A word that starts with a digit names no value that is not finite. -/
theorem ofList_map_toLower_ne (isDigit : d.isDigit = true) (cs : List Char) :
    let word := String.ofList ((d :: cs).map Char.toLower)
    word ≠ "inf" ∧ word ≠ "infinity" ∧ word ≠ "nan" := by
  have first := of_isHexDigit (fun c => !c.isDigit || c.toLower != 'i' && c.toLower != 'n')
    (by decide +kernel) (isHexDigit_of_isDigit isDigit)
  rw [isDigit, Bool.not_true, Bool.false_or, Bool.and_eq_true, bne_iff_ne, bne_iff_ne] at first
  have head {word : String} (same : String.ofList ((d :: cs).map Char.toLower) = word) :
      word.toList.head? = some d.toLower := by
    rw [← same, String.toList_ofList]
    rfl
  refine ⟨?_, ?_, ?_⟩
  · intro same
    exact first.1 (Option.some.inj (head same)).symm
  · intro same
    exact first.1 (Option.some.inj (head same)).symm
  · intro same
    exact first.2 (Option.some.inj (head same)).symm

/-- Letters that choose a width are no part of a real number. -/
theorem magnitude?_letters (isDigit : d.isDigit = true) (each : digits.all Char.isDigit = true)
    (isLetter : c = 'U' ∨ c = 'L') (rest : List Char) :
    magnitude? (d :: digits ++ c :: rest) = none := by
  have noDigit : c.isDigit = false := by rcases isLetter with rfl | rfl <;> decide
  have each : (d :: digits).all Char.isDigit = true := by simp [isDigit, each]
  have ends : ∀ next ∈ (c :: rest).head?, next.isDigit = false := by simpa using noDigit
  obtain ⟨whole, behind⟩ := Text.span_append each ends
  obtain ⟨noInf, noInfinity, noNan⟩ := ofList_map_toLower_ne isDigit (digits ++ c :: rest)
  have noExponent : exponent? (c :: rest) = none := by
    rcases isLetter with rfl | rfl <;> rfl
  rw [magnitude?, whole, behind]
  simp only [List.cons_append, noInf, noInfinity, noNan, if_false]
  rcases isLetter with rfl | rfl <;> simp [fraction?, noExponent]

/-- Digits are read as a real number with the sign before them. -/
theorem real?_integerChars (isDigit : d.isDigit = true) (negative : Bool) :
    real? (integerChars negative (d :: digits) letters) =
      (magnitude? (d :: digits ++ letters)).map (negative, ·) := by
  obtain ⟨noMinus, noPlus⟩ := isDigit_noSign isDigit
  cases negative with
  | true => rfl
  | false =>
      change real? (d :: digits ++ letters) = _
      unfold real?
      split
      next same => exact absurd (List.cons.inj same).1 noMinus
      next same => exact absurd (List.cons.inj same).1 noPlus
      next => rfl

theorem real?_letters (negative : Bool) (isDigit : d.isDigit = true)
    (each : digits.all Char.isDigit = true) (isLetter : ∀ c ∈ letters, c = 'U' ∨ c = 'L')
    (qualified : letters ≠ []) : real? (integerChars negative (d :: digits) letters) = none := by
  obtain ⟨c, rest, rfl⟩ := List.exists_cons_of_ne_nil qualified
  rw [real?_integerChars isDigit, magnitude?_letters isDigit each (isLetter c (by simp)) rest]
  rfl

end Numeral

end Reading

/-- The types that the text of an integer may be read as, null aside: whole and decimal numbers, and
the members of enumerations. -/
inductive Ty.TakesIntegers : Ty → Prop where
  | integral (kind : IntKind) : TakesIntegers (.integral kind)
  | decimal : TakesIntegers .decimal
  | enum {e : EnumType} (plain : e.lifted = false) : TakesIntegers (.enum e)

/-- Whether an integer is in the range of a type; the members of an enumeration are held in 64 bits
as well. -/
def Ty.holds : Ty → Int → Bool
  | .integral kind, z => kind.holds z
  | .decimal, z => z.natAbs < Decimal.coefficientBound
  | .enum e, z => e.underlying.holds z && IntKind.int64.holds z
  | _, _ => false

/-- A value is an integer in a type. -/
inductive Value.IsInteger (z : Int) : Ty → Value → Prop where
  | integral {kind : IntKind} (inRange : kind.min ≤ z ∧ z ≤ kind.max) :
      IsInteger z (.integral kind) (.integral ⟨kind, z, inRange⟩)
  | decimal : IsInteger z .decimal (.decimal ⟨z < 0, z.natAbs, 0⟩)
  | enum {e : EnumType} : IsInteger z (.enum e) (.enum e z)

namespace Literal

variable {t : Ty} {z : Int}

theorem toString_eq (z : Int) :
    toString z = String.ofList (integerChars (z < 0) (Nat.toDigits 10 z.natAbs) []) := by
  rw [← toString_append z []]
  exact String.append_empty.symm

theorem int?_toString (z : Int) : Numeral.int? (toString z) = some z := by
  obtain ⟨d, digits, digits_eq, isDigit⟩ := (Numeral.spelled_toDigits z.natAbs).exists_cons
  have magnitude := Numeral.digits?_toDigits z.natAbs
  rw [digits_eq] at magnitude
  rw [toString_eq, Numeral.int?, String.toList_ofList, digits_eq,
    Numeral.signed?_integerChars isDigit, List.append_nil, magnitude]
  exact congrArg some (signed_natAbs z)

theorem decimal?_toString (bound : z.natAbs < Decimal.coefficientBound) :
    Decimal.ofText? (toString z) = some ⟨z < 0, z.natAbs, 0⟩ := by
  have sign : (decide (z < 0) && z.natAbs != 0) = decide (z < 0) := by
    by_cases isNegative : z < 0 <;> simp [isNegative]
    omega
  rw [toString_eq, Decimal.ofText?_digits _ bound, Decimal.ofParts, sign]

theorem integral?_toString (z : Int) (kind : IntKind) :
    (kind.holds z = true ∧ ∃ inRange,
      number?.integral? (toString z) kind = some (.integral ⟨kind, z, inRange⟩)) ∨
      kind.holds z = false ∧ number?.integral? (toString z) kind = none := by
  have reading : number?.integral? (toString z) kind =
      (Integer.ofInt? kind z).map .integral := by
    rw [number?.integral?, int?_toString]
    rfl
  rw [reading, Integer.ofInt?]
  cases holds : kind.holds z with
  | true =>
      have inRange := IntKind.holds_iff.mp holds
      rw [dif_pos inRange]
      exact .inl ⟨rfl, inRange, rfl⟩
  | false =>
      have outside : ¬ (kind.min ≤ z ∧ z ≤ kind.max) := by
        rw [← IntKind.holds_iff, holds]
        decide
      rw [dif_neg outside]
      exact .inr ⟨rfl, rfl⟩

/-- The text of an integer is read as it in every type that has room for it. -/
theorem number?_toString (takes : t.TakesIntegers)
    (bound : z.natAbs < Decimal.coefficientBound) :
    (t.holds z = true ∧ ∃ value, number? (toString z) t = some value ∧ value.IsInteger z t) ∨
      t.holds z = false ∧ number? (toString z) t = none := by
  cases takes with
  | integral kind =>
      rcases integral?_toString z kind with ⟨holds, inRange, reading⟩ | ⟨outside, unread⟩
      · exact .inl ⟨holds, _, reading, .integral inRange⟩
      · exact .inr ⟨outside, unread⟩
  | decimal =>
      have reading : number? (toString z) .decimal =
          some (.decimal ⟨z < 0, z.natAbs, 0⟩) := by
        rw [number?, decimal?_toString bound]
        rfl
      exact .inl ⟨decide_eq_true bound, _, reading, .decimal⟩
  | @enum e plain =>
      have unlifted : number? (toString z) (.enum e) =
          (number?.integral? (toString z) e.underlying).bind fun value =>
            value.toInt?.bind fun n => Value.ofInt? (.enum e) n := by
        simp only [number?, plain, Bool.false_eq_true, if_false]
      rw [unlifted, Ty.holds]
      rcases integral?_toString z e.underlying with ⟨holds, inRange, reading⟩ | ⟨outside, unread⟩
      · rw [holds, Bool.true_and, reading]
        change (IntKind.int64.holds z = true ∧
          ∃ value, (if Value.fitsInt64 z then some (Value.enum e z) else none) = some value ∧ _) ∨
            IntKind.int64.holds z = false ∧
              (if Value.fitsInt64 z then some (Value.enum e z) else none) = none
        have same : Value.fitsInt64 z = IntKind.int64.holds z := rfl
        rw [same]
        cases IntKind.int64.holds z with
        | true => exact .inl ⟨rfl, _, rfl, .enum⟩
        | false => exact .inr ⟨rfl, rfl⟩
      · rw [outside, unread]
        exact .inr ⟨rfl, rfl⟩

theorem int?_qualified {letters : List Char} (isQualifier : letters ∈ qualifiers)
    (qualified : letters ≠ []) (z : Int) :
    Numeral.int? (toString z ++ String.ofList letters) = none := by
  obtain ⟨d, digits, digits_eq, isDigit⟩ := (Numeral.spelled_toDigits z.natAbs).exists_cons
  rw [toString_append, digits_eq, Numeral.int?, String.toList_ofList,
    Numeral.signed?_integerChars isDigit,
    Numeral.digits?_letters (letter_of_mem isQualifier) qualified]
  rfl

/-- A text with letters that choose a width is no number of any other type. -/
theorem number?_qualified {letters : List Char} (isQualifier : letters ∈ qualifiers)
    (qualified : letters ≠ []) (z : Int) (t : Ty) :
    number? (toString z ++ String.ofList letters) t = none := by
  have int := int?_qualified isQualifier qualified z
  obtain ⟨d, digits, digits_eq, isDigit⟩ := (Numeral.spelled_toDigits z.natAbs).exists_cons
  have each := Numeral.all_isDigit_toDigits z.natAbs
  rw [digits_eq] at each
  have more := ((Bool.and_eq_true _ _).mp each).2
  have isLetter := letter_of_mem isQualifier
  rw [toString_append, digits_eq] at int ⊢
  have real : Numeral.real? (integerChars (z < 0) (d :: digits) letters) = none :=
    Numeral.real?_letters _ isDigit more isLetter qualified
  have decimal := Decimal.ofText?_letters (z < 0) isDigit more isLetter qualified
  have integral (kind : IntKind) : number?.integral?
      (String.ofList (integerChars (z < 0) (d :: digits) letters)) kind = none := by
    rw [number?.integral?, int]
    rfl
  unfold number?
  split
  next => exact integral _
  next =>
    rw [Numeral.single?, String.toList_ofList, real]
    rfl
  next =>
    rw [Numeral.double?, String.toList_ofList, real]
    rfl
  next =>
    rw [decimal]
    rfl
  next =>
    rw [integral]
    split <;> rfl
  next => rfl

end Literal

section Promotion

variable {table : ClassTable} {mode : Promotion} {core target : Ty} {kind : IntKind} {z : Int}
  {e promoted : Expr}

/-- An integral type is compatible with a type of numbers only by widening. -/
theorem Ty.isCompatible_eq_widensTo (takes : core.TakesIntegers)
    (form : target = core ∨ target = .nullable core) :
    (Ty.integral kind).isCompatible table target = (Ty.integral kind).widensTo core := by
  have noClass : target.core.class? = none := by
    cases takes <;> rcases form with rfl | rfl <;> rfl
  have unconverted : hasDeclaredConversion table (.integral kind) target false = false :=
    hasDeclaredConversion_of_undeclared (undeclared_of_class? rfl) (undeclared_of_class? noClass)
  rw [isCompatible, unconverted]
  cases takes with
  | integral wider => rcases form with rfl | rfl <;> cases kind <;> cases wider <;> rfl
  | decimal => rcases form with rfl | rfl <;> cases kind <;> rfl
  | enum => rcases form with rfl | rfl <;> rfl

/-- An integral type widens only to types that have room for its integers. -/
theorem Ty.holds_of_widensTo (takes : core.TakesIntegers)
    (widens : (Ty.integral kind).widensTo core = true) (inRange : kind.min ≤ z ∧ z ≤ kind.max) :
    core.holds z = true := by
  cases takes with
  | integral wider =>
      have bounds := IntKind.bounds_of_widensTo widens
      apply IntKind.holds_iff.mpr
      omega
  | decimal => exact decide_eq_true (Integer.natAbs_lt ⟨kind, z, inRange⟩)
  | enum => cases widens

theorem Ty.TakesIntegers.core_eq (takes : core.TakesIntegers)
    (form : target = core ∨ target = .nullable core) : target.core = core := by
  rcases form with rfl | rfl
  · cases takes <;> rfl
  · rfl

namespace Literal

/-- The constant of an integer literal without letters is promoted to a type if it is in its range,
and to this integer in the type. -/
theorem promote?_unqualified {inRange : kind.min ≤ z ∧ z ≤ kind.max}
    (rereads : ∀ t, Expr.reread? (.integral kind) (toString z) t = number? (toString z) t)
    (takes : core.TakesIntegers) (form : target = core ∨ target = .nullable core) :
    let e : Expr := .constant (.integral kind) (.integral ⟨kind, z, inRange⟩) (some (toString z))
    (core.holds z = true ∧ ∃ promoted value, e.promote? table mode target = some promoted ∧
      promoted.type = target ∧ value.IsInteger z core ∧ ∀ ctx, promoted.evaluate ctx = .ok value) ∨
      core.holds z = false ∧ e.promote? table mode target = none := by
  intro e
  by_cases same : (e.type == target) = true
  · have target_eq : target = .integral kind := Ty.eq_of_same rfl (BEq.symm same)
    have core_eq : core = .integral kind := by
      rw [← takes.core_eq form, target_eq]
      rfl
    have kept : e.promote? table mode target = some e := by rw [Expr.promote?, if_pos same]
    refine .inl ⟨?_, e, .integral ⟨kind, z, inRange⟩, kept, target_eq.symm, ?_, fun _ => rfl⟩
    · rw [core_eq]
      exact IntKind.holds_iff.mpr inRange
    · rw [core_eq]
      exact .integral inRange
  · have bound : z.natAbs < Decimal.coefficientBound := Integer.natAbs_lt ⟨kind, z, inRange⟩
    have reading : Expr.promoteConstant? target e =
        (number? (toString z) core).map
          fun value => .constant target value (some (toString z)) := by
      rw [← rereads, ← takes.core_eq form]
      rfl
    rw [Expr.promote?, if_neg same, reading]
    rcases number?_toString takes bound with ⟨holds, value, found, isInteger⟩ | ⟨outside, missing⟩
    · rw [found]
      exact .inl ⟨holds, _, value, rfl, rfl, isInteger, fun _ => rfl⟩
    · have incompatible : e.type.isCompatible table target = false := by
        change (Ty.integral kind).isCompatible table target = false
        rw [Ty.isCompatible_eq_widensTo takes form]
        by_contra widens
        rw [Bool.not_eq_false] at widens
        rw [Ty.holds_of_widensTo takes widens inRange] at outside
        cases outside
      rw [missing, Expr.promoteByType?, incompatible]
      exact .inr ⟨outside, rfl⟩

/-- The constant of an integer literal with letters is promoted by an implicit conversion only. -/
theorem promote?_qualified {inRange : kind.min ≤ z ∧ z ≤ kind.max} {letters : List Char}
    (isQualifier : letters ∈ qualifiers) (qualified : letters ≠ [])
    (rereads : ∀ text t, Expr.reread? (.integral kind) text t = number? text t)
    (outcome : (Expr.constant (.integral kind) (.integral ⟨kind, z, inRange⟩)
      (some (toString z ++ String.ofList letters))).promote? table mode target = some promoted) :
    (Ty.integral kind).isCompatible table target = true := by
  rcases Expr.promote?_cases outcome with ⟨-, same⟩ | ⟨_, _, constant, -⟩ | ⟨-, compatible⟩ |
    ⟨-, -, -, compatible⟩
  · change (Ty.integral kind == target) = true at same
    simp [Ty.isCompatible, same]
  · have unread : Expr.promoteConstant? target (.constant (.integral kind)
        (.integral ⟨kind, z, inRange⟩) (some (toString z ++ String.ofList letters))) = none := by
      rw [Expr.promoteConstant?, rereads, number?_qualified isQualifier qualified]
      · rfl
      · simp
    cases unread.symm.trans constant
  · exact compatible
  · exact compatible

/-- A literal has one of the four widths for which its text is read again. -/
theorem Narrows.exists_constant {negative : Bool} {letters : List Char} {text : String}
    (isQualifier : letters ∈ qualifiers) (read : Narrows (widths negative letters) z text (.ok e)) :
    ∃ kind inRange, e = .constant (.integral kind) (.integral ⟨kind, z, inRange⟩) (some text) ∧
      ∀ text t, Expr.reread? (.integral kind) text t = number? text t := by
  cases read with
  | @holds kind first inRange =>
      have each : ∀ negative, ∀ letters ∈ qualifiers, ∀ kind ∈ widths negative letters,
          kind ∈ [.int32, .uint32, .int64, .uint64] := by
        decide
      have isWidth := each negative letters isQualifier kind (List.mem_of_find?_eq_some first)
      refine ⟨kind, inRange, rfl, ?_⟩
      intro text t
      simp only [List.mem_cons, List.not_mem_nil, or_false] at isWidth
      rcases isWidth with rfl | rfl | rfl | rfl <;> rfl

/-- The constant of an integer literal without letters that choose a width is promoted to a type, or
to the type with null, if and only if the integer is in the range of the type, and then to this
integer in the type.  With such letters it is promoted only where an implicit conversion leads. -/
theorem promote?_integer {spelling letters : List Char} {n : Nat} {negative : Bool}
    {position : Nat} (spelled : Numeral.Spelled spelling n)
    (qualifies : letters.map Char.toUpper ∈ qualifiers)
    (read : integer (String.ofList (integerChars negative spelling letters)) position = .ok e)
    (table : ClassTable) (mode : Promotion) (target : Ty) :
    let z := signed negative n
    (letters = [] → ∀ core, core.TakesIntegers → target = core ∨ target = .nullable core →
      ((e.promote? table mode target).isSome = true ↔ core.holds z = true) ∧
        ∀ promoted, e.promote? table mode target = some promoted →
          promoted.type = target ∧
            ∃ value, value.IsInteger z core ∧ ∀ ctx, promoted.evaluate ctx = .ok value) ∧
      (letters ≠ [] → ∀ promoted, e.promote? table mode target = some promoted →
        e.type.isCompatible table target = true) := by
  intro z
  have narrows := integer_narrows spelled qualifies negative position
  rw [read] at narrows
  obtain ⟨kind, inRange, rfl, rereads⟩ := narrows.exists_constant qualifies
  refine ⟨?_, ?_⟩
  · rintro rfl core takes form
    rw [List.map_nil, String.ofList_nil, String.append_empty]
    rcases promote?_unqualified (rereads _) takes form with
      ⟨holds, promoted, value, found, isType, isInteger, evaluates⟩ | ⟨outside, missing⟩
    · rw [found, holds]
      refine ⟨by simp, ?_⟩
      intro promoted' same
      cases same
      exact ⟨isType, value, isInteger, evaluates⟩
    · rw [missing, outside]
      exact ⟨by simp, by simp⟩
  · intro qualified promoted outcome
    have upper : letters.map Char.toUpper ≠ [] := by simpa using qualified
    exact promote?_qualified qualifies upper rereads outcome

theorem promote?_integer_byte :
    let e : Expr := .constant .int32 (.integral ⟨.int32, 255, by decide⟩) (some "255")
    integer (String.ofList (integerChars false ['0', 'x', 'f', 'F'] [])) 0 = .ok e ∧
      ∃ promoted, e.promote? .initial .argument (.nullable (.integral .byte)) = some promoted ∧
        promoted.type = .nullable (.integral .byte) ∧
        ∃ value, value.IsInteger 255 (.integral .byte) ∧
          ∀ ctx, promoted.evaluate ctx = .ok value := by
  intro e
  have spelled : Numeral.Spelled ['0', 'x', 'f', 'F'] 255 :=
    .hexadecimal (.inl rfl) (by decide) (by decide)
  have read : integer (String.ofList (integerChars false ['0', 'x', 'f', 'F'] [])) 0 = .ok e := rfl
  have qualifies : ([] : List Char).map Char.toUpper ∈ qualifiers := by decide
  obtain ⟨isSome, promotes⟩ := (promote?_integer spelled qualifies read .initial .argument
    (.nullable (.integral .byte))).1 rfl _ (.integral .byte) (.inr rfl)
  obtain ⟨promoted, found⟩ := Option.isSome_iff_exists.mp (isSome.mpr (by decide))
  exact ⟨read, promoted, found, promotes promoted found⟩

end Literal

end Promotion

end QueryTree
