import QueryTree.Expr.Literal
import QueryTree.Proofs.Print.Word

/-!
# Integer literals

Every spelling of a number, in base ten or sixteen, with or without a minus sign and with or without
letters that choose its width, is read as a constant of this number: in the first of the widths
to choose from that holds it, if there is one.  The text that the constant keeps is read as the same
constant again.
-/

/-!
## Digits

Which numbers digits in base ten and in base sixteen stand for, and that digits are read as these
numbers and nothing else is.
-/

namespace QueryTree.Numeral

open Lexeme (isHexDigit)

variable {c : Char} {cs : List Char} {base n : Nat}

/-- The place of a hexadecimal digit, in either case, among all of them. -/
def hexDigitValue (c : Char) : Nat := "0123456789abcdef".toList.idxOf c.toLower

/-- The number that hexadecimal digits stand for, the most significant one first. -/
def hexValue (digits : List Char) : Nat := digits.foldl (fun n c => 16 * n + hexDigitValue c) 0

/-- The code points of the hexadecimal digits. -/
def hexIntervals : Text.Intervals := [(48, 57), (65, 70), (97, 102)]

/-- What holds of sixteen digits, six of them in both cases, holds of every hexadecimal digit. -/
theorem of_isHexDigit (holds : Char → Bool)
    (each : (hexIntervals.codes.all fun code => holds (Char.ofNat code)) = true)
    (hexadecimal : isHexDigit c = true) : holds c = true := by
  have inside : hexIntervals.contains c.toNat = true := by
    simp only [isHexDigit, Char.isDigit, Bool.or_eq_true, Bool.and_eq_true, decide_eq_true_eq,
      Char.le_def, ge_iff_le, UInt32.le_iff_toNat_le] at hexadecimal
    simp only [hexIntervals, Text.Intervals.contains, List.any_cons, List.any_nil, Bool.or_false,
      Bool.or_eq_true, Bool.and_eq_true, decide_eq_true_eq]
    obtain (digit | small) | capital := hexadecimal
    · exact .inl digit
    · exact .inr (.inr small)
    · exact .inr (.inl capital)
  have holds_code := List.all_eq_true.mp each _ (Text.Intervals.mem_codes inside)
  rwa [Char.ofNat_toNat] at holds_code

theorem isHexDigit_of_isDigit (isDigit : c.isDigit = true) : isHexDigit c = true := by
  simp [isHexDigit, isDigit]

/-- A hexadecimal digit is no part of the syntax of literals. -/
theorem isHexDigit_excludes (hexadecimal : isHexDigit c = true) :
    c ≠ '\\' ∧ c ≠ '"' ∧ c ≠ '\'' ∧ c ≠ '+' := by
  have other := of_isHexDigit (fun c => !(['\\', '"', '\'', '+'].contains c)) (by decide +kernel)
    hexadecimal
  simpa using other

theorem digitValue?_ten (c : Char) :
    digitValue? 10 c = if c.isDigit then some (c.toNat - '0'.toNat) else none := by
  have isDigit_eq : c.isDigit = ('0' ≤ c && c ≤ '9' : Bool) := rfl
  cases isDigit : c.isDigit with
  | true =>
      have bound : c.toNat ≤ 57 := by
        simp only [isDigit_eq, Bool.and_eq_true, decide_eq_true_eq] at isDigit
        exact isDigit.2
      have small : c.toNat - '0'.toNat < 10 := by
        change c.toNat - 48 < 10
        omega
      simp only [digitValue?, ← isDigit_eq, isDigit, if_true]
      exact if_pos (decide_eq_true small)
  | false =>
      simp only [digitValue?, ← isDigit_eq, isDigit, Bool.false_eq_true, if_false]
      split
      next letter =>
        have bound : 97 ≤ c.toNat := by
          simp only [Bool.and_eq_true, decide_eq_true_eq] at letter
          exact letter.1
        exact if_neg (by simp; omega)
      next =>
        split
        next letter =>
          have bound : 65 ≤ c.toNat := by
            simp only [Bool.and_eq_true, decide_eq_true_eq] at letter
            exact letter.1
          exact if_neg (by simp; omega)
        next => rfl

theorem digitValue?_sixteen (c : Char) :
    digitValue? 16 c = if isHexDigit c then some (hexDigitValue c) else none := by
  cases hexadecimal : isHexDigit c with
  | true =>
      have worth := of_isHexDigit (fun c => digitValue? 16 c == some (hexDigitValue c))
        (by decide +kernel) hexadecimal
      simpa using worth
  | false =>
      have isDigit_eq : c.isDigit = ('0' ≤ c && c ≤ '9' : Bool) := rfl
      simp only [isHexDigit, Bool.or_eq_false_iff] at hexadecimal
      obtain ⟨⟨noDigit, noSmall⟩, noCapital⟩ := hexadecimal
      simp only [digitValue?, ← isDigit_eq, noDigit, noSmall, noCapital, Bool.false_eq_true,
        if_false]
      rfl

/-- Characters are read as digits if all of them are digits. -/
theorem digitsFrom?_eq {isDigit : Char → Bool} {worth : Char → Nat}
    (digit : ∀ c, digitValue? base c = if isDigit c then some (worth c) else none) (cs : List Char)
    (before : Nat) :
    digitsFrom? base before cs =
      if cs.all isDigit then some (cs.foldl (fun n c => base * n + worth c) before) else none := by
  induction cs generalizing before with
  | nil => rfl
  | cons c cs ih =>
      rw [digitsFrom?, digit c]
      cases first : isDigit c with
      | false => simp [first]
      | true => simp [first, ih, Nat.mul_comm base]

theorem digits?_ten (nonempty : cs ≠ []) :
    digits? 10 cs = if cs.all Char.isDigit then some (Nat.ofDigitChars 10 cs 0) else none := by
  rw [digits?, if_neg (by simpa using nonempty), digitsFrom?_eq digitValue?_ten,
    Nat.ofDigitChars_eq_foldl]

theorem digits?_sixteen (nonempty : cs ≠ []) :
    digits? 16 cs = if cs.all isHexDigit then some (hexValue cs) else none := by
  rw [digits?, if_neg (by simpa using nonempty), digitsFrom?_eq digitValue?_sixteen]
  rfl

/-- Digits are read in the same way where a plus sign may come before them. -/
theorem unsigned?_of_digits (digits : cs.all isHexDigit = true) :
    unsigned? base cs = digits? base cs := by
  unfold unsigned?
  split
  next => cases digits
  next => rfl

end QueryTree.Numeral

namespace QueryTree

/-- Whether an integer is one of a width. -/
def IntKind.holds (kind : IntKind) (z : Int) : Bool := kind.min ≤ z && z ≤ kind.max

theorem IntKind.holds_iff {kind : IntKind} {z : Int} :
    kind.holds z = true ↔ kind.min ≤ z ∧ z ≤ kind.max := by
  simp [holds]

theorem IntKind.natAbs_lt_of_holds {kind : IntKind} {z : Int} (holds : kind.holds z = true) :
    z.natAbs < Nat.pow 2 64 := by
  rw [holds_iff] at holds
  have bound : Nat.pow 2 64 = 18446744073709551616 := rfl
  cases kind <;> simp [min, max, isSigned, card] at holds <;> omega

namespace Numeral

open Lexeme (isHexDigit)

/-- Digits that spell a natural number: in base ten, or in base sixteen behind a mark. -/
inductive Spelled : List Char → Nat → Prop where
  | decimal {digits : List Char} (nonempty : digits ≠ [])
      (each : digits.all Char.isDigit = true) : Spelled digits (Nat.ofDigitChars 10 digits 0)
  | hexadecimal {mark : Char} {digits : List Char} (isMark : mark = 'x' ∨ mark = 'X')
      (nonempty : digits ≠ []) (each : digits.all isHexDigit = true) :
      Spelled ('0' :: mark :: digits) (hexValue digits)

variable {spelling : List Char} {n : Nat}

theorem all_isDigit_toDigits (n : Nat) : (Nat.toDigits 10 n).all Char.isDigit = true := by
  rw [List.all_eq_true]
  intro c member
  exact Nat.isDigit_of_mem_toDigits (by decide) (by decide) member

theorem spelled_toDigits (n : Nat) : Spelled (Nat.toDigits 10 n) n := by
  have spelled := Spelled.decimal Nat.toDigits_ne_nil (all_isDigit_toDigits n)
  rwa [Nat.ofDigitChars_ten_toDigits] at spelled

/-- The text of an integer is a minus sign, if it is negative, and digits. -/
theorem toList_toString (z : Int) :
    (toString z).toList = (if z < 0 then ['-'] else []) ++ Nat.toDigits 10 z.natAbs := by
  cases z with
  | ofNat n => exact Nat.toList_repr
  | negSucc n =>
      have text : toString (Int.negSucc n) = "-" ++ Nat.repr (n + 1) := rfl
      rw [text, String.toList_append, Nat.toList_repr, if_pos (Int.negSucc_lt_zero n)]
      rfl

/-- A spelling starts with a digit. -/
theorem Spelled.exists_cons (spelled : Spelled spelling n) :
    ∃ d rest, spelling = d :: rest ∧ d.isDigit = true := by
  cases spelled with
  | decimal nonempty each =>
      obtain ⟨d, rest, rfl⟩ := List.exists_cons_of_ne_nil nonempty
      exact ⟨d, rest, rfl, ((Bool.and_eq_true _ _).mp each).1⟩
  | hexadecimal => exact ⟨_, _, rfl, by decide⟩

end Numeral

namespace Literal

open Lexeme (isHexDigit isIntegerQualifier)
open Numeral (Spelled)

/-- The letters that may end an integer literal, in upper case. -/
def qualifiers : List (List Char) := [[], ['U'], ['L'], ['U', 'L'], ['L', 'U']]

/-- The widths that an integer literal may have, by its sign and its letters. -/
def widths : Bool → List Char → List IntKind
  | false, [] => [.int32, .uint32, .int64, .uint64]
  | false, ['U'] => [.uint32]
  | false, ['L'] => [.int64]
  | false, ['U', 'L'] | false, ['L', 'U'] => [.uint64]
  | true, [] => [.int32, .int64]
  | true, ['L'] => [.int64]
  | _, _ => []

/-- A natural number or its opposite. -/
def signed (negative : Bool) (n : Nat) : Int := if negative then -n else n

/-- The characters of an integer literal with the minus sign before it. -/
def integerChars (negative : Bool) (spelling letters : List Char) : List Char :=
  (if negative then ['-'] else []) ++ (spelling ++ letters)

/-- What is read where an integer is written: a constant in the first of some widths that holds it,
or an error if none of them does. -/
inductive Narrows (kinds : List IntKind) (z : Int) (text : String) :
    Except CompileError Expr → Prop where
  | holds {kind : IntKind} (first : kinds.find? (·.holds z) = some kind)
      (inRange : kind.min ≤ z ∧ z ≤ kind.max) :
      Narrows kinds z text
        (.ok (.constant (.integral kind) (.integral ⟨kind, z, inRange⟩) (some text)))
  | exceeds {error : CompileError} (none : kinds.find? (·.holds z) = none) :
      Narrows kinds z text (.error error)

variable {spelling letters digits : List Char} {n : Nat} {negative : Bool}

section Letters

/-- A character that is not in upper case is thirty-two places behind that one. -/
theorem toUpper_cases (c : Char) : c.toUpper = c ∨ c.toNat = c.toUpper.toNat + 32 := by
  unfold Char.toUpper
  split
  next small =>
    right
    have least : 97 ≤ c.val.toNat := UInt32.le_iff_toNat_le.mp small.1
    have greatest : c.val.toNat ≤ 122 := UInt32.le_iff_toNat_le.mp small.2
    simp only [Char.toNat, UInt32.toNat_add]
    change c.val.toNat = (c.val.toNat + 4294967264) % 4294967296 + 32
    omega
  next => exact .inl rfl

theorem isIntegerQualifier_of_toUpper {c : Char} (upper : c.toUpper = 'U' ∨ c.toUpper = 'L') :
    isIntegerQualifier c = true := by
  rcases toUpper_cases c with same | small
  · rw [same] at upper
    rcases upper with rfl | rfl <;> decide
  · rcases upper with upper | upper
    · have isLetter : c = 'u' := Char.toNat_inj.mp (by rw [small, upper]; rfl)
      rw [isLetter]
      decide
    · have isLetter : c = 'l' := Char.toNat_inj.mp (by rw [small, upper]; rfl)
      rw [isLetter]
      decide

/-- Two letters choose a width, for an unsigned and for a long number. -/
theorem letter_of_mem (isQualifier : letters ∈ qualifiers) : ∀ c ∈ letters, c = 'U' ∨ c = 'L' := by
  simp only [qualifiers, List.mem_cons, List.not_mem_nil, or_false] at isQualifier
  rcases isQualifier with rfl | rfl | rfl | rfl | rfl <;> simp

theorem isIntegerQualifier_of_mem (qualifies : letters.map Char.toUpper ∈ qualifiers) :
    letters.all isIntegerQualifier = true := by
  rw [List.all_eq_true]
  intro c member
  exact isIntegerQualifier_of_toUpper (letter_of_mem qualifies _ (List.mem_map_of_mem member))

/-- A letter that qualifies an integer is no digit and no mark of a base. -/
theorem isIntegerQualifier_excludes {c : Char} (qualifies : isIntegerQualifier c = true) :
    isHexDigit c = false ∧ c ≠ 'x' ∧ c ≠ 'X' ∧ "UuLlFfDdMm".toList.contains c = true := by
  have isLetter : c = 'U' ∨ c = 'u' ∨ c = 'L' ∨ c = 'l' := by
    simpa [isIntegerQualifier] using qualifies
  rcases isLetter with rfl | rfl | rfl | rfl <;> decide

theorem isDigit_noSign {c : Char} (isDigit : c.isDigit = true) : c ≠ '-' ∧ c ≠ '+' := by
  constructor
  all_goals
    rintro rfl
    cases isDigit

theorem isDigit_excludes {c : Char} (isDigit : c.isDigit = true) :
    "UuLlFfDdMm".toList.contains c = false ∧ c ≠ 'x' ∧ c ≠ 'X' := by
  have other := Numeral.of_isHexDigit
    (fun c => !c.isDigit || !("UuLlFfDdMm".toList.contains c) && c != 'x' && c != 'X')
    (by decide +kernel) (Numeral.isHexDigit_of_isDigit isDigit)
  rw [isDigit, Bool.not_true, Bool.false_or] at other
  simpa only [Bool.and_eq_true, Bool.not_eq_true', bne_iff_ne, and_assoc] using other

end Letters

/-- Letters behind digits are split from them. -/
theorem splitQualifier_append {isQualifier : Char → Bool}
    (qualify : letters.all isQualifier = true)
    (digits_end : ∀ c ∈ digits.getLast?, isQualifier c = false) :
    splitQualifier isQualifier (digits ++ letters) = (digits, letters.map Char.toUpper) := by
  have found : (digits ++ letters).reverse.takeWhile isQualifier = letters.reverse := by
    rw [List.reverse_append]
    apply (Text.span_append ?_ ?_).1
    · rwa [List.all_reverse]
    · rwa [List.head?_reverse]
  simp only [splitQualifier, found]
  simp

/-- Digits without a mark behind them are in base ten. -/
theorem unmarked_of_isDigit {following : List Char} (each : digits.all Char.isDigit = true)
    (behind : ∀ c ∈ following, c ≠ 'x' ∧ c ≠ 'X') {mark : Char} {rest : List Char}
    (same : digits ++ following = '0' :: mark :: rest) : mark ≠ 'x' ∧ mark ≠ 'X' := by
  have member : mark ∈ digits ++ following := by simp [same]
  rcases List.mem_append.mp member with member | member
  · exact (isDigit_excludes (List.all_eq_true.mp each mark member)).2
  · exact behind mark member

theorem ofChars_decimal {body : List Char} (noSign : body.head? ≠ some '-')
    (unmarked : ∀ mark rest, body = '0' :: mark :: rest → mark ≠ 'x' ∧ mark ≠ 'X') :
    IntegerParts.ofChars ((if negative then ['-'] else []) ++ body) =
      IntegerParts.ofChars.plain negative body := by
  have plain {negative : Bool} {cs : List Char} (sign : (cs.head? == some '-') = negative)
      (rest : (if negative then cs.drop 1 else cs) = body) :
      IntegerParts.ofChars cs = IntegerParts.ofChars.plain negative body := by
    simp only [IntegerParts.ofChars, sign, rest]
    split
    next x first others =>
      obtain ⟨noSmall, noCapital⟩ := unmarked x (first :: others) rfl
      simp [noSmall, noCapital]
    next => rfl
  cases negative with
  | false => exact plain (by simpa using noSign) rfl
  | true => exact plain rfl rfl

theorem ofChars_hexadecimal {mark : Char} (isMark : mark = 'x' ∨ mark = 'X') (negative : Bool)
    (d : Char) (rest : List Char) :
    IntegerParts.ofChars ((if negative then ['-'] else []) ++ '0' :: mark :: d :: rest) =
      let (digits, qualifier) := splitQualifier isIntegerQualifier (d :: rest)
      ⟨negative, true, digits, qualifier⟩ := by
  have marked : (mark = 'x' || mark = 'X') = true := by simpa using isMark
  cases negative with
  | false => exact if_pos marked
  | true => exact if_pos marked

/-- The parts of a literal are its sign, digits of a base and its letters. -/
theorem ofChars_spelled (spelled : Spelled spelling n)
    (qualifies : letters.map Char.toUpper ∈ qualifiers) (negative : Bool) :
    ∃ isHex digits, IntegerParts.ofChars (integerChars negative spelling letters) =
        ⟨negative, isHex, digits, letters.map Char.toUpper⟩ ∧
      Numeral.unsigned? (if isHex then 16 else 10) digits = some n := by
  have qualify := isIntegerQualifier_of_mem qualifies
  obtain ⟨d, rest, starts, isDigit⟩ := spelled.exists_cons
  cases spelled with
  | decimal nonempty each =>
      refine ⟨false, spelling, ?_, ?_⟩
      · have noSign : (spelling ++ letters).head? ≠ some '-' := by
          simp [starts, (isDigit_noSign isDigit).1]
        have noMark : ∀ c ∈ letters, c ≠ 'x' ∧ c ≠ 'X' := by
          intro c member
          obtain ⟨-, noSmall, noCapital, -⟩ :=
            isIntegerQualifier_excludes (List.all_eq_true.mp qualify c member)
          exact ⟨noSmall, noCapital⟩
        rw [integerChars,
          ofChars_decimal noSign fun _ _ same => unmarked_of_isDigit each noMark same,
          IntegerParts.ofChars.plain, splitQualifier_append]
        · rw [List.all_eq_true] at qualify ⊢
          intro c member
          exact (isIntegerQualifier_excludes (qualify c member)).2.2.2
        · intro c isLast
          have isDigit := List.all_eq_true.mp each c (List.mem_of_getLast? isLast)
          exact (isDigit_excludes isDigit).1
      · have hexadecimal : spelling.all isHexDigit = true := by
          rw [List.all_eq_true] at each ⊢
          intro c member
          exact Numeral.isHexDigit_of_isDigit (each c member)
        simp [Numeral.unsigned?_of_digits hexadecimal, Numeral.digits?_ten nonempty, each]
  | @hexadecimal mark digits isMark nonempty each =>
      refine ⟨true, digits, ?_, ?_⟩
      · obtain ⟨d, rest, rfl⟩ := List.exists_cons_of_ne_nil nonempty
        have parts := ofChars_hexadecimal isMark negative d (rest ++ letters)
        rw [← List.cons_append, splitQualifier_append qualify] at parts
        · exact parts
        · intro c isLast
          have hexadecimal := List.all_eq_true.mp each c (List.mem_of_getLast? isLast)
          by_contra isLetter
          rw [Bool.not_eq_false] at isLetter
          rw [(isIntegerQualifier_excludes isLetter).1] at hexadecimal
          cases hexadecimal
      · rw [if_pos rfl, Numeral.unsigned?_of_digits each, Numeral.digits?_sixteen nonempty,
          if_pos each]

/-- Of some widths the first one that holds an integer is taken. -/
theorem fitting?_cases (kinds : List IntKind) (z : Int) :
    (∃ kind inRange, kinds.find? (·.holds z) = some kind ∧
      fitting? kinds z = some (.integral ⟨kind, z, inRange⟩)) ∨
    kinds.find? (·.holds z) = none ∧ fitting? kinds z = none := by
  induction kinds with
  | nil => exact .inr ⟨rfl, rfl⟩
  | cons kind kinds ih =>
      by_cases holds : kind.holds z = true
      · have inRange := IntKind.holds_iff.mp holds
        refine .inl ⟨kind, inRange, List.find?_cons_of_pos holds, ?_⟩
        simp [fitting?, Integer.ofInt?, inRange]
      · have noRange : ¬ (kind.min ≤ z ∧ z ≤ kind.max) := fun inRange =>
          holds (IntKind.holds_iff.mpr inRange)
        have same : fitting? (kind :: kinds) z = fitting? kinds z := by
          simp [fitting?, Integer.ofInt?, noRange]
        have found : (kind :: kinds).find? (·.holds z) = kinds.find? (·.holds z) :=
          List.find?_cons_of_neg holds
        rwa [found, same]

theorem natural?_eq {qualifier : List Char} (isQualifier : qualifier ∈ qualifiers) :
    natural? qualifier n = fitting? (widths false qualifier) n := by
  simp only [qualifiers, List.mem_cons, List.not_mem_nil, or_false] at isQualifier
  rcases isQualifier with rfl | rfl | rfl | rfl | rfl <;> rfl

theorem opposite?_eq {qualifier : List Char} (isSigned : qualifier = [] ∨ qualifier = ['L']) :
    opposite? qualifier n = fitting? (widths true qualifier) (-n) := by
  rcases isSigned with rfl | rfl <;> rfl

/-- The value of a literal of some widths, or an error if there is none. -/
theorem narrows_fitting? (kinds : List IntKind) (z : Int) (text : String) (error : CompileError) :
    Narrows kinds z text
      (match fitting? kinds z with
      | some value => .ok (constant value text)
      | none => .error error) := by
  rcases fitting?_cases kinds z with ⟨kind, inRange, first, found⟩ | ⟨none, missing⟩
  · rw [found]
    exact .holds first inRange
  · rw [missing]
    exact .exceeds none

theorem natAbs_signed (negative : Bool) (n : Nat) : (signed negative n).natAbs = n := by
  cases negative <;> simp [signed]

/-- A literal is a number in the first width to choose from that holds it. -/
theorem integer_narrows (spelled : Spelled spelling n)
    (qualifies : letters.map Char.toUpper ∈ qualifiers) (negative : Bool) (position : Nat) :
    let qualifier := letters.map Char.toUpper
    let z := signed negative n
    Narrows (widths negative qualifier) z (toString z ++ String.ofList qualifier)
      (integer (String.ofList (integerChars negative spelling letters)) position) := by
  intro qualifier z
  obtain ⟨isHex, digits, parts, magnitude⟩ := ofChars_spelled spelled qualifies negative
  have noReal : ∀ qualifier ∈ qualifiers, qualifier.find? isRealQualifier = none := by decide
  have integral : (letters.map Char.toUpper).find? isRealQualifier = none := noReal _ qualifies
  simp only [integer, String.toList_ofList, parts, integral, magnitude]
  split
  next huge =>
    apply Narrows.exceeds
    rw [List.find?_eq_none]
    intro kind _ holds
    have bound := IntKind.natAbs_lt_of_holds holds
    rw [natAbs_signed] at bound
    omega
  next =>
    cases negative with
    | false =>
        simp only [Bool.false_eq_true, if_false]
        rw [natural?_eq qualifies]
        exact narrows_fitting? _ _ _ _
    | true =>
        rw [if_pos rfl]
        split
        next isUnsigned =>
          have none : ∀ qualifier ∈ qualifiers,
              (String.ofList qualifier != "" && String.ofList qualifier != "L") = true →
                widths true qualifier = [] := by
            decide
          apply Narrows.exceeds
          rw [none qualifier qualifies isUnsigned]
          rfl
        next noneOrLong =>
          have isSigned : ∀ qualifier ∈ qualifiers,
              ¬ (String.ofList qualifier != "" && String.ofList qualifier != "L") = true →
                qualifier = [] ∨ qualifier = ['L'] := by
            decide
          rw [opposite?_eq (isSigned qualifier qualifies noneOrLong)]
          exact narrows_fitting? _ _ _ _

/-- What is read depends on the width that is chosen only. -/
theorem Narrows.again {kinds kinds' : List IntKind} {z : Int} {text : String} {e : Expr}
    {outcome : Except CompileError Expr} (read : Narrows kinds z text (.ok e))
    (again : Narrows kinds' z text outcome)
    (same : kinds'.find? (·.holds z) = kinds.find? (·.holds z)) : outcome = .ok e := by
  cases read with
  | holds first =>
      rw [first] at same
      cases again with
      | holds first' =>
          obtain rfl := Option.some.inj (first'.symm.trans same)
          rfl
      | exceeds none => cases none.symm.trans same

/-- The text that is kept with a constant is again that of a literal. -/
theorem toString_append (z : Int) (qualifier : List Char) :
    toString z ++ String.ofList qualifier =
      String.ofList (integerChars (z < 0) (Nat.toDigits 10 z.natAbs) qualifier) := by
  rw [← String.ofList_toList (s := toString z), Numeral.toList_toString, ← String.ofList_append,
    integerChars, List.append_assoc]
  simp only [decide_eq_true_eq]

theorem signed_lt_zero (negative : Bool) (n : Nat) :
    decide (signed negative n < 0) = (negative && n != 0) := by
  rw [Bool.eq_iff_iff]
  cases negative with
  | false => simp [signed]
  | true => simp [signed, Nat.pos_iff_ne_zero]

theorem signed_natAbs (z : Int) : signed (z < 0) z.natAbs = z := by
  unfold signed
  split
  next isNegative =>
    have isNegative := of_decide_eq_true isNegative
    omega
  next noNegative =>
    have noNegative := of_decide_eq_false (Bool.eq_false_iff.mpr noNegative)
    omega

/-- The text that a constant keeps is read as this constant. -/
theorem integer_again {e : Expr} {qualifier : List Char} (isQualifier : qualifier ∈ qualifiers)
    (read : Narrows (widths negative qualifier) (signed negative n)
      (toString (signed negative n) ++ String.ofList qualifier) (.ok e)) (position : Nat) :
    integer (toString (signed negative n) ++ String.ofList qualifier) position = .ok e := by
  have upper : ∀ qualifier ∈ qualifiers, qualifier.map Char.toUpper = qualifier := by decide
  have upper := upper qualifier isQualifier
  have again := integer_narrows (Numeral.spelled_toDigits n) (upper.symm ▸ isQualifier)
    (negative && n != 0) position
  have value : signed (negative && n != 0) n = signed negative n := by
    cases negative <;> cases n <;> rfl
  have text := toString_append (signed negative n) qualifier
  rw [signed_lt_zero, natAbs_signed] at text
  simp only [upper, value, ← text] at again
  apply read.again again
  by_cases zero : negative = true ∧ n = 0
  · obtain ⟨rfl, rfl⟩ := zero
    have first : ∀ qualifier ∈ qualifiers, (widths true qualifier).find? (·.holds 0) = none ∨
        (widths false qualifier).find? (·.holds 0) =
          (widths true qualifier).find? (·.holds 0) := by
      decide
    rcases first qualifier isQualifier with none | same
    · cases read with
      | holds first => cases none.symm.trans first
    · exact same
  · have sign : (negative && n != 0) = negative := by
      cases negative <;> simp_all
    rw [sign]

end Literal

end QueryTree
