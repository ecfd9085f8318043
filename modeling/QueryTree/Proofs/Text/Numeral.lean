import QueryTree.Guid
import QueryTree.Proofs.Literal.Rereading

/-!
# Numbers and identifiers read back

The texts of integers, decimal numbers and identifiers are read as what they are the texts of.  A
text is read as an integer exactly if it is a numeral of the integer: digits, with a sign before
them or without one.
-/

namespace QueryTree

/-! ## Integers -/

namespace Numeral

/-- Digits with an optional sign before them, as a numeral of an integer. -/
inductive Signed : List Char → Int → Prop where
  | plain {digits : List Char} (nonempty : digits ≠ []) (each : digits.all Char.isDigit = true) :
      Signed digits (Nat.ofDigitChars 10 digits 0)
  | plus {digits : List Char} (nonempty : digits ≠ []) (each : digits.all Char.isDigit = true) :
      Signed ('+' :: digits) (Nat.ofDigitChars 10 digits 0)
  | minus {digits : List Char} (nonempty : digits ≠ []) (each : digits.all Char.isDigit = true) :
      Signed ('-' :: digits) (-(Nat.ofDigitChars 10 digits 0))

variable {cs : List Char} {n : Nat} {z : Int}

theorem digits?_ten_eq_some_iff : digits? 10 cs = some n ↔
    cs ≠ [] ∧ cs.all Char.isDigit = true ∧ Nat.ofDigitChars 10 cs 0 = n := by
  by_cases nonempty : cs = []
  · simp [nonempty, digits?]
  · rw [digits?_ten nonempty]
    split
    next each => simp [nonempty, each]
    next other => simp [nonempty, other]

theorem signed?_minus (digits : List Char) :
    signed? ('-' :: digits) = Option.map (fun n : Nat => -(n : Int)) (digits? 10 digits) := by
  rw [signed?]
  cases digits? 10 digits <;> rfl

theorem signed?_plus (digits : List Char) :
    signed? ('+' :: digits) = Option.map (fun n : Nat => (n : Int)) (digits? 10 digits) := by
  change Option.map _ (Option.bind (digits? 10 digits) _) = _
  cases digits? 10 digits <;> rfl

theorem signed?_plain (noMinus : ∀ rest, cs ≠ '-' :: rest) (noPlus : ∀ rest, cs ≠ '+' :: rest) :
    signed? cs = Option.map (fun n : Nat => (n : Int)) (digits? 10 cs) := by
  unfold signed? unsigned?
  split
  next rest => exact absurd rfl (noMinus rest)
  next =>
    split
    next rest _ => exact absurd rfl (noPlus rest)
    next => cases digits? 10 cs <;> rfl

/-- The numerals are the texts that are read as integers. -/
theorem signed?_eq_some_iff : signed? cs = some z ↔ Signed cs z := by
  constructor
  · intro read
    by_cases minus : ∃ digits, cs = '-' :: digits
    · obtain ⟨digits, rfl⟩ := minus
      rw [signed?_minus] at read
      obtain ⟨n, found, rfl⟩ := Option.map_eq_some_iff.mp read
      obtain ⟨nonempty, each, rfl⟩ := digits?_ten_eq_some_iff.mp found
      exact .minus nonempty each
    by_cases plus : ∃ digits, cs = '+' :: digits
    · obtain ⟨digits, rfl⟩ := plus
      rw [signed?_plus] at read
      obtain ⟨n, found, rfl⟩ := Option.map_eq_some_iff.mp read
      obtain ⟨nonempty, each, rfl⟩ := digits?_ten_eq_some_iff.mp found
      exact .plus nonempty each
    rw [signed?_plain (not_exists.mp minus) (not_exists.mp plus)] at read
    obtain ⟨n, found, rfl⟩ := Option.map_eq_some_iff.mp read
    obtain ⟨nonempty, each, rfl⟩ := digits?_ten_eq_some_iff.mp found
    exact .plain nonempty each
  · intro numeral
    cases numeral with
    | plain nonempty each =>
        have first {sign : Char} {rest : List Char} (same : cs = sign :: rest) :
            sign.isDigit = true := by
          rw [same] at each
          exact ((Bool.and_eq_true _ _).mp each).1
        have noMinus (rest : List Char) : cs ≠ '-' :: rest := fun same =>
          absurd (first same) (by decide)
        have noPlus (rest : List Char) : cs ≠ '+' :: rest := fun same =>
          absurd (first same) (by decide)
        rw [signed?_plain noMinus noPlus, digits?_ten_eq_some_iff.mpr ⟨nonempty, each, rfl⟩]
        rfl
    | plus nonempty each =>
        rw [signed?_plus, digits?_ten_eq_some_iff.mpr ⟨nonempty, each, rfl⟩]
        rfl
    | minus nonempty each =>
        rw [signed?_minus, digits?_ten_eq_some_iff.mpr ⟨nonempty, each, rfl⟩]
        rfl

end Numeral

/-! ## Decimal numbers -/

namespace Decimal

/-- A number as it is held: the coefficient is in range, and there are no more decimal places than
there can be unless the number is zero. -/
structure IsHeld (d : Decimal) : Prop where
  coefficient_lt : d.coefficient < coefficientBound
  places_le : d.places ≤ maxPlaces ∨ d.coefficient = 0

/-- What the text of a number is read as: zero has no sign. -/
def reread (d : Decimal) : Decimal := ofParts d.negative d.coefficient (min d.places maxPlaces)

/-- The digits of the coefficient, with enough zeros before them for the places. -/
def figures (d : Decimal) : List Char :=
  List.replicate (d.places + 1 - (Nat.toDigits 10 d.coefficient).length) '0' ++
    Nat.toDigits 10 d.coefficient

/-- The digits before the decimal point. -/
def whole (d : Decimal) : List Char := d.figures.take (d.figures.length - d.places)

/-- The digits after the decimal point. -/
def fraction (d : Decimal) : List Char := d.figures.drop (d.figures.length - d.places)

/-- The text without the sign. -/
def unsigned (d : Decimal) : List Char :=
  if d.places = 0 then d.whole else d.whole ++ '.' :: d.fraction

variable {d : Decimal}

theorem text_eq (d : Decimal) :
    d.text = String.ofList ((if d.negative then ['-'] else []) ++ d.unsigned) := rfl

theorem all_isDigit_figures (d : Decimal) : d.figures.all Char.isDigit = true := by
  rw [figures, List.all_append, Numeral.all_isDigit_toDigits, Bool.and_true, List.all_replicate]
  split <;> rfl

theorem ofDigitChars_figures (d : Decimal) : Nat.ofDigitChars 10 d.figures 0 = d.coefficient := by
  rw [figures, Nat.ofDigitChars_append, Nat.ofDigitChars_replicate_zero, Nat.mul_zero,
    Nat.ofDigitChars_ten_toDigits]

theorem places_lt_length_figures (d : Decimal) : d.places < d.figures.length := by
  rw [figures, List.length_append, List.length_replicate]
  omega

theorem whole_append_fraction (d : Decimal) : d.whole ++ d.fraction = d.figures :=
  List.take_append_drop ..

theorem whole_ne_nil (d : Decimal) : d.whole ≠ [] := by
  have longer := d.places_lt_length_figures
  rw [whole, ← List.length_pos_iff, List.length_take]
  omega

theorem length_fraction (d : Decimal) : d.fraction.length = d.places := by
  have longer := d.places_lt_length_figures
  rw [fraction, List.length_drop]
  omega

theorem all_isDigit_whole_fraction (d : Decimal) :
    d.whole.all Char.isDigit = true ∧ d.fraction.all Char.isDigit = true := by
  have each := d.all_isDigit_figures
  rw [← d.whole_append_fraction, List.all_append] at each
  exact (Bool.and_eq_true _ _).mp each

/-- All but the point are digits. -/
theorem of_mem_unsigned {c : Char} (member : c ∈ d.unsigned) : c.isDigit = true ∨ c = '.' := by
  obtain ⟨whole, fraction⟩ := d.all_isDigit_whole_fraction
  unfold unsigned at member
  split at member
  next => exact .inl (List.all_eq_true.mp whole c member)
  next =>
    rcases List.mem_append.mp member with member | member
    · exact .inl (List.all_eq_true.mp whole c member)
    · rcases List.mem_cons.mp member with isPoint | member
      · exact .inr isPoint
      · exact .inl (List.all_eq_true.mp fraction c member)

/-- There are only zeros behind the point of zero. -/
theorem fraction_of_zero (isZero : d.coefficient = 0) :
    d.fraction = List.replicate d.places '0' := by
  refine List.eq_replicate_iff.mpr ⟨d.length_fraction, fun c member => ?_⟩
  have figure : c ∈ d.figures := List.mem_of_mem_drop member
  rw [figures, isZero, Nat.toDigits_zero] at figure
  rcases List.mem_append.mp figure with padding | digit
  · exact List.eq_of_mem_replicate padding
  · exact List.mem_singleton.mp digit

/-- A number without its sign starts with a digit. -/
theorem exists_unsigned_eq_cons (d : Decimal) :
    ∃ c rest, d.unsigned = c :: rest ∧ c.isDigit = true := by
  obtain ⟨c, rest, starts⟩ := List.exists_cons_of_ne_nil d.whole_ne_nil
  have isDigit : c.isDigit = true := by
    have each := d.all_isDigit_whole_fraction.1
    rw [starts] at each
    exact ((Bool.and_eq_true _ _).mp each).1
  rw [unsigned, starts]
  split
  next => exact ⟨c, rest, rfl, isDigit⟩
  next => exact ⟨c, rest ++ '.' :: d.fraction, rfl, isDigit⟩

/-- Digits are read onto what was read before while there is room for them. -/
theorem run_append {digits : List Char} (crowded : Bool)
    (each : digits.all Char.isDigit = true) (tail : List Char) (n p : Nat)
    (afterPoint hasDigit : Bool) (bound : Nat.ofDigitChars 10 digits n < coefficientBound)
    (room : afterPoint = true → p + digits.length ≤ maxPlaces) :
    Reading.run crowded ⟨n, p, afterPoint, hasDigit⟩ (digits ++ tail) =
      Reading.run crowded ⟨Nat.ofDigitChars 10 digits n,
        if afterPoint then p + digits.length else p, afterPoint,
        hasDigit || !digits.isEmpty⟩ tail := by
  induction digits generalizing n p hasDigit with
  | nil => simp
  | cons d digits ih =>
      obtain ⟨isDigit, more⟩ := (Bool.and_eq_true _ _).mp each
      have zero : '0'.toNat = 48 := rfl
      rw [Nat.ofDigitChars_cons, zero] at bound ⊢
      have small : ¬ coefficientBound ≤ 10 * n + (d.toNat - 48) :=
        Nat.not_le.mpr (Nat.lt_of_le_of_lt (le_ofDigitChars digits _) bound)
      cases afterPoint with
      | false =>
          have next := ih more _ p true bound fun behind => absurd behind Bool.false_ne_true
          rw [List.cons_append, Reading.run]
          simp [isDigit, Nat.mul_comm n, small, next]
      | true =>
          have within := room rfl
          rw [List.length_cons] at within
          have notFull : ¬ maxPlaces ≤ p := by omega
          have next := ih more _ (p + 1) true bound fun _ => by omega
          rw [List.cons_append, Reading.run]
          simp [isDigit, Nat.mul_comm n, small, notFull, next, Nat.add_assoc, Nat.add_comm 1]

/-- A text has at least as many bytes as characters. -/
theorem length_le_utf8ByteSize (cs : List Char) : cs.length ≤ (String.ofList cs).utf8ByteSize := by
  induction cs with
  | nil => exact Nat.zero_le _
  | cons c cs ih =>
      have first : 0 < c.utf8Size := Char.utf8Size_pos c
      have size : (String.ofList (c :: cs)).utf8ByteSize =
          c.utf8Size + (String.ofList cs).utf8ByteSize := by
        rw [← List.singleton_append, String.ofList_append, String.utf8ByteSize_append,
          ← String.singleton_eq_ofList, String.utf8ByteSize_singleton]
      rw [List.length_cons, size]
      omega

/-- The digits of a number are read as its coefficient, with all places that there can be. -/
theorem run_unsigned (held : d.IsHeld) {crowded : Bool}
    (isCrowded : maxPlaces < d.places → crowded = true) :
    ∃ afterPoint, Reading.run crowded ⟨0, 0, false, false⟩ d.unsigned =
      some ⟨d.coefficient, min d.places maxPlaces, afterPoint, true⟩ := by
  obtain ⟨whole_digits, fraction_digits⟩ := d.all_isDigit_whole_fraction
  have total : Nat.ofDigitChars 10 d.fraction (Nat.ofDigitChars 10 d.whole 0) = d.coefficient := by
    rw [← Nat.ofDigitChars_append, whole_append_fraction, ofDigitChars_figures]
  have whole_lt : Nat.ofDigitChars 10 d.whole 0 < coefficientBound := by
    refine Nat.lt_of_le_of_lt ?_ held.coefficient_lt
    exact total ▸ le_ofDigitChars d.fraction _
  have front (tail : List Char) :
      Reading.run crowded ⟨0, 0, false, false⟩ (d.whole ++ tail) =
        Reading.run crowded ⟨Nat.ofDigitChars 10 d.whole 0, 0, false, true⟩ tail := by
    have read := run_append crowded whole_digits tail 0 0 false false whole_lt nofun
    have isDigit : d.whole.isEmpty = false := List.isEmpty_eq_false_iff.mpr d.whole_ne_nil
    simpa [isDigit] using read
  by_cases noPlaces : d.places = 0
  · have noFraction : d.fraction = [] :=
      List.length_eq_zero_iff.mp (d.length_fraction.trans noPlaces)
    rw [noFraction, Nat.ofDigitChars_nil] at total
    have read := front []
    rw [List.append_nil, total] at read
    refine ⟨false, ?_⟩
    rw [unsigned, if_pos noPlaces, read, noPlaces]
    rfl
  · have point : Reading.run crowded ⟨0, 0, false, false⟩ d.unsigned =
        Reading.run crowded ⟨Nat.ofDigitChars 10 d.whole 0, 0, true, true⟩ d.fraction := by
      rw [unsigned, if_neg noPlaces, front, Reading.run]
      simp
    refine ⟨true, point.trans ?_⟩
    by_cases fits : d.places ≤ maxPlaces
    · have read := run_append crowded fraction_digits [] (Nat.ofDigitChars 10 d.whole 0) 0 true
        true (total.symm ▸ held.coefficient_lt) (fun _ => by rw [length_fraction]; omega)
      rw [List.append_nil, total, length_fraction] at read
      rw [read, Nat.min_eq_left fits, Nat.zero_add]
      rfl
    · -- only zero has more places, and what follows the last place that fits is another zero
      have isZero : d.coefficient = 0 := held.places_le.resolve_left fits
      have whole_zero : Nat.ofDigitChars 10 d.whole 0 = 0 := by
        have least := le_ofDigitChars d.fraction (Nat.ofDigitChars 10 d.whole 0)
        rw [total, isZero] at least
        exact Nat.le_zero.mp least
      obtain ⟨more, places_eq⟩ : ∃ more, d.places = maxPlaces + (more + 1) :=
        ⟨d.places - maxPlaces - 1, by omega⟩
      rw [fraction_of_zero isZero, places_eq, List.replicate_add, whole_zero,
        isCrowded (Nat.not_le.mp fits)]
      have digits : (List.replicate maxPlaces '0').all Char.isDigit = true := by decide
      have worth : Nat.ofDigitChars 10 (List.replicate maxPlaces '0') 0 = 0 := by
        rw [Nat.ofDigitChars_replicate_zero, Nat.mul_zero]
      have read := run_append true digits (List.replicate (more + 1) '0') 0 0 true true
        (worth.symm ▸ Nat.two_pow_pos 96) (fun _ => by simp)
      rw [read, worth, isZero, Nat.min_eq_right (Nat.le_add_right _ _)]
      rfl

/-- A number is read from its text. -/
theorem ofText?_text (held : d.IsHeld) : ofText? d.text = some d.reread := by
  have isCrowded : maxPlaces < d.places → decide (18 ≤ d.text.utf8ByteSize) = true := by
    intro many
    have long : d.places ≤ d.unsigned.length := by
      rw [unsigned]
      split
      next none => omega
      next => rw [List.length_append, List.length_cons, length_fraction]; omega
    have size := length_le_utf8ByteSize ((if d.negative then ['-'] else []) ++ d.unsigned)
    rw [← text_eq, List.length_append] at size
    have places : maxPlaces = 28 := rfl
    simp only [decide_eq_true_eq]
    omega
  obtain ⟨afterPoint, read⟩ := run_unsigned held isCrowded
  have positional : ofPositional? d.text = some d.reread := by
    have chars : d.text.toList = (if d.negative then ['-'] else []) ++ d.unsigned := by
      rw [text_eq, String.toList_ofList]
    rw [ofPositional?, chars]
    cases sign : d.negative with
    | true =>
        simp only [if_true, List.singleton_append, read, Option.bind_some]
        rw [reread, sign]
    | false =>
        obtain ⟨c, rest, starts, isDigit⟩ := d.exists_unsigned_eq_cons
        obtain ⟨noMinus, noPlus⟩ := Literal.isDigit_noSign isDigit
        have plain : (if false = true then ['-'] else []) ++ d.unsigned = c :: rest := starts
        rw [starts] at read
        rw [plain]
        simp only
        split
        next same => exact absurd (List.cons.inj same).1 noMinus
        next same => exact absurd (List.cons.inj same).1 noPlus
        next =>
          simp only [read, Option.bind_some]
          rw [reread, sign]
          rfl
  rw [ofText?, positional]
  rfl

end Decimal

/-! ## Identifiers -/

namespace Numeral

theorem digitsFrom?_append (base value : Nat) (front back : List Char) :
    digitsFrom? base value (front ++ back) =
      (digitsFrom? base value front).bind fun value => digitsFrom? base value back := by
  induction front generalizing value with
  | nil => rfl
  | cons c front ih =>
      rw [List.cons_append, digitsFrom?, digitsFrom?]
      cases digitValue? base c with
      | some digit => exact ih _
      | none => rfl

theorem digitValue?_digitChar : ∀ digit < 16, digitValue? 16 digit.digitChar = some digit := by
  decide

/-- The hexadecimal digits of a number are read as this number. -/
theorem digitsFrom?_toDigits (n : Nat) : digitsFrom? 16 0 (Nat.toDigits 16 n) = some n := by
  induction n using Nat.strongRecOn with
  | ind n ih =>
      rw [Nat.toDigits_eq_if (by decide)]
      split
      next small => simp [digitsFrom?, digitValue?_digitChar n small]
      next large =>
        have last := digitValue?_digitChar (n % 16) (Nat.mod_lt n (by decide))
        rw [digitsFrom?_append, ih (n / 16) (by omega), Option.bind_some, digitsFrom?, last]
        simp only [digitsFrom?]
        rw [Nat.mul_comm, Nat.div_add_mod]

theorem digitsFrom?_zeros (count : Nat) (cs : List Char) :
    digitsFrom? 16 0 (List.replicate count '0' ++ cs) = digitsFrom? 16 0 cs := by
  induction count with
  | zero => rfl
  | succ count ih => exact ih

end Numeral

namespace Guid

/-- All 32 digits of an identifier. -/
def figures (id : Guid) : List Char :=
  List.replicate (32 - (Nat.toDigits 16 id.bits.toNat).length) '0' ++
    Nat.toDigits 16 id.bits.toNat

theorem length_figures (id : Guid) : id.figures.length = 32 := by
  have bound : id.bits.toNat < 16 ^ 32 := id.bits.isLt
  have short := (Nat.length_toDigits_le_iff (by decide) (by decide)).mpr bound
  rw [figures, List.length_append, List.length_replicate]
  omega

theorem digits?_figures (id : Guid) : Numeral.digits? 16 id.figures = some id.bits.toNat := by
  have nonempty : id.figures.isEmpty = false := by
    rw [List.isEmpty_eq_false_iff, ← List.length_pos_iff, length_figures]
    decide
  rw [Numeral.digits?, if_neg (by simp [nonempty]), figures, Numeral.digitsFrom?_zeros,
    Numeral.digitsFrom?_toDigits]

theorem all_isHexDigit_figures (id : Guid) : id.figures.all Lexeme.isHexDigit = true := by
  have nonempty : id.figures ≠ [] := by
    rw [← List.length_pos_iff, length_figures]
    decide
  have read := id.digits?_figures
  rw [Numeral.digits?_sixteen nonempty] at read
  by_contra other
  rw [if_neg other] at read
  cases read

theorem ofDigits?_figures (id : Guid) : ofDigits? id.figures = some id := by
  rw [ofDigits?, if_pos id.length_figures, digits?_figures]
  simp

/-- Groups joined by hyphens are read as their digits. -/
theorem ofGroups?_join {a b c d e : List Char} (a_length : a.length = 8) (b_length : b.length = 4)
    (c_length : c.length = 4) (d_length : d.length = 4) (e_length : e.length = 12) :
    ofGroups? (a ++ '-' :: b ++ '-' :: c ++ '-' :: d ++ '-' :: e) =
      ofDigits? (a ++ b ++ c ++ d ++ e) := by
  have past {group : List Char} {m n : Nat} (length : group.length = m) (behind : m ≤ n) :
      group.drop n = [] := List.drop_of_length_le (length ▸ behind)
  simp [ofGroups?, a_length, b_length, c_length, d_length, e_length, List.drop_append,
    past a_length, past b_length, past c_length, past d_length]

/-- The characters of the text of an identifier. -/
theorem toList_text (id : Guid) :
    id.text.toList = id.figures.take 8 ++ '-' :: (id.figures.drop 8).take 4 ++
      '-' :: (id.figures.drop 12).take 4 ++ '-' :: (id.figures.drop 16).take 4 ++
        '-' :: id.figures.drop 20 := by
  rw [text, String.toList_ofList]
  rfl

/-- All but the hyphens are digits. -/
theorem of_mem_text {id : Guid} {c : Char} (member : c ∈ id.text.toList) :
    c ∈ id.figures ∨ c = '-' := by
  rw [toList_text] at member
  simp only [List.mem_append, List.mem_cons] at member
  rcases member with (((group | rfl | group) | rfl | group) | rfl | group) | rfl | group
  · exact .inl (List.mem_of_mem_take group)
  · exact .inr rfl
  · exact .inl (List.mem_of_mem_drop (List.mem_of_mem_take group))
  · exact .inr rfl
  · exact .inl (List.mem_of_mem_drop (List.mem_of_mem_take group))
  · exact .inr rfl
  · exact .inl (List.mem_of_mem_drop (List.mem_of_mem_take group))
  · exact .inr rfl
  · exact .inl (List.mem_of_mem_drop group)

/-- An identifier is read from its text. -/
theorem ofText?_text (id : Guid) : ofText? id.text = some id := by
  have length := id.length_figures
  have size : id.text.toList.length = 36 := by simp [toList_text, length]
  have groups : id.figures.take 8 ++ (id.figures.drop 8).take 4 ++ (id.figures.drop 12).take 4 ++
      (id.figures.drop 16).take 4 ++ id.figures.drop 20 = id.figures := by
    have cut (i : Nat) : (id.figures.drop i).take 4 ++ id.figures.drop (i + 4) =
        id.figures.drop i := by
      rw [← List.drop_drop, List.take_append_drop]
    simp only [List.append_assoc, cut 16, cut 12, cut 8, List.take_append_drop]
  rw [ofText?, if_neg (by rw [size]; decide), if_pos size, toList_text,
    ofGroups?_join (by simp [length]) (by simp [length]) (by simp [length]) (by simp [length])
      (by simp [length]), groups, ofDigits?_figures]

end Guid

end QueryTree
