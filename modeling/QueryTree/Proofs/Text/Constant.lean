import QueryTree.Proofs.Comparison.Mirror
import QueryTree.Proofs.Literal.Member
import QueryTree.Proofs.Model.Reference
import QueryTree.Proofs.Text.Numeral

/-!
# Values read back from their texts

Truth values, characters, integers, decimal numbers and identifiers are read from their texts, and a
text beside an operand of one of these types is compared as the value that it is the text of.  What
is read is trimmed first, so that a blank character is not read back: its text is refused.
-/

namespace QueryTree

open Text (isBlank)

namespace Text

/-- A text without blanks is not trimmed. -/
theorem trim_eq_self {text : String} (visible : ∀ c ∈ text.toList, isBlank c = false) :
    trim text = text := by
  have kept : trimChars text.toList = text.toList := by
    refine trimChars_eq_self_iff.mpr ⟨fun c isFirst => ?_, fun c isLast => ?_⟩
    · exact visible c (List.mem_of_head? isFirst)
    · exact visible c (List.mem_of_getLast? isLast)
  rw [trim, kept, String.ofList_toList]

/-- Nothing is left of a text of blanks. -/
theorem trim_blank {text : String} (blank : ∀ c ∈ text.toList, isBlank c = true) :
    trim text = "" := by
  have none : trimStart text.toList = [] := List.dropWhile_eq_nil_iff.mpr blank
  rw [trim, trimChars, none]
  rfl

/-- Digits of both bases, signs and points are no blanks. -/
theorem isBlank_of_figure {c : Char}
    (figure : (Lexeme.isHexDigit c || c == '-' || c == '.') = true) : isBlank c = false := by
  refine Bool.eq_false_iff.mpr fun blank => ?_
  have other := of_isBlank (fun c => !(Lexeme.isHexDigit c || c == '-' || c == '.'))
    (by decide +kernel) blank
  rw [figure] at other
  cases other

end Text

/-! ## The values of types with texts -/

namespace Decimal

variable {d : Decimal}

/-- A number is read back as the same number. -/
theorem number_reread (held : d.IsHeld) : d.reread.number = d.number := by
  have signed_eq : d.reread.signed = d.signed := by
    rw [reread, ofParts, signed, signed]
    by_cases isZero : d.coefficient = 0 <;> simp [isZero]
  rcases held.places_le with fits | isZero
  · have places_eq : d.reread.places = d.places := Nat.min_eq_left fits
    rw [number, number, signed_eq, places_eq]
  · have nothing : d.signed = 0 := by simp [signed, isZero]
    rw [number, number, signed_eq, nothing]
    simp

/-- Numbers that are the same compare in the same way. -/
theorem compare_congr {d e : Decimal} (same : d.number = e.number) (f : Decimal) :
    f.compare d = f.compare e ∧ d.compare f = e.compare f := by
  rw [compare_eq, compare_eq, compare_eq, compare_eq, same]
  exact ⟨rfl, rfl⟩

end Decimal

namespace Value

/-- A value of a type whose values are read from their texts. -/
inductive HasText : Ty → Value → Prop where
  | boolean (b : Bool) : HasText .boolean (boolean b)
  | char (c : Char) : HasText .char (char c)
  | integral (n : Integer) : HasText (.integral n.kind) (integral n)
  | decimal {d : Decimal} (held : d.IsHeld) : HasText .decimal (decimal d)
  | guid (id : Guid) : HasText .guid (guid id)

/-- Whether a value is a blank character. -/
def isBlankChar : Value → Bool
  | char c => isBlank c
  | _ => false

/-- What the text of a value is read as: the value, but a decimal zero has no sign. -/
def reread : Value → Value
  | decimal d => decimal d.reread
  | v => v

variable {type : Ty} {v : Value} {kind : IntKind} {text : String}

/-- The types with texts are value types other than enumerations. -/
theorem HasText.isValue (hasText : HasText type.core v) :
    type.isValue = true ∧ type.isEnum = false := by
  have noMember : type.isEnum = false := by
    rw [Ty.isEnum, Ty.enum?]
    generalize type.core = core at hasText
    cases hasText <;> rfl
  refine ⟨?_, noMember⟩
  cases type with
  | nullable inner => rfl
  | _ => cases hasText <;> rfl

/-- No blanks are in the text of a value that is not itself a blank. -/
theorem HasText.visible (hasText : HasText type v) (noBlank : v.isBlankChar = false) :
    ∀ c ∈ v.text.toList, isBlank c = false := by
  have digit {c : Char} (isDigit : c.isDigit = true) : isBlank c = false :=
    Text.isBlank_of_figure (by simp [Numeral.isHexDigit_of_isDigit isDigit])
  have minus : isBlank '-' = false := Text.isBlank_of_figure (by decide)
  cases hasText with
  | boolean b =>
      intro c member
      have each : (Value.boolean b).text.toList.all (!isBlank ·) = true := by
        cases b <;> decide +kernel
      simpa using List.all_eq_true.mp each c member
  | char c =>
      intro c' member
      obtain rfl : c' = c := by simpa [Value.text] using member
      exact noBlank
  | integral n =>
      intro c member
      rw [Value.text, Numeral.toList_toString] at member
      rcases List.mem_append.mp member with sign | member
      · have isMinus : c = '-' := by
          split at sign <;> simp_all
        exact isMinus ▸ minus
      · exact digit (List.all_eq_true.mp (Numeral.all_isDigit_toDigits _) c member)
  | @decimal d held =>
      intro c member
      rw [Value.text, Decimal.text_eq, String.toList_ofList] at member
      rcases List.mem_append.mp member with sign | member
      · have isMinus : c = '-' := by
          split at sign <;> simp_all
        exact isMinus ▸ minus
      · rcases Decimal.of_mem_unsigned member with isDigit | rfl
        · exact digit isDigit
        · exact Text.isBlank_of_figure (by decide)
  | guid id =>
      intro c member
      rcases Guid.of_mem_text member with figure | rfl
      · have isFigure := List.all_eq_true.mp id.all_isHexDigit_figures c figure
        exact Text.isBlank_of_figure (by simp [isFigure])
      · exact minus

/-- A value is read from its text. -/
theorem HasText.ofText_text (hasText : HasText type.core v) (noBlank : v.isBlankChar = false) :
    ofText type v.text = .read v.reread := by
  have trimmed := Text.trim_eq_self (hasText.visible noBlank)
  rw [ofText, trimmed]
  generalize type.core = core at hasText
  cases hasText with
  | boolean b => cases b <;> rfl
  | char c =>
      simp only [reader?, Value.text, String.toList_singleton]
      rfl
  | integral n =>
      have read := Literal.int?_toString n.val
      simp only [reader?, Value.text, read, Option.bind_some, Integer.ofInt?_val]
      rfl
  | decimal held =>
      simp only [reader?, Value.text, Decimal.ofText?_text held]
      rfl
  | guid id =>
      simp only [reader?, Value.text, Guid.ofText?_text]
      rfl

/-- The text of a blank character is not the text of a character. -/
theorem HasText.ofText_text_blank (hasText : HasText type.core v)
    (blank : v.isBlankChar = true) : ofText type v.text = .invalid := by
  generalize core_eq : type.core = core at hasText
  cases hasText with
  | char c =>
      have nothing : Text.trim (Value.char c).text = "" :=
        Text.trim_blank fun other member => by
          obtain rfl : other = c := by simpa [Value.text] using member
          exact blank
      rw [ofText, core_eq, nothing]
      rfl
  | _ => cases blank

/-- An integer is read from the numerals for it, and nothing is read from any other text. -/
theorem ofText_integral (isIntegral : type.core = .integral kind) (text : String) :
    (∃ n, ∃ inRange : kind.min ≤ n ∧ n ≤ kind.max, Numeral.Signed (Text.trim text).toList n ∧
        ofText type text = .read (integral ⟨kind, n, inRange⟩)) ∨
      (∀ n, Numeral.Signed (Text.trim text).toList n → ¬ (kind.min ≤ n ∧ n ≤ kind.max)) ∧
        ofText type text = .invalid := by
  rw [ofText, isIntegral]
  cases read : Numeral.int? (Text.trim text) with
  | none =>
      refine .inr ⟨fun n numeral => ?_, ?_⟩
      · rw [Numeral.int?, Numeral.signed?_eq_some_iff.mpr numeral] at read
        cases read
      · simp only [reader?, read, Option.bind_none]
  | some n =>
      have numeral : Numeral.Signed (Text.trim text).toList n := Numeral.signed?_eq_some_iff.mp read
      by_cases inRange : kind.min ≤ n ∧ n ≤ kind.max
      · refine .inl ⟨n, inRange, numeral, ?_⟩
        simp only [reader?, read, Option.bind_some, Integer.ofInt?, dif_pos inRange]
        rfl
      · refine .inr ⟨fun m other => ?_, ?_⟩
        · have same : some n = some m := read.symm.trans (Numeral.signed?_eq_some_iff.mpr other)
          exact Option.some.inj same ▸ inRange
        · simp only [reader?, read, Option.bind_some, Integer.ofInt?, dif_neg inRange]
          rfl

/-! ## Comparisons with what is read -/

/-- Decimal numbers that are the same number compare in the same way with every value. -/
theorem compare?_decimal {d e : Decimal} (same : d.number = e.number) (v : Value) :
    v.compare? (decimal d) = v.compare? (decimal e) ∧
      (decimal d).compare? v = (decimal e).compare? v := by
  have right : v.compareNumbers? (decimal d) = v.compareNumbers? (decimal e) := by
    have decimals (f : Decimal) : (v.isDecimal || (decimal f).isDecimal) = true := Bool.or_true _
    rw [compareNumbers?, compareNumbers?, if_pos (decimals d), if_pos (decimals e)]
    cases v.toDecimal? with
    | none => rfl
    | some f => exact congrArg some (Decimal.compare_congr same f).1
  have left : (decimal d).compareNumbers? v = (decimal e).compareNumbers? v := by
    have decimals (f : Decimal) : ((decimal f).isDecimal || v.isDecimal) = true := Bool.true_or _
    rw [compareNumbers?, compareNumbers?, if_pos (decimals d), if_pos (decimals e)]
    cases v.toDecimal? with
    | none => rfl
    | some f => exact congrArg some (Decimal.compare_congr same f).2
  cases v with
  | null => exact ⟨rfl, rfl⟩
  | _ => exact ⟨right, left⟩

theorem equal_decimal {d e : Decimal} (same : d.number = e.number) (v : Value) :
    v.equal (decimal d) = v.equal (decimal e) ∧ (decimal d).equal v = (decimal e).equal v := by
  have right : (v == decimal d) = (v == decimal e) := by
    cases v with
    | decimal f => exact congrArg (· == Ordering.eq) (Decimal.compare_congr same f).1
    | _ => rfl
  have left : (decimal d == v) = (decimal e == v) := by
    cases v with
    | decimal f => exact congrArg (· == Ordering.eq) (Decimal.compare_congr same f).2
    | _ => rfl
  obtain ⟨compare_right, compare_left⟩ := compare?_decimal same v
  rw [equal, equal, equal, equal, compare_right, compare_left, right, left]
  exact ⟨rfl, rfl⟩

/-- What a value is read back as compares as the value itself. -/
theorem HasText.compares_reread (hasText : HasText type v) (operator : BinaryOp) (u : Value) :
    u.compares operator v.reread = u.compares operator v ∧
      v.reread.compares operator u = v.compares operator u := by
  cases hasText with
  | @decimal d held =>
      obtain ⟨equal_right, equal_left⟩ := equal_decimal (Decimal.number_reread held) u
      obtain ⟨order_right, order_left⟩ := compare?_decimal (Decimal.number_reread held) u
      have null_eq : (Value.decimal d.reread).isNull = (Value.decimal d).isNull := rfl
      unfold compares
      simp only [reread, equal_right, equal_left, order_right, order_left, null_eq, and_self]
  | _ => exact ⟨rfl, rfl⟩

end Value

namespace Expr

variable {table : ClassTable} {operator : BinaryOp} {op : Token} {x y left right : Expr}
  {text : String} {v w : Value}

/-- A constant text. -/
structure IsText (y : Expr) (text : String) : Prop where
  type_eq : y.type = .string
  text?_eq : y.text? = some text

/-- A text beside a value of a type with texts is compared as values are. -/
theorem comparison_eq_compareValues (table : ClassTable) (operator : BinaryOp) (op : Token)
    (hasText : Value.HasText x.type.core v) (isText : y.IsText text) :
    comparison table operator op x y =
        (compareValues table operator op x y).map
          (fun c => binary .boolean operator c.left c.right c.method) ∧
      comparison table operator op y x =
        (compareValues table operator op y x).map
          fun c => binary .boolean operator c.left c.right c.method := by
  obtain ⟨isValue, noMember⟩ := hasText.isValue
  have noGuid : (y.type == .guid) = false := isText.type_eq ▸ rfl
  have noMember' : y.type.isEnum = false := isText.type_eq ▸ rfl
  simp only [comparison, compared, isValue, noMember, noGuid, noMember', Bool.not_true,
    Bool.false_and, Bool.and_false, Bool.or_self, Bool.false_eq_true, if_false]
  constructor
  · cases compareValues table operator op x y <;> rfl
  · cases compareValues table operator op y x <;> rfl

/-- A text beside an operand is compared as the value that it is read as. -/
theorem comparison_of_read (table : ClassTable) (operator : BinaryOp) (op : Token)
    (hasText : Value.HasText x.type.core v) (isText : y.IsText text)
    (read : Value.ofText x.type text = .read w) :
    comparison table operator op x y =
        .ok (binary .boolean operator x (ofValue x.type w) none) ∧
      comparison table operator op y x =
        .ok (binary .boolean operator (ofValue x.type w) x none) := by
  obtain ⟨behind, before⟩ := comparison_eq_compareValues table operator op hasText isText
  have readText : y.readText? x.type op.position = .ok (some (ofValue x.type w)) := by
    simp only [readText?, isText.text?_eq, read]
  have unreadable : x.Unreadable y.type := by
    rw [isText.type_eq]
    exact fun _ _ => rfl
  rw [behind, before, compareValues, compareValues, readText, unreadable.readText?]
  exact ⟨rfl, rfl⟩

/-- A text beside an operand is refused if it is not the text of a value of its type. -/
theorem comparison_of_invalid (hasText : Value.HasText x.type.core v) (isText : y.IsText text)
    (invalid : Value.ofText x.type text = .invalid) :
    comparison table operator op x y = .error ⟨op.position, .cannotConvert .string x.type⟩ ∧
      comparison table operator op y x =
        .error ⟨op.position, .cannotConvert .string x.type⟩ := by
  obtain ⟨behind, before⟩ := comparison_eq_compareValues table operator op hasText isText
  have readText : y.readText? x.type op.position =
      .error ⟨op.position, .cannotConvert .string x.type⟩ := by
    simp only [readText?, isText.text?_eq, isText.type_eq, invalid]
  have unreadable : x.Unreadable y.type := by
    rw [isText.type_eq]
    exact fun _ _ => rfl
  rw [behind, before, compareValues, compareValues, readText, unreadable.readText?]
  exact ⟨rfl, rfl⟩

/-- The value of a comparison is whether it holds of the values of its operands. -/
theorem evaluate_comparison (isComparison : operator.isComparison = true) (method : Option String)
    (values : EvalContext) :
    (binary .boolean operator left right method).evaluate values =
      (do let u ← left.evaluate values
          let w ← right.evaluate values
          return .boolean (u.compares operator w)) := by
  rw [evaluate]
  cases left.evaluate values with
  | error error => rfl
  | ok u =>
      have combined (right : Unit → Evaluation Value) : combine operator .boolean u right =
          (do Value.applyBinary operator .boolean u (← right ())) := by
        cases operator <;> first | rfl | cases isComparison
      change combine operator .boolean u (fun _ => right.evaluate values) = _
      rw [combined]
      cases right.evaluate values with
      | error error => rfl
      | ok w => exact Value.applyBinary_eq_compares isComparison .boolean u w

end Expr

/-! ## Reading back -/

namespace Value

variable {type : Ty} {v : Value}

/-- A value of a type is read from its text, and its text beside an operand of the type is compared
as the value itself. -/
structure ReadsBack (type : Ty) (v : Value) : Prop where
  read : ofText type v.text = .read v.reread
  equal : (v.reread == v) = true
  unchanged : v.isDecimal = false → v.reread = v
  compared : ∀ table operator op (x y : Expr), operator.isComparison = true → x.type = type →
    y.IsText v.text → ∃ behind before,
      Expr.comparison table operator op x y = .ok behind ∧
      Expr.comparison table operator op y x = .ok before ∧ ∀ values,
        behind.evaluate values =
            (x.evaluate values).map (fun u => boolean (u.compares operator v)) ∧
          before.evaluate values =
            (x.evaluate values).map fun u => boolean (v.compares operator u)

/-- The text of a value of a type is not taken for the text of any value of the type. -/
structure IsRefused (type : Ty) (v : Value) : Prop where
  invalid : ofText type v.text = .invalid
  compared : ∀ table operator (op : Token) (x y : Expr), x.type = type → y.IsText v.text →
    Expr.comparison table operator op x y = .error ⟨op.position, .cannotConvert .string type⟩ ∧
      Expr.comparison table operator op y x = .error ⟨op.position, .cannotConvert .string type⟩

theorem HasText.reread_same (hasText : HasText type v) : (v.reread == v) = true := by
  cases hasText with
  | @decimal d held =>
      change (d.reread.compare d == .eq) = true
      rw [Decimal.compare_eq, Decimal.number_reread held, compare_eq_iff_eq.mpr rfl]
      rfl
  | boolean b => exact beq_self_eq_true b
  | char c => exact beq_self_eq_true c
  | integral n => exact beq_self_eq_true n
  | guid id => exact beq_self_eq_true id

theorem HasText.readsBack (hasText : HasText type.core v) (noBlank : v.isBlankChar = false) :
    ReadsBack type v where
  read := hasText.ofText_text noBlank
  equal := hasText.reread_same
  unchanged noDecimal := by
    cases v with
    | decimal => cases noDecimal
    | _ => rfl
  compared table operator op x y isComparison isType isText := by
    subst isType
    obtain ⟨behind, before⟩ :=
      Expr.comparison_of_read table operator op hasText isText (hasText.ofText_text noBlank)
    refine ⟨_, _, behind, before, fun values => ?_⟩
    rw [Expr.evaluate_comparison isComparison, Expr.evaluate_comparison isComparison]
    cases x.evaluate values with
    | error error => exact ⟨rfl, rfl⟩
    | ok u =>
        obtain ⟨right, left⟩ := hasText.compares_reread operator u
        constructor
        · change Except.ok (Value.boolean (u.compares operator v.reread)) = Except.ok _
          rw [right]
        · change Except.ok (Value.boolean (v.reread.compares operator u)) = Except.ok _
          rw [left]

theorem HasText.isRefused (hasText : HasText type.core v) (blank : v.isBlankChar = true) :
    IsRefused type v where
  invalid := hasText.ofText_text_blank blank
  compared table operator op x y isType isText := by
    subst isType
    exact Expr.comparison_of_invalid hasText isText (hasText.ofText_text_blank blank)

/-- A truth value, character, integer, decimal number or identifier is read back from its text, and
its text beside an operand of its type is compared as the value, if and only if it is not a blank
character.  The text of a blank character is refused.  For a type of integers the texts that are
read are the numerals of the integers in its range, blanks at the ends aside; all others are
refused. -/
theorem text_readsBack (hasText : HasText type.core v) :
    (ReadsBack type v ↔ v.isBlankChar = false) ∧ (v.isBlankChar = true → IsRefused type v) ∧
      ∀ kind, type.core = .integral kind → ∀ text,
        (∃ n, ∃ inRange : kind.min ≤ n ∧ n ≤ kind.max,
            Numeral.Signed (Text.trim text).toList n ∧
              ofText type text = .read (integral ⟨kind, n, inRange⟩)) ∨
          (∀ n, Numeral.Signed (Text.trim text).toList n → ¬ (kind.min ≤ n ∧ n ≤ kind.max)) ∧
            ofText type text = .invalid := by
  refine ⟨⟨fun reads => ?_, hasText.readsBack⟩, hasText.isRefused, fun kind isIntegral text => ?_⟩
  · refine Bool.eq_false_iff.mpr fun blank => ?_
    have invalid := hasText.ofText_text_blank blank
    rw [reads.read] at invalid
    cases invalid
  · exact ofText_integral isIntegral text

section Example

/-- The least integer of 64 bits. -/
def leastInteger : Integer := ⟨.int64, -9223372036854775808, by decide⟩

theorem text_readsBack_least :
    (integral leastInteger).text = "-9223372036854775808" ∧
      ReadsBack (.nullable .int64) (integral leastInteger) := by
  have hasText : HasText (Ty.nullable .int64).core (integral leastInteger) :=
    .integral leastInteger
  exact ⟨by decide +kernel, (text_readsBack hasText).1.mpr rfl⟩

/-- The blank is a character whose text is not read as a character. -/
theorem text_blank_refused :
    HasText (Ty.core .char) (char ' ') ∧ (char ' ').text = " " ∧ ofText .char " " = .invalid ∧
      ¬ ReadsBack .char (char ' ') := by
  have invalid : ofText .char " " = .invalid := by rfl
  refine ⟨.char ' ', by decide, invalid, fun reads => ?_⟩
  cases invalid.symm.trans reads.read

end Example

end Value

end QueryTree
