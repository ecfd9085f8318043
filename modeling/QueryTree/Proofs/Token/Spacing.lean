import QueryTree.Proofs.Print.Word
import QueryTree.Proofs.Token.Partition

/-!
# Tokens apart from their surroundings

A token is scanned again from its own characters wherever a blank or the end of the text follows, so
that blanks between the tokens carry no meaning.
-/

namespace QueryTree

open Text (isBlank)

namespace Lexeme

variable {separator c delimiter mark : Char} {position : Nat} {cs rest body left : List Char}
  {lexeme : Lexeme}

section Settled

/-- What is taken from the front of a text does not change with what follows, as long as a blank or
the end of the text comes next. -/
def Settles (taking : List Char → List Char) : Prop :=
  ∀ front left rest, taking (front ++ left) <+: front → Separates rest →
    taking (front ++ rest) = taking (front ++ left)

theorem Settles.again {taking : List Char → List Char} (settles : Settles taking)
    {part left rest : List Char} (more : List Char) (taken : taking (part ++ (more ++ left)) = part)
    (separates : Separates rest) : taking (part ++ (more ++ rest)) = part := by
  have inside : taking (part ++ more ++ left) <+: part ++ more := by
    rw [List.append_assoc, taken]
    exact List.prefix_append ..
  simpa [taken] using settles _ left rest inside separates

theorem Settles.again_last {taking : List Char → List Char} (settles : Settles taking)
    {part left rest : List Char} (taken : taking (part ++ left) = part)
    (separates : Separates rest) : taking (part ++ rest) = part :=
  settles.again [] taken separates

theorem settles_takeWhile {holds : Char → Bool}
    (excludes : ∀ c, isBlank c = true → holds c = false) :
    Settles (List.takeWhile holds) := by
  intro front left rest inside separates
  induction front with
  | nil =>
      rw [List.nil_append, List.prefix_nil.mp inside]
      cases rest with
      | nil => rfl
      | cons c rest => exact List.takeWhile_cons_of_neg (by simp [excludes c (separates c rfl)])
  | cons c front ih =>
      rw [List.cons_append, List.cons_append, List.takeWhile_cons, List.takeWhile_cons]
      cases isHeld : holds c with
      | false => rfl
      | true =>
          rw [List.cons_append, List.takeWhile_cons_of_pos isHeld, List.prefix_cons_inj] at inside
          simp [ih inside]

theorem settles_digits : Settles (List.takeWhile Char.isDigit) :=
  settles_takeWhile fun _ blank => (isBlank_excludes blank).1

theorem settles_hexDigits : Settles (List.takeWhile isHexDigit) :=
  settles_takeWhile fun _ blank => (isBlank_excludes blank).2.1

theorem settles_integerQualifiers : Settles (List.takeWhile isIntegerQualifier) :=
  settles_takeWhile fun _ blank => (isBlank_excludes blank).2.2.1

theorem settles_qualifiers (isInteger : Bool) : Settles (List.takeWhile (mayQualify isInteger)) :=
  settles_takeWhile fun _ blank => by simp [mayQualify, isBlank_excludes blank]

/-- The digits at the front of a text with something before them, if there is a digit. -/
def withDigits (before cs : List Char) : List Char :=
  if (cs.takeWhile Char.isDigit).isEmpty then [] else before ++ cs.takeWhile Char.isDigit

theorem withDigits_cons (before : List Char) (d : Char) (rest : List Char) :
    withDigits before (d :: rest) =
      if d.isDigit then before ++ d :: rest.takeWhile Char.isDigit else [] := by
  cases isDigit : d.isDigit <;> simp [withDigits, isDigit]

theorem fraction_cons (separator c : Char) (rest : List Char) :
    fraction separator (c :: rest) = if c = separator then withDigits [c] rest else [] := by
  cases rest with
  | nil => simp [fraction, withDigits]
  | cons d rest =>
    simp only [fraction, withDigits_cons, ite_and, Bool.and_eq_true, decide_eq_true_eq]
    rfl

/-- What an exponent is behind its mark: digits, with a sign before them or without one. -/
def exponentFrom (mark : Char) : List Char → List Char
  | sign :: digits =>
    if sign = '+' || sign = '-' then withDigits [mark, sign] digits
    else withDigits [mark] (sign :: digits)
  | [] => []

theorem exponent_cons (mark : Char) (rest : List Char) :
    exponent (mark :: rest) = if mark = 'e' || mark = 'E' then exponentFrom mark rest else [] := by
  have noDigit {sign : Char} (isSign : (sign = '+' || sign = '-') = true) :
      sign.isDigit = false := by
    simp only [Bool.or_eq_true, decide_eq_true_eq] at isSign
    obtain rfl | rfl := isSign <;> rfl
  match rest with
  | [] => rfl
  | [d] =>
      cases isSign : (d = '+' || d = '-' : Bool) with
      | true => simp [exponent, exponentFrom, isSign, noDigit isSign, withDigits]
      | false => simp [exponent, exponentFrom, isSign, withDigits_cons]
  | sign :: d :: rest =>
      cases isSign : (sign = '+' || sign = '-' : Bool) with
      | true => simp [exponent, exponentFrom, isSign, noDigit isSign, withDigits_cons]
      | false => simp [exponent, exponentFrom, isSign, withDigits_cons]

theorem withDigits_settled {before front left rest : List Char}
    (inside : withDigits before (front ++ left) <+: before ++ front) (separates : Separates rest) :
    withDigits before (front ++ rest) = withDigits before (front ++ left) := by
  have digits : (front ++ left).takeWhile Char.isDigit <+: front := by
    unfold withDigits at inside
    split at inside
    next none => simp [List.isEmpty_iff.mp none]
    next => exact (List.prefix_append_right_inj before).mp inside
  rw [withDigits, withDigits, settles_digits _ _ _ digits separates]

theorem withDigits_separates {before rest : List Char} (separates : Separates rest) :
    withDigits before rest = [] := by
  cases rest with
  | nil => rfl
  | cons c rest => rw [withDigits_cons, if_neg (by simp [isBlank_excludes (separates c rfl)])]

theorem settles_fraction (visible : isBlank separator = false) :
    Settles (fraction separator) := by
  intro front left rest inside separates
  cases front with
  | nil =>
      rw [List.prefix_nil.mp inside]
      cases rest with
      | nil => rfl
      | cons c rest =>
          have other : c ≠ separator := by
            rintro rfl
            simp [separates c rfl] at visible
          rw [List.nil_append, fraction_cons, if_neg other]
  | cons c front =>
      simp only [List.cons_append, fraction_cons] at inside ⊢
      split at inside
      next isPoint => rw [if_pos isPoint, if_pos isPoint, withDigits_settled inside separates]
      next notPoint => rw [if_neg notPoint, if_neg notPoint]

theorem exponentFrom_separates {rest : List Char} (separates : Separates rest) :
    exponentFrom mark rest = [] := by
  cases rest with
  | nil => rfl
  | cons c rest =>
      have noSign : (c = '+' || c = '-' : Bool) = false := by
        simp [isBlank_excludes (separates c rfl)]
      simp [exponentFrom, noSign, withDigits_separates separates]

/-- An exponent is longer than its mark. -/
theorem exponentFrom_eq_nil (inside : exponentFrom mark left <+: [mark]) :
    exponentFrom mark left = [] := by
  have noDigits {before cs : List Char} (ends : 1 ≤ before.length)
      (inside : withDigits before cs <+: [mark]) : withDigits before cs = [] := by
    unfold withDigits at inside ⊢
    split at inside
    next none => rw [if_pos none]
    next someDigits =>
      have bound := inside.length_le
      rw [List.isEmpty_iff_length_eq_zero] at someDigits
      simp only [List.length_append, List.length_singleton] at bound
      omega
  cases left with
  | nil => rfl
  | cons sign digits =>
      simp only [exponentFrom] at inside ⊢
      split at inside
      next isSign =>
        rw [if_pos isSign]
        exact noDigits (Nat.le_succ 1) inside
      next noSign =>
        rw [if_neg noSign]
        exact noDigits (Nat.le_refl 1) inside

theorem exponentFrom_settled {front rest : List Char}
    (inside : exponentFrom mark (front ++ left) <+: mark :: front) (separates : Separates rest) :
    exponentFrom mark (front ++ rest) = exponentFrom mark (front ++ left) := by
  cases front with
  | nil =>
      exact (exponentFrom_separates separates).trans (exponentFrom_eq_nil inside).symm
  | cons sign front =>
      simp only [List.cons_append, exponentFrom] at inside ⊢
      split
      next isSign =>
        rw [if_pos isSign] at inside
        exact withDigits_settled inside separates
      next noSign =>
        rw [if_neg noSign] at inside
        exact @withDigits_settled [mark] (sign :: front) left rest inside separates

theorem settles_exponent : Settles exponent := by
  intro front left rest inside separates
  cases front with
  | nil =>
      rw [List.prefix_nil.mp inside]
      cases rest with
      | nil => rfl
      | cons c rest => simp [exponent_cons, isBlank_excludes (separates c rfl)]
  | cons mark front =>
      simp only [List.cons_append, exponent_cons] at inside ⊢
      split
      next isMark =>
        rw [if_pos isMark] at inside
        exact exponentFrom_settled inside separates
      next => rfl

end Settled

/-- Only punctuation starts an operator of two characters. -/
theorem double?_of_symbol? (noSymbol : Token.symbol? c = none) (rest : List Char) :
    double? c rest = none := by
  cases rest with
  | nil => rfl
  | cons d rest =>
      have none : Token.doubleSymbol? c d = none := by
        unfold Token.doubleSymbol?
        split <;> first | rfl | cases noSymbol
      simp [double?, none]

section Again

variable {following : List Char} (separates : Separates following)

/-- A text is the characters that a predicate takes from its front and those behind them. -/
theorem exists_taken (holds : Char → Bool) (cs : List Char) :
    ∃ front behind, cs = front ++ behind ∧ (front ++ behind).takeWhile holds = front :=
  ⟨cs.takeWhile holds, cs.dropWhile holds, List.takeWhile_append_dropWhile.symm,
    by rw [List.takeWhile_append_dropWhile]⟩

/-- What comes behind the characters that a predicate takes. -/
theorem dropWhile_eq_of_takeWhile_eq {holds : Char → Bool} {front : List Char}
    (taken : (front ++ rest).takeWhile holds = front) : (front ++ rest).dropWhile holds = rest := by
  have parts : (front ++ rest).takeWhile holds ++ (front ++ rest).dropWhile holds = front ++ rest :=
    List.takeWhile_append_dropWhile
  rw [taken] at parts
  exact List.append_cancel_left parts

/-- A number without a mark for base sixteen is a decimal one. -/
theorem number_eq_decimal
    (unmarked : ∀ mark rest, cs = '0' :: mark :: rest → mark ≠ 'x' ∧ mark ≠ 'X') :
    number separator position cs = .ok (decimalNumber separator cs) := by
  unfold number
  split
  next => exact absurd rfl (unmarked _ _ rfl).1
  next => exact absurd rfl (unmarked _ _ rfl).2
  next => rfl

/-- A character that is no delimiter and starts no escape belongs to the literal. -/
theorem splitLiteral?_plain (plain : c ≠ '\\') (other : c ≠ delimiter) :
    splitLiteral? delimiter (c :: cs) =
      (splitLiteral? delimiter cs).map fun (body, rest) => (c :: body, rest) := by
  cases cs <;> simp [splitLiteral?, plain, other]

/-- A delimiter that is not doubled ends a literal. -/
theorem splitLiteral?_delimiter (plain : delimiter ≠ '\\')
    (ends : ∀ d ∈ following.head?, d ≠ delimiter) :
    splitLiteral? delimiter (delimiter :: following) = some ([delimiter], following) := by
  cases following with
  | nil => simp [splitLiteral?, plain]
  | cons d rest => simp [splitLiteral?, plain, ends d rfl]

/-- A literal ends where its delimiter is not doubled. -/
theorem splitLiteral?_again (outcome : splitLiteral? delimiter cs = some (body, left))
    (ends : ∀ d ∈ following.head?, d ≠ delimiter) :
    splitLiteral? delimiter (body ++ following) = some (body, following) := by
  fun_induction splitLiteral? delimiter cs generalizing body left with
  | case1 => cases outcome
  | case2 => cases outcome
  | case3 c rest ih =>
      obtain ⟨_, found, same⟩ := Option.map_eq_some_iff.mp outcome
      cases same
      simp [splitLiteral?, ih found]
  | case4 notLast =>
      cases outcome
      exact splitLiteral?_delimiter (fun isEscape => notLast isEscape rfl) ends
  | case5 rest _ notEscape ih =>
      obtain ⟨_, found, same⟩ := Option.map_eq_some_iff.mp outcome
      cases same
      have plain : delimiter ≠ '\\' := fun isEscape => notEscape _ _ isEscape rfl
      simp [splitLiteral?, plain, ih found]
  | case6 d rest _ _ notEscape =>
      cases outcome
      exact splitLiteral?_delimiter (fun isEscape => notEscape _ _ isEscape rfl) ends
  | case7 c rest notLast notEscape other ih =>
      obtain ⟨_, found, same⟩ := Option.map_eq_some_iff.mp outcome
      cases same
      have plain : c ≠ '\\' := by
        intro isEscape
        cases rest with
        | nil => exact notLast isEscape rfl
        | cons d rest => exact notEscape d rest isEscape rfl
      rw [List.cons_append, splitLiteral?_plain plain other, ih found]
      rfl

include separates

theorem literal_again (isQuote : c = '"' ∨ c = '\'')
    (outcome : literal position c rest = .ok lexeme) {position' : Nat} {tail : List Char}
    (chars : lexeme.chars = c :: tail) :
    literal position' c (tail ++ following) = .ok { lexeme with rest := following } := by
  obtain ⟨body, found, ⟨decoded, decodes, isFine⟩, isString, chars'⟩ := literal_eq_ok.mp outcome
  obtain rfl := (List.cons.inj (chars.symm.trans chars')).2
  have ends : ∀ d ∈ following.head?, d ≠ c := by
    rintro d isNext rfl
    have noQuote := isBlank_excludes (separates d isNext)
    obtain rfl | rfl := isQuote <;> simp at noQuote
  exact literal_eq_ok.mpr ⟨tail, splitLiteral?_again found ends,
    ⟨decoded, Escape.decode_moved decodes, isFine⟩, isString, chars⟩

/-- A number in base sixteen ends before a blank. -/
theorem hexNumber_again (outcome : hexNumber position mark rest = .ok lexeme) (position' : Nat) :
    ∃ tail, lexeme.chars = '0' :: mark :: tail ∧
      hexNumber position' mark (tail ++ following) = .ok { lexeme with rest := following } := by
  obtain ⟨digits, behind, rfl, digits_taken⟩ := exists_taken isHexDigit rest
  obtain ⟨qualifiers, left, rfl, qualifiers_taken⟩ := exists_taken isIntegerQualifier behind
  rw [hexNumber, digits_taken, dropWhile_eq_of_takeWhile_eq digits_taken, qualifiers_taken,
    dropWhile_eq_of_takeWhile_eq qualifiers_taken] at outcome
  have digits_again := settles_hexDigits.again qualifiers digits_taken separates
  have qualifiers_again := settles_integerQualifiers.again_last qualifiers_taken separates
  split at outcome
  next => cases outcome
  next someDigits =>
    obtain rfl := Except.ok.inj outcome
    refine ⟨digits ++ qualifiers, rfl, ?_⟩
    rw [hexNumber, List.append_assoc, digits_again, dropWhile_eq_of_takeWhile_eq digits_again,
      qualifiers_again, dropWhile_eq_of_takeWhile_eq qualifiers_again]
    exact if_neg someDigits

/-- A number in base ten ends before a blank, and is split into the same parts. -/
theorem decimalNumber_again (cs : List Char) (visible : isBlank separator = false) :
    decimalNumber separator ((decimalNumber separator cs).chars ++ following) =
      { decimalNumber separator cs with rest := following } := by
  obtain ⟨whole, decimals, power, rest, rfl, parts⟩ := exists_numberParts separator cs
  rw [parts.decimalNumber_eq]
  simp only
  generalize isInteger_eq : (decimals.isEmpty && power.isEmpty) = isInteger
  obtain ⟨qualifiers, left, rfl, qualifiers_taken⟩ := exists_taken (mayQualify isInteger) rest
  have parts_again : NumberParts separator whole decimals power (qualifiers ++ following) :=
    { whole_eq := by
        simpa only [List.append_assoc] using
          settles_digits.again (decimals ++ (power ++ qualifiers))
            (by simpa only [List.append_assoc] using parts.whole_eq) separates
      decimals_eq := by
        simpa only [List.append_assoc] using
          (settles_fraction visible).again (power ++ qualifiers)
            (by simpa only [List.append_assoc] using parts.decimals_eq) separates
      power_eq := settles_exponent.again qualifiers parts.power_eq separates }
  have qualifiers_again := (settles_qualifiers isInteger).again_last qualifiers_taken separates
  have decimal_eq := parts_again.decimalNumber_eq
  simp only [isInteger_eq, qualifiers_again, dropWhile_eq_of_takeWhile_eq qualifiers_again]
    at decimal_eq
  rw [qualifiers_taken]
  simpa using decimal_eq

theorem number_again (visible : isBlank separator = false) (isDigit : c.isDigit = true)
    (outcome : number separator position (c :: rest) = .ok lexeme) {position' : Nat}
    {tail : List Char} (chars : lexeme.chars = c :: tail) :
    number separator position' (c :: (tail ++ following)) =
      .ok { lexeme with rest := following } := by
  obtain ⟨mark, digits, same, isMark, hex⟩ | ⟨unmarked, rfl⟩ := number_cases outcome
  · cases same
    obtain ⟨digits, chars', again⟩ := hexNumber_again separates hex position'
    obtain rfl := (List.cons.inj (chars.symm.trans chars')).2
    obtain rfl | rfl := isMark
    · exact again
    · exact again
  · have decimal_eq := decimalNumber_again separates (c :: rest) visible
    rw [chars, List.cons_append] at decimal_eq
    rw [number_eq_decimal, decimal_eq]
    intro mark behind same
    obtain ⟨tail', chars', covered⟩ := (decimalNumber_taken isDigit).covers
    obtain rfl := (List.cons.inj (chars.symm.trans chars')).2
    obtain ⟨rfl, behind_eq⟩ := List.cons.inj same
    cases tail with
    | nil =>
        -- The digit stands alone, and a blank is no mark.
        have blank := separates mark (by simp [show following = mark :: behind from behind_eq])
        obtain ⟨-, -, -, -, -, noMark, -⟩ := isBlank_excludes blank
        exact noMark
    | cons second tail =>
        obtain ⟨rfl, -⟩ := List.cons.inj behind_eq
        exact unmarked _ _ (by rw [← covered, List.cons_append])

/-- A token is scanned again from its own characters before a blank or the end of the text. -/
theorem first_again (visible : isBlank separator = false)
    (outcome : first separator position c rest = .ok lexeme) {position' : Nat}
    {tail : List Char} (chars : lexeme.chars = c :: tail) :
    first separator position' c (tail ++ following) = .ok { lexeme with rest := following } := by
  cases first_cases outcome with
  | double isDouble =>
      cases rest with
      | nil => cases isDouble
      | cons d rest =>
          obtain ⟨kind, isSymbol, rfl⟩ := Option.map_eq_some_iff.mp isDouble
          cases chars
          simp [first, double?, isSymbol]
  | symbol isSymbol =>
      cases chars
      simp [first, Word.double?_of_separates separates, isSymbol]
  | literal noSymbol isQuote scanned =>
      simpa [first, double?_of_symbol? noSymbol, noSymbol, isQuote] using
        literal_again separates isQuote scanned chars
  | word noSymbol noQuote starts =>
      cases chars
      obtain ⟨same, behind⟩ := Word.span_of_separates (List.all_takeWhile (l := rest)) separates
      simp [first, double?_of_symbol? noSymbol, noSymbol, noQuote, starts, word, same, behind]
  | number noSymbol noQuote noWord isDigit scanned =>
      simpa [first, double?_of_symbol? noSymbol, noSymbol, noQuote, noWord, isDigit] using
        number_again separates visible isDigit scanned chars

end Again

end Lexeme

/-- A last word without characters is no more than blanks. -/
theorem Spaced.of_append_empty {words : List String} {cs : List Char}
    (spaced : Spaced (words ++ [""]) cs) : Spaced words cs := by
  induction words generalizing cs with
  | nil =>
      obtain _ | ⟨blank, _, ⟨blank'⟩⟩ := spaced
      exact .nil (List.forall_mem_append.mpr ⟨blank, blank'⟩)
  | cons word words ih =>
      obtain _ | ⟨blank, separates, spaced⟩ := spaced
      exact .cons blank separates (ih spaced)

namespace Scan

variable {separator : Char}

/-- What is scanned as a token is scanned as this token again. -/
theorem scanFrom_scansWith (visible : isBlank separator = false) (fuel position : Nat)
    (cs : List Char) : ∀ token ∈ (scanFrom separator fuel position cs).tokens,
      token.kind ≠ .finish → token.word.ScansWith separator := by
  induction fuel generalizing position cs with
  | zero => simp [scanFrom]
  | succ fuel ih =>
      unfold scanFrom
      simp only
      split
      next => simp
      next c rest goes =>
        split
        next => simp
        next lexeme outcome =>
          refine List.forall_mem_cons.mpr ⟨fun _ => ?_, ih _ _⟩
          have noBlank : isBlank c = false := by
            have start := List.head?_dropWhile_not isBlank cs
            simpa [goes] using start
          obtain ⟨tail, chars, -⟩ := (Lexeme.first_taken outcome).covers
          refine ⟨c, tail, by simp [Token.word, chars], noBlank, fun position rest separates => ?_⟩
          rw [Lexeme.first_again separates visible outcome chars, ← chars]
          rfl

/-- A text that is scanned to its end gives the same words in every layout. -/
theorem ofText_relaid {text : String} (visible : isBlank separator = false)
    (scanned : (ofText text separator).failure = none) :
    ∃ words : List Word,
      (ofText text separator).tokens.map Token.word = words ++ [⟨.finish, ""⟩] ∧
      ∀ relaid : String, Spaced (words.map Word.text) relaid.toList →
        (ofText relaid separator).failure = none ∧
          (ofText relaid separator).tokens.map Token.word = words ++ [⟨.finish, ""⟩] := by
  obtain ⟨tokens, stop, left, last, layout, ending, -, scan_eq⟩ :=
    Cursor.exists_run separator (.ofText text) (Nat.lt_succ_self _)
  have ofText_eq : ofText text separator = Cursor.scan tokens last := scan_eq
  cases ending with
  | refused visible outcome => simp [ofText_eq, Cursor.scan] at scanned
  | finish =>
      refine ⟨tokens.map Token.word, by simp [ofText_eq, Cursor.scan, Token.word], ?_⟩
      intro relaid spaced
      have scans : ∀ word ∈ tokens.map Token.word, word.ScansWith separator := by
        refine List.forall_mem_map.mpr fun token member => ?_
        have scanned_token : token ∈ (ofText text separator).tokens :=
          ofText_eq ▸ List.mem_append_left _ member
        exact scanFrom_scansWith visible _ _ _ token scanned_token (layout.notFinish token member)
      obtain ⟨tokens', finish, scanned', same, isFinish⟩ :=
        scanFrom_spaced spaced scans 0 (Nat.lt_succ_self _)
      rw [ofText, scanned']
      exact ⟨rfl, by simp [same, isFinish]⟩

/-- The texts of the tokens of a text, with single blanks between them, are scanned as tokens of the
same kinds and texts, be the empty text of the end among them or not. -/
theorem ofText_intercalate {text : String} (visible : isBlank separator = false)
    (scanned : (ofText text separator).failure = none) :
    let words := (ofText text separator).tokens.map Token.word
    let texts := words.map Word.text
    ∀ joined ∈ [" ".intercalate texts, " ".intercalate texts.dropLast],
      (ofText joined separator).failure = none ∧
        (ofText joined separator).tokens.map Token.word = words := by
  obtain ⟨words, words_eq, relaid⟩ := ofText_relaid visible scanned
  simp only [words_eq, List.map_append, List.map_cons, List.map_nil, List.dropLast_concat,
    List.forall_mem_cons]
  refine ⟨relaid _ ?_, relaid _ ?_, by simp⟩
  · rw [String.toList_intercalate]
    exact (Spaced.intercalate _).of_append_empty
  · rw [String.toList_intercalate]
    exact Spaced.intercalate _

theorem ofText_intercalate_mixed :
    let text := " x.?.y>=0x1FuL ??\"it\"\"s\"\tnot-.5e+3f..^a1"
    isBlank '.' = false ∧ (ofText text '.').failure = none ∧
      ((ofText text '.').tokens.map Token.text).dropLast =
        ["x", ".", "?.", "y", ">=", "0x1FuL", "??", "\"it\"\"s\"", "not", "-", ".", "5e+3f",
          ".", ".", "^a1"] ∧
      let joined := "x . ?. y >= 0x1FuL ?? \"it\"\"s\" not - . 5e+3f . . ^a1"
      (ofText joined '.').failure = none ∧
        (ofText joined '.').tokens.map Token.word = (ofText text '.').tokens.map Token.word := by
  have visible : isBlank '.' = false := by decide +kernel
  have scanned : (ofText " x.?.y>=0x1FuL ??\"it\"\"s\"\tnot-.5e+3f..^a1" '.').failure = none := by
    decide +kernel
  refine ⟨visible, scanned, by decide +kernel, ?_⟩
  refine ofText_intercalate visible scanned _ ?_
  decide +kernel

end Scan

end QueryTree
