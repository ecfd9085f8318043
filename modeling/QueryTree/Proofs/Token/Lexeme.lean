import QueryTree.Proofs.Spelling.Step
import QueryTree.Token.Scan
import Mathlib.Data.List.TakeWhile

/-!
# The token at the front of a text

What is scanned as one token is the characters at the front of the text, and what is no token is
refused at a position inside of the text.
-/

namespace QueryTree

namespace Lexeme

variable {separator c delimiter mark : Char} {position : Nat} {cs rest body left : List Char}
  {lexeme : Lexeme} {error : CompileError}

/-- A lexeme that covers the characters at the front of a text, the first one among them.  It is
never the end of the text. -/
structure TakenFrom (c : Char) (rest : List Char) (lexeme : Lexeme) : Prop where
  notFinish : lexeme.kind ≠ .finish
  covers : ∃ tail, lexeme.chars = c :: tail ∧ tail ++ lexeme.rest = rest

/-- A word is an identifier or one of the operators that are words. -/
theorem wordKind_mem (text : String) :
    Token.wordKind text ∈ TokenKind.identifier :: Token.wordOperators.map Prod.snd := by
  rw [Token.wordKind]
  cases found : Token.wordOperators.lookup (Text.foldAscii text) with
  | none => exact List.mem_cons_self
  | some kind =>
      obtain ⟨front, back, entries, -⟩ := List.lookup_eq_some_iff.mp found
      have isEntry : (Text.foldAscii text, kind) ∈ Token.wordOperators :=
        entries ▸ List.mem_append_right front List.mem_cons_self
      exact List.mem_cons_of_mem _ (List.mem_map_of_mem isEntry)

theorem wordKind_excludes (text : String) : Token.wordKind text ≠ .finish ∧
    Token.wordKind text ≠ .stringLiteral ∧ Token.wordKind text ≠ .comma := by
  have none : ∀ kind ∈ TokenKind.identifier :: Token.wordOperators.map Prod.snd,
      kind ≠ .finish ∧ kind ≠ .stringLiteral ∧ kind ≠ .comma := by
    decide
  exact none _ (wordKind_mem text)

theorem symbol?_excludes {kind : TokenKind} (outcome : Token.symbol? c = some kind) :
    kind ≠ .finish ∧ kind ≠ .stringLiteral := by
  constructor
  all_goals
    rintro rfl
    unfold Token.symbol? at outcome
    split at outcome <;> cases outcome

theorem doubleSymbol?_excludes {d : Char} {kind : TokenKind}
    (outcome : Token.doubleSymbol? c d = some kind) :
    kind ≠ .finish ∧ kind ≠ .stringLiteral ∧ kind ≠ .comma := by
  refine ⟨?_, ?_, ?_⟩
  all_goals
    rintro rfl
    unfold Token.doubleSymbol? at outcome
    split at outcome <;> cases outcome

theorem double?_taken (outcome : double? c rest = some lexeme) :
    lexeme.TakenFrom c rest ∧ lexeme.kind ≠ .stringLiteral ∧ lexeme.kind ≠ .comma := by
  cases rest with
  | nil => cases outcome
  | cons d rest =>
      obtain ⟨kind, isDouble, rfl⟩ := Option.map_eq_some_iff.mp outcome
      obtain ⟨notFinish, others⟩ := doubleSymbol?_excludes isDouble
      exact ⟨⟨notFinish, [d], rfl, rfl⟩, others⟩

/-- A literal ends somewhere in the text. -/
theorem splitLiteral?_append (outcome : splitLiteral? delimiter cs = some (body, left)) :
    body ++ left = cs := by
  fun_induction splitLiteral? delimiter cs generalizing body left
  case case1 | case2 => cases outcome
  case case4 | case6 =>
    cases outcome
    rfl
  case case3 ih | case5 ih | case7 ih =>
    obtain ⟨_, found, same⟩ := Option.map_eq_some_iff.mp outcome
    cases same
    simp [ih found]

/-- What a literal is: a text that is closed and can be decoded. -/
theorem literal_eq_ok :
    literal position delimiter cs = .ok lexeme ↔
      ∃ body, splitLiteral? delimiter cs = some (body, lexeme.rest) ∧
        (∃ decoded, Escape.decode position (delimiter :: body) = .ok decoded ∧
          ¬ (delimiter = '\'' && decoded.length != 1) = true) ∧
        lexeme.kind = .stringLiteral ∧ lexeme.chars = delimiter :: body := by
  constructor
  · intro outcome
    unfold literal at outcome
    split at outcome
    next => cases outcome
    next body left found =>
      obtain ⟨decoded, decodes, made⟩ := bind_eq_ok_iff.mp outcome
      split at made
      next => cases made
      next isFine =>
        obtain rfl := pure_eq_ok_iff.mp made
        exact ⟨body, found, ⟨decoded, decodes, isFine⟩, rfl, rfl⟩
  · rintro ⟨body, found, ⟨decoded, decodes, isFine⟩, isString, chars⟩
    obtain ⟨kind, _, rest⟩ := lexeme
    obtain rfl : kind = .stringLiteral := isString
    obtain rfl := chars
    rw [literal, found]
    exact bind_eq_ok_iff.mpr ⟨decoded, decodes, if_neg isFine⟩

theorem literal_taken (outcome : literal position c rest = .ok lexeme) :
    lexeme.TakenFrom c rest := by
  obtain ⟨body, found, -, isString, chars⟩ := literal_eq_ok.mp outcome
  exact ⟨by simp [isString], body, chars, splitLiteral?_append found⟩

theorem hexNumber_kind (outcome : hexNumber position mark rest = .ok lexeme) :
    lexeme.kind = .integerLiteral := by
  unfold hexNumber at outcome
  simp only at outcome
  split at outcome
  next => cases outcome
  next =>
    obtain rfl := Except.ok.inj outcome
    rfl

theorem hexNumber_taken (outcome : hexNumber position mark rest = .ok lexeme) :
    lexeme.TakenFrom '0' (mark :: rest) := by
  unfold hexNumber at outcome
  simp only at outcome
  split at outcome
  next => cases outcome
  next =>
    cases outcome
    refine ⟨by simp, _, rfl, ?_⟩
    simp [List.takeWhile_append_dropWhile]

/-- The decimal point and the digits after it are at the front. -/
theorem fraction_prefix (separator : Char) (cs : List Char) : fraction separator cs <+: cs := by
  unfold fraction
  split
  next c d rest =>
    split
    next => simpa using List.takeWhile_prefix _
    next => exact List.nil_prefix
  next => exact List.nil_prefix

/-- An exponent is at the front. -/
theorem exponent_prefix (cs : List Char) : exponent cs <+: cs := by
  unfold exponent
  split
  next mark rest =>
    split
    next =>
      split
      next sign d rest =>
        split
        next => simpa using List.takeWhile_prefix _
        next =>
          split
          next => simpa using List.takeWhile_prefix (l := d :: rest) _
          next => exact List.nil_prefix
      next => split <;> simp
      next => exact List.nil_prefix
    next => exact List.nil_prefix
  next => exact List.nil_prefix

/-- The letters that may end a number, which is an integer or not. -/
def mayQualify (isInteger : Bool) (c : Char) : Bool :=
  isInteger && isIntegerQualifier c || isRealQualifier c

/-- The parts that a number is split into: digits, a decimal point with digits, an exponent, and
what follows them. -/
structure NumberParts (separator : Char) (whole decimals power following : List Char) : Prop where
  whole_eq : (whole ++ (decimals ++ (power ++ following))).takeWhile Char.isDigit = whole
  decimals_eq : fraction separator (decimals ++ (power ++ following)) = decimals
  power_eq : exponent (power ++ following) = power

theorem exists_numberParts (separator : Char) (cs : List Char) :
    ∃ whole decimals power following, cs = whole ++ (decimals ++ (power ++ following)) ∧
      NumberParts separator whole decimals power following := by
  obtain ⟨afterWhole, whole_eq⟩ := List.takeWhile_prefix Char.isDigit (l := cs)
  obtain ⟨afterDecimals, decimals_eq⟩ := fraction_prefix separator afterWhole
  obtain ⟨following, power_eq⟩ := exponent_prefix afterDecimals
  have parts : cs = cs.takeWhile Char.isDigit ++
      (fraction separator afterWhole ++ (exponent afterDecimals ++ following)) := by
    rw [power_eq, decimals_eq, whole_eq]
  refine ⟨_, _, _, following, parts, by rw [← parts], ?_, by rw [power_eq]⟩
  rw [power_eq, decimals_eq]

theorem NumberParts.decimalNumber_eq {whole decimals power following : List Char}
    (parts : NumberParts separator whole decimals power following) :
    let isInteger := decimals.isEmpty && power.isEmpty
    decimalNumber separator (whole ++ (decimals ++ (power ++ following))) =
      ⟨if isInteger then .integerLiteral else .realLiteral,
        whole ++ (decimals ++ (power ++ following.takeWhile (mayQualify isInteger))),
        following.dropWhile (mayQualify isInteger)⟩ := by
  intro isInteger
  unfold decimalNumber
  simp only [parts.whole_eq, List.drop_left, parts.decimals_eq, parts.power_eq]
  cases kind : isInteger with
  | true =>
      obtain ⟨noDecimals, noPower⟩ := (Bool.and_eq_true _ _).mp kind
      rw [List.isEmpty_iff] at noDecimals noPower
      subst noDecimals noPower
      rfl
  | false =>
      have isReal : (decimals.isEmpty && power.isEmpty) = false := kind
      simp only [isReal, List.append_assoc]
      rfl

theorem decimalNumber_taken (isDigit : c.isDigit = true) :
    (decimalNumber separator (c :: rest)).TakenFrom c rest := by
  obtain ⟨whole, decimals, power, following, cs_eq, parts⟩ :=
    exists_numberParts separator (c :: rest)
  obtain ⟨digits, rfl⟩ : ∃ digits, whole = c :: digits := by
    have first := parts.whole_eq
    rw [← cs_eq, List.takeWhile_cons_of_pos isDigit] at first
    exact ⟨_, first.symm⟩
  rw [cs_eq, parts.decimalNumber_eq]
  refine ⟨?_, _, rfl, ?_⟩
  · simp only
    split <;> simp
  · simpa [List.append_assoc] using (List.cons.inj cs_eq).2.symm

/-- A number is in base sixteen if a zero and a mark are in front of it, and else in base ten. -/
theorem number_cases (outcome : number separator position cs = .ok lexeme) :
    (∃ mark digits, cs = '0' :: mark :: digits ∧ (mark = 'x' ∨ mark = 'X') ∧
        hexNumber position mark digits = .ok lexeme) ∨
      (∀ mark digits, cs = '0' :: mark :: digits → mark ≠ 'x' ∧ mark ≠ 'X') ∧
        lexeme = decimalNumber separator cs := by
  unfold number at outcome
  split at outcome
  next => exact .inl ⟨_, _, rfl, .inl rfl, outcome⟩
  next => exact .inl ⟨_, _, rfl, .inr rfl, outcome⟩
  next noMark noCapital =>
    refine .inr ⟨fun mark digits same => ⟨?_, ?_⟩, (Except.ok.inj outcome).symm⟩
    · rintro rfl
      exact noMark digits same
    · rintro rfl
      exact noCapital digits same

theorem number_kind (outcome : number separator position cs = .ok lexeme) :
    lexeme.kind = .integerLiteral ∨ lexeme.kind = .realLiteral := by
  obtain ⟨mark, digits, -, -, hex⟩ | ⟨-, rfl⟩ := number_cases outcome
  · exact .inl (hexNumber_kind hex)
  · simp only [decimalNumber]
    split <;> simp

theorem number_taken (isDigit : c.isDigit = true)
    (outcome : number separator position (c :: rest) = .ok lexeme) : lexeme.TakenFrom c rest := by
  obtain ⟨mark, digits, same, -, hex⟩ | ⟨-, rfl⟩ := number_cases outcome
  · cases same
    exact hexNumber_taken hex
  · exact decimalNumber_taken isDigit

theorem word_taken (c : Char) (rest : List Char) : (word c rest).TakenFrom c rest := by
  constructor
  · simp only [word]
    exact (wordKind_excludes _).1
  · exact ⟨_, rfl, List.takeWhile_append_dropWhile⟩

/-- The ways in which a token stands at the front of a text, each with the checks that lead to
it. -/
inductive IsFirst (separator : Char) (position : Nat) (c : Char) (rest : List Char) :
    Lexeme → Prop where
  | double {lexeme : Lexeme} (isDouble : double? c rest = some lexeme) :
      IsFirst separator position c rest lexeme
  | symbol {kind : TokenKind} (isSymbol : Token.symbol? c = some kind) :
      IsFirst separator position c rest ⟨kind, [c], rest⟩
  | literal {lexeme : Lexeme} (noSymbol : Token.symbol? c = none) (isQuote : c = '"' ∨ c = '\'')
      (scanned : Lexeme.literal position c rest = .ok lexeme) :
      IsFirst separator position c rest lexeme
  | word (noSymbol : Token.symbol? c = none) (noQuote : ¬ (c = '"' ∨ c = '\''))
      (starts : startsIdentifier c = true) : IsFirst separator position c rest (word c rest)
  | number {lexeme : Lexeme} (noSymbol : Token.symbol? c = none)
      (noQuote : ¬ (c = '"' ∨ c = '\'')) (noWord : ¬ startsIdentifier c = true)
      (isDigit : c.isDigit = true)
      (scanned : Lexeme.number separator position (c :: rest) = .ok lexeme) :
      IsFirst separator position c rest lexeme

theorem first_cases (outcome : first separator position c rest = .ok lexeme) :
    IsFirst separator position c rest lexeme := by
  unfold first at outcome
  split at outcome
  next isDouble => exact .double (isDouble.trans (congrArg some (Except.ok.inj outcome)))
  next =>
    split at outcome
    next isSymbol =>
      obtain rfl := Except.ok.inj outcome
      exact .symbol isSymbol
    next noSymbol =>
      simp only [Bool.or_eq_true, decide_eq_true_eq] at outcome
      split at outcome
      next isQuote => exact .literal noSymbol isQuote outcome
      next noQuote =>
        split at outcome
        next starts =>
          obtain rfl := Except.ok.inj outcome
          exact .word noSymbol noQuote starts
        next noWord =>
          split at outcome
          next isDigit => exact .number noSymbol noQuote noWord isDigit outcome
          next => cases outcome

/-- The token at the front of a text is the characters there. -/
theorem first_taken (outcome : first separator position c rest = .ok lexeme) :
    lexeme.TakenFrom c rest := by
  cases first_cases outcome with
  | double isDouble => exact (double?_taken isDouble).1
  | symbol isSymbol => exact ⟨(symbol?_excludes isSymbol).1, [], rfl, rfl⟩
  | literal _ _ scanned => exact literal_taken scanned
  | word => exact word_taken c rest
  | number _ _ _ isDigit scanned => exact number_taken isDigit scanned

section Refused

theorem literal_error (outcome : literal position c rest = .error error) :
    error.position ≤ position + (c :: rest).length := by
  unfold literal at outcome
  split at outcome
  next =>
    obtain rfl := Except.error.inj outcome
    exact Nat.le_add_right ..
  next body left found =>
    have inside : body.length ≤ rest.length := by
      rw [← splitLiteral?_append found, List.length_append]
      exact Nat.le_add_right ..
    obtain undecoded | ⟨decoded, -, made⟩ := bind_eq_error_iff.mp outcome
    · have bound := Escape.decode_error undecoded
      simp only [List.length_cons] at bound ⊢
      omega
    · split at made
      next =>
        obtain rfl := Except.error.inj made
        exact Nat.le_add_right ..
      next => cases made

theorem hexNumber_error (outcome : hexNumber position mark rest = .error error) :
    error.position = position + 2 := by
  unfold hexNumber at outcome
  simp only at outcome
  split at outcome
  next =>
    obtain rfl := Except.error.inj outcome
    rfl
  next => cases outcome

theorem number_error (outcome : number separator position cs = .error error) :
    error.position ≤ position + cs.length := by
  unfold number at outcome
  split at outcome
  next =>
    simp only [hexNumber_error outcome, List.length_cons]
    omega
  next =>
    simp only [hexNumber_error outcome, List.length_cons]
    omega
  next => cases outcome

/-- What is no token is refused inside of the text. -/
theorem first_error (outcome : first separator position c rest = .error error) :
    error.position ≤ position + (c :: rest).length := by
  unfold first at outcome
  split at outcome
  next => cases outcome
  next =>
    split at outcome
    next => cases outcome
    next =>
      split at outcome
      next => exact literal_error outcome
      next =>
        split at outcome
        next => cases outcome
        next =>
          split at outcome
          next => exact number_error outcome
          next =>
            obtain rfl := Except.error.inj outcome
            exact Nat.le_add_right ..

end Refused

end Lexeme

end QueryTree
