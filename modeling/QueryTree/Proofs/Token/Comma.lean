import QueryTree.Proofs.Token.Spacing

/-!
# Texts cut at a comma

The tokens before a comma are those of the text up to the comma, and the tokens behind it are those
of the text behind it.  Only a decimal point that is a comma may make one number of both sides.
-/

namespace QueryTree

open Text (isBlank)

namespace Lexeme

variable {separator c delimiter mark : Char} {position : Nat} {cs rest more body left : List Char}
  {lexeme : Lexeme}

/-- A lexeme with more text behind it. -/
def followedBy (lexeme : Lexeme) (more : List Char) : Lexeme :=
  { lexeme with rest := lexeme.rest ++ more }

theorem followedBy_inj {other : Lexeme} :
    lexeme.followedBy more = other.followedBy more ↔ lexeme = other := by
  cases lexeme
  cases other
  simp [followedBy]

/-- A comma is no part of what is taken before it. -/
theorem takeWhile_comma {holds : Char → Bool} (excludes : holds ',' = false) (cs : List Char) :
    (cs ++ ',' :: more).takeWhile holds = cs.takeWhile holds := by
  induction cs with
  | nil => simp [excludes]
  | cons c cs ih => simp [List.takeWhile_cons, ih]

theorem dropWhile_comma {holds : Char → Bool} (excludes : holds ',' = false) (cs : List Char) :
    (cs ++ ',' :: more).dropWhile holds = cs.dropWhile holds ++ ',' :: more := by
  induction cs with
  | nil => simp [excludes]
  | cons c cs ih =>
      simp only [List.cons_append, List.dropWhile_cons, ih]
      split <;> rfl

section Quoted

theorem splitLiteral?_nonempty (outcome : splitLiteral? delimiter cs = some (body, left)) :
    left.length < cs.length := by
  fun_induction splitLiteral? delimiter cs generalizing body left
  case case1 | case2 => cases outcome
  case case4 | case6 =>
    cases outcome
    simp
  case case3 ih | case5 ih =>
    obtain ⟨_, found, same⟩ := Option.map_eq_some_iff.mp outcome
    cases same
    exact Nat.lt_succ_of_lt (Nat.lt_succ_of_lt (ih found))
  case case7 ih =>
    obtain ⟨_, found, same⟩ := Option.map_eq_some_iff.mp outcome
    cases same
    exact Nat.lt_succ_of_lt (ih found)

theorem map_body_eq_some {found? : Option (List Char × List Char)} (front : List Char) :
    (found?.map fun (body, left) => (front ++ body, left)) = some (body, left) ↔
      ∃ inner, front ++ inner = body ∧ found? = some (inner, left) := by
  cases found? <;> simp [Prod.ext_iff]

/-- Where two literals have the same ends, they have so with the same characters in front. -/
theorem map_body_comma {found? found?' : Option (List Char × List Char)} (front : List Char)
    (each : ∀ body left,
      found?' = some (body, left ++ ',' :: more) ↔ found? = some (body, left)) :
    (found?'.map fun (body, left) => (front ++ body, left)) = some (body, left ++ ',' :: more) ↔
      (found?.map fun (body, left) => (front ++ body, left)) = some (body, left) := by
  simp only [map_body_eq_some, each]

/-- A doubled delimiter belongs to a literal. -/
theorem splitLiteral?_doubled (plain : delimiter ≠ '\\') :
    splitLiteral? delimiter (delimiter :: delimiter :: cs) =
      (splitLiteral? delimiter cs).map fun (body, left) =>
        (delimiter :: delimiter :: body, left) := by
  simp [splitLiteral?, plain]

/-- A literal is closed before a comma if and only if it is closed in the text up to there. -/
theorem splitLiteral?_comma (plain : delimiter ≠ '\\') (other : delimiter ≠ ',') :
    splitLiteral? delimiter (cs ++ ',' :: more) = some (body, left ++ ',' :: more) ↔
      splitLiteral? delimiter cs = some (body, left) := by
  fun_induction splitLiteral? delimiter cs generalizing body left with
  | case1 =>
      refine iff_of_false (fun outcome => ?_) (by simp)
      have shorter := splitLiteral?_nonempty outcome
      simp only [List.nil_append, List.length_append] at shorter
      omega
  | case2 =>
      refine iff_of_false (fun outcome => ?_) (by simp)
      obtain ⟨inner, -, found⟩ := (map_body_eq_some ['\\', ',']).mp outcome
      have shorter := splitLiteral?_nonempty found
      simp only [List.length_append, List.length_cons] at shorter
      omega
  | case3 c rest ih => exact map_body_comma ['\\', c] fun _ _ => ih
  | case4 notLast =>
      rw [List.cons_append, List.nil_append, splitLiteral?_delimiter plain (by simp [other.symm])]
      simp [eq_comm]
  | case5 rest _ notEscape ih =>
      rw [List.cons_append, List.cons_append, splitLiteral?_doubled plain]
      exact map_body_comma [delimiter, delimiter] fun _ _ => ih
  | case6 d rest notDouble _ notEscape =>
      rw [List.cons_append, List.cons_append,
        splitLiteral?_delimiter plain (by simpa using notDouble), ← List.cons_append]
      simp only [Option.some.injEq, Prod.mk.injEq, List.append_cancel_right_eq]
  | case7 c rest notLast notEscape isOther ih =>
      have noEscape : c ≠ '\\' := by
        intro isEscape
        cases rest with
        | nil => exact notLast isEscape rfl
        | cons d rest => exact notEscape d rest isEscape rfl
      rw [List.cons_append, splitLiteral?_plain noEscape isOther]
      exact map_body_comma [c] fun _ _ => ih

theorem literal_comma (isQuote : delimiter = '"' ∨ delimiter = '\'') :
    literal position delimiter (cs ++ ',' :: more) = .ok (lexeme.followedBy (',' :: more)) ↔
      literal position delimiter cs = .ok lexeme := by
  have plain : delimiter ≠ '\\' ∧ delimiter ≠ ',' := by
    obtain rfl | rfl := isQuote <;> simp
  simp only [literal_eq_ok, followedBy, splitLiteral?_comma plain.1 plain.2]

end Quoted

section Number

theorem fraction_comma (apart : separator = ',' → cs = [] → ∀ d ∈ more.head?, d.isDigit = false) :
    fraction separator (cs ++ ',' :: more) = fraction separator cs := by
  match cs with
  | [] =>
      rw [List.nil_append, fraction_cons]
      split
      next isComma =>
        cases more with
        | nil => rfl
        | cons d more => simp [withDigits_cons, apart isComma.symm rfl d rfl, fraction]
      next => rfl
  | c :: cs =>
      have digits := @takeWhile_comma more Char.isDigit rfl cs
      simp only [List.cons_append, fraction_cons, withDigits, digits]

theorem exponent_comma : exponent (cs ++ ',' :: more) = exponent cs := by
  have digits := @takeWhile_comma more Char.isDigit rfl
  match cs with
  | [] => rfl
  | mark :: cs =>
      rw [List.cons_append, exponent_cons, exponent_cons]
      match cs with
      | [] => rfl
      | sign :: cs =>
        have signed := digits (sign :: cs)
        rw [List.cons_append] at signed
        simp only [List.cons_append, exponentFrom, withDigits, digits, signed]

/-- A number is the same before a comma that is no decimal point of it. -/
theorem decimalNumber_comma
    (apart : separator = ',' → cs.dropWhile Char.isDigit = [] →
      ∀ d ∈ more.head?, d.isDigit = false) :
    decimalNumber separator (cs ++ ',' :: more) =
      (decimalNumber separator cs).followedBy (',' :: more) := by
  obtain ⟨whole, decimals, power, rest, rfl, parts⟩ := exists_numberParts separator cs
  rw [dropWhile_eq_of_takeWhile_eq parts.whole_eq] at apart
  have parts' : NumberParts separator whole decimals power (rest ++ ',' :: more) :=
    { whole_eq := by
        have digits := @takeWhile_comma more Char.isDigit rfl
          (whole ++ (decimals ++ (power ++ rest)))
        simpa only [List.append_assoc, parts.whole_eq] using digits
      decimals_eq := by
        have point := fraction_comma apart
        simpa only [List.append_assoc, parts.decimals_eq] using point
      power_eq := by
        have exponent_eq := @exponent_comma (power ++ rest) more
        simpa only [List.append_assoc, parts.power_eq] using exponent_eq }
  have qualifiers (isInteger : Bool) : mayQualify isInteger ',' = false := by
    cases isInteger <;> rfl
  rw [parts.decimalNumber_eq]
  simp only [List.append_assoc]
  rw [parts'.decimalNumber_eq]
  simp only [takeWhile_comma (qualifiers _), dropWhile_comma (qualifiers _), followedBy]

/-- A number that ends before a comma is a number of the text up to there. -/
theorem decimalNumber_of_comma
    (outcome : decimalNumber separator (cs ++ ',' :: more) = lexeme.followedBy (',' :: more)) :
    decimalNumber separator cs = lexeme := by
  refine followedBy_inj.mp ((decimalNumber_comma ?_).symm.trans outcome)
  rintro rfl allDigits d isNext
  by_contra isDigit
  -- The comma and the digit behind it would be part of the number.
  have whole : (cs ++ ',' :: more).takeWhile Char.isDigit = cs := by
    have parts := @List.takeWhile_append_dropWhile _ Char.isDigit cs
    rwa [allDigits, List.append_nil, ← takeWhile_comma rfl] at parts
  obtain ⟨behind, rfl⟩ : ∃ behind, more = d :: behind := by
    cases more with
    | nil => cases isNext
    | cons c behind => exact ⟨behind, by rw [Option.mem_some_iff.mp isNext]⟩
  have point : fraction ',' (',' :: d :: behind) = ',' :: d :: behind.takeWhile Char.isDigit := by
    simp [fraction, isDigit]
  have behind_length :
      (decimalNumber ',' (cs ++ ',' :: d :: behind)).rest.length ≤ behind.length := by
    unfold decimalNumber
    simp only [whole, List.drop_left, point, List.isEmpty_cons, Bool.false_and, Bool.false_eq_true,
      if_false]
    refine (List.dropWhile_suffix _).length_le.trans ?_
    simp only [List.length_drop, List.length_cons]
    omega
  rw [outcome, followedBy, List.length_append, List.length_cons, List.length_cons] at behind_length
  omega

theorem hexNumber_comma :
    hexNumber position mark (cs ++ ',' :: more) =
      (hexNumber position mark cs).map (·.followedBy (',' :: more)) := by
  have hex : isHexDigit ',' = false := rfl
  have qualifier : isIntegerQualifier ',' = false := rfl
  simp only [hexNumber, takeWhile_comma hex, dropWhile_comma hex, takeWhile_comma qualifier,
    dropWhile_comma qualifier]
  split <;> rfl

end Number

section First

theorem word_comma : word c (rest ++ ',' :: more) = (word c rest).followedBy (',' :: more) := by
  have other : continuesIdentifier ',' = false := rfl
  simp only [word, takeWhile_comma other, dropWhile_comma other, followedBy]

theorem double?_comma :
    double? c (rest ++ ',' :: more) = (double? c rest).map (·.followedBy (',' :: more)) := by
  cases rest with
  | nil =>
      have none : Token.doubleSymbol? c ',' = none := by
        unfold Token.doubleSymbol?
        split <;> simp_all
      simp [double?, none]
  | cons d rest => simp [double?, followedBy, Function.comp_def]

/-- An outcome that is the same before a comma. -/
theorem followedBy_iff {outcome outcome' : Except CompileError Lexeme}
    (same : outcome' = outcome.map (·.followedBy (',' :: more))) (lexeme : Lexeme) :
    outcome' = .ok (lexeme.followedBy (',' :: more)) ↔ outcome = .ok lexeme := by
  rw [same]
  cases outcome with
  | error error => simp [Except.map]
  | ok found => simp [Except.map, followedBy_inj]

theorem number_comma_cases (separator : Char) (position : Nat) (c : Char) (rest more : List Char) :
    (∀ lexeme, number separator position (c :: (rest ++ ',' :: more)) =
        .ok (lexeme.followedBy (',' :: more)) ↔
      number separator position (c :: rest) = .ok lexeme) ∨
    number separator position (c :: rest) = .ok (decimalNumber separator (c :: rest)) ∧
      number separator position (c :: (rest ++ ',' :: more)) =
        .ok (decimalNumber separator (c :: (rest ++ ',' :: more))) := by
  by_cases marked : ∃ mark behind, c :: rest = '0' :: mark :: behind ∧ (mark = 'x' ∨ mark = 'X')
  · obtain ⟨mark, behind, same, isMark⟩ := marked
    cases same
    refine .inl (followedBy_iff ?_)
    obtain rfl | rfl := isMark <;> exact hexNumber_comma
  · refine .inr ⟨number_eq_decimal ?_, number_eq_decimal ?_⟩
    · rintro mark behind same
      constructor <;> rintro rfl <;> exact marked ⟨_, behind, same, by simp⟩
    · rintro mark behind same
      cases rest with
      | nil =>
          obtain ⟨-, rfl, -⟩ : c = '0' ∧ ',' = mark ∧ more = behind := by simpa using same
          simp
      | cons second rest =>
          obtain ⟨rfl, rfl, -⟩ : c = '0' ∧ second = mark ∧ rest ++ ',' :: more = behind := by
            simpa using same
          constructor <;> rintro rfl <;> exact marked ⟨_, rest, rfl, by simp⟩

/-- The token at the front of a text is the same before a comma, or is a number in base ten. -/
theorem first_comma_cases (separator : Char) (position : Nat) (c : Char) (rest more : List Char) :
    (∀ lexeme, first separator position c (rest ++ ',' :: more) =
        .ok (lexeme.followedBy (',' :: more)) ↔
      first separator position c rest = .ok lexeme) ∨
    first separator position c rest = .ok (decimalNumber separator (c :: rest)) ∧
      first separator position c (rest ++ ',' :: more) =
        .ok (decimalNumber separator (c :: (rest ++ ',' :: more))) := by
  simp only [first, double?_comma]
  cases double? c rest with
  | some doubled => exact .inl (followedBy_iff rfl)
  | none =>
      simp only [Option.map_none]
      cases Token.symbol? c with
      | some kind => exact .inl (followedBy_iff rfl)
      | none =>
          simp only
          split
          next isQuote => exact .inl fun lexeme => literal_comma (by simpa using isQuote)
          next =>
            split
            next => exact .inl (followedBy_iff (by rw [word_comma]; rfl))
            next =>
              split
              next => exact number_comma_cases separator position c rest more
              next => exact .inl (followedBy_iff rfl)

/-- A token is scanned before a comma as at the end of a text. -/
theorem first_comma (apart : separator = ',' → ∀ d ∈ more.head?, d.isDigit = false)
    (outcome : first separator position c rest = .ok lexeme) :
    first separator position c (rest ++ ',' :: more) = .ok (lexeme.followedBy (',' :: more)) := by
  obtain same | ⟨decimal, decimal'⟩ := first_comma_cases separator position c rest more
  · exact (same lexeme).mpr outcome
  · obtain rfl := Except.ok.inj (decimal.symm.trans outcome)
    rw [decimal', ← List.cons_append, decimalNumber_comma fun isComma _ => apart isComma]

/-- A token that is scanned before a comma is scanned at the end of a text. -/
theorem first_of_comma (outcome : first separator position c (rest ++ ',' :: more) =
    .ok (lexeme.followedBy (',' :: more))) : first separator position c rest = .ok lexeme := by
  obtain same | ⟨decimal, decimal'⟩ := first_comma_cases separator position c rest more
  · exact (same lexeme).mp outcome
  · rw [decimal'] at outcome
    have upTo := @decimalNumber_of_comma separator (c :: rest) more lexeme (Except.ok.inj outcome)
    rw [decimal, upTo]

/-- A comma is a token of its own. -/
theorem first_eq_comma (separator : Char) (position : Nat) (rest : List Char) :
    first separator position ',' rest = .ok ⟨.comma, [','], rest⟩ := by
  have noDouble : double? ',' rest = none := by
    cases rest <;> rfl
  rw [first, noDouble]
  rfl

/-- Only a comma is a token of its class. -/
theorem eq_comma_of_kind (outcome : first separator position c rest = .ok lexeme)
    (isComma : lexeme.kind = .comma) : c = ',' := by
  cases first_cases outcome with
  | double isDouble => exact absurd isComma (double?_taken isDouble).2.2
  | symbol isSymbol =>
      cases isComma
      unfold Token.symbol? at isSymbol
      split at isSymbol <;> first | rfl | cases isSymbol
  | literal _ _ scanned =>
      obtain ⟨_, _, _, isString, _⟩ := literal_eq_ok.mp scanned
      cases isComma.symm.trans isString
  | word => exact absurd isComma (wordKind_excludes _).2.2
  | number _ _ _ _ scanned => obtain kind | kind := number_kind scanned <;> simp [kind] at isComma

end First

end Lexeme

namespace Cursor

variable {separator : Char} {position : Nat} {cs more : List Char} {token : Token}
  {tokens : List Token} {cursor after : Cursor}

/-- A place with more text behind it. -/
def followedBy (cursor : Cursor) (more : List Char) : Cursor :=
  { cursor with rest := cursor.rest ++ more }

/-- The scan of a text from a place on. -/
def scanned (separator : Char) (cursor : Cursor) : Scan :=
  Scan.scanFrom separator (cursor.rest.length + 1) cursor.position cursor.rest

theorem isBlank_comma : isBlank ',' = false := rfl

/-- What is behind the next token, and how far the text goes. -/
theorem next_left (taken : cursor.next separator = .ok (token, after))
    (notFinish : token.kind ≠ .finish) :
    after.rest.length < cursor.rest.length ∧ after.rest <:+ cursor.rest ∧
      after.position + after.rest.length = cursor.position + cursor.rest.length := by
  have step := next_step separator cursor
  rw [taken] at step
  cases step with
  | finish => exact absurd rfl notFinish
  | token blank _ nonempty starts =>
      have width : token.text.length ≠ 0 :=
        fun none => nonempty (String.length_eq_zero_iff.mp none)
      refine ⟨?_, (List.suffix_append _ _).trans (List.suffix_append _ _), ?_⟩
      · simp only [List.length_append, String.length_toList]
        omega
      · simp only [List.length_append, String.length_toList, Token.stop, starts]
        omega

/-- The fuel of a scan does not count. -/
theorem scanFrom_eq_scanned {fuel : Nat} (enough : cursor.rest.length < fuel) :
    Scan.scanFrom separator fuel cursor.position cursor.rest = cursor.scanned separator := by
  have same {fuel' : Nat} (enough' : cursor.rest.length < fuel') :
      Scan.scanFrom separator fuel cursor.position cursor.rest =
        Scan.scanFrom separator fuel' cursor.position cursor.rest := by
    induction fuel generalizing cursor fuel' with
    | zero => omega
    | succ fuel ih =>
        obtain ⟨fuel', rfl⟩ := Nat.exists_eq_add_one_of_ne_zero (Nat.ne_zero_of_lt enough')
        rw [scanFrom_eq, scanFrom_eq]
        cases taken : cursor.next separator with
        | error error => rfl
        | ok following =>
            obtain ⟨token, after⟩ := following
            simp only
            split
            next => rfl
            next notFinish =>
              have shorter := (next_left taken notFinish).1
              rw [@ih after (by omega) fuel' (by omega)]
  exact same (Nat.lt_succ_self _)

/-- A text is scanned token by token. -/
theorem scanned_eq (separator : Char) (cursor : Cursor) :
    cursor.scanned separator =
      match cursor.next separator with
      | .error error => ⟨[], some error⟩
      | .ok (token, after) =>
        if token.kind = .finish then ⟨[token], none⟩
        else Scan.cons token (after.scanned separator) := by
  rw [scanned, scanFrom_eq]
  cases taken : cursor.next separator with
  | error error => rfl
  | ok following =>
      obtain ⟨token, after⟩ := following
      simp only
      split
      next => rfl
      next notFinish => rw [scanFrom_eq_scanned (next_left taken notFinish).1]

/-- The next token is scanned behind blanks. -/
theorem next_eq_ok : (cursor.next separator = .ok (token, after) ∧ token.kind ≠ .finish) ↔
    ∃ c rest lexeme, cursor.rest.dropWhile isBlank = c :: rest ∧
      Lexeme.first separator (cursor.position + (cursor.rest.takeWhile isBlank).length) c rest =
        .ok lexeme ∧
      token = ⟨lexeme.kind, String.ofList lexeme.chars,
        cursor.position + (cursor.rest.takeWhile isBlank).length⟩ ∧
      after = ⟨cursor.position + (cursor.rest.takeWhile isBlank).length + lexeme.chars.length,
        lexeme.rest⟩ := by
  constructor
  · rintro ⟨taken, notFinish⟩
    simp only [next] at taken
    split at taken
    next =>
      obtain ⟨rfl, -⟩ := Prod.ext_iff.mp (Except.ok.inj taken)
      exact absurd rfl notFinish
    next c rest behind =>
      obtain ⟨lexeme, outcome, same⟩ := map_eq_ok_iff.mp taken
      obtain ⟨rfl, rfl⟩ := Prod.ext_iff.mp same
      exact ⟨c, rest, lexeme, behind, outcome, rfl, rfl⟩
  · rintro ⟨c, rest, lexeme, behind, outcome, rfl, rfl⟩
    refine ⟨?_, (Lexeme.first_taken outcome).notFinish⟩
    simp only [next, behind, outcome]
    rfl

/-- The next token is the same before a comma. -/
theorem next_comma (apart : separator = ',' → ∀ d ∈ more.head?, d.isDigit = false)
    (taken : cursor.next separator = .ok (token, after)) (notFinish : token.kind ≠ .finish) :
    (cursor.followedBy (',' :: more)).next separator =
      .ok (token, after.followedBy (',' :: more)) := by
  obtain ⟨c, rest, lexeme, behind, outcome, rfl, rfl⟩ := next_eq_ok.mp ⟨taken, notFinish⟩
  refine
    (next_eq_ok.mpr ⟨c, rest ++ ',' :: more, lexeme.followedBy (',' :: more), ?_, ?_, ?_, ?_⟩).1
  · rw [followedBy, Lexeme.dropWhile_comma isBlank_comma, behind]
    rfl
  · simpa only [followedBy, Lexeme.takeWhile_comma isBlank_comma] using
      Lexeme.first_comma apart outcome
  · simp only [followedBy, Lexeme.takeWhile_comma isBlank_comma, Lexeme.followedBy]
  · simp only [followedBy, Lexeme.takeWhile_comma isBlank_comma, Lexeme.followedBy]

/-- The next token is the same in the text up to a comma that is behind it. -/
theorem next_of_comma
    (taken : (cursor.followedBy (',' :: more)).next separator =
      .ok (token, after.followedBy (',' :: more))) (notFinish : token.kind ≠ .finish) :
    cursor.next separator = .ok (token, after) := by
  obtain ⟨c, rest, lexeme, behind, outcome, rfl, after_eq⟩ := next_eq_ok.mp ⟨taken, notFinish⟩
  simp only [followedBy, Lexeme.takeWhile_comma isBlank_comma,
    Lexeme.dropWhile_comma isBlank_comma] at behind outcome after_eq ⊢
  obtain ⟨position_eq, rest_eq⟩ := (Cursor.mk.injEq ..).mp after_eq
  cases ahead : cursor.rest.dropWhile isBlank with
  | nil =>
      -- The comma itself would be the token, and would be left behind it as well.
      obtain ⟨rfl, rfl⟩ : c = ',' ∧ rest = more := by simpa [ahead, eq_comm] using behind
      obtain rfl := Except.ok.inj ((Lexeme.first_eq_comma ..).symm.trans outcome)
      have lengths := congrArg List.length rest_eq
      simp only [List.length_append, List.length_cons] at lengths
      omega
  | cons first following =>
      obtain ⟨rfl, rfl⟩ : first = c ∧ following ++ ',' :: more = rest := by
        simpa [ahead] using behind
      have followed : lexeme = (Lexeme.mk lexeme.kind lexeme.chars after.rest).followedBy
          (',' :: more) := by
        rw [Lexeme.followedBy, rest_eq]
      rw [followed] at outcome
      refine (next_eq_ok.mpr ⟨first, following, _, ahead, Lexeme.first_of_comma outcome, rfl, ?_⟩).1
      rw [← position_eq]

/-- The tokens that are scanned from one place to another. -/
inductive Run (separator : Char) : Cursor → List Token → Cursor → Prop where
  | nil {cursor : Cursor} : Run separator cursor [] cursor
  | cons {cursor middle after : Cursor} {token : Token} {tokens : List Token}
      (taken : cursor.next separator = .ok (token, middle)) (notFinish : token.kind ≠ .finish)
      (run : Run separator middle tokens after) : Run separator cursor (token :: tokens) after

namespace Run

theorem notFinish (run : Run separator cursor tokens after) :
    ∀ token ∈ tokens, token.kind ≠ .finish := by
  induction run with
  | nil => simp
  | cons _ notFinish _ ih => exact List.forall_mem_cons.mpr ⟨notFinish, ih⟩

theorem left (run : Run separator cursor tokens after) :
    after.rest <:+ cursor.rest ∧
      after.position + after.rest.length = cursor.position + cursor.rest.length := by
  induction run with
  | nil => exact ⟨List.suffix_refl _, rfl⟩
  | cons taken notFinish _ ih =>
      obtain ⟨-, behind, position_eq⟩ := next_left taken notFinish
      exact ⟨ih.1.trans behind, ih.2.trans position_eq⟩

/-- What is scanned behind some tokens is scanned behind them. -/
theorem scanned_eq (run : Run separator cursor tokens after) :
    cursor.scanned separator =
      ⟨tokens ++ (after.scanned separator).tokens, (after.scanned separator).failure⟩ := by
  induction run with
  | nil => rfl
  | cons taken notFinish _ ih =>
      rw [Cursor.scanned_eq, taken]
      simp only [if_neg notFinish, ih, Scan.cons, List.cons_append]

/-- The tokens of a scan up to one of them are those of a run up to there. -/
theorem of_scanned {behind : List Token} {failure : Option CompileError}
    (scan : cursor.scanned separator = ⟨tokens ++ token :: behind, failure⟩) :
    ∃ after, Run separator cursor tokens after ∧
      after.scanned separator = ⟨token :: behind, failure⟩ := by
  induction tokens generalizing cursor with
  | nil => exact ⟨cursor, .nil, scan⟩
  | cons first tokens ih =>
      rw [Cursor.scanned_eq] at scan
      cases taken : cursor.next separator with
      | error error => simp [taken] at scan
      | ok following =>
          obtain ⟨next, middle⟩ := following
          simp only [taken] at scan
          split at scan
          next => simp at scan
          next notFinish =>
            obtain ⟨same, failure_eq⟩ := (Scan.mk.injEq ..).mp scan
            obtain ⟨rfl, tokens_eq⟩ := List.cons.inj same
            have scan' : middle.scanned separator = ⟨tokens ++ token :: behind, failure⟩ :=
              (Scan.mk.injEq ..).mpr ⟨tokens_eq, failure_eq⟩
            obtain ⟨after, run, scanned⟩ := ih scan'
            exact ⟨after, .cons taken notFinish run, scanned⟩

/-- The tokens before a comma are the same in a text that goes on behind it. -/
theorem comma (apart : separator = ',' → ∀ d ∈ more.head?, d.isDigit = false)
    (run : Run separator cursor tokens after) :
    Run separator (cursor.followedBy (',' :: more)) tokens (after.followedBy (',' :: more)) := by
  induction run with
  | nil => exact .nil
  | cons taken notFinish _ ih => exact .cons (next_comma apart taken notFinish) notFinish ih

/-- The tokens before a comma are the same in the text up to there. -/
theorem of_comma
    (run : Run separator (cursor.followedBy (',' :: more)) tokens
      (after.followedBy (',' :: more))) : Run separator cursor tokens after := by
  generalize start : cursor.followedBy (',' :: more) = longer at run
  generalize stop : after.followedBy (',' :: more) = longer' at run
  induction run generalizing cursor with
  | nil =>
      rw [← stop] at start
      obtain ⟨position_eq, rest_eq⟩ := (Cursor.mk.injEq ..).mp start
      obtain rfl : cursor = after := (Cursor.mk.injEq ..).mpr
        ⟨position_eq, List.append_cancel_right rest_eq⟩
      exact .nil
  | @cons _ middle _ token tokens taken notFinish run ih =>
      subst start stop
      obtain ⟨passed, behind⟩ := run.left.1
      have middle_eq : middle =
          (Cursor.mk middle.position (passed ++ after.rest)).followedBy (',' :: more) := by
        rw [followedBy, List.append_assoc]
        exact (Cursor.mk.injEq ..).mpr ⟨rfl, behind.symm⟩
      rw [middle_eq] at taken
      exact .cons (next_of_comma taken notFinish) notFinish (ih middle_eq.symm rfl)

end Run

/-- The token for the end of a text. -/
def finishAt (position : Nat) : Token := ⟨.finish, "", position⟩

/-- The token for a comma. -/
def commaAt (position : Nat) : Token := ⟨.comma, ",", position⟩

/-- A scan that does not fail ends with a token. -/
theorem scanned_ne_empty (separator : Char) (cursor : Cursor) :
    cursor.scanned separator ≠ ⟨[], none⟩ := by
  rw [scanned_eq]
  split
  next => simp
  next => split <;> simp [Scan.cons]

/-- Before the end of a text there are only blanks. -/
theorem blank_of_scanned {finish : Token} (scan : cursor.scanned separator = ⟨[finish], none⟩) :
    cursor.rest.dropWhile isBlank = [] ∧
      finish = finishAt (cursor.position + cursor.rest.length) := by
  rw [scanned_eq] at scan
  have step := next_step separator cursor
  cases taken : cursor.next separator with
  | error error => simp [taken] at scan
  | ok following =>
      obtain ⟨token, after⟩ := following
      simp only [taken] at scan step
      split at scan
      next isFinish =>
        obtain ⟨rfl⟩ : token = finish := by simpa using scan
        cases step with
        | finish blank => exact ⟨List.dropWhile_eq_nil_iff.mpr blank, rfl⟩
        | token _ notFinish => exact absurd isFinish notFinish
      next =>
        simp only [Scan.cons, Scan.mk.injEq, List.cons.injEq] at scan
        exact absurd ((Scan.mk.injEq ..).mpr ⟨scan.1.2, scan.2⟩) (scanned_ne_empty separator after)

theorem scanned_blank (blank : cursor.rest.dropWhile isBlank = []) :
    cursor.scanned separator = ⟨[finishAt (cursor.position + cursor.rest.length)], none⟩ := by
  have all : cursor.rest.takeWhile isBlank = cursor.rest := by
    simpa [blank] using @List.takeWhile_append_dropWhile _ isBlank cursor.rest
  rw [scanned_eq, next]
  simp only [blank, all]
  rfl

/-- The tokens of a text that goes on behind a comma are those of the text up to there, the comma
and the tokens behind it. -/
theorem scanned_comma {finish : Token}
    (apart : separator = ',' → ∀ d ∈ more.head?, d.isDigit = false)
    (scan : cursor.scanned separator = ⟨tokens ++ [finish], none⟩) :
    finish = finishAt (cursor.position + cursor.rest.length) ∧
      let behind := scanned separator ⟨cursor.position + cursor.rest.length + 1, more⟩
      (cursor.followedBy (',' :: more)).scanned separator =
        ⟨tokens ++ commaAt (cursor.position + cursor.rest.length) :: behind.tokens,
          behind.failure⟩ := by
  obtain ⟨after, run, ended⟩ := Run.of_scanned scan
  obtain ⟨blank, rfl⟩ := blank_of_scanned ended
  have all : after.rest.takeWhile isBlank = after.rest := by
    simpa [blank] using @List.takeWhile_append_dropWhile _ isBlank after.rest
  rw [← run.left.2]
  refine ⟨rfl, ?_⟩
  have taken : (after.followedBy (',' :: more)).next separator =
      .ok (commaAt (after.position + after.rest.length),
        ⟨after.position + after.rest.length + 1, more⟩) := by
    refine (next_eq_ok.mpr ⟨',', more, ⟨.comma, [','], more⟩, ?_, ?_, ?_, ?_⟩).1
    · rw [followedBy, Lexeme.dropWhile_comma isBlank_comma, blank]
      rfl
    · exact Lexeme.first_eq_comma ..
    · simp only [followedBy, Lexeme.takeWhile_comma isBlank_comma, all]
      rfl
    · simp only [followedBy, Lexeme.takeWhile_comma isBlank_comma, all]
      rfl
  have behind := scanned_eq separator (after.followedBy (',' :: more))
  rw [taken] at behind
  rw [(run.comma apart).scanned_eq, behind]
  rfl

/-- A text with a comma among its tokens is one text before the comma and one behind it. -/
theorem exists_scanned_comma {comma : Token} {behind : List Token} {failure : Option CompileError}
    (scan : cursor.scanned separator = ⟨tokens ++ comma :: behind, failure⟩)
    (isComma : comma.kind = .comma) :
    ∃ cs more, cursor.rest = cs ++ ',' :: more ∧ comma = commaAt (cursor.position + cs.length) ∧
      scanned separator ⟨cursor.position, cs⟩ =
        ⟨tokens ++ [finishAt (cursor.position + cs.length)], none⟩ ∧
      scanned separator ⟨cursor.position + cs.length + 1, more⟩ = ⟨behind, failure⟩ := by
  obtain ⟨after, run, scan⟩ := Run.of_scanned scan
  have notFinish : comma.kind ≠ .finish := by simp [isComma]
  rw [scanned_eq] at scan
  cases taken : after.next separator with
  | error error => simp [taken] at scan
  | ok following =>
      obtain ⟨token, middle⟩ := following
      simp only [taken] at scan
      split at scan
      next isFinish =>
        obtain ⟨⟨rfl, -⟩, -⟩ := (Scan.mk.injEq ..).mp scan |>.imp_left List.cons.inj
        exact absurd isFinish notFinish
      next =>
        obtain ⟨same, failure_eq⟩ := (Scan.mk.injEq ..).mp scan
        obtain ⟨rfl, behind_eq⟩ := List.cons.inj same
        obtain ⟨c, more, lexeme, goes, outcome, rfl, rfl⟩ := next_eq_ok.mp ⟨taken, notFinish⟩
        obtain rfl := Lexeme.eq_comma_of_kind outcome isComma
        obtain rfl := Except.ok.inj ((Lexeme.first_eq_comma ..).symm.trans outcome)
        obtain ⟨passed, passes⟩ := run.left.1
        have parts : after.rest = after.rest.takeWhile isBlank ++ ',' :: more := by
          rw [← goes, List.takeWhile_append_dropWhile]
        generalize blanks_eq : after.rest.takeWhile isBlank = blanks at *
        have blank : ∀ c ∈ blanks, isBlank c = true :=
          blanks_eq ▸ fun _ => List.mem_takeWhile_imp
        have whole : cursor.rest = (passed ++ blanks) ++ ',' :: more := by
          rw [← passes, parts, List.append_assoc]
        have stop :
            after.position + blanks.length = cursor.position + (passed ++ blanks).length := by
          have lengths := run.left.2
          rw [parts, whole] at lengths
          simp only [List.length_append, List.length_cons] at lengths ⊢
          omega
        have longer : Run separator
            (followedBy ⟨cursor.position, passed ++ blanks⟩ (',' :: more)) tokens
            (followedBy ⟨after.position, blanks⟩ (',' :: more)) := by
          simpa only [followedBy, ← whole, ← parts] using run
        have upTo := longer.of_comma
        refine ⟨passed ++ blanks, more, whole, ?_, ?_, ?_⟩
        · rw [← stop]
          rfl
        · rw [upTo.scanned_eq, scanned_blank (List.dropWhile_eq_nil_iff.mpr blank), ← stop]
        · rw [← stop]
          exact (Scan.mk.injEq ..).mpr ⟨behind_eq, failure_eq⟩

end Cursor

end QueryTree
