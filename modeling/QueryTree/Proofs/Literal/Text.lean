import QueryTree.Proofs.Literal.Integer
import QueryTree.Proofs.Membership.Text
import QueryTree.Proofs.Token.Spacing

/-!
# Integers as whole texts

A text of an integer literal, with or without a minus sign before it, is scanned as the two tokens
or the one, and compiled to what the literal is read as, its sign included.
-/

namespace QueryTree

open Text (isBlank)
open Numeral (Spelled)

namespace Lexeme

variable {separator : Char} {position : Nat} {cs spelling letters blanks : List Char} {n : Nat}

theorem fraction_eq_nil (noDigit : ∀ c ∈ cs, c.isDigit = false) : fraction separator cs = [] := by
  unfold fraction
  split
  next c d rest => simp [noDigit d (by simp)]
  next => rfl

theorem exponent_eq_nil (noDigit : ∀ c ∈ cs, c.isDigit = false) : exponent cs = [] := by
  cases cs with
  | nil => rfl
  | cons mark rest =>
      have noDigits (before front back : List Char) (same : rest = front ++ back) :
          withDigits before back = [] := by
        cases back with
        | nil => rfl
        | cons d back => simp [withDigits_cons, noDigit d (by simp [same])]
      rw [exponent_cons]
      split
      next =>
        cases rest with
        | nil => rfl
        | cons sign rest =>
            have signed : withDigits [mark, sign] rest = [] := noDigits _ [sign] rest rfl
            have plain : withDigits [mark] (sign :: rest) = [] := noDigits _ [] _ rfl
            simp only [exponentFrom, signed, plain, ite_self]
      next => rfl

/-- Behind the digits of a number there are neither further ones nor the mark of a base. -/
theorem behind_excludes (qualify : letters.all isIntegerQualifier = true)
    (blank : ∀ c ∈ blanks, isBlank c = true) :
    ∀ c ∈ letters ++ blanks, isHexDigit c = false ∧ c ≠ 'x' ∧ c ≠ 'X' := by
  intro c member
  rcases List.mem_append.mp member with member | member
  · obtain ⟨noDigit, noSmall, noCapital, -⟩ :=
      Literal.isIntegerQualifier_excludes (List.all_eq_true.mp qualify c member)
    exact ⟨noDigit, noSmall, noCapital⟩
  · obtain ⟨-, noDigit, -, -, -, noMark, -⟩ := isBlank_excludes (blank c member)
    exact ⟨noDigit, noMark⟩

/-- A spelling with its letters is scanned as one number. -/
theorem number_spelled (spelled : Spelled spelling n)
    (qualify : letters.all isIntegerQualifier = true) (blank : ∀ c ∈ blanks, isBlank c = true)
    (separator : Char) (position : Nat) :
    number separator position (spelling ++ (letters ++ blanks)) =
      .ok ⟨.integerLiteral, spelling ++ letters, blanks⟩ := by
  have behind := behind_excludes qualify blank
  cases spelled with
  | decimal nonempty each =>
      have noDigit : ∀ c ∈ letters ++ blanks, c.isDigit = false := by
        intro c member
        have noDigit := (behind c member).1
        simp only [isHexDigit, Bool.or_eq_false_iff] at noDigit
        exact noDigit.1.1
      have noMark : ∀ c ∈ letters ++ blanks, c ≠ 'x' ∧ c ≠ 'X' := fun c member =>
        (behind c member).2
      have whole := (Text.span_append each fun c isFirst =>
        noDigit c (List.mem_of_head? isFirst)).1
      have parts : NumberParts separator spelling [] [] (letters ++ blanks) :=
        ⟨whole, fraction_eq_nil noDigit, exponent_eq_nil noDigit⟩
      have each_letter : letters.all (mayQualify true) = true := by
        rw [List.all_eq_true] at qualify ⊢
        intro c member
        simp [mayQualify, qualify c member]
      have blank_ends : ∀ c ∈ blanks.head?, mayQualify true c = false := by
        intro c isFirst
        simp [mayQualify, isBlank_excludes (blank c (List.mem_of_head? isFirst))]
      obtain ⟨taken, left⟩ := Text.span_append each_letter blank_ends
      have decimal := parts.decimalNumber_eq
      simp only [List.nil_append, List.isEmpty_nil, Bool.and_self, if_true, taken, left] at decimal
      rw [number_eq_decimal fun _ _ same => Literal.unmarked_of_isDigit each noMark same, decimal]
  | @hexadecimal mark digits isMark nonempty each =>
      obtain ⟨found, following⟩ := Text.span_append each fun c isFirst =>
        (behind c (List.mem_of_head? isFirst)).1
      obtain ⟨taken, left⟩ := Text.span_append qualify fun c isFirst =>
        (isBlank_excludes (blank c (List.mem_of_head? isFirst))).2.2.1
      have marked : number separator position ('0' :: mark :: digits ++ (letters ++ blanks)) =
          hexNumber position mark (digits ++ (letters ++ blanks)) := by
        rcases isMark with rfl | rfl <;> rfl
      rw [marked, hexNumber]
      simp [found, following, nonempty, taken, left]

/-- A digit starts a number. -/
theorem first_number {c : Char} (isDigit : c.isDigit = true) (rest : List Char) :
    first separator position c rest = number separator position (c :: rest) := by
  have plain := Numeral.of_isHexDigit (fun c => !c.isDigit || (Token.symbol? c).isNone &&
    !(c = '"' || c = '\'') && !startsIdentifier c) (by decide +kernel)
    (Numeral.isHexDigit_of_isDigit isDigit)
  rw [isDigit, Bool.not_true, Bool.false_or] at plain
  simp only [Bool.and_eq_true, Option.isNone_iff_eq_none, Bool.not_eq_true'] at plain
  obtain ⟨⟨noSymbol, noQuote⟩, noWord⟩ := plain
  simp [first, double?_of_symbol? noSymbol, noSymbol, noQuote, noWord, isDigit]

end Lexeme

/-- A text of a number, with a minus sign before it or without one, and with blanks between. -/
inductive IntegerText (number : List Char) : Bool → List Char → Prop where
  | number {before after : List Char} (blank_before : ∀ c ∈ before, isBlank c = true)
      (blank_after : ∀ c ∈ after, isBlank c = true) :
      IntegerText number false (before ++ (number ++ after))
  | minus {before cs : List Char} (blank : ∀ c ∈ before, isBlank c = true)
      (text : IntegerText number false cs) : IntegerText number true (before ++ '-' :: cs)

/-- The words of a text of a number. -/
def integerWords (negative : Bool) (number : List Char) : List Word :=
  (if negative then [.minus] else []) ++ [⟨.integerLiteral, String.ofList number⟩]

section Scan

variable {spelling letters cs : List Char} {n : Nat} {negative : Bool}

theorem IntegerText.scanFrom_eq (text : IntegerText (spelling ++ letters) negative cs)
    (spelled : Spelled spelling n) (qualify : letters.all Lexeme.isIntegerQualifier = true)
    (separator : Char) (position : Nat) {fuel : Nat} (enough : cs.length < fuel) :
    ∃ tokens finish, Scan.scanFrom separator fuel position cs = ⟨tokens ++ [finish], none⟩ ∧
      tokens.map Token.word = integerWords negative (spelling ++ letters) ∧
      finish.kind = .finish := by
  induction text generalizing position fuel with
  | @number before after blank_before blank_after =>
      obtain ⟨fuel, rfl⟩ := Nat.exists_eq_succ_of_ne_zero (Nat.ne_zero_of_lt enough)
      obtain ⟨d, rest, rfl, isDigit⟩ := spelled.exists_cons
      have visible : isBlank d = false := by
        by_contra blank
        rw [Bool.not_eq_false] at blank
        rw [(Lexeme.isBlank_excludes blank).1] at isDigit
        cases isDigit
      have isFirst (position : Nat) : Lexeme.first separator position d (rest ++ letters ++ after) =
          .ok ⟨.integerLiteral, d :: (rest ++ letters), after⟩ := by
        have scanned := Lexeme.number_spelled spelled qualify blank_after separator position
        rw [Lexeme.first_number isDigit]
        simpa using scanned
      have shorter : after.length < fuel := by
        simp only [List.length_append, List.length_cons] at enough
        omega
      have spaced : Spaced (([] : List Word).map Word.text) after := .nil blank_after
      have noWords : ∀ word ∈ ([] : List Word), word.ScansWith separator := by simp
      obtain ⟨tokens, finish, behind, noTokens, isFinish⟩ := Scan.scanFrom_spaced spaced noWords
        (position + before.length + (d :: (rest ++ letters)).length) shorter
      obtain rfl := List.map_eq_nil_iff.mp noTokens
      have scanned := Scan.scanFrom_lexeme fuel position blank_before visible (isFirst _)
      rw [behind] at scanned
      exact ⟨[⟨.integerLiteral, _, position + before.length⟩], finish, scanned, rfl,
        congrArg Word.kind isFinish⟩
  | @minus before cs blank text ih =>
      obtain ⟨fuel, rfl⟩ := Nat.exists_eq_succ_of_ne_zero (Nat.ne_zero_of_lt enough)
      have isFirst (position : Nat) : Lexeme.first separator position '-' ([] ++ cs) =
          .ok ⟨.minus, ['-'], cs⟩ := by
        cases cs <;> rfl
      have shorter : cs.length < fuel := by
        simp only [List.length_append, List.length_cons] at enough
        omega
      obtain ⟨tokens, finish, behind, words, isFinish⟩ := ih
        (position + before.length + ['-'].length) shorter
      have scanned := Scan.scanFrom_lexeme fuel position blank (by decide +kernel) (isFirst _)
      rw [behind] at scanned
      refine ⟨⟨.minus, "-", position + before.length⟩ :: tokens, finish, scanned, ?_, isFinish⟩
      rw [List.map_cons, words]
      rfl

end Scan

namespace CompileContext

variable {ctx : CompileContext} {session after : Session} {e : Expr} {error : CompileError}

section Unary

variable {expression : Parse Expr}

theorem primary_integer {next : Token} {rest : List Token}
    (isInteger : session.current.kind = .integerLiteral)
    (read : Literal.integer session.current.text session.current.position = .ok e)
    (isNext : session.rest = next :: rest) (noSuffix : next.kind.opensSuffix = false) :
    ctx.primary expression session = .ok e (session.moveTo next rest) := by
  refine primary_eq ?_ noSuffix
  rw [atom, Parse.bind_eq (Parse.current_eq session)]
  simp only [isInteger]
  rw [literalToken, Parse.bind_eq (Parse.current_eq session), Parse.bind_eq (Parse.lift_eq read _),
    Parse.bind_eq (Parse.advance_eq isNext)]
  rfl

theorem primary_integer_error (isInteger : session.current.kind = .integerLiteral)
    (failed : Literal.integer session.current.text session.current.position = .error error) :
    ctx.primary expression session = .error error session := by
  have atom : ctx.atom expression session = .error error session := by
    rw [CompileContext.atom, Parse.bind_eq (Parse.current_eq session)]
    simp only [isInteger]
    rw [literalToken, Parse.bind_eq (Parse.current_eq session)]
    exact Parse.bind_error (Parse.lift_error failed session)
  rw [primary]
  exact Parse.bind_error atom

/-- A minus sign before a number becomes part of it. -/
theorem unary_integer (ctx : CompileContext) {negative : Bool} {number : List Char}
    {finish : Token}
    (begins : session.Begins (integerWords negative number) finish []) :
    ∃ start : Session,
      (∀ expression, ctx.unary expression session = ctx.primary expression start) ∧
      start.store = session.store ∧ start.current.kind = .integerLiteral ∧
      start.current.text = String.ofList ((if negative then ['-'] else []) ++ number) ∧
      start.rest = [finish] ∧ start.moveTo finish [] = session.moveTo finish [] := by
  cases negative with
  | false =>
      obtain ⟨isWord, rest_eq⟩ := begins.single
      have isKind : session.current.kind = .integerLiteral := congrArg Word.kind isWord
      refine ⟨session, ?_, rfl, isKind, congrArg Word.text isWord, rest_eq, rfl⟩
      intro expression
      rw [unary, Parse.bind_eq (Parse.tokensLeft_eq session)]
      exact unaryFrom_eq_primary (isKind ▸ by decide) (isKind ▸ by decide)
  | true =>
      obtain ⟨isMinus, token, rest, rest_eq, behind⟩ := begins.cons
      obtain ⟨isWord, rest_eq'⟩ := behind.single
      have minus_kind : session.current.kind = .minus := congrArg Word.kind isMinus
      have isKind : token.kind = .integerLiteral := congrArg Word.kind isWord
      have isText : token.text = String.ofList number := congrArg Word.text isWord
      let start : Session := session.moveTo
        { token with text := "-" ++ token.text, position := session.current.position } rest
      have merged : mergeSign session.current (session.moveTo token rest) = .ok () start := rfl
      refine ⟨start, ?_, rfl, isKind, ?_, rest_eq', rfl⟩
      · intro expression
        rw [unary, Parse.bind_eq (Parse.tokensLeft_eq session), unaryFrom,
          Parse.bind_eq (Parse.current_eq session)]
        simp only [minus_kind, decide_true, Bool.true_or, if_true]
        rw [Parse.bind_eq (Parse.advance_eq rest_eq), Parse.bind_eq (Parse.current_eq _)]
        simp only [Session.moveTo_current, isKind, decide_true, Bool.true_or, Bool.true_and,
          if_true]
        exact Parse.bind_eq merged
      · change "-" ++ token.text = _
        rw [isText, if_pos rfl, String.ofList_append]

end Unary

/-- A unary expression up to the end of a text is the whole text. -/
theorem body_of_unary (read : ∀ expression, ctx.unary expression session = .ok e after)
    (isFinish : after.current.kind = .finish) : ctx.body none session = .ok e after := by
  have disjunction (expression : Parse Expr) : ctx.disjunction expression session = .ok e after :=
    (levelAt_eq_of_stopsAt (n := 1) (m := 8) (Nat.le_refl 1) (by decide) (Nat.le_refl 8)
      (.of_ok (read expression) (.of_grip (Nat.le_refl 1) (isFinish ▸ by decide)))).trans
      (read expression)
  have whole : ctx.wholeExpression session = .ok e after := by
    rw [wholeExpression, Parse.bind_eq (Parse.tokensLeft_eq session)]
    exact conditional_eq (disjunction _) (isFinish ▸ Nat.le_refl 0)
  exact body_of_whole whole isFinish

/-- A text is refused where its first operand is. -/
theorem body_of_unary_error
    (failed : ∀ expression, ctx.unary expression session = .error error after) :
    ctx.body none session = .error error after := by
  have disjunction (expression : Parse Expr) :
      ctx.disjunction expression session = .error error after :=
    (levelAt_eq_of_stopsAt (n := 1) (m := 8) (Nat.le_refl 1) (by decide) (Nat.le_refl 8)
      (.of_error (failed expression))).trans (failed expression)
  have whole : ctx.wholeExpression session = .error error after := by
    rw [wholeExpression, Parse.bind_eq (Parse.tokensLeft_eq session)]
    change ctx.conditional _ session = _
    rw [conditional, Parse.bind_eq (Parse.position_eq session)]
    refine Parse.bind_error ?_
    rw [coalescing]
    refine Parse.bind_error ?_
    rw [arrow]
    exact Parse.bind_error (disjunction _)
  rw [body, Parse.bind_eq (Parse.position_eq session)]
  exact Parse.bind_error whole

/-- A text of a number is what its literal is read as, the sign included. -/
theorem body_integer {negative : Bool} {number : List Char} {finish : Token}
    (begins : session.Begins (integerWords negative number) finish [])
    (isFinish : finish.kind = .finish) :
    ∃ position after, after.store = session.store ∧ ctx.body none session =
      Parse.lift (Literal.integer (String.ofList ((if negative then ['-'] else []) ++ number))
        position) after := by
  obtain ⟨start, unary_eq, store_eq, isInteger, isText, isNext, behind⟩ :=
    ctx.unary_integer begins
  rw [← isText]
  cases outcome : Literal.integer start.current.text start.current.position with
  | ok e =>
      refine ⟨start.current.position, session.moveTo finish [], rfl, ?_⟩
      rw [outcome]
      refine body_of_unary (fun expression => ?_) isFinish
      have noSuffix : finish.kind.opensSuffix = false := isFinish ▸ rfl
      rw [unary_eq, primary_integer isInteger outcome isNext noSuffix, behind]
  | error error =>
      refine ⟨start.current.position, start, store_eq, ?_⟩
      rw [outcome]
      refine body_of_unary_error fun expression => ?_
      rw [unary_eq, primary_integer_error isInteger outcome]

end CompileContext

section Compile

variable {env : Environment} {params : List Parameter} {args : List Argument}
  {ctx : CompileContext} {text : String} {store : Store}

theorem compileText_eq {α : Type} {step : CompileContext → Parse α} {session after : Session}
    {outcome : Except CompileError α} (context : CompileContext.of env params args = .ok ctx)
    (start : Session.start (Scan.ofText text env.options.decimalSeparator) params store =
      .ok session)
    (ran : step ctx session = Parse.lift outcome after) :
    compileText env params args text step store = (outcome, after.store) := by
  simp only [compileText, context, start, ran]
  cases outcome <;> rfl

/-- A text of an integer literal, with a minus sign before it or without one, compiles to the number
that it spells: in the first width to choose from that holds it, and to nothing if there is none.
The text that is kept with the number is read as the same constant again. -/
theorem compileFunction_integer (context : CompileContext.of env params args = .ok ctx)
    (store : Store) {spelling letters : List Char} {n : Nat} (spelled : Spelled spelling n)
    (qualifies : letters.map Char.toUpper ∈ Literal.qualifiers) {negative : Bool}
    (layout : IntegerText (spelling ++ letters) negative text.toList) :
    let qualifier := letters.map Char.toUpper
    let z := Literal.signed negative n
    let kept := toString z ++ String.ofList qualifier
    ∃ outcome, Literal.Narrows (Literal.widths negative qualifier) z kept outcome ∧
      compileFunction env params none text args store = (outcome.map (.lambda params), store) ∧
      ∀ e, outcome = .ok e → ∀ position, Literal.integer kept position = .ok e := by
  intro qualifier z kept
  obtain ⟨tokens, finish, scanned, words, isFinish⟩ := layout.scanFrom_eq spelled
    (Literal.isIntegerQualifier_of_mem qualifies) env.options.decimalSeparator 0
    (Nat.lt_succ_self _)
  obtain ⟨token, rest, tokens_eq⟩ : ∃ token rest, tokens ++ [finish] = token :: rest :=
    List.exists_cons_of_ne_nil (by simp)
  let session : Session :=
    ⟨token, rest, none, .of (.outermost (Session.initialElement? params)), .empty, store⟩
  have opens : Session.start (Scan.ofText text env.options.decimalSeparator) params store =
      .ok session := by
    rw [Scan.ofText, scanned, Session.start, tokens_eq]
  have begins : session.Begins (integerWords negative (spelling ++ letters)) finish [] :=
    ⟨tokens, words, tokens_eq.symm⟩
  obtain ⟨position, after, store_eq, body_eq⟩ := ctx.body_integer begins isFinish
  have narrows := Literal.integer_narrows spelled qualifies negative position
  refine ⟨_, narrows, ?_, ?_⟩
  · rw [compileFunction, compileExpr, compileText_eq context opens body_eq, store_eq]
    rfl
  · intro e read
    rw [read] at narrows
    exact Literal.integer_again qualifies narrows

theorem compileFunction_integer_hexadecimal :
    let least : Integer := ⟨.int32, -2147483648, by decide⟩
    compileFunction plainEnvironment [] none " - 0x80000000" [] .initial =
      (.ok (.lambda [] (.constant .int32 (.integral least) (some "-2147483648"))), .initial) := by
  have context : CompileContext.of plainEnvironment [] [] = .ok ⟨plainEnvironment, [], []⟩ := rfl
  have spelled : Spelled ('0' :: 'x' :: ['8', '0', '0', '0', '0', '0', '0', '0']) 2147483648 :=
    .hexadecimal (.inl rfl) (by decide) (by decide)
  have blank : ∀ c ∈ [' '], isBlank c = true := by
    rw [List.forall_mem_singleton]
    rfl
  have nothing : ∀ c ∈ [], isBlank c = true := by simp
  have layout : IntegerText
      (('0' :: 'x' :: ['8', '0', '0', '0', '0', '0', '0', '0']) ++ []) true
      " - 0x80000000".toList :=
    .minus blank (.number blank nothing)
  obtain ⟨outcome, narrows, compiled, -⟩ := compileFunction_integer context .initial spelled
    (by decide) layout
  cases narrows with
  | holds first =>
      cases first
      exact compiled
  | exceeds none => cases none

end Compile

end QueryTree
