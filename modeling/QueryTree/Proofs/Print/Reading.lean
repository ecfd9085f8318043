import QueryTree.Proofs.Print.Tree

/-!
# Reading printed trees

Each level of the grammar reads the words of a tree whose operators bind at least as tightly, and
stops before a token that binds less.
-/

namespace QueryTree

/-- How tightly a token takes hold of the expression before it: not at all if it ends every
expression, and by one more than its level if it is an operator. -/
def TokenKind.grip : TokenKind → Nat
  | .closeParen | .colon | .finish => 0
  | .question => 1
  | .doubleBar => 2
  | .doubleAmpersand => 3
  | .ampersand | .bar => 4
  | .doubleEqual | .equal | .exclamationEqual | .lessGreater | .lessThan | .greaterThan
  | .lessThanEqual | .greaterThanEqual => 5
  | .doubleLessThan | .doubleGreaterThan => 6
  | .plus | .minus => 7
  | .asterisk | .slash | .percent => 8
  | _ => 10

/-- Whether a token continues a primary expression. -/
def TokenKind.opensSuffix : TokenKind → Bool
  | .dot | .openBracket | .nullPropagation => true
  | _ => false

theorem TokenKind.opensSuffix_of_grip {kind : TokenKind} (loose : kind.grip ≤ 9) :
    kind.opensSuffix = false := by
  cases kind with
  | dot | openBracket | nullPropagation => exact absurd loose (by decide)
  | _ => rfl

theorem Token.isWord_of_grip {token : Token} (word : String) (loose : token.kind.grip ≤ 9) :
    token.isWord word = false := by
  rw [Token.isWord]
  cases kind : token.kind with
  | identifier => exact absurd (kind ▸ loose) (by decide)
  | _ => rfl

theorem BinaryOp.grip_kind (op : BinaryOp) : op.kind.grip = op.level + 1 := by
  cases op <;> rfl

namespace Session

variable {session : Session} {words words' : List Word} {next : Token} {rest : List Token}

/-- The state in which a token is looked at before further ones. -/
def moveTo (session : Session) (token : Token) (rest : List Token) : Session :=
  { session with current := token, rest := rest }

/-- The tokens from the current one on are some words, and behind them a token and more of them. -/
def Begins (session : Session) (words : List Word) (next : Token) (rest : List Token) : Prop :=
  ∃ tokens, tokens.map Token.word = words ∧ session.current :: session.rest = tokens ++ next :: rest

@[simp] theorem moveTo_current (token : Token) (rest : List Token) :
    (session.moveTo token rest).current = token := rfl

@[simp] theorem moveTo_rest (token : Token) (rest : List Token) :
    (session.moveTo token rest).rest = rest := rfl

theorem moveTo_inj {token token' : Token} {rest rest' : List Token} :
    session.moveTo token rest = session.moveTo token' rest' ↔ token = token' ∧ rest = rest' := by
  simp [moveTo]

theorem Begins.length (begins : session.Begins words next rest) :
    session.rest.length = words.length + rest.length := by
  obtain ⟨tokens, rfl, all⟩ := begins
  have lengths := congrArg List.length all
  simp only [List.length_cons, List.length_append] at lengths
  rw [List.length_map]
  omega

theorem Begins.nil (begins : session.Begins [] next rest) : session = session.moveTo next rest := by
  obtain ⟨tokens, isNil, all⟩ := begins
  obtain rfl := List.map_eq_nil_iff.mp isNil
  obtain ⟨rfl, rfl⟩ := List.cons.inj all
  rfl

theorem Begins.cons {word : Word} (begins : session.Begins (word :: words) next rest) :
    session.current.word = word ∧ ∃ token rest', session.rest = token :: rest' ∧
      (session.moveTo token rest').Begins words next rest := by
  obtain ⟨tokens, isCons, all⟩ := begins
  obtain ⟨token, tokens, rfl, rfl, rfl⟩ := List.map_eq_cons_iff.mp isCons
  obtain ⟨same, rest_eq⟩ := List.cons.inj all
  refine ⟨congrArg Token.word same, ?_⟩
  cases tokens with
  | nil => exact ⟨next, rest, rest_eq, [], rfl, rfl⟩
  | cons token tokens => exact ⟨token, tokens ++ next :: rest, rest_eq, token :: tokens, rfl, rfl⟩

theorem Begins.single {word : Word} (begins : session.Begins [word] next rest) :
    session.current.word = word ∧ session.rest = next :: rest := by
  obtain ⟨isWord, token, rest', rest_eq, behind⟩ := begins.cons
  obtain ⟨rfl, rfl⟩ : token = next ∧ rest' = rest := moveTo_inj.mp behind.nil
  exact ⟨isWord, rest_eq⟩

theorem Begins.append (begins : session.Begins (words ++ words') next rest) :
    ∃ next' rest', session.Begins words next' rest' ∧
      (session.moveTo next' rest').Begins words' next rest := by
  obtain ⟨tokens, isAppend, all⟩ := begins
  obtain ⟨front, back, rfl, rfl, rfl⟩ := List.map_eq_append_iff.mp isAppend
  cases back with
  | nil =>
      rw [List.append_nil] at all
      exact ⟨next, rest, ⟨front, rfl, all⟩, [], rfl, rfl⟩
  | cons token back =>
      refine ⟨token, back ++ next :: rest, ⟨front, rfl, ?_⟩, token :: back, rfl, rfl⟩
      rw [all, List.append_assoc, List.cons_append]

end Session

namespace Parse

variable {α β : Type} {session after : Session}

theorem bind_eq {step : Parse α} {next : α → Parse β} {a : α} (ran : step session = .ok a after) :
    (step >>= next) session = next a after := by
  change EStateM.bind step next session = next a after
  rw [EStateM.bind, ran]

theorem bind_error {step : Parse α} {next : α → Parse β} {error : CompileError}
    (failed : step session = .error error after) :
    (step >>= next) session = .error error after := by
  change EStateM.bind step next session = .error error after
  rw [EStateM.bind, failed]

theorem lift_eq {outcome : Except CompileError α} {a : α} (isOk : outcome = .ok a)
    (session : Session) : Parse.lift outcome session = .ok a session := by
  rw [isOk]
  rfl

theorem lift_error {outcome : Except CompileError α} {error : CompileError}
    (isError : outcome = .error error) (session : Session) :
    Parse.lift outcome session = .error error session := by
  rw [isError]
  rfl

theorem advance_eq {token : Token} {rest : List Token} (isNext : session.rest = token :: rest) :
    Parse.advance session = .ok () (session.moveTo token rest) := by
  cases session
  cases isNext
  rfl

theorem check_eq (kind : TokenKind) (session : Session) :
    Parse.check kind session = .ok (session.current.kind == kind) session := rfl

theorem validate_eq {kind : TokenKind} {fault : CompileFault}
    (isKind : session.current.kind = kind) :
    Parse.validate kind fault session = .ok () session := by
  rw [Parse.validate, bind_eq (check_eq kind session), isKind, beq_self_eq_true]
  rfl

theorem expect_eq {kind : TokenKind} {fault : CompileFault} {token : Token} {rest : List Token}
    (isKind : session.current.kind = kind) (isNext : session.rest = token :: rest) :
    Parse.expect kind fault session = .ok () (session.moveTo token rest) := by
  rw [Parse.expect, bind_eq (validate_eq isKind)]
  exact advance_eq isNext

theorem pure_eq (a : α) (session : Session) : (pure a : Parse α) session = .ok a session := rfl

theorem current_eq (session : Session) : Parse.current session = .ok session.current session := rfl

theorem tokensLeft_eq (session : Session) :
    Parse.tokensLeft session = .ok session.rest.length session := rfl

theorem scope_eq (session : Session) :
    Parse.scope session = .ok session.scopes.current session := rfl

theorem position_eq (session : Session) :
    Parse.position session = .ok session.current.position session := rfl

end Parse

/-- A step reads words as an expression, if a token follows that does not take hold of it. -/
def Reads (step : Parse Expr) (level : Nat) (words : List Word) (e : Expr) : Prop :=
  ∀ (session : Session) next rest, session.Begins words next rest → next.kind.grip ≤ level →
    step session = .ok e (session.moveTo next rest)

namespace CompileContext

variable {ctx : CompileContext} {expression : Parse Expr}

/-- The operators of a level. -/
def operatorAt? : Nat → Token → Option BinaryOp
  | 1 => orOperator?
  | 2 => andOperator?
  | 3 => bitOperator?
  | 4 => comparisonOperator?
  | 5 => shiftOperator?
  | 6 => sumOperator?
  | _ => productOperator?

/-- How the operands of a level are joined. -/
def joinAt (table : ClassTable) :
    Nat → BinaryOp → Token → Expr → Expr → Except CompileError Expr
  | 1 | 2 => Expr.ofGroup table .logical
  | 3 => fun op => if op = .and then Expr.conjunction table else Expr.disjunction
  | 4 => Expr.comparison table
  | 5 => Expr.ofGroup table .shift
  | 6 => fun op => if op = .add then Expr.sum table else Expr.difference table
  | _ => Expr.ofGroup table .arithmetic

/-- The expressions of a level. -/
def levelAt (ctx : CompileContext) (expression : Parse Expr) : Nat → Parse Expr
  | 1 => ctx.disjunction expression
  | 2 => ctx.conjunction expression
  | 3 => ctx.bits expression
  | 4 => ctx.comparison expression
  | 5 => ctx.shift expression
  | 6 => ctx.sum expression
  | 7 => ctx.product expression
  | 8 => ctx.unary expression
  | _ => ctx.primary expression

/-- The operands of a level. -/
def operandAt (ctx : CompileContext) (expression : Parse Expr) : Nat → Parse Expr
  | 2 => ctx.membership expression
  | n => ctx.levelAt expression (n + 1)

/-- The expressions of the levels of binary operators. -/
def chainAt (ctx : CompileContext) (expression : Parse Expr) (n : Nat) : Parse Expr :=
  chain (ctx.operandAt expression n) (operatorAt? n) (joinAt ctx.env.classes n)

theorem levelAt_eq {n : Nat} (isLevel : 1 ≤ n) (isBinary : n ≤ 7) :
    ctx.levelAt expression n = ctx.chainAt expression n := by
  match n with
  | 1 | 2 | 3 | 4 | 5 | 6 | 7 => rfl

theorem operatorAt?_word {op : BinaryOp} {token : Token} (isWord : token.word = op.word) :
    operatorAt? op.level token = some op := by
  have isKind : token.kind = op.kind := congrArg Word.kind isWord
  cases op <;> simp [BinaryOp.level, operatorAt?, orOperator?, andOperator?, bitOperator?,
    comparisonOperator?, shiftOperator?, sumOperator?, productOperator?, isKind, BinaryOp.kind]

theorem operatorAt?_eq_none {n : Nat} {token : Token} (isLevel : 1 ≤ n) (isBinary : n ≤ 7)
    (loose : token.kind.grip ≤ n) : operatorAt? n token = none := by
  match n with
  | 1 | 2 | 3 | 4 | 5 | 6 | 7 =>
      cases kind : token.kind <;> simp_all [operatorAt?, orOperator?, andOperator?, bitOperator?,
        comparisonOperator?, shiftOperator?, sumOperator?, productOperator?, TokenKind.grip]

theorem joinAt_eq {table : ClassTable} {op : BinaryOp} {t result : Ty} {left right : Expr}
    {token : Token} (typed : op.resultOn? t = some result) (leftOperand : left.IsOperand t)
    (rightOperand : right.IsOperand t) :
    joinAt table op.level op token left right = .ok (.binary result op left right none) := by
  have known := leftOperand.known
  cases op with
  | equal | notEqual =>
      cases typed
      exact Expr.comparison_eq rfl rfl leftOperand rightOperand
  | lessThan | greaterThan | lessThanOrEqual | greaterThanOrEqual =>
      obtain rfl | rfl := known <;> cases typed
      exact Expr.comparison_eq rfl rfl leftOperand rightOperand
  | and =>
      cases typed
      exact Expr.conjunction_eq leftOperand rightOperand
  | or =>
      cases typed
      exact Expr.disjunction_eq leftOperand rightOperand
  | add =>
      obtain rfl | rfl := known <;> cases typed
      exact Expr.sum_eq leftOperand rightOperand
  | subtract =>
      obtain rfl | rfl := known <;> cases typed
      exact Expr.difference_eq leftOperand rightOperand
  | leftShift | rightShift | multiply | divide | modulo | andAlso | orElse =>
      obtain rfl | rfl := known <;> cases typed
      exact Expr.ofGroup_eq (by simp [OperatorGroup.signatures, OperatorGroup.pairs,
        OperatorGroup.withNullable, OperatorGroup.arithmeticTypes, OperatorGroup.liftedPair])
        leftOperand rightOperand

section Chain

variable {operand : Parse Expr} {operator? : Token → Option BinaryOp}
  {join : BinaryOp → Token → Expr → Expr → Except CompileError Expr} {session after : Session}
  {fuel : Nat} {left right joined : Expr}

theorem chainFrom_end (ends : operator? session.current = none) :
    chainFrom operand operator? join (fuel + 1) left session = .ok left session := by
  rw [chainFrom, Parse.bind_eq (Parse.current_eq session), ends]
  rfl

theorem chainFrom_step {op : BinaryOp} {token : Token} {rest : List Token}
    (isOperator : operator? session.current = some op) (isNext : session.rest = token :: rest)
    (reads : operand (session.moveTo token rest) = .ok right after)
    (joins : join op session.current left right = .ok joined) :
    chainFrom operand operator? join (fuel + 1) left session =
      chainFrom operand operator? join fuel joined after := by
  simp only [chainFrom, Parse.bind_eq (Parse.current_eq session), isOperator]
  rw [Parse.bind_eq (Parse.advance_eq isNext), Parse.bind_eq reads,
    Parse.bind_eq (Parse.lift_eq joins after)]

end Chain

theorem membershipFrom_end {session : Session} {fuel : Nat} {value tested : Expr}
    (noWord : session.current.isWord "in" = false) :
    ctx.membershipFrom expression value fuel tested session = .ok tested session := by
  cases fuel with
  | zero => rfl
  | succ fuel =>
      rw [membershipFrom, Parse.bind_eq (Parse.current_eq session), noWord]
      rfl

section Gather

variable {n : Nat} {words words' : List Word} {e left right : Expr}

/-- Reading the words of an expression, a level of binary operators gets to where this expression is
what has been read and an operator may follow. -/
def Gathers (ctx : CompileContext) (expression : Parse Expr) (n : Nat) (words : List Word)
    (e : Expr) : Prop :=
  ∀ (session : Session) next rest, session.Begins words next rest → next.kind.grip ≤ n + 1 →
    ∃ fuel, rest.length < fuel ∧ ctx.chainAt expression n session =
      chainFrom (ctx.operandAt expression n) (operatorAt? n) (joinAt ctx.env.classes n) fuel e
        (session.moveTo next rest)

/-- The first operand of a level. -/
theorem Gathers.first (reads : Reads (ctx.operandAt expression n) (n + 1) words e) :
    Gathers ctx expression n words e := by
  intro session next rest begins loose
  refine ⟨rest.length + 1, Nat.lt_succ_self _, ?_⟩
  rw [chainAt, chain, Parse.bind_eq (reads session next rest begins loose)]
  rfl

/-- A further operand of a level, joined to what has been read. -/
theorem Gathers.join {op : BinaryOp} {joined : Expr}
    (gathers : Gathers ctx expression op.level words left)
    (reads : Reads (ctx.operandAt expression op.level) (op.level + 1) words' right)
    (joins : ∀ token : Token, token.word = op.word →
      joinAt ctx.env.classes op.level op token left right = .ok joined) :
    Gathers ctx expression op.level (words ++ op.word :: words') joined := by
  intro session next rest begins loose
  obtain ⟨token, rest', begins_left, begins_operator⟩ := begins.append
  obtain ⟨isWord, token', rest'', rest_eq, begins_right⟩ := begins_operator.cons
  have isKind : token.kind = op.kind := congrArg Word.kind isWord
  obtain ⟨fuel, enough, gathered⟩ :=
    gathers session token rest' begins_left (isKind ▸ Nat.le_of_eq op.grip_kind)
  obtain ⟨fuel, rfl⟩ := Nat.exists_eq_succ_of_ne_zero (Nat.ne_zero_of_lt enough)
  have fewer := begins_right.length
  simp only [Session.moveTo_rest] at rest_eq fewer
  refine ⟨fuel, by rw [rest_eq, List.length_cons] at enough; omega, ?_⟩
  rw [gathered]
  exact chainFrom_step (operatorAt?_word isWord) rest_eq (reads _ next rest begins_right loose)
    (joins token isWord)

/-- A further operand of a level. -/
theorem Gathers.further {op : BinaryOp} {t result : Ty} (typed : op.resultOn? t = some result)
    (gathers : Gathers ctx expression op.level words left)
    (reads : Reads (ctx.operandAt expression op.level) (op.level + 1) words' right)
    (leftOperand : left.IsOperand t) (rightOperand : right.IsOperand t) :
    Gathers ctx expression op.level (words ++ op.word :: words')
      (.binary result op left right none) :=
  gathers.join reads fun _ _ => joinAt_eq typed leftOperand rightOperand

/-- An operand ends before a token that binds less than the operators of a level. -/
theorem Gathers.reads (isLevel : 1 ≤ n) (isBinary : n ≤ 7)
    (gathers : Gathers ctx expression n words e) :
    Reads (ctx.levelAt expression n) n words e := by
  intro session next rest begins loose
  obtain ⟨fuel, enough, gathered⟩ := gathers session next rest begins (Nat.le_succ_of_le loose)
  obtain ⟨fuel, rfl⟩ := Nat.exists_eq_succ_of_ne_zero (Nat.ne_zero_of_lt enough)
  rw [levelAt_eq isLevel isBinary, gathered]
  exact chainFrom_end (operatorAt?_eq_none isLevel isBinary loose)

/-- What a level reads is an operand of the level below. -/
theorem operandAt_reads (isLevel : 1 ≤ n) (isBinary : n ≤ 7)
    (reads : Reads (ctx.levelAt expression (n + 1)) (n + 1) words e) :
    Reads (ctx.operandAt expression n) (n + 1) words e := by
  match n with
  | 1 | 3 | 4 | 5 | 6 | 7 => exact reads
  | 2 =>
      intro session next rest begins loose
      have bits : ctx.bits expression session = .ok e (session.moveTo next rest) :=
        reads session next rest begins loose
      change ctx.membership expression session = _
      rw [membership, Parse.bind_eq bits, Parse.bind_eq (Parse.tokensLeft_eq _)]
      exact membershipFrom_end (Token.isWord_of_grip "in" (Nat.le_trans loose (by decide)))

end Gather

section Primary

variable {words : List Word} {e : Expr}

/-- Nothing follows a primary expression before a token that is no suffix. -/
theorem suffixes_end {session : Session} {fuel : Nat}
    (noSuffix : session.current.kind.opensSuffix = false) :
    ctx.suffixes expression (fuel + 1) e session = .ok e session := by
  rw [suffixes, Parse.bind_eq (Parse.current_eq session)]
  cases kind : session.current.kind with
  | dot | openBracket | nullPropagation =>
      rw [kind] at noSuffix
      cases noSuffix
  | _ => rfl

theorem primary_eq {session after : Session} (reads : ctx.atom expression session = .ok e after)
    (noSuffix : after.current.kind.opensSuffix = false) :
    ctx.primary expression session = .ok e after := by
  rw [primary, Parse.bind_eq reads, Parse.bind_eq (Parse.tokensLeft_eq after)]
  exact suffixes_end noSuffix

/-- The names of parameters stand for these parameters and are no keywords. -/
def Names (ctx : CompileContext) (params : List Parameter) : Prop :=
  ∀ p ∈ params, ctx.env.keyword? p.name = none ∧
    ctx.symbols.lookup (ctx.env.options.fold p.name) = some (.parameter p)

theorem atom_name_eq {params : List Parameter} {p : Parameter} (names : ctx.Names params)
    (isParam : p ∈ params) {session : Session} {next : Token} {rest : List Token}
    (isName : session.current.word = .name p.name) (isNext : session.rest = next :: rest) :
    ctx.atom expression session = .ok (.parameter p) (session.moveTo next rest) := by
  obtain ⟨noKeyword, isSymbol⟩ := names p isParam
  have isKind : session.current.kind = .identifier := congrArg Word.kind isName
  have isText : session.current.text = p.name := congrArg Word.text isName
  have hidden : ctx.visibleKeyword? session.scopes.current p.name = none := by
    rw [visibleKeyword?, noKeyword, Option.filter_none]
  have symbol : ctx.symbol? session.internals (ctx.env.options.fold p.name) =
      some (.parameter p) := by
    simp [symbol?, isSymbol]
  have get : (MonadState.get : Parse Session) session = .ok session session := rfl
  have name : ctx.name expression session = .ok (.parameter p) (session.moveTo next rest) := by
    rw [CompileContext.name, Parse.bind_eq (Parse.current_eq session)]
    simp only [isText]
    rw [Parse.bind_eq (Parse.scope_eq session)]
    simp only [hidden]
    rw [Parse.bind_eq get]
    simp only [symbol]
    rw [Parse.bind_eq (Parse.advance_eq isNext)]
    rfl
  rw [atom, Parse.bind_eq (Parse.current_eq session)]
  simp only [isKind]
  exact name

theorem primary_name_eq {params : List Parameter} {p : Parameter} (names : ctx.Names params)
    (isParam : p ∈ params) {session : Session} {next : Token} {rest : List Token}
    (isName : session.current.word = .name p.name) (isNext : session.rest = next :: rest)
    (noSuffix : next.kind.opensSuffix = false) :
    ctx.primary expression session = .ok (.parameter p) (session.moveTo next rest) :=
  primary_eq (atom_name_eq names isParam isName isNext) noSuffix

theorem primary_reads_name {params : List Parameter} {p : Parameter} (names : ctx.Names params)
    (isParam : p ∈ params) :
    Reads (ctx.primary expression) 9 [.name p.name] (.parameter p) := by
  intro session next rest begins loose
  obtain ⟨isName, rest_eq⟩ := begins.single
  exact primary_name_eq names isParam isName rest_eq (TokenKind.opensSuffix_of_grip loose)

theorem primary_reads_parens (reads : Reads expression 0 words e) :
    Reads (ctx.primary expression) 9 (.openParen :: (words ++ [.closeParen])) e := by
  intro session next rest begins loose
  obtain ⟨isOpen, token, rest₁, rest_eq, inside⟩ := begins.cons
  obtain ⟨close, rest₂, inner, behind⟩ := inside.append
  obtain ⟨isClose, token', rest₃, rest_eq', ends⟩ := behind.cons
  have after : session.moveTo token' rest₃ = session.moveTo next rest := ends.nil
  have isKind : session.current.kind = .openParen := congrArg Word.kind isOpen
  have isKind' : close.kind = .closeParen := congrArg Word.kind isClose
  refine primary_eq ?_ (TokenKind.opensSuffix_of_grip loose)
  rw [atom, Parse.bind_eq (Parse.current_eq session)]
  simp only [isKind]
  rw [Parse.bind_eq (Parse.advance_eq rest_eq),
    Parse.bind_eq (reads _ close rest₂ inner (isKind' ▸ Nat.le_refl 0)),
    Parse.bind_eq (Parse.expect_eq isKind' rest_eq')]
  exact congrArg (EStateM.Result.ok e) after

end Primary

section Unary

variable {words : List Word} {e : Expr}

/-- Signs and negations are read with all the words behind them. -/
def ReadsUnary (ctx : CompileContext) (expression : Parse Expr) (words : List Word) (e : Expr) :
    Prop :=
  ∀ (session : Session) next rest fuel, session.Begins words next rest → next.kind.grip ≤ 8 →
    session.rest.length < fuel →
    ctx.unaryFrom expression fuel session = .ok e (session.moveTo next rest)

theorem ReadsUnary.reads (reads : ReadsUnary ctx expression words e) :
    Reads (ctx.unary expression) 8 words e := by
  intro session next rest begins loose
  rw [unary, Parse.bind_eq (Parse.tokensLeft_eq session)]
  exact reads session next rest _ begins loose (Nat.lt_succ_self _)

/-- Words start with a token of one of some classes. -/
def Starts (kinds : List TokenKind) (words : List Word) : Prop :=
  ∃ word rest, words = word :: rest ∧ word.kind ∈ kinds

theorem Starts.append {kinds : List TokenKind} (starts : Starts kinds words) (more : List Word) :
    Starts kinds (words ++ more) := by
  obtain ⟨word, rest, rfl, isKind⟩ := starts
  exact ⟨word, rest ++ more, rfl, isKind⟩

theorem unaryFrom_eq_primary {session : Session} {fuel : Nat}
    (noMinus : session.current.kind ≠ .minus) (noNegation : session.current.kind ≠ .exclamation) :
    ctx.unaryFrom expression fuel session = ctx.primary expression session := by
  cases fuel with
  | zero => rfl
  | succ fuel =>
      rw [unaryFrom, Parse.bind_eq (Parse.current_eq session)]
      simp only [noMinus, noNegation, decide_false, Bool.or_self, Bool.false_eq_true, if_false]

/-- A primary expression that does not start with a sign. -/
theorem ReadsUnary.primary (reads : Reads (ctx.primary expression) 9 words e)
    (unsigned : Starts [.identifier, .openParen] words) : ReadsUnary ctx expression words e := by
  intro session next rest fuel begins loose _
  obtain ⟨word, words, rfl, unsigned⟩ := unsigned
  have isKind : session.current.kind = word.kind := congrArg Word.kind begins.cons.1
  have noSign : word.kind ≠ .minus ∧ word.kind ≠ .exclamation := by
    obtain isName | isOpen : word.kind = .identifier ∨ word.kind = .openParen := by
      simpa using unsigned
    · simp [isName]
    · simp [isOpen]
  rw [unaryFrom_eq_primary (isKind ▸ noSign.1) (isKind ▸ noSign.2)]
  exact reads session next rest begins (Nat.le_succ_of_le loose)

/-- A sign or a negation before an operand that is no number. -/
theorem ReadsUnary.sign {op : Word} {signed : Expr}
    (isSign : op.kind = .minus ∨ op.kind = .exclamation) (reads : ReadsUnary ctx expression words e)
    (joins : ∀ token : Token, token.kind = op.kind →
      applySign ctx.env.classes token e = .ok signed)
    (noNumber : Starts [.identifier, .openParen, .minus, .exclamation] words) :
    ReadsUnary ctx expression (op :: words) signed := by
  intro session next rest fuel begins loose enough
  obtain ⟨fuel, rfl⟩ := Nat.exists_eq_succ_of_ne_zero (Nat.ne_zero_of_lt enough)
  obtain ⟨isWord, token, rest₁, rest_eq, behind⟩ := begins.cons
  have isKind : session.current.kind = op.kind := congrArg Word.kind isWord
  obtain ⟨word, words, rfl, isStart⟩ := noNumber
  have next_kind : token.kind = word.kind := congrArg Word.kind behind.cons.1
  have signs : (session.current.kind = .minus || session.current.kind = .exclamation) = true := by
    simpa [isKind] using isSign
  have noLiteral : ((session.moveTo token rest₁).current.kind = .integerLiteral ||
      (session.moveTo token rest₁).current.kind = .realLiteral) = false := by
    simp only [List.mem_cons, List.not_mem_nil, or_false] at isStart
    rw [Session.moveTo_current, next_kind]
    obtain isStart | isStart | isStart | isStart := isStart <;> rw [isStart] <;> rfl
  have fewer : rest₁.length < fuel := by
    rw [rest_eq, List.length_cons] at enough
    omega
  have operand := reads (session.moveTo token rest₁) next rest fuel behind loose fewer
  rw [unaryFrom, Parse.bind_eq (Parse.current_eq session)]
  simp only [signs, if_true]
  rw [Parse.bind_eq (Parse.advance_eq rest_eq), Parse.bind_eq (Parse.current_eq _)]
  simp only [noLiteral, Bool.and_false, Bool.false_eq_true, if_false]
  rw [Parse.bind_eq operand]
  exact Parse.lift_eq (joins session.current isKind) _

theorem applySign_negate {table : ClassTable} {token : Token} (isMinus : token.kind = .minus)
    (operand : e.IsOperand .int32) : applySign table token e = .ok (.negate .int32 e) := by
  have isSignature : [.int32] ∈ OperatorGroup.negation.signatures := by
    simp [OperatorGroup.signatures, OperatorGroup.withNullable, OperatorGroup.signedTypes]
  have type_eq : (e.type == .int32) = true := operand.type_eq ▸ BEq.rfl
  rw [applySign, if_pos isMinus, OperatorGroup.operand_exact isSignature type_eq]
  exact congrArg (fun t => Except.ok (Expr.negate t e)) operand.type_eq

theorem applySign_not {table : ClassTable} {token : Token} (isNot : token.kind = .exclamation)
    (operand : e.IsOperand .boolean) : applySign table token e = .ok (.not .boolean e) := by
  have isSignature : [.boolean] ∈ OperatorGroup.not.signatures := by
    simp [OperatorGroup.signatures, OperatorGroup.withNullable]
  have type_eq : (e.type == .boolean) = true := operand.type_eq ▸ BEq.rfl
  have noMinus : token.kind ≠ .minus := isNot ▸ by decide
  rw [applySign, if_neg noMinus, OperatorGroup.operand_exact isSignature type_eq]
  exact congrArg (fun t => Except.ok (Expr.not t e)) operand.type_eq

end Unary

section Conditional

variable {words words' words'' : List Word} {e : Expr} {session after : Session}

/-- Before the end of an expression or a question mark a disjunction stays what it is. -/
theorem coalescing_eq (read : ctx.disjunction expression session = .ok e after)
    (loose : after.current.kind.grip ≤ 1) : ctx.coalescing expression session = .ok e after := by
  have noArrow : (after.current.kind == .lambda) = false := by
    cases kind : after.current.kind with
    | lambda => exact absurd (kind ▸ loose) (by decide)
    | _ => rfl
  have noCoalescing : (after.current.kind == .nullCoalescing) = false := by
    cases kind : after.current.kind with
    | nullCoalescing => exact absurd (kind ▸ loose) (by decide)
    | _ => rfl
  have arrow : ctx.arrow expression session = .ok e after := by
    have noElement (element? : Option Parameter) :
        element?.filter (fun _ => after.current.kind == .lambda) = none := by
      rw [noArrow]
      cases element? <;> rfl
    rw [CompileContext.arrow, Parse.bind_eq read, Parse.bind_eq (Parse.check_eq .lambda _),
      Parse.bind_eq (Parse.scope_eq _)]
    simp only [noElement]
    rfl
  rw [coalescing, Parse.bind_eq arrow, Parse.bind_eq (Parse.check_eq .nullCoalescing _)]
  simp only [noCoalescing, Bool.false_eq_true, if_false]
  rfl

/-- Before the end of an expression a disjunction is a whole expression. -/
theorem conditional_eq (read : ctx.disjunction expression session = .ok e after)
    (loose : after.current.kind.grip ≤ 0) : ctx.conditional expression session = .ok e after := by
  have noQuestion : (after.current.kind == .question) = false := by
    cases kind : after.current.kind with
    | question => exact absurd (kind ▸ loose) (by decide)
    | _ => rfl
  rw [conditional, Parse.bind_eq (Parse.position_eq session),
    Parse.bind_eq (coalescing_eq read (Nat.le_succ_of_le loose)),
    Parse.bind_eq (Parse.check_eq .question _)]
  simp only [noQuestion, Bool.false_eq_true, if_false]
  rfl

theorem conditional_reads_test (reads : Reads (ctx.disjunction expression) 1 words e) :
    Reads (ctx.conditional expression) 0 words e := by
  intro session next rest begins loose
  exact conditional_eq (reads session next rest begins (Nat.le_succ_of_le loose)) loose

theorem conditional_reads_branches {t : Ty} {test ifTrue ifFalse : Expr}
    (reads : Reads (ctx.disjunction expression) 1 words test)
    (readsTrue : Reads expression 0 words' ifTrue) (readsFalse : Reads expression 0 words'' ifFalse)
    (testOperand : test.IsOperand .boolean) (trueOperand : ifTrue.IsOperand t)
    (falseOperand : ifFalse.IsOperand t) :
    Reads (ctx.conditional expression) 0 (words ++ .question :: (words' ++ .colon :: words''))
      (.conditional test ifTrue ifFalse) := by
  intro session next rest begins loose
  obtain ⟨question, rest₁, before, begins⟩ := begins.append
  obtain ⟨isQuestion, token₁, rest₂, rest_eq, begins⟩ := begins.cons
  obtain ⟨colon, rest₃, trueBranch, begins⟩ := begins.append
  obtain ⟨isColon, token₂, rest₄, rest_eq', falseBranch⟩ := begins.cons
  have question_kind : question.kind = .question := congrArg Word.kind isQuestion
  have colon_kind : colon.kind = .colon := congrArg Word.kind isColon
  have isLoose : question.kind.grip ≤ 1 := question_kind ▸ Nat.le_refl 1
  have tested := coalescing_eq (reads session question rest₁ before isLoose) isLoose
  have isQuestion : (question.kind == .question) = true := beq_iff_eq.mpr question_kind
  rw [conditional, Parse.bind_eq (Parse.position_eq session), Parse.bind_eq tested,
    Parse.bind_eq (Parse.check_eq .question _)]
  simp only [Session.moveTo_current, isQuestion, if_true]
  rw [Parse.bind_eq (Parse.advance_eq rest_eq),
    Parse.bind_eq (readsTrue _ colon rest₃ trueBranch (colon_kind ▸ Nat.le_refl 0)),
    Parse.bind_eq (Parse.expect_eq colon_kind rest_eq'),
    Parse.bind_eq (readsFalse _ next rest falseBranch loose),
    Expr.choose_eq testOperand trueOperand falseOperand]
  rfl

end Conditional

end CompileContext

end QueryTree
