import QueryTree.Proofs.Compile.Text
import QueryTree.Proofs.Print.Reading

/-!
# Printed operators are read back

Operator trees and operations on parameters as texts that compile back to them.
-/

namespace QueryTree

/-! ## Printed trees are read back

The words of an operator tree, with parentheses only where the levels of its operators need them,
are read as this tree.
-/

open CompileContext

namespace Expr.OperatorTree

variable {params : List Parameter} {t : Ty} {e : Expr} {n : Nat}

/-- An expression stands as it is where its level is high enough. -/
theorem words_of_le (tree : OperatorTree params t e) (fits : n ≤ e.level) :
    e.words n = e.words 0 := by
  cases tree with
  | parameter => rfl
  | negate | not | binary | conditional =>
      simp only [level] at fits
      simp [words, enclosed, Nat.not_lt.mpr fits]

/-- An expression is put in parentheses where its level is too low. -/
theorem words_of_lt (tree : OperatorTree params t e) (isLevel : n ≤ 9) (loose : e.level < n) :
    e.words n = .openParen :: (e.words 0 ++ [.closeParen]) := by
  cases tree with
  | parameter => exact absurd loose (Nat.not_lt.mpr isLevel)
  | negate | not | binary | conditional =>
      simp only [level] at loose
      simp [words, enclosed, loose]

theorem level_le (tree : OperatorTree params t e) : e.level ≤ 9 := by
  cases tree with
  | @binary op => exact Nat.le_trans op.level_le (by decide)
  | _ => simp [level]

theorem starts_enclosed {kinds : List TokenKind} {least level : Nat} {words : List Word}
    (opens : .openParen ∈ kinds) (starts : Starts kinds words) :
    Starts kinds (enclosed least level words) := by
  unfold enclosed
  split
  next => exact ⟨_, _, rfl, opens⟩
  next => exact starts

/-- The words of a tree start with a name, a parenthesis, a sign or a negation. -/
theorem starts (tree : OperatorTree params t e) (n : Nat) :
    Starts [.identifier, .openParen, .minus, .exclamation] (e.words n) := by
  induction tree generalizing n with
  | parameter => exact ⟨_, _, rfl, by simp [Word.name]⟩
  | negate | not => exact starts_enclosed (by decide) ⟨_, _, rfl, by decide⟩
  | binary _ _ _ left => exact starts_enclosed (by decide) ((left _).append _)
  | conditional _ _ _ test => exact starts_enclosed (by decide) ((test _).append _)

/-- What binds as tightly as a primary expression is a name. -/
theorem starts_of_level (tree : OperatorTree params t e) (isPrimary : e.level = 9) :
    Starts [.identifier, .openParen] (e.words 0) := by
  cases tree with
  | parameter => exact ⟨_, _, rfl, by simp [Word.name]⟩
  | @binary op =>
      have bound := op.level_le
      simp only [level] at isPrimary
      omega
  | _ => cases isPrimary

end Expr.OperatorTree

namespace CompileContext

open QueryTree.Expr

variable {ctx : CompileContext} {expression : Parse Expr} {params : List Parameter}

section Level

variable {words : List Word} {e : Expr} {n : Nat}

/-- Reading words on a level, in the form that the level needs to go on. -/
def ReadsAt (ctx : CompileContext) (expression : Parse Expr) (n : Nat) (words : List Word)
    (e : Expr) : Prop :=
  match n with
  | 9 => Reads (ctx.primary expression) 9 words e
  | 8 => ReadsUnary ctx expression words e
  | n => Gathers ctx expression n words e

theorem ReadsAt.gathers (isBinary : n ≤ 7) (reads : ReadsAt ctx expression n words e) :
    Gathers ctx expression n words e := by
  match n with
  | 0 | 1 | 2 | 3 | 4 | 5 | 6 | 7 => exact reads

theorem ReadsAt.of_gathers (isBinary : n ≤ 7) (gathers : Gathers ctx expression n words e) :
    ReadsAt ctx expression n words e := by
  match n with
  | 0 | 1 | 2 | 3 | 4 | 5 | 6 | 7 => exact gathers

theorem ReadsAt.reads (isLevel : 1 ≤ n) (bound : n ≤ 9) (reads : ReadsAt ctx expression n words e) :
    Reads (ctx.levelAt expression n) n words e := by
  obtain isBinary | rfl | rfl : n ≤ 7 ∨ n = 8 ∨ n = 9 := by omega
  · exact (reads.gathers isBinary).reads isLevel isBinary
  · exact ReadsUnary.reads reads
  · exact reads

/-- What a level reads, the level below reads as well. -/
theorem ReadsAt.descend (isLevel : 1 ≤ n) (bound : n ≤ 8)
    (unsigned : n = 8 → Starts [.identifier, .openParen] words)
    (reads : ReadsAt ctx expression (n + 1) words e) : ReadsAt ctx expression n words e := by
  obtain isBinary | rfl : n ≤ 7 ∨ n = 8 := by omega
  · refine .of_gathers isBinary (.first (operandAt_reads isLevel isBinary ?_))
    exact reads.reads (by omega) (by omega)
  · exact ReadsUnary.primary reads (unsigned rfl)

/-- What a level reads, all levels below read as well. -/
theorem ReadsAt.descendTo {m : Nat} (isLevel : 1 ≤ n) (lower : n ≤ m) (bound : m ≤ 9)
    (unsigned : m = 9 → Starts [.identifier, .openParen] words)
    (reads : ReadsAt ctx expression m words e) : ReadsAt ctx expression n words e := by
  obtain ⟨k, rfl⟩ := Nat.exists_eq_add_of_le lower
  induction k generalizing n with
  | zero => exact reads
  | succ k ih =>
      have same : n + (k + 1) = n + 1 + k := by omega
      rw [same] at reads bound unsigned
      refine .descend isLevel (by omega) (fun isUnary => unsigned (by omega)) ?_
      exact ih (by omega) (by omega) bound unsigned reads

end Level

section Tree

variable {depth : Nat} (inner : ∀ t e, OperatorTree params t e → (e.words 0).length < depth →
    Reads expression 0 (e.words 0) e) (names : ctx.Names params)

include inner

/-- A level reads the words of a tree if the level of its outermost operator reads them without
parentheses around them. -/
theorem readsAt_of_own {t : Ty} {e : Expr} (tree : OperatorTree params t e) {n : Nat}
    (isLevel : 1 ≤ n) (bound : n ≤ 9) (short : (e.words n).length ≤ depth)
    (own : 1 ≤ e.level → (e.words 0).length ≤ depth →
      ReadsAt ctx expression e.level (e.words 0) e) :
    ReadsAt ctx expression n (e.words n) e := by
  by_cases fits : n ≤ e.level
  · rw [tree.words_of_le fits] at short ⊢
    exact (own (Nat.le_trans isLevel fits) short).descendTo isLevel fits tree.level_le
      tree.starts_of_level
  · rw [tree.words_of_lt bound (Nat.lt_of_not_le fits)] at short ⊢
    have shorter : (e.words 0).length < depth := by
      simp only [List.length_cons, List.length_append] at short
      omega
    have parens : ReadsAt ctx expression 9 _ e := primary_reads_parens (inner t e tree shorter)
    exact parens.descendTo isLevel bound (Nat.le_refl 9) fun _ => ⟨_, _, rfl, by decide⟩

include names

/-- Each level reads the words of a tree that stand for it there. -/
theorem readsAt_words {t : Ty} {e : Expr} (tree : OperatorTree params t e) {n : Nat}
    (isLevel : 1 ≤ n) (bound : n ≤ 9) (short : (e.words n).length ≤ depth) :
    ReadsAt ctx expression n (e.words n) e := by
  induction tree generalizing n with
  | parameter isParam isType known =>
      refine readsAt_of_own inner (.parameter isParam isType known) isLevel bound short
        fun _ _ => ?_
      exact primary_reads_name names isParam
  | @negate e operand ih =>
      refine readsAt_of_own inner (.negate operand) isLevel bound short fun _ short => ?_
      have short : (e.words 8).length ≤ depth := Nat.le_of_succ_le short
      exact ReadsUnary.sign (.inl rfl) (ih (by decide) (by decide) short)
        (fun token isMinus => applySign_negate isMinus operand.isOperand) (operand.starts 8)
  | @not e operand ih =>
      refine readsAt_of_own inner (.not operand) isLevel bound short fun _ short => ?_
      have short : (e.words 8).length ≤ depth := Nat.le_of_succ_le short
      exact ReadsUnary.sign (.inr rfl) (ih (by decide) (by decide) short)
        (fun token isNot => applySign_not isNot operand.isOperand) (operand.starts 8)
  | @binary op t result left right typed leftTree rightTree ihLeft ihRight =>
      refine readsAt_of_own inner (.binary typed leftTree rightTree) isLevel bound short
        fun _ short => ?_
      have op_pos := op.level_pos
      have op_le := op.level_le
      have own : (Expr.binary result op left right none).words 0 =
          left.words op.level ++ op.word :: right.words (op.level + 1) := rfl
      rw [own] at short ⊢
      simp only [List.length_append, List.length_cons] at short
      have reads_left := ihLeft op_pos (by omega) (by omega)
      have reads_right : ReadsAt ctx expression (op.level + 1) _ right :=
        ihRight (by omega) (by omega) (by omega)
      exact .of_gathers op_le (.further typed (reads_left.gathers op_le)
        (operandAt_reads op_pos op_le (reads_right.reads (by omega) (by omega)))
        leftTree.isOperand rightTree.isOperand)
  | conditional test ifTrue ifFalse =>
      exact readsAt_of_own inner (.conditional test ifTrue ifFalse) isLevel bound short
        fun isOperator _ => absurd isOperator (Nat.not_succ_le_zero 0)

/-- A whole expression is read from the words of a tree. -/
theorem conditional_reads_words {t : Ty} {e : Expr} (tree : OperatorTree params t e)
    (short : (e.words 0).length ≤ depth) :
    Reads (ctx.conditional expression) 0 (e.words 0) e := by
  have disjunction {t : Ty} {e : Expr} (tree : OperatorTree params t e)
      (short : (e.words 1).length ≤ depth) : Reads (ctx.disjunction expression) 1 (e.words 1) e :=
    (readsAt_words inner names tree (Nat.le_refl 1) (by decide) short).reads (Nat.le_refl 1)
      (by decide)
  have unconditional (isOperator : 1 ≤ e.level) :
      Reads (ctx.conditional expression) 0 (e.words 0) e := by
    rw [← tree.words_of_le isOperator] at short ⊢
    exact conditional_reads_test (disjunction tree short)
  cases tree with
  | conditional testTree trueTree falseTree =>
      simp only [words, enclosed, Nat.lt_irrefl, if_false, List.length_append,
        List.length_cons] at short ⊢
      exact conditional_reads_branches (disjunction testTree (by omega))
        (inner _ _ trueTree (by omega)) (inner _ _ falseTree (by omega)) testTree.isOperand
        trueTree.isOperand falseTree.isOperand
  | @binary op => exact unconditional op.level_pos
  | _ => exact unconditional (by simp [level])

end Tree

/-- Expressions nested at most so deep are read from fewer words. -/
theorem expression_reads_words (names : ctx.Names params) {t : Ty} {e : Expr}
    (tree : OperatorTree params t e) {depth : Nat} (short : (e.words 0).length < depth) :
    Reads (ctx.expression depth) 0 (e.words 0) e := by
  induction depth generalizing t e with
  | zero => exact absurd short (Nat.not_lt_zero _)
  | succ depth ih =>
      exact conditional_reads_words (fun _ _ tree short => ih tree short) names tree
        (Nat.le_of_lt_succ short)

/-- A text is read as a whole where it ends behind an expression. -/
theorem body_of_whole {e : Expr} {session after : Session}
    (whole : ctx.wholeExpression session = .ok e after) (isFinish : after.current.kind = .finish) :
    ctx.body none session = .ok e after := by
  rw [body, Parse.bind_eq (Parse.position_eq session), Parse.bind_eq whole]
  simp only
  rw [Parse.bind_eq (Parse.pure_eq e _), Parse.bind_eq (Parse.validate_eq isFinish)]
  rfl

/-- A whole text is read from the words of a tree. -/
theorem body_eq (names : ctx.Names params) {t : Ty} {e : Expr} (tree : OperatorTree params t e)
    {session : Session} {finish : Token} (begins : session.Begins (e.words 0) finish [])
    (isFinish : finish.kind = .finish) :
    ctx.body none session = .ok e (session.moveTo finish []) := by
  have short : (e.words 0).length < session.rest.length + 2 := by
    have length := begins.length
    simp only [List.length_nil] at length
    omega
  have reads := expression_reads_words names tree short session finish [] begins
    (isFinish ▸ Nat.le_refl 0)
  have whole : ctx.wholeExpression session = .ok e (session.moveTo finish []) := by
    rw [wholeExpression, Parse.bind_eq (Parse.tokensLeft_eq session)]
    exact reads
  exact body_of_whole whole isFinish

/-- Parameters with different names become symbols of these names. -/
theorem foldSymbols_eq_ok {options : Options} {entries held : List (String × Symbol)}
    (distinct : (entries.map fun entry => options.fold entry.1).Nodup)
    (fresh : ∀ entry ∈ entries, held.lookup (options.fold entry.1) = none) :
    ∃ all, foldSymbols options held entries = .ok all := by
  induction entries generalizing held with
  | nil => exact ⟨held, rfl⟩
  | cons entry rest ih =>
      obtain ⟨name, symbol⟩ := entry
      obtain ⟨other, distinct⟩ := List.nodup_cons.mp distinct
      have isNew : (held.lookup (options.fold name)).isSome = false := by
        rw [fresh (name, symbol) (List.mem_cons_self ..)]
        rfl
      rw [foldSymbols]
      simp only [isNew, Bool.false_eq_true, if_false]
      refine ih distinct fun later isLater => ?_
      have apart : options.fold later.1 ≠ options.fold name := fun same =>
        other (List.mem_map.mpr ⟨later, isLater, same⟩)
      rw [List.lookup_cons, beq_eq_false_iff_ne.mpr apart]
      exact fresh later (List.mem_cons_of_mem _ isLater)

end CompileContext

/-- Parameters that can be referred to by their names: identifiers that are no keywords, and all
different. -/
structure Environment.CanName (env : Environment) (params : List Parameter) : Prop where
  isName : ∀ p ∈ params, Token.isName p.name = true
  noKeyword : ∀ p ∈ params, env.keyword? p.name = none
  distinct : (params.map fun p => env.options.fold p.name).Nodup

namespace Environment.CanName

variable {env : Environment} {params : List Parameter}

theorem of_isNone (isName : params.all (fun p => Token.isName p.name) = true)
    (noKeyword : params.all (fun p => (env.keyword? p.name).isNone) = true)
    (distinct : (params.map fun p => env.options.fold p.name).Nodup) : env.CanName params where
  isName := List.all_eq_true.mp isName
  noKeyword p isParam := Option.isNone_iff_eq_none.mp (List.all_eq_true.mp noKeyword p isParam)
  distinct := distinct

theorem exists_context (canName : env.CanName params) :
    ∃ ctx, CompileContext.of env params [] = .ok ctx ∧ ctx.env = env ∧ ctx.Names params := by
  have named : ∀ p ∈ params, (!p.name.isEmpty) = true := fun p isParam => by
    have isName := canName.isName p isParam
    by_contra isEmpty
    rw [Bool.not_eq_true, Bool.not_eq_false', String.isEmpty_iff] at isEmpty
    rw [isEmpty] at isName
    cases isName
  have entries : parameterSymbols params ++ argumentSymbols 0 [] =
      params.map fun p => (p.name, Symbol.parameter p) := by
    rw [parameterSymbols, List.filter_eq_self.mpr named]
    exact List.append_nil _
  have distinct : ((params.map fun p => (p.name, Symbol.parameter p)).map fun entry =>
      env.options.fold entry.1).Nodup := by
    rw [List.map_map]
    exact canName.distinct
  have fresh : ∀ entry ∈ params.map fun p => (p.name, Symbol.parameter p),
      ([] : List (String × Symbol)).lookup (env.options.fold entry.1) = none := fun _ _ => rfl
  obtain ⟨symbols, folded⟩ := foldSymbols_eq_ok distinct fresh
  refine ⟨⟨env, symbols, []⟩, ?_, rfl, fun p isParam => ⟨canName.noKeyword p isParam, ?_⟩⟩
  · rw [CompileContext.of, entries, folded]
    rfl
  · exact (foldSymbols_lookup folded).2 _ _ (List.mem_map.mpr ⟨p, isParam, rfl⟩)

/-- All words of an operator tree are scanned as they are. -/
theorem scans (canName : env.CanName params) {t : Ty} {e : Expr}
    (tree : Expr.OperatorTree params t e) (n : Nat) : ∀ word ∈ e.words n, word.Scans := by
  have enclosed {least level : Nat} {words : List Word} (each : ∀ word ∈ words, word.Scans) :
      ∀ word ∈ Expr.enclosed least level words, word.Scans := by
    unfold Expr.enclosed
    split
    next =>
      have opens : Word.openParen.Scans := Word.scans_symbol rfl rfl
      have closes : Word.closeParen.Scans := Word.scans_symbol rfl rfl
      simpa [opens, closes, or_imp, forall_and] using each
    next => exact each
  have minus : Word.minus.Scans := Word.scans_symbol rfl rfl
  have exclamation : Word.exclamation.Scans := Word.scans_symbol rfl rfl
  have question : Word.question.Scans := Word.scans_symbol rfl rfl
  have colon : Word.colon.Scans := Word.scans_symbol rfl rfl
  induction tree generalizing n with
  | parameter isParam =>
      exact List.forall_mem_singleton.mpr (Word.scans_name (canName.isName _ isParam))
  | negate _ ih => exact enclosed (List.forall_mem_cons.mpr ⟨minus, ih 8⟩)
  | not _ ih => exact enclosed (List.forall_mem_cons.mpr ⟨exclamation, ih 8⟩)
  | @binary op _ _ _ _ _ _ _ left right =>
      exact enclosed (List.forall_mem_append.mpr ⟨left _,
        List.forall_mem_cons.mpr ⟨op.word_scans, right _⟩⟩)
  | conditional _ _ _ test ifTrue ifFalse =>
      exact enclosed (List.forall_mem_append.mpr ⟨test 1, List.forall_mem_cons.mpr ⟨question,
        List.forall_mem_append.mpr ⟨ifTrue 0, List.forall_mem_cons.mpr ⟨colon, ifFalse 0⟩⟩⟩⟩)

end Environment.CanName

/-- A text of the words of an operator tree compiles to this tree. -/
theorem compileFunction_words {env : Environment} {params : List Parameter} {t : Ty} {e : Expr}
    {text : String} (store : Store) (canName : env.CanName params)
    (tree : Expr.OperatorTree params t e)
    (spaced : Spaced ((e.words 0).map Word.text) text.toList) :
    compileFunction env params none text [] store = (.ok (.lambda params e), store) := by
  obtain ⟨ctx, context, rfl, names⟩ := canName.exists_context
  obtain ⟨tokens, finish, scanned, words_eq, isFinish⟩ := Scan.ofText_spaced spaced
    (canName.scans tree 0) ctx.env.options.decimalSeparator
  obtain ⟨token, rest, tokens_eq⟩ : ∃ token rest, tokens ++ [finish] = token :: rest :=
    List.exists_cons_of_ne_nil (by simp)
  let session : Session :=
    ⟨token, rest, none, .of (.outermost (Session.initialElement? params)), .empty, store⟩
  have start : Session.start (Scan.ofText text ctx.env.options.decimalSeparator) params store =
      .ok session := by
    rw [scanned, Session.start, tokens_eq]
  have begins : session.Begins (e.words 0) finish [] := ⟨tokens, words_eq, tokens_eq.symm⟩
  rw [compileFunction, compileExpr, compileText, context]
  simp only [start, body_eq names tree begins isFinish]
  rfl

section Example

/-- A number. -/
def widthParam : Parameter := ⟨0, "w", .int32⟩

/-- Another number. -/
def heightParam : Parameter := ⟨1, "h", .int32⟩

/-- A truth value. -/
def flagParam : Parameter := ⟨2, "f", .boolean⟩

/-- Two numbers and a truth value. -/
def shapeParams : List Parameter := [widthParam, heightParam, flagParam]

/-- An environment without types of its own. -/
def plainEnvironment : Environment := .of .initial .empty .initial

theorem plainEnvironment_canName : plainEnvironment.CanName shapeParams :=
  .of_isNone (by decide +kernel) (by decide +kernel) (by decide +kernel)

/-- The difference of a number and a product with a negated factor. -/
def difference : Expr :=
  .binary .int32 .subtract (.parameter widthParam)
    (.binary .int32 .multiply
      (.binary .int32 .subtract (.parameter heightParam) (.parameter widthParam) none)
      (.negate .int32 (.parameter heightParam)) none) none

theorem compileFunction_words_difference :
    compileFunction plainEnvironment shapeParams none "f ? w - ( h - w ) * - h : w << h" []
      .initial = (.ok (.lambda shapeParams (.conditional (.parameter flagParam) difference
        (.binary .int32 .leftShift (.parameter widthParam) (.parameter heightParam) none))),
        .initial) := by
  have w : Expr.OperatorTree shapeParams .int32 (.parameter widthParam) :=
    .parameter (by simp [shapeParams]) rfl (.inl rfl)
  have h : Expr.OperatorTree shapeParams .int32 (.parameter heightParam) :=
    .parameter (by simp [shapeParams]) rfl (.inl rfl)
  have f : Expr.OperatorTree shapeParams .boolean (.parameter flagParam) :=
    .parameter (by simp [shapeParams]) rfl (.inr rfl)
  have tree : Expr.OperatorTree shapeParams .int32 (.conditional (.parameter flagParam) difference
      (.binary .int32 .leftShift (.parameter widthParam) (.parameter heightParam) none)) :=
    .conditional f (.binary rfl w (.binary rfl (.binary rfl h w) (.negate h))) (.binary rfl w h)
  refine compileFunction_words .initial plainEnvironment_canName tree ?_
  exact Spaced.intercalate _

end Example

end QueryTree

namespace QueryTree

/-! ## Operations on parameters are read

A text of an operator between the names of two parameters compiles to what the operator makes of the
two parameters, whatever their types are.
-/

open CompileContext

variable {params : List Parameter} {p q : Parameter} {op : BinaryOp} {e : Expr}

namespace CompileContext

variable {ctx : CompileContext} {expression : Parse Expr}

/-- A parameter is read as an operand of each level. -/
theorem readsAt_name (names : ctx.Names params) (isParam : p ∈ params) {n : Nat} (isLevel : 1 ≤ n)
    (bound : n ≤ 9) : ReadsAt ctx expression n [.name p.name] (.parameter p) := by
  have primary : ReadsAt ctx expression 9 [.name p.name] (.parameter p) :=
    primary_reads_name names isParam
  exact primary.descendTo isLevel bound (Nat.le_refl 9) fun _ =>
    ⟨_, _, rfl, by simp [Word.name]⟩

/-- Two parameters with an operator between them are joined. -/
theorem conditional_reads_operation (names : ctx.Names params) (isLeft : p ∈ params)
    (isRight : q ∈ params)
    (joins : ∀ token : Token, token.word = op.word →
      joinAt ctx.env.classes op.level op token (.parameter p) (.parameter q) = .ok e) :
    Reads (ctx.conditional expression) 0 [.name p.name, op.word, .name q.name] e := by
  have op_pos := op.level_pos
  have op_le := op.level_le
  have left : ReadsAt ctx expression op.level [.name p.name] (.parameter p) :=
    readsAt_name names isLeft op_pos (by omega)
  have right : ReadsAt ctx expression (op.level + 1) [.name q.name] (.parameter q) :=
    readsAt_name names isRight (by omega) (by omega)
  have operation : ReadsAt ctx expression op.level [.name p.name, op.word, .name q.name] e :=
    .of_gathers op_le ((left.gathers op_le).join
      (operandAt_reads op_pos op_le (right.reads (by omega) (by omega))) joins)
  have disjunction : ReadsAt ctx expression 1 [.name p.name, op.word, .name q.name] e :=
    operation.descendTo (Nat.le_refl 1) op_pos (by omega) fun isPrimary => by omega
  exact conditional_reads_test (disjunction.reads (Nat.le_refl 1) (by decide))

end CompileContext

/-- A text of words compiles to an expression if the words are read as it wherever the parameters
can be named. -/
theorem compileFunction_of_reads {env : Environment} {words : List Word} {text : String}
    (store : Store) (canName : env.CanName params) (scans : ∀ word ∈ words, word.Scans)
    (spaced : Spaced (words.map Word.text) text.toList)
    (reads : ∀ ctx : CompileContext, ctx.env = env → ctx.Names params →
      ∀ depth, words.length < depth → Reads (ctx.expression depth) 0 words e) :
    compileFunction env params none text [] store = (.ok (.lambda params e), store) := by
  obtain ⟨ctx, context, rfl, names⟩ := canName.exists_context
  obtain ⟨tokens, finish, scanned, words_eq, isFinish⟩ :=
    Scan.ofText_spaced spaced scans ctx.env.options.decimalSeparator
  obtain ⟨token, rest, tokens_eq⟩ : ∃ token rest, tokens ++ [finish] = token :: rest :=
    List.exists_cons_of_ne_nil (by simp)
  let session : Session :=
    ⟨token, rest, none, .of (.outermost (Session.initialElement? params)), .empty, store⟩
  have start : Session.start (Scan.ofText text ctx.env.options.decimalSeparator) params store =
      .ok session := by
    rw [scanned, Session.start, tokens_eq]
  have begins : session.Begins words finish [] := ⟨tokens, words_eq, tokens_eq.symm⟩
  have short : words.length < session.rest.length + 2 := by
    have length := begins.length
    simp only [List.length_nil] at length
    omega
  have whole : ctx.wholeExpression session = .ok e (session.moveTo finish []) := by
    rw [wholeExpression, Parse.bind_eq (Parse.tokensLeft_eq session)]
    exact reads ctx rfl names _ short session finish [] begins (isFinish ▸ Nat.le_refl 0)
  rw [compileFunction, compileExpr, compileText, context]
  simp only [start, body_of_whole whole isFinish]
  rfl

/-- A text of two names with an operator between them compiles to the joined parameters. -/
theorem compileFunction_operation {env : Environment} {text : String} (store : Store)
    (canName : env.CanName params) (isLeft : p ∈ params) (isRight : q ∈ params)
    (joins : ∀ token : Token, token.word = op.word →
      joinAt env.classes op.level op token (.parameter p) (.parameter q) = .ok e)
    (spaced : Spaced [p.name, op.symbol, q.name] text.toList) :
    compileFunction env params none text [] store = (.ok (.lambda params e), store) := by
  have left := Word.scans_name (canName.isName p isLeft)
  have right := Word.scans_name (canName.isName q isRight)
  have scans : ∀ word ∈ [Word.name p.name, op.word, .name q.name], word.Scans := by
    simpa using ⟨left, op.word_scans, right⟩
  refine compileFunction_of_reads store canName scans spaced fun ctx env_eq names depth short => ?_
  subst env_eq
  obtain ⟨depth, rfl⟩ := Nat.exists_eq_succ_of_ne_zero (Nat.ne_zero_of_lt short)
  exact conditional_reads_operation names isLeft isRight joins

end QueryTree
