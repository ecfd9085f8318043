import QueryTree.Proofs.Binding.Tree
import QueryTree.Proofs.Compile.Enclosed

/-!
# Chains of tests for membership

What several tests of one value that stand behind each other compile to.  All clauses of such a
chain are read and their tests made, but of these tests only the last one is kept.
-/

namespace QueryTree

open Parse

namespace Expr

variable {table : ClassTable} {op : Token} {x e test : Expr}

/-- What a test makes of an operand: the operand as it is, the operand promoted to a type, or the
member of an enumeration that it stands for. -/
inductive Coerced (table : ClassTable) (e : Expr) : Expr → Prop where
  | same : Coerced table e e
  | promoted {mode : Promotion} {target : Ty} {e' : Expr}
      (promotes : e.promote? table mode target = some e') : Coerced table e e'
  | member {type : Ty} {position : Nat} {e' : Expr}
      (isMember : enumConstant type position e = .ok e') : Coerced table e e'

/-- An operand occurs in a tree as what a test makes of it, and not below a function. -/
def Keeps (table : ClassTable) (tree operand : Expr) : Prop :=
  ∃ operand', Coerced table operand operand' ∧ Occurs [] operand' tree

theorem isItem_keeps (made : isItem table op x e = .ok test) : Keeps table test e := by
  have right {left right : Expr} (coerced : Coerced table e right) :
      Keeps table (.test .equal left right) e :=
    ⟨right, coerced, .child (e := .test .equal left right) (List.mem_cons_of_mem _
      (List.mem_singleton_self _)) .root⟩
  obtain ⟨left', right', rfl, tested⟩ := itemTested made
  cases tested with
  | same => exact right .same
  | member taken => exact right (.member taken)
  | promoted operands =>
      obtain ⟨_, _, -, -, promotes⟩ := OperatorGroup.operands_eq_ok operands
      exact right (.promoted promotes)

theorem isContained_keeps {collection : Expr}
    (made : isContained table op x collection = .ok test) : Keeps table test collection := by
  obtain ⟨element, item, -, -, rfl⟩ := isContained_cases made
  exact ⟨collection, .same, .child (e := .aggregate .boolean .contains collection [element] [item])
    (List.mem_cons_self ..) .root⟩

theorem occurs_orElse {left right : Expr} (side : e = left ∨ e = right) :
    Occurs [] e (.test .orElse left right) :=
  .child (e := .test .orElse left right) (by simpa [children, Expr.test] using side) .root

/-- Each of the tests occurs in their disjunction. -/
theorem occurs_anyOf {first : Expr} {rest : List Expr} (isTest : test ∈ first :: rest) :
    Occurs [] test (anyOf first rest) := by
  induction rest generalizing first test with
  | nil =>
      obtain rfl := List.mem_singleton.mp isTest
      exact .root
  | cons second rest ih =>
      obtain isTest | later : (test = first ∨ test = second) ∨ test ∈ rest := by
        simpa [or_assoc] using isTest
      · exact (ih (List.mem_cons_self ..)).trans (occurs_orElse isTest)
      · exact ih (List.mem_cons_of_mem _ later)

theorem Keeps.inside {tree operand : Expr} (keeps : Keeps table test operand)
    (inside : Occurs [] test tree) : Keeps table tree operand := by
  obtain ⟨operand', coerced, occurs⟩ := keeps
  exact ⟨operand', coerced, inside.trans occurs⟩

/-- All items of a list occur in the disjunction of their tests. -/
theorem anyOf_keeps {es : List Expr} {first : Expr} {rest : List Expr}
    (each : List.Forall₂ (fun e test => isItem table op x e = .ok test) es (first :: rest))
    (isItem : e ∈ es) : Keeps table (anyOf first rest) e := by
  obtain ⟨i, inside, rfl⟩ := List.getElem_of_mem isItem
  have insideTests : i < (first :: rest).length := each.length_eq ▸ inside
  exact (isItem_keeps (each.get inside insideTests)).inside
    (occurs_anyOf (List.getElem_mem insideTests))

end Expr

namespace CompileContext

open QueryTree.Expr (anyOf Keeps Coerced Occurs)

/-- A clause of a chain: the items of its list, or its sequence, and the test that it stands for. -/
structure Clause where
  operands : List Expr
  test : Expr

/-- What a chain of tests compiles to. -/
def lastTest (value : Expr) (clauses : List Clause) : Expr :=
  (clauses.getLast?.map Clause.test).getD value

variable {ctx : CompileContext} {expression : Parse Expr} {x e tested : Expr}
  {start stop : Session} {clause : Clause} {clauses : List Clause}

/-- A clause is read and its test is made: a list of items in parentheses, or a sequence. -/
inductive ReadsClause (ctx : CompileContext) (expression : Parse Expr) (x : Expr)
    (start : Session) : Clause → Session → Prop where
  | list {token : Token} {rest : List Token} {es : List Expr} {test : Expr} {tests : List Expr}
      {stop : Session} (isMembership : start.current.isWord "in" = true)
      (behind : start.rest = token :: rest) (opens : token.kind = .openParen)
      (items : ctx.ReadsItems expression (start.moveTo token rest) es stop)
      (each : List.Forall₂ (fun e test =>
        Expr.isItem ctx.env.classes start.current x e = .ok test) es (test :: tests)) :
      ReadsClause ctx expression x start ⟨es, anyOf test tests⟩ stop
  | sequence {token : Token} {rest : List Token} {collection test : Expr} {stop : Session}
      (isMembership : start.current.isWord "in" = true) (behind : start.rest = token :: rest)
      (isName : token.kind = .identifier)
      (read : ctx.primary expression (start.moveTo token rest) = .ok collection stop)
      (contained : Expr.isContained ctx.env.classes start.current x collection = .ok test) :
      ReadsClause ctx expression x start ⟨[collection], test⟩ stop

/-- The clauses of a chain are read one behind the other, up to where none follows. -/
inductive ReadsClauses (ctx : CompileContext) (expression : Parse Expr) (x : Expr) :
    Session → List Clause → Session → Prop where
  | none {stop : Session} (ends : stop.current.isWord "in" = false) :
      ReadsClauses ctx expression x stop [] stop
  | more {start middle stop : Session} {clause : Clause} {clauses : List Clause}
      (first : ctx.ReadsClause expression x start clause middle)
      (others : ReadsClauses ctx expression x middle clauses stop) :
      ReadsClauses ctx expression x start (clause :: clauses) stop

theorem ReadsClause.isMembership (reads : ctx.ReadsClause expression x start clause stop) :
    start.current.isWord "in" = true := by
  cases reads <;> assumption

/-- Every operand of a clause occurs in its test. -/
theorem ReadsClause.keeps (reads : ctx.ReadsClause expression x start clause stop)
    (isOperand : e ∈ clause.operands) : Keeps ctx.env.classes clause.test e := by
  cases reads with
  | list _ _ _ _ each => exact Expr.anyOf_keeps each isOperand
  | sequence _ _ _ _ contained =>
      obtain rfl := List.mem_singleton.mp isOperand
      exact Expr.isContained_keeps contained

theorem ReadsClauses.keeps (reads : ctx.ReadsClauses expression x start clauses stop)
    (isClause : clause ∈ clauses) (isOperand : e ∈ clause.operands) :
    Keeps ctx.env.classes clause.test e := by
  induction reads with
  | none => cases isClause
  | more first _ ih =>
      obtain rfl | later := List.mem_cons.mp isClause
      · exact first.keeps isOperand
      · exact ih later

theorem lastTest_cons (value : Expr) (clause : Clause) (clauses : List Clause) :
    lastTest value (clause :: clauses) = lastTest clause.test clauses := by
  cases clauses with
  | nil => rfl
  | cons second clauses =>
      rw [lastTest, lastTest, List.getLast?_cons_cons, List.getLast?_eq_some_getLast (by simp)]
      rfl

section Progress

variable (nests : Nests (fun _ => True) expression)

include nests

theorem unary_passes (endsWell : start.EndsWell) (ran : ctx.unary expression start = .ok e stop) :
    stop.EndsWell ∧ stop.rest.length ≤ start.rest.length :=
  endsWell.passes (unary_nests nests (fun _ _ => trivial)) ran

/-- The items of a list end behind the parenthesis that closes it. -/
theorem ReadsItems.passes {es : List Expr} (reads : ctx.ReadsItems expression start es stop)
    (endsWell : start.EndsWell) (notFinish : start.current.kind ≠ .finish) :
    stop.EndsWell ∧ stop.rest.length < start.rest.length := by
  induction reads with
  | last before item closes behind =>
      obtain ⟨close_endsWell, fewer⟩ := unary_passes nests (endsWell.moveTo notFinish before) item
      refine ⟨close_endsWell.moveTo (closes ▸ by decide) behind, ?_⟩
      rw [Session.moveTo_rest, behind, List.length_cons] at fewer
      rw [Session.moveTo_rest, before, List.length_cons]
      omega
  | next before item _ separates _ ih =>
      obtain ⟨comma_endsWell, fewer⟩ := unary_passes nests (endsWell.moveTo notFinish before) item
      obtain ⟨stop_endsWell, less⟩ := ih comma_endsWell (separates ▸ by decide)
      refine ⟨stop_endsWell, ?_⟩
      rw [Session.moveTo_rest] at fewer
      rw [before, List.length_cons]
      omega

theorem ReadsClause.passes (reads : ctx.ReadsClause expression x start clause stop)
    (endsWell : start.EndsWell) :
    stop.EndsWell ∧ stop.rest.length < start.rest.length := by
  have notFinish : start.current.kind ≠ .finish :=
    isWord_kind reads.isMembership ▸ by decide
  cases reads with
  | list _ behind opens items _ =>
      obtain ⟨stop_endsWell, fewer⟩ := items.passes nests (endsWell.moveTo notFinish behind)
        (show _ ≠ _ from opens ▸ by decide)
      refine ⟨stop_endsWell, ?_⟩
      rw [behind, List.length_cons]
      exact Nat.lt_succ_of_lt fewer
  | sequence _ behind _ read _ =>
      obtain ⟨stop_endsWell, fewer⟩ := (endsWell.moveTo notFinish behind).passes
        (primary_nests nests (fun _ _ => trivial)) read
      refine ⟨stop_endsWell, ?_⟩
      rw [behind, List.length_cons]
      exact Nat.lt_succ_of_le fewer

/-- If the tests of a list are made, all its items have been read. -/
theorem readsItems_of_itemTests {op : Token} {fuel : Nat} {tested? : Option Expr}
    (endsWell : start.EndsWell) (notFinish : start.current.kind ≠ .finish)
    (ran : ctx.itemTests expression op x fuel tested? start = .ok e stop) :
    ∃ es test tests, ctx.ReadsItems expression start es stop ∧
      List.Forall₂ (fun e test => Expr.isItem ctx.env.classes op x e = .ok test) es
        (test :: tests) ∧ e = anyOf (joinTest tested? test) tests := by
  induction fuel generalizing start tested? with
  | zero => cases ran
  | succ fuel ih =>
      obtain ⟨_, opened, advanced, ran⟩ := Parse.bind_eq_ok_iff.mp ran
      obtain ⟨token, rest, behind, rfl, endsWell⟩ := endsWell.advance notFinish advanced
      obtain ⟨item, close, item_eq, ran⟩ := Parse.bind_eq_ok_iff.mp ran
      obtain ⟨close_endsWell, fewer⟩ := unary_passes nests endsWell item_eq
      obtain ⟨test, _, made, ran⟩ := Parse.bind_eq_ok_iff.mp ran
      obtain ⟨isItem, rfl⟩ := lift_eq_ok_iff.mp made
      rw [bind_eq (check_eq .closeParen close)] at ran
      cases closes : close.current.kind == .closeParen with
      | true =>
          have closes : close.current.kind = .closeParen := beq_iff_eq.mp closes
          rw [closes] at ran
          obtain ⟨_, passed, advanced, ran⟩ := Parse.bind_eq_ok_iff.mp ran
          obtain ⟨token', rest', behind', rfl, -⟩ :=
            close_endsWell.advance (closes ▸ by decide) advanced
          obtain ⟨rfl, rfl⟩ := EStateM.Result.ok.inj ran
          exact ⟨[item], test, [], .last behind item_eq closes behind', .cons isItem .nil, rfl⟩
      | false =>
          simp only [closes, Bool.false_eq_true, if_false] at ran
          rw [bind_eq (check_eq .comma close)] at ran
          cases separates : close.current.kind == .comma with
          | true =>
              have separates : close.current.kind = .comma := beq_iff_eq.mp separates
              rw [separates] at ran
              obtain ⟨es, second, tests, items, each, rfl⟩ :=
                ih close_endsWell (separates ▸ by decide) ran
              exact ⟨item :: es, test, second :: tests,
                .next behind item_eq fewer separates items, .cons isItem each, rfl⟩
          | false =>
              simp only [separates, Bool.false_eq_true, if_false] at ran
              cases ran

end Progress

/-- A clause replaces what has been tested before it by its own test. -/
theorem ReadsClause.membershipFrom_eq {middle : Session}
    (reads : ctx.ReadsClause expression x start clause middle) {fuel : Nat} :
    ctx.membershipFrom expression x (fuel + 1) tested start =
      ctx.membershipFrom expression x fuel clause.test middle := by
  cases reads with
  | list isMembership behind opens items each =>
      rw [membershipFrom, bind_eq (current_eq start), isMembership]
      simp only [if_true]
      rw [bind_eq (advance_eq behind), bind_eq (check_eq .openParen _), Session.moveTo_current,
        opens]
      change (Parse.tokensLeft >>= fun left =>
        ctx.itemTests expression start.current x (left + 1) none >>= fun test =>
          ctx.membershipFrom expression x fuel test) (start.moveTo _ _) = _
      rw [bind_eq (tokensLeft_eq _),
        bind_eq (items.itemTests_eq (Nat.le_succ_of_le items.length_le) each)]
      rfl
  | sequence isMembership behind isName read contained =>
      rw [membershipFrom, bind_eq (current_eq start), isMembership]
      simp only [if_true]
      rw [bind_eq (advance_eq behind), bind_eq (check_eq .openParen _), Session.moveTo_current,
        isName]
      change (Parse.check .identifier >>= fun named =>
        if named = true then ctx.primary expression >>= fun sequence =>
          Parse.lift (Expr.isContained ctx.env.classes start.current x sequence) >>= fun test =>
            ctx.membershipFrom expression x fuel test
        else Parse.failHere (.expected .openParenOrIdentifier)) (start.moveTo _ _) = _
      rw [bind_eq (check_eq .identifier _), Session.moveTo_current, isName]
      change (ctx.primary expression >>= fun sequence =>
          Parse.lift (Expr.isContained ctx.env.classes start.current x sequence) >>= fun test =>
            ctx.membershipFrom expression x fuel test) (start.moveTo _ _) = _
      rw [bind_eq read, bind_eq (lift_eq contained _)]

section Loop

variable (nests : Nests (fun _ => True) expression)

include nests

/-- If a test for membership goes on behind a state, a clause has been read there. -/
theorem readsClause_of_membershipFrom {fuel : Nat} (endsWell : start.EndsWell)
    (isMembership : start.current.isWord "in" = true)
    (ran : ctx.membershipFrom expression x (fuel + 1) tested start = .ok e stop) :
    ∃ clause middle, ctx.ReadsClause expression x start clause middle ∧
      ctx.membershipFrom expression x fuel clause.test middle = .ok e stop := by
  have notFinish : start.current.kind ≠ .finish := isWord_kind isMembership ▸ by decide
  rw [membershipFrom, bind_eq (current_eq start), isMembership] at ran
  simp only [if_true] at ran
  obtain ⟨_, opened, advanced, ran⟩ := Parse.bind_eq_ok_iff.mp ran
  obtain ⟨token, rest, behind, rfl, endsWell⟩ := endsWell.advance notFinish advanced
  rw [bind_eq (check_eq .openParen _)] at ran
  cases opens : (start.moveTo token rest).current.kind == .openParen with
  | true =>
      have opens : token.kind = .openParen := beq_iff_eq.mp opens
      rw [Session.moveTo_current, opens] at ran
      obtain ⟨left, _, tokens, ran⟩ := Parse.bind_eq_ok_iff.mp ran
      obtain ⟨rfl, rfl⟩ := EStateM.Result.ok.inj tokens
      obtain ⟨test, middle, items_eq, ran⟩ := Parse.bind_eq_ok_iff.mp ran
      obtain ⟨es, first, tests, items, each, rfl⟩ :=
        readsItems_of_itemTests nests endsWell (show _ ≠ _ from opens ▸ by decide) items_eq
      exact ⟨_, middle, .list isMembership behind opens items each, ran⟩
  | false =>
      simp only [opens, Bool.false_eq_true, if_false] at ran
      rw [bind_eq (check_eq .identifier _)] at ran
      cases isName : (start.moveTo token rest).current.kind == .identifier with
      | true =>
          simp only [isName, if_true] at ran
          obtain ⟨collection, middle, read, ran⟩ := Parse.bind_eq_ok_iff.mp ran
          obtain ⟨test, _, made, ran⟩ := Parse.bind_eq_ok_iff.mp ran
          obtain ⟨contained, rfl⟩ := lift_eq_ok_iff.mp made
          exact ⟨_, _, .sequence isMembership behind (beq_iff_eq.mp isName) read contained, ran⟩
      | false =>
          simp only [isName, Bool.false_eq_true, if_false] at ran
          cases ran

/-- Behind the value, tests for membership compile if and only if all clauses are read and their
tests made, and then to the test of the last clause. -/
theorem membershipFrom_eq_ok_iff {fuel : Nat} (endsWell : start.EndsWell)
    (enough : start.rest.length < fuel) :
    ctx.membershipFrom expression x fuel tested start = .ok e stop ↔
      ∃ clauses, ctx.ReadsClauses expression x start clauses stop ∧
        e = lastTest tested clauses := by
  induction fuel generalizing start tested with
  | zero => omega
  | succ fuel ih =>
      cases isMembership : start.current.isWord "in" with
      | false =>
          rw [membershipFrom_end isMembership]
          constructor
          · rintro ⟨⟩
            exact ⟨[], .none isMembership, rfl⟩
          · rintro ⟨clauses, reads, rfl⟩
            cases reads with
            | none => rfl
            | more first _ => cases first.isMembership.symm.trans isMembership
      | true =>
          constructor
          · intro ran
            obtain ⟨clause, middle, first, ran⟩ :=
              readsClause_of_membershipFrom nests endsWell isMembership ran
            obtain ⟨endsWell', fewer⟩ := first.passes nests endsWell
            obtain ⟨clauses, others, rfl⟩ := (ih endsWell' (by omega)).mp ran
            exact ⟨clause :: clauses, .more first others, (lastTest_cons ..).symm⟩
          · rintro ⟨clauses, reads, rfl⟩
            cases reads with
            | none ends => cases ends.symm.trans isMembership
            | @more _ middle _ clause clauses first others =>
                obtain ⟨endsWell', fewer⟩ := first.passes nests endsWell
                rw [first.membershipFrom_eq]
                exact (ih endsWell' (by omega)).mpr ⟨clauses, others, lastTest_cons ..⟩

end Loop

section Chain

/-- A chain is read: the value, and the clauses behind it. -/
def ReadsChain (ctx : CompileContext) (expression : Parse Expr) (start : Session) (x : Expr)
    (clauses : List Clause) (stop : Session) : Prop :=
  ∃ word, ctx.bits expression start = .ok x word ∧
    ctx.ReadsClauses expression x word clauses stop

/-- All operands of a chain are kept if and only if those before the last clause occur in the test
of the last clause. -/
theorem keeps_all_iff {last : Clause} (reads : ctx.ReadsClauses expression x start clauses stop)
    (isLast : clauses.getLast? = some last) :
    (∀ clause ∈ clauses, ∀ operand ∈ clause.operands,
        Keeps ctx.env.classes last.test operand) ↔
      ∀ clause ∈ clauses.dropLast, ∀ operand ∈ clause.operands,
        Keeps ctx.env.classes last.test operand := by
  constructor
  · intro keeps clause isClause
    exact keeps clause (List.mem_of_mem_dropLast isClause)
  · intro keeps clause isClause operand isOperand
    rw [← List.dropLast_append_getLast? last isLast] at isClause
    obtain early | isLast' := List.mem_append.mp isClause
    · exact keeps clause early operand isOperand
    · obtain rfl := List.mem_singleton.mp isLast'
      exact reads.keeps (List.mem_of_getLast? isLast) isOperand

/-- A chain of tests for membership compiles if and only if its value and all its clauses are read
and their tests made, and it compiles to the test of the last clause.  The operands of that clause
occur in it.  Those of the clauses before are kept if and only if they occur in the test of the last
clause as well. -/
theorem membership_keeps_last_clause (depth : Nat) (endsWell : start.EndsWell) :
    (∀ e stop, ctx.membership (ctx.expression depth) start = .ok e stop ↔
      ∃ x clauses, ctx.ReadsChain (ctx.expression depth) start x clauses stop ∧
        e = lastTest x clauses) ∧
      ∀ x clauses stop last, ctx.ReadsChain (ctx.expression depth) start x clauses stop →
        clauses.getLast? = some last →
          (∀ operand ∈ last.operands, Keeps ctx.env.classes last.test operand) ∧
          ((∀ clause ∈ clauses, ∀ operand ∈ clause.operands,
              Keeps ctx.env.classes last.test operand) ↔
            ∀ clause ∈ clauses.dropLast, ∀ operand ∈ clause.operands,
              Keeps ctx.env.classes last.test operand) := by
  have nests : Nests (fun _ => True) (ctx.expression depth) :=
    expression_nests (fun _ _ => trivial) depth
  have behind {x e : Expr} {word stop : Session}
      (value : ctx.bits (ctx.expression depth) start = .ok x word) :
      ctx.membership (ctx.expression depth) start = .ok e stop ↔
        ∃ clauses, ctx.ReadsClauses (ctx.expression depth) x word clauses stop ∧
          e = lastTest x clauses := by
    obtain ⟨endsWell', -⟩ := endsWell.passes (bits_nests nests (fun _ _ => trivial)) value
    rw [membership, bind_eq value, bind_eq (tokensLeft_eq word)]
    exact membershipFrom_eq_ok_iff nests endsWell' (Nat.lt_succ_self _)
  refine ⟨fun e stop => ⟨fun compiles => ?_, ?_⟩, ?_⟩
  · obtain ⟨x, word, value, -⟩ := Parse.bind_eq_ok_iff.mp compiles
    obtain ⟨clauses, reads, isTest⟩ := (behind value).mp compiles
    exact ⟨x, clauses, ⟨word, value, reads⟩, isTest⟩
  · rintro ⟨x, clauses, ⟨word, value, reads⟩, isTest⟩
    exact (behind value).mpr ⟨clauses, reads, isTest⟩
  · rintro x clauses stop last ⟨word, value, reads⟩ isLast
    exact ⟨fun _ isOperand => reads.keeps (List.mem_of_getLast? isLast) isOperand,
      keeps_all_iff reads isLast⟩

end Chain

section Example

/-- A truth value. -/
def firstAnswer : Parameter := ⟨0, "b", .boolean⟩

/-- Another truth value. -/
def secondAnswer : Parameter := ⟨1, "c", .boolean⟩

/-- A third truth value. -/
def thirdAnswer : Parameter := ⟨2, "d", .boolean⟩

/-- Three truth values. -/
def answerParams : List Parameter := [firstAnswer, secondAnswer, thirdAnswer]

theorem plainEnvironment_canName_answers : plainEnvironment.CanName answerParams :=
  .of_isNone (by decide +kernel) (by decide +kernel) (by decide +kernel)

/-- The state before `b in (c) in (d)`. -/
def answersChain : Session :=
  ⟨⟨.identifier, "b", 0⟩,
    [⟨.identifier, "in", 2⟩, ⟨.openParen, "(", 5⟩, ⟨.identifier, "c", 6⟩, ⟨.closeParen, ")", 7⟩,
      ⟨.identifier, "in", 9⟩, ⟨.openParen, "(", 12⟩, ⟨.identifier, "d", 13⟩,
      ⟨.closeParen, ")", 14⟩, ⟨.finish, "", 15⟩],
    none, .of (.outermost none), .empty, .initial⟩

theorem start_answersChain :
    Session.start (Scan.ofText "b in (c) in (d)" '.') answerParams .initial = .ok answersChain := by
  have scanned : (Scan.ofText "b in (c) in (d)" '.').tokens =
      answersChain.current :: answersChain.rest := by decide +kernel
  have complete : (Scan.ofText "b in (c) in (d)" '.').failure.isNone = true := by decide +kernel
  rw [Session.start, scanned, Option.isNone_iff_eq_none.mp complete]
  rfl

/-- The clauses of `b in (c) in (d)`. -/
def answersClauses : List Clause :=
  [⟨[.parameter secondAnswer],
      .test .equal (.parameter firstAnswer) (.parameter secondAnswer)⟩,
    ⟨[.parameter thirdAnswer], .test .equal (.parameter firstAnswer) (.parameter thirdAnswer)⟩]

theorem readsChain_answers (names : ctx.Names answerParams) (expression : Parse Expr) :
    ctx.ReadsChain expression answersChain (.parameter firstAnswer) answersClauses
      (answersChain.moveTo ⟨.finish, "", 15⟩ []) := by
  have isAnswer {p : Parameter} (isParam : p ∈ answerParams) {token next : Token}
      {rest : List Token} (isName : token.word = .name p.name)
      (noSuffix : next.kind.opensSuffix = false) {n : Nat} (isLevel : 1 ≤ n) (bound : n ≤ 8)
      (ends : Ends n next) :
      ctx.levelAt expression n (answersChain.moveTo token (next :: rest)) =
        .ok (.parameter p) (answersChain.moveTo next rest) :=
    levelAt_name_eq names isParam isName rfl noSuffix isLevel bound ends
  have first : firstAnswer ∈ answerParams := by simp [answerParams]
  have second : secondAnswer ∈ answerParams := by simp [answerParams]
  have third : thirdAnswer ∈ answerParams := by simp [answerParams]
  have clause {p : Parameter} (isParam : p ∈ answerParams) {word opening name close next : Token}
      {rest : List Token} (isWord : word.isWord "in" = true) (opens : opening.kind = .openParen)
      (isName : name.word = .name p.name) (closes : close.kind = .closeParen)
      (isBoolean : (Ty.boolean == p.type) = true) :
      ctx.ReadsClause expression (.parameter firstAnswer)
        (answersChain.moveTo word (opening :: name :: close :: next :: rest))
        ⟨[.parameter p], .test .equal (.parameter firstAnswer) (.parameter p)⟩
        (answersChain.moveTo next rest) := by
    have item : ctx.unary expression (answersChain.moveTo name (close :: next :: rest)) =
        .ok (.parameter p) (answersChain.moveTo close (next :: rest)) :=
      isAnswer (n := 8) isParam isName (closes ▸ rfl) (by decide) (by decide) .of_unary
    have items : ctx.ReadsItems expression
        (answersChain.moveTo opening (name :: close :: next :: rest)) [.parameter p]
        (answersChain.moveTo next rest) :=
      @ReadsItems.last _ _ _ (answersChain.moveTo close (next :: rest)) _ _ _ _ _ rfl item closes
        rfl
    have isItem (op : Token) : Expr.isItem ctx.env.classes op (.parameter firstAnswer)
        (.parameter p) = .ok (.test .equal (.parameter firstAnswer) (.parameter p)) :=
      Expr.isItem_of_same isBoolean
    exact @ReadsClause.list _ _ _
      (answersChain.moveTo word (opening :: name :: close :: next :: rest)) _ _ _ _ _ _ isWord rfl
      opens items (.cons (isItem _) .nil)
  refine ⟨_, isAnswer (n := 3) first rfl rfl (by decide) (by decide)
    ⟨fun low => absurd low (by decide), by decide⟩, ?_⟩
  exact .more (clause second (by decide) rfl rfl rfl rfl)
    (.more (clause third (by decide) rfl rfl rfl rfl) (.none (by decide)))

/-- The operand of the first clause of `b in (c) in (d)` does not occur in the test of the last
one. -/
theorem not_keeps_answers (table : ClassTable) :
    ¬ Keeps table (.test .equal (.parameter firstAnswer) (.parameter thirdAnswer))
      (.parameter secondAnswer) := by
  rintro ⟨operand, coerced, occurs⟩
  have shape : operand = .parameter secondAnswer ∨
      ∃ type, operand = .convert type (.parameter secondAnswer) := by
    cases coerced with
    | same => exact .inl rfl
    | promoted promotes =>
        obtain ⟨rfl, -⟩ | ⟨_, _, constant, -⟩ | ⟨rfl, -⟩ | ⟨rfl, -⟩ := Expr.promote?_cases promotes
        · exact .inl rfl
        · cases constant
        · exact .inr ⟨_, rfl⟩
        · exact .inl rfl
    | @member type _ _ isMember =>
        rw [Expr.enumConstant] at isMember
        cases enum : type.enum? <;> simp [enum, Expr.value?] at isMember
  have leaf {p : Parameter} {bound : List Parameter} (differs : p.name ≠ "c")
      (inside : Occurs bound operand (.parameter p)) : False := by
    cases inside with
    | root =>
        obtain same | ⟨_, same⟩ := shape
        · exact differs (Expr.parameter.inj same ▸ rfl)
        · cases same
    | child isChild _ => cases isChild
  obtain ⟨bound, occurs⟩ : ∃ bound, Occurs bound operand
      (.test .equal (.parameter firstAnswer) (.parameter thirdAnswer)) := ⟨[], occurs⟩
  cases occurs with
  | root => obtain same | ⟨_, same⟩ := shape <;> cases same
  | @child _ _ _ c isChild inside =>
      have isOperand : c = .parameter firstAnswer ∨ c = .parameter thirdAnswer := by
        simpa [Expr.test, Expr.children] using isChild
      obtain rfl | rfl := isOperand
      · exact leaf (by decide) inside
      · exact leaf (by decide) inside

/-- Of the two clauses of `b in (c) in (d)` the first one is lost. -/
theorem membership_keeps_last_clause_answers :
    compileFunction plainEnvironment answerParams none "b in (c) in (d)" [] .initial =
        (.ok (.lambda answerParams
          (.test .equal (.parameter firstAnswer) (.parameter thirdAnswer))), .initial) ∧
      ∀ table, ¬ Keeps table (.test .equal (.parameter firstAnswer) (.parameter thirdAnswer))
        (.parameter secondAnswer) := by
  refine ⟨?_, not_keeps_answers⟩
  obtain ⟨ctx, context, -, names⟩ := plainEnvironment_canName_answers.exists_context
  have membership := ((membership_keeps_last_clause 10
    (Session.start_endsWell start_answersChain)).1 _ _).mpr
      ⟨_, _, readsChain_answers names (ctx.expression 10), rfl⟩
  have ends : Ends 1 (answersChain.moveTo ⟨.finish, "", 15⟩ []).current :=
    .of_grip (Nat.le_refl 1) (Nat.zero_le 1)
  have disjunction := (disjunction_eq_membership (.of_ok membership ends)).trans membership
  have whole : ctx.wholeExpression answersChain =
      .ok (.test .equal (.parameter firstAnswer) (.parameter thirdAnswer))
        (answersChain.moveTo ⟨.finish, "", 15⟩ []) := by
    rw [wholeExpression, bind_eq (tokensLeft_eq answersChain)]
    exact conditional_eq disjunction (Nat.le_refl 0)
  exact compileFunction_of_whole context start_answersChain whole rfl

end Example

end CompileContext

end QueryTree
