import QueryTree.Proofs.Membership.Item
import QueryTree.Proofs.Print.RoundTrip

/-!
# Lists and equalities as texts

How the text of a test for an item of a list and the texts of equalities are read, whatever they
stand in: the states that a compile goes through from one operand to the next.  Where all items are
tested alike, a list compiles if and only if all equalities do, and it then has the truth value of
their disjunction.
-/

namespace QueryTree

open Parse

namespace Expr

/-- The disjunction of tests, joined from the left. -/
def anyOf (first : Expr) (rest : List Expr) : Expr := rest.foldl (test .orElse) first

theorem evaluate_orElse {ctx : EvalContext} {left right : Expr} {a b : Bool}
    (left_value : left.evaluate ctx = .ok (.boolean a))
    (right_value : right.evaluate ctx = .ok (.boolean b)) :
    (test .orElse left right).evaluate ctx = .ok (.boolean (a || b)) := by
  simp only [test, evaluate, left_value, right_value, combine, bind, Except.bind]
  cases a <;> cases b <;> rfl

/-- A disjunction of tests is true if one of them is. -/
theorem evaluate_anyOf {ctx : EvalContext} {first : Expr} {rest : List Expr} {a : Bool}
    {bs : List Bool} (first_value : first.evaluate ctx = .ok (.boolean a))
    (values : List.Forall₂ (fun e b => e.evaluate ctx = .ok (.boolean b)) rest bs) :
    (anyOf first rest).evaluate ctx = .ok (.boolean (a || bs.any id)) := by
  induction values generalizing first a with
  | nil =>
      rw [List.any_nil, Bool.or_false]
      exact first_value
  | @cons e b rest bs value _ ih =>
      rw [List.any_cons, ← Bool.or_assoc]
      exact ih (evaluate_orElse first_value value)

theorem comparison_type {table : ClassTable} {operator : BinaryOp} {op : Token}
    {left right e : Expr} (outcome : comparison table operator op left right = .ok e) :
    e.type = .boolean := by
  rw [comparison] at outcome
  cases operands : compared table operator op left right with
  | error error =>
      rw [operands] at outcome
      cases outcome
  | ok c =>
      rw [operands] at outcome
      exact Except.ok.inj outcome ▸ rfl

theorem ofGroup_logical {table : ClassTable} {op : Token} {left right : Expr}
    (left_type : left.type = .boolean) (right_type : right.type = .boolean) :
    ofGroup table .logical .orElse op left right = .ok (test .orElse left right) := by
  have isSignature : [.boolean, .boolean] ∈ OperatorGroup.logical.signatures := by
    simp [OperatorGroup.signatures, OperatorGroup.pairs, OperatorGroup.withNullable]
  rw [ofGroup, OperatorGroup.operands_exact isSignature (left_type ▸ BEq.rfl)
    (right_type ▸ BEq.rfl)]
  exact congrArg (fun t => Except.ok (binary t .orElse left right none)) left_type

end Expr

namespace CompileContext

open QueryTree.Expr (TestedAlike ComeToSame HasValue anyOf)

variable {ctx : CompileContext} {expression : Parse Expr} {x e : Expr} {es : List Expr}
  {start stop : Session}

section Level

variable {n : Nat}

/-- No operator of a level or of a tighter one stands at a token, nor the word for membership if it
is one of them. -/
def Ends (n : Nat) (token : Token) : Prop :=
  (n ≤ 2 → token.isWord "in" = false) ∧ ∀ m, n ≤ m → m ≤ 7 → operatorAt? m token = none

theorem Ends.mono {m : Nat} {token : Token} (ends : Ends n token) (tighter : n ≤ m) :
    Ends m token :=
  ⟨fun low => ends.1 (Nat.le_trans tighter low), fun k le => ends.2 k (Nat.le_trans tighter le)⟩

theorem Ends.of_grip {token : Token} (isLevel : 1 ≤ n) (loose : token.kind.grip ≤ n) :
    Ends n token :=
  ⟨fun low => token.isWord_of_grip "in" (Nat.le_trans loose (Nat.le_trans low (by decide))),
    fun _ tighter bound => operatorAt?_eq_none (Nat.le_trans isLevel tighter) bound
      (Nat.le_trans loose tighter)⟩

/-- Above the levels of binary operators nothing has to end. -/
theorem Ends.of_unary {token : Token} : Ends 8 token :=
  ⟨fun low => absurd low (by decide), fun m tighter bound => by omega⟩

/-- If a step succeeds, it stops before a token at which a level ends. -/
def StopsAt (n : Nat) (step : Parse Expr) (start : Session) : Prop :=
  ∀ e after, step start = .ok e after → Ends n after.current

namespace StopsAt

variable {step : Parse Expr}

theorem mono {m : Nat} (stops : StopsAt n step start) (tighter : n ≤ m) : StopsAt m step start :=
  fun e after outcome => (stops e after outcome).mono tighter

theorem of_ok (outcome : step start = .ok e stop) (ends : Ends n stop.current) :
    StopsAt n step start := by
  intro e' after outcome'
  obtain ⟨-, rfl⟩ := EStateM.Result.ok.inj (outcome.symm.trans outcome')
  exact ends

theorem of_error {error : CompileError} (outcome : step start = .error error stop) :
    StopsAt n step start := by
  intro e after outcome'
  cases outcome.symm.trans outcome'

theorem of_lift {outcome : Except CompileError Expr} (lifted : step start = Parse.lift outcome stop)
    (ends : Ends n stop.current) : StopsAt n step start := by
  cases isOutcome : outcome with
  | ok e => exact of_ok (lifted.trans (lift_eq isOutcome stop)) ends
  | error error => exact of_error (lifted.trans (lift_error isOutcome stop))

end StopsAt

theorem chain_eq_operand {operand : Parse Expr} {operator? : Token → Option BinaryOp}
    {join : BinaryOp → Token → Expr → Expr → Except CompileError Expr}
    (ends : ∀ e after, operand start = .ok e after → operator? after.current = none) :
    chain operand operator? join start = operand start := by
  rw [chain]
  cases outcome : operand start with
  | ok e after =>
      rw [bind_eq outcome, bind_eq (tokensLeft_eq after), chainFrom_end (ends e after outcome)]
  | error error after => exact bind_error outcome

/-- An expression of a level is one of the level below where no operator of that level follows. -/
theorem levelAt_eq_tighter (isLevel : 1 ≤ n) (isBinary : n ≤ 7)
    (stops : StopsAt n (ctx.levelAt expression (n + 1)) start) :
    ctx.levelAt expression n start = ctx.levelAt expression (n + 1) start := by
  have operand : ctx.operandAt expression n start = ctx.levelAt expression (n + 1) start := by
    match n with
    | 1 | 3 | 4 | 5 | 6 | 7 => rfl
    | 2 =>
        change ctx.membership expression start = ctx.bits expression start
        rw [membership]
        cases outcome : ctx.bits expression start with
        | ok e after =>
            rw [bind_eq outcome, bind_eq (tokensLeft_eq after)]
            exact membershipFrom_end ((stops e after outcome).1 (Nat.le_refl 2))
        | error error after => exact bind_error outcome
  rw [levelAt_eq isLevel isBinary, ← operand]
  refine chain_eq_operand fun e after outcome => ?_
  exact (stops e after (operand ▸ outcome)).2 n (Nat.le_refl n) isBinary

/-- An expression of a level is one of all levels below where no operator of them follows. -/
theorem levelAt_eq_of_stopsAt {m : Nat} (isLevel : 1 ≤ n) (tighter : n ≤ m) (bound : m ≤ 8)
    (stops : StopsAt n (ctx.levelAt expression m) start) :
    ctx.levelAt expression n start = ctx.levelAt expression m start := by
  obtain ⟨k, rfl⟩ := Nat.exists_eq_add_of_le tighter
  induction k generalizing n with
  | zero => rfl
  | succ k ih =>
      have same : n + (k + 1) = n + 1 + k := by omega
      rw [same] at stops bound ⊢
      have above := ih (n := n + 1) (by omega) (by omega) bound (stops.mono (Nat.le_succ n))
      have stops_above : StopsAt n (ctx.levelAt expression (n + 1)) start :=
        fun e after outcome => stops e after (above ▸ outcome)
      rw [← above]
      exact levelAt_eq_tighter isLevel (by omega) stops_above

end Level

section Equality

/-- The text of an equality is read: the value on the left, an operator for equality, and the item
on the right. -/
inductive ReadsEquality (ctx : CompileContext) (expression : Parse Expr) (start : Session)
    (x e : Expr) (stop : Session) : Prop where
  | intro {operator : Session} {token : Token} {rest : List Token}
      (value : ctx.shift expression start = .ok x operator)
      (isEqual : comparisonOperator? operator.current = some .equal)
      (behind : operator.rest = token :: rest)
      (item : ctx.unary expression (operator.moveTo token rest) = .ok e stop)

/-- The texts of equalities of a value with one item after the other are read, with a disjunction
between them.  No text has more tokens left at its end than at its beginning. -/
inductive ReadsEqualities (ctx : CompileContext) (expression : Parse Expr) (x : Expr) :
    Session → List Expr → Session → Prop where
  | last {start stop : Session} {e : Expr}
      (equality : ctx.ReadsEquality expression start x e stop) :
      ReadsEqualities ctx expression x start [e] stop
  | next {start bars stop : Session} {token : Token} {rest : List Token} {e : Expr} {es : List Expr}
      (equality : ctx.ReadsEquality expression start x e bars)
      (passes : bars.rest.length ≤ start.rest.length)
      (separates : bars.current.kind = .doubleBar) (behind : bars.rest = token :: rest)
      (more : ReadsEqualities ctx expression x (bars.moveTo token rest) es stop) :
      ReadsEqualities ctx expression x start (e :: es) stop

/-- Behind the text of an equality the two operands are compared. -/
theorem ReadsEquality.levelAt_eq (reads : ctx.ReadsEquality expression start x e stop) {n : Nat}
    (isLevel : 1 ≤ n) (loose : n ≤ 4) (ends : Ends n stop.current) :
    ∃ op, ctx.levelAt expression n start =
      Parse.lift (Expr.comparison ctx.env.classes .equal op x e) stop := by
  obtain @⟨operator, token, rest, value, isEqual, behind, item⟩ := reads
  have right : ctx.shift expression (operator.moveTo token rest) = .ok e stop :=
    (levelAt_eq_of_stopsAt (n := 5) (m := 8) (by decide) (by decide) (Nat.le_refl 8)
      (.of_ok item (ends.mono (Nat.le_succ_of_le loose)))).trans item
  have compared : ctx.comparison expression start =
      Parse.lift (Expr.comparison ctx.env.classes .equal operator.current x e) stop := by
    rw [CompileContext.comparison, chain, bind_eq value, bind_eq (tokensLeft_eq operator), behind,
      List.length_cons]
    cases outcome : Expr.comparison ctx.env.classes .equal operator.current x e with
    | ok test =>
        rw [chainFrom_step isEqual behind right outcome]
        exact chainFrom_end (ends.2 4 loose (by decide))
    | error error =>
        simp only [chainFrom, bind_eq (current_eq operator), isEqual]
        rw [bind_eq (advance_eq behind), bind_eq right, outcome]
        rfl
  refine ⟨operator.current, ?_⟩
  exact (levelAt_eq_of_stopsAt (m := 4) isLevel loose (by decide) (.of_lift compared ends)).trans
    compared

end Equality

section Disjunction

theorem ReadsEqualities.length_le (reads : ctx.ReadsEqualities expression x start es stop) :
    es.length ≤ start.rest.length + 1 := by
  induction reads with
  | last => exact Nat.le_add_left 1 _
  | next _ passes _ behind _ ih =>
      rw [behind, List.length_cons] at passes
      rw [Session.moveTo_rest] at ih
      rw [List.length_cons]
      omega

/-- A test is the test whether a value is equal to an item. -/
def IsEquality (ctx : CompileContext) (x e test : Expr) : Prop :=
  ∃ op, Expr.comparison ctx.env.classes .equal op x e = .ok test

/-- The operands of a disjunction are the equalities. -/
theorem ReadsEquality.conjunction_eq (reads : ctx.ReadsEquality expression start x e stop)
    (ends : Ends 2 stop.current)
    (compiles : ∀ op, ∃ test, Expr.comparison ctx.env.classes .equal op x e = .ok test) :
    ∃ test, ctx.IsEquality x e test ∧ ctx.conjunction expression start = .ok test stop := by
  obtain ⟨op, conjunction_eq⟩ := reads.levelAt_eq (n := 2) (by decide) (by decide) ends
  obtain ⟨test, outcome⟩ := compiles op
  rw [outcome] at conjunction_eq
  exact ⟨test, ⟨op, outcome⟩, conjunction_eq⟩

/-- An equality behind a double bar joins the test before it. -/
theorem chainFrom_equality {bars : Session} {token : Token} {rest : List Token} {test left : Expr}
    (isBars : bars.current.kind = .doubleBar) (behind : bars.rest = token :: rest)
    (starts : bars.moveTo token rest = start) (isEquality : ctx.IsEquality x e test)
    (conjunction_eq : ctx.conjunction expression start = .ok test stop)
    (left_type : left.type = .boolean) (fuel : Nat) :
    chainFrom (ctx.conjunction expression) orOperator? (Expr.ofGroup ctx.env.classes .logical)
      (fuel + 1) left bars =
        chainFrom (ctx.conjunction expression) orOperator?
          (Expr.ofGroup ctx.env.classes .logical) fuel (.test .orElse left test) stop := by
  obtain ⟨_, outcome⟩ := isEquality
  exact chainFrom_step (if_pos isBars) behind (starts ▸ conjunction_eq)
    (Expr.ofGroup_logical left_type (Expr.comparison_type outcome))

variable (compile : ∀ e ∈ es, ∀ op, ∃ test,
  Expr.comparison ctx.env.classes .equal op x e = .ok test)

include compile

/-- The equalities behind a double bar join the test before it. -/
theorem ReadsEqualities.chainFrom_eq (reads : ctx.ReadsEqualities expression x start es stop)
    (ends : Ends 1 stop.current) :
    ∃ tests, List.Forall₂ (ctx.IsEquality x) es tests ∧
      ∀ (bars : Session) token rest left fuel, bars.current.kind = .doubleBar →
        bars.rest = token :: rest → bars.moveTo token rest = start → left.type = .boolean →
        es.length ≤ fuel →
          chainFrom (ctx.conjunction expression) orOperator?
            (Expr.ofGroup ctx.env.classes .logical) (fuel + 1) left bars =
              .ok (anyOf left tests) stop := by
  induction reads with
  | @last start stop e equality =>
      obtain ⟨test, isEquality, conjunction_eq⟩ := equality.conjunction_eq
        (ends.mono (by decide)) (compile e (List.mem_singleton_self e))
      refine ⟨[test], .cons isEquality .nil, ?_⟩
      intro bars token rest left fuel isBars behind starts left_type enough
      obtain ⟨fuel, rfl⟩ := Nat.exists_eq_add_of_le' enough
      rw [chainFrom_equality isBars behind starts isEquality conjunction_eq left_type]
      exact chainFrom_end (ends.2 1 (Nat.le_refl 1) (by decide))
  | @next start bars stop token rest e es equality passes separates behind more ih =>
      obtain ⟨test, isEquality, conjunction_eq⟩ := equality.conjunction_eq
        (.of_grip (by decide) (separates ▸ Nat.le_refl 2)) (compile e (List.mem_cons_self ..))
      obtain ⟨tests, each, further⟩ := ih
        (fun e' isItem => compile e' (List.mem_cons_of_mem e isItem)) ends
      refine ⟨test :: tests, .cons isEquality each, ?_⟩
      intro bars' token' rest' left fuel isBars behind' starts left_type enough
      rw [chainFrom_equality isBars behind' starts isEquality conjunction_eq left_type]
      obtain ⟨fuel, rfl⟩ := Nat.exists_eq_add_of_le' (Nat.le_trans (Nat.le_add_left 1 _) enough)
      exact further bars token rest _ fuel separates behind rfl rfl (Nat.le_of_succ_le_succ enough)

/-- Behind the texts of equalities there is their disjunction. -/
theorem ReadsEqualities.disjunction_eq (reads : ctx.ReadsEqualities expression x start es stop)
    (ends : Ends 1 stop.current) :
    ∃ test tests, List.Forall₂ (ctx.IsEquality x) es (test :: tests) ∧
      ctx.disjunction expression start = .ok (anyOf test tests) stop := by
  cases reads with
  | last equality =>
      obtain ⟨test, isEquality, conjunction_eq⟩ := equality.conjunction_eq
        (ends.mono (by decide)) (compile _ (List.mem_singleton_self _))
      refine ⟨test, [], .cons isEquality .nil, ?_⟩
      rw [disjunction, chain, bind_eq conjunction_eq, bind_eq (tokensLeft_eq stop)]
      exact chainFrom_end (ends.2 1 (Nat.le_refl 1) (by decide))
  | @next _ bars _ token rest e es equality _ separates behind more =>
      obtain ⟨test, isEquality, conjunction_eq⟩ := equality.conjunction_eq
        (.of_grip (by decide) (separates ▸ Nat.le_refl 2)) (compile _ (List.mem_cons_self ..))
      obtain ⟨tests, each, further⟩ := more.chainFrom_eq
        (fun e' isItem => compile e' (List.mem_cons_of_mem _ isItem)) ends
      obtain ⟨op, outcome⟩ := isEquality
      refine ⟨test, tests, .cons ⟨op, outcome⟩ each, ?_⟩
      have enough : es.length ≤ bars.rest.length := by
        have fewer := more.length_le
        rw [behind, List.length_cons]
        exact fewer
      rw [disjunction, chain, bind_eq conjunction_eq, bind_eq (tokensLeft_eq bars)]
      exact further bars token rest test _ separates behind rfl (Expr.comparison_type outcome)
        enough

end Disjunction

section List

/-- The items of a list in parentheses are read, from the parenthesis or the comma before the first
of them to the closing parenthesis.  No item has more tokens left at its end than at its
beginning. -/
inductive ReadsItems (ctx : CompileContext) (expression : Parse Expr) :
    Session → List Expr → Session → Prop where
  | last {start close : Session} {token token' : Token} {rest rest' : List Token} {e : Expr}
      (before : start.rest = token :: rest)
      (item : ctx.unary expression (start.moveTo token rest) = .ok e close)
      (closes : close.current.kind = .closeParen) (behind : close.rest = token' :: rest') :
      ReadsItems ctx expression start [e] (close.moveTo token' rest')
  | next {start comma stop : Session} {token : Token} {rest : List Token} {e : Expr}
      {es : List Expr} (before : start.rest = token :: rest)
      (item : ctx.unary expression (start.moveTo token rest) = .ok e comma)
      (passes : comma.rest.length ≤ rest.length) (separates : comma.current.kind = .comma)
      (more : ReadsItems ctx expression comma es stop) :
      ReadsItems ctx expression start (e :: es) stop

/-- The text of a test for an item of a list is read: the value, the word for membership, and the
items in parentheses. -/
inductive ReadsMembership (ctx : CompileContext) (expression : Parse Expr) (start : Session)
    (op : Token) (x : Expr) (es : List Expr) (stop : Session) : Prop where
  | intro {word : Session} {token : Token} {rest : List Token}
      (value : ctx.bits expression start = .ok x word) (isOp : word.current = op)
      (isMembership : op.isWord "in" = true) (behind : word.rest = token :: rest)
      (opens : token.kind = .openParen)
      (items : ctx.ReadsItems expression (word.moveTo token rest) es stop)

theorem ReadsItems.length_le (reads : ctx.ReadsItems expression start es stop) :
    es.length ≤ start.rest.length := by
  induction reads with
  | last before =>
      rw [before]
      exact Nat.le_add_left 1 _
  | next before _ passes _ _ ih =>
      rw [before, List.length_cons, List.length_cons]
      omega

section Step

variable {op : Token} {close : Session} {token : Token} {rest : List Token} {fuel : Nat}
  {tested : Option Expr} {test : Expr} (before : start.rest = token :: rest)
  (item : ctx.unary expression (start.moveTo token rest) = .ok e close)

include before item

theorem itemTests_last {token' : Token} {rest' : List Token}
    (isItem : Expr.isItem ctx.env.classes op x e = .ok test)
    (closes : close.current.kind = .closeParen) (behind : close.rest = token' :: rest') :
    ctx.itemTests expression op x (fuel + 1) tested start =
      .ok (joinTest tested test) (close.moveTo token' rest') := by
  rw [itemTests, bind_eq (advance_eq before), bind_eq item, bind_eq (lift_eq isItem close),
    bind_eq (check_eq .closeParen close), closes]
  change (advance >>= fun _ => pure (joinTest tested test)) close = _
  rw [bind_eq (advance_eq behind)]
  rfl

theorem itemTests_next (isItem : Expr.isItem ctx.env.classes op x e = .ok test)
    (separates : close.current.kind = .comma) :
    ctx.itemTests expression op x (fuel + 1) tested start =
      ctx.itemTests expression op x fuel (some (joinTest tested test)) close := by
  rw [itemTests, bind_eq (advance_eq before), bind_eq item, bind_eq (lift_eq isItem close),
    bind_eq (check_eq .closeParen close), separates]
  change (check .comma >>= fun more =>
    if more = true then ctx.itemTests expression op x fuel (some (joinTest tested test))
    else failHere (.expected .closeParenOrComma)) close = _
  rw [bind_eq (check_eq .comma close), separates]
  rfl

theorem itemTests_error {error : CompileError}
    (refused : Expr.isItem ctx.env.classes op x e = .error error) :
    ctx.itemTests expression op x (fuel + 1) tested start = .error error close := by
  rw [itemTests, bind_eq (advance_eq before), bind_eq item]
  exact bind_error (lift_error refused close)

end Step

variable {op : Token}

/-- There is at least one item, so that if all tests of items are made, there is a first one. -/
theorem ReadsItems.exists_tests (reads : ctx.ReadsItems expression start es stop)
    {made : Expr → Expr → Prop} (each : ∀ e ∈ es, ∃ test, made e test) :
    ∃ test tests, List.Forall₂ made es (test :: tests) := by
  induction reads with
  | last =>
      obtain ⟨test, isTest⟩ := each _ (List.mem_singleton_self _)
      exact ⟨test, [], .cons isTest .nil⟩
  | next _ _ _ _ _ ih =>
      obtain ⟨⟨test, isTest⟩, later⟩ := List.forall_mem_cons.mp each
      obtain ⟨test', tests, isTests⟩ := ih later
      exact ⟨test, test' :: tests, .cons isTest isTests⟩

/-- Behind the items there is the disjunction of their tests. -/
theorem ReadsItems.itemTests_eq (reads : ctx.ReadsItems expression start es stop) {fuel : Nat}
    (enough : es.length ≤ fuel) {tested : Option Expr} {test : Expr} {tests : List Expr}
    (each : List.Forall₂ (fun e test => Expr.isItem ctx.env.classes op x e = .ok test) es
      (test :: tests)) :
    ctx.itemTests expression op x fuel tested start =
      .ok (anyOf (joinTest tested test) tests) stop := by
  induction reads generalizing fuel tested test tests with
  | last before item closes behind =>
      obtain ⟨fuel, rfl⟩ := Nat.exists_eq_add_of_le' (show 1 ≤ fuel from enough)
      obtain ⟨isItem, none⟩ := List.forall₂_cons.mp each
      obtain rfl := List.forall₂_nil_left_iff.mp none
      exact itemTests_last before item isItem closes behind
  | next before item passes separates more ih =>
      obtain ⟨fuel, rfl⟩ := Nat.exists_eq_add_of_le' (Nat.le_trans (Nat.le_add_left 1 _) enough)
      obtain ⟨isItem, each⟩ := List.forall₂_cons.mp each
      obtain ⟨test', tests, rfl⟩ : ∃ test' tests', tests = test' :: tests' := by
        cases more <;> cases each <;> exact ⟨_, _, rfl⟩
      rw [itemTests_next before item isItem separates]
      exact ih (Nat.le_of_succ_le_succ enough) each

/-- If the test of an item is refused, the list is. -/
theorem ReadsItems.itemTests_refused (reads : ctx.ReadsItems expression start es stop) {fuel : Nat}
    {tested : Option Expr} {error : CompileError} (isMember : e ∈ es)
    (refused : Expr.isItem ctx.env.classes op x e = .error error) :
    ∃ error after, ctx.itemTests expression op x fuel tested start = .error error after := by
  induction reads generalizing fuel tested with
  | last before item _ _ =>
      obtain rfl := List.mem_singleton.mp isMember
      cases fuel with
      | zero => exact ⟨_, _, rfl⟩
      | succ => exact ⟨error, _, itemTests_error before item refused⟩
  | @next _ _ _ _ _ first _ before item _ separates _ ih =>
      cases fuel with
      | zero => exact ⟨_, _, rfl⟩
      | succ fuel =>
          cases outcome : Expr.isItem ctx.env.classes op x first with
          | error error => exact ⟨error, _, itemTests_error before item outcome⟩
          | ok test =>
              rw [itemTests_next before item outcome separates]
              obtain rfl | later := List.mem_cons.mp isMember
              · rw [refused] at outcome
                cases outcome
              · exact ih later

/-- A test for membership is a whole disjunction where no operator follows. -/
theorem disjunction_eq_membership (stops : StopsAt 1 (ctx.membership expression) start) :
    ctx.disjunction expression start = ctx.membership expression start := by
  have conjunction_eq : ctx.conjunction expression start = ctx.membership expression start :=
    chain_eq_operand fun e after outcome => (stops e after outcome).2 2 (by decide) (by decide)
  rw [← conjunction_eq]
  exact chain_eq_operand fun e after outcome =>
    (stops e after (conjunction_eq ▸ outcome)).2 1 (by decide) (by decide)

namespace ReadsMembership

variable (reads : ctx.ReadsMembership expression start op x es stop)

include reads

/-- Behind the value the items are tested one after the other. -/
theorem membership_eq :
    ∃ opening fuel, es.length ≤ fuel ∧ ctx.ReadsItems expression opening es stop ∧
      ctx.membership expression start =
        (ctx.itemTests expression op x fuel none >>= ctx.membershipFrom expression x fuel)
          opening := by
  obtain @⟨word, token, rest, value, rfl, isMembership, behind, opens, items⟩ := reads
  refine ⟨word.moveTo token rest, rest.length + 1, Nat.le_succ_of_le items.length_le, items, ?_⟩
  have opened : Parse.check .openParen (word.moveTo token rest) =
      .ok true (word.moveTo token rest) := by
    rw [check_eq, Session.moveTo_current, opens]
    rfl
  rw [membership, bind_eq value, bind_eq (tokensLeft_eq word), behind, List.length_cons,
    membershipFrom, bind_eq (current_eq word), isMembership]
  simp only [if_true]
  rw [bind_eq (advance_eq behind), bind_eq opened]
  simp only [if_true]
  rw [bind_eq (tokensLeft_eq _), Session.moveTo_rest]

/-- If the tests of all items are made, their disjunction is read. -/
theorem disjunction_eq (ends : Ends 1 stop.current)
    (made : ∀ e ∈ es, ∃ test, Expr.isItem ctx.env.classes op x e = .ok test) :
    ∃ test tests,
      List.Forall₂ (fun e test => Expr.isItem ctx.env.classes op x e = .ok test) es
        (test :: tests) ∧
      ctx.disjunction expression start = .ok (anyOf test tests) stop := by
  obtain ⟨opening, fuel, enough, items, membership_eq⟩ := reads.membership_eq
  obtain ⟨test, tests, each⟩ := items.exists_tests made
  refine ⟨test, tests, each, ?_⟩
  rw [bind_eq (items.itemTests_eq enough each), membershipFrom_end (ends.1 (by decide))]
    at membership_eq
  exact (disjunction_eq_membership (.of_ok membership_eq ends)).trans membership_eq

/-- If the test of an item is refused, the text is. -/
theorem disjunction_refused {error : CompileError} (isMember : e ∈ es)
    (refused : Expr.isItem ctx.env.classes op x e = .error error) :
    ∃ error after, ctx.disjunction expression start = .error error after := by
  obtain ⟨opening, fuel, -, items, membership_eq⟩ := reads.membership_eq
  obtain ⟨error, after, failed⟩ := items.itemTests_refused isMember refused
  rw [bind_error failed] at membership_eq
  exact ⟨error, after, (disjunction_eq_membership (.of_error membership_eq)).trans membership_eq⟩

/-- If the text compiles, the tests of all items are made. -/
theorem items_of_compiles {test : Expr} {after : Session}
    (compiles : ctx.disjunction expression start = .ok test after) (isMember : e ∈ es) :
    ∃ test, Expr.isItem ctx.env.classes op x e = .ok test := by
  cases outcome : Expr.isItem ctx.env.classes op x e with
  | ok test => exact ⟨test, rfl⟩
  | error error =>
      obtain ⟨_, _, refused⟩ := reads.disjunction_refused isMember outcome
      rw [refused] at compiles
      cases compiles

end ReadsMembership

end List

section Meaning

/-- A text compiles, as a part of whatever stands around it. -/
def Compiles (ctx : CompileContext) (expression : Parse Expr) (start : Session) : Prop :=
  ∃ e after, ctx.disjunction expression start = .ok e after

/-- The tests of items and the equalities have the same truth values. -/
theorem exists_truths {op : Token} {values : EvalContext} {v : Value} {ws : List Value}
    {tests tests' : List Expr} (alike : ∀ e ∈ es, TestedAlike ctx.env.classes x e)
    (items : List.Forall₂ (fun e test => Expr.isItem ctx.env.classes op x e = .ok test) es tests)
    (equalities : List.Forall₂ (ctx.IsEquality x) es tests') (x_value : x.HasValue values v)
    (es_values : List.Forall₂ (HasValue values) es ws) :
    ∃ truths, List.Forall₂ (fun e b => e.evaluate values = .ok (.boolean b)) tests truths ∧
      List.Forall₂ (fun e b => e.evaluate values = .ok (.boolean b)) tests' truths := by
  induction items generalizing tests' ws with
  | nil =>
      cases equalities
      exact ⟨[], .nil, .nil⟩
  | @cons e test es tests isItem _ ih =>
      obtain ⟨alike_first, alike_later⟩ := List.forall_mem_cons.mp alike
      cases equalities with
      | cons isEquality equalities =>
          obtain ⟨op', isEquality⟩ := isEquality
          cases es_values with
          | cons e_value es_values =>
              obtain ⟨truths, first, second⟩ := ih alike_later equalities es_values
              obtain ⟨holds, test_value, test'_value⟩ :=
                (alike_first.comeToSame op op').evaluate isItem isEquality x_value e_value
              exact ⟨holds :: truths, .cons test_value first, .cons test'_value second⟩

/-- The test for an item of a list means the disjunction of the equalities with the items, where
all items are tested alike: the list compiles if and only if all equalities do, and it then has the
truth value of their disjunction for all values of the operands. -/
theorem membership_means_equalities {op : Token}
    (alike : ∀ e ∈ es, TestedAlike ctx.env.classes x e)
    (list : ctx.ReadsMembership expression start op x es stop) (ends : Ends 1 stop.current)
    {equality rest : Expr → Session}
    (each : ∀ e ∈ es, ctx.ReadsEquality expression (equality e) x e (rest e) ∧
      Ends 1 (rest e).current)
    {first last : Session} (equalities : ctx.ReadsEqualities expression x first es last)
    (endsLast : Ends 1 last.current) :
    (ctx.Compiles expression start ↔ ∀ e ∈ es, ctx.Compiles expression (equality e)) ∧
      ∀ test after, ctx.disjunction expression start = .ok test after →
        ∃ disjunction, ctx.disjunction expression first = .ok disjunction last ∧
          ∀ values v ws, x.HasValue values v → List.Forall₂ (HasValue values) es ws →
            ∃ holds, test.evaluate values = .ok (.boolean holds) ∧
              disjunction.evaluate values = .ok (.boolean holds) := by
  have same e (isMember : e ∈ es) op' := (alike e isMember).comeToSame op op'
  refine ⟨⟨fun ⟨_, _, compiles⟩ e isMember => ?_, fun compile => ?_⟩, fun test after compiles => ?_⟩
  · obtain ⟨reads, ends⟩ := each e isMember
    obtain ⟨op', disjunction_eq⟩ := reads.levelAt_eq (Nat.le_refl 1) (by decide) ends
    obtain ⟨test, outcome⟩ :=
      (same e isMember op').isOk_iff.mp (list.items_of_compiles compiles isMember)
    exact ⟨test, rest e, disjunction_eq.trans (lift_eq outcome _)⟩
  · have made : ∀ e ∈ es, ∃ test, Expr.isItem ctx.env.classes op x e = .ok test := by
      intro e isMember
      obtain ⟨reads, ends⟩ := each e isMember
      obtain ⟨op', disjunction_eq⟩ := reads.levelAt_eq (Nat.le_refl 1) (by decide) ends
      refine (same e isMember op').isOk_iff.mpr ?_
      obtain ⟨test, after, compiles⟩ := compile e isMember
      cases outcome : Expr.comparison ctx.env.classes .equal op' x e with
      | ok test => exact ⟨test, rfl⟩
      | error error => cases compiles.symm.trans (disjunction_eq.trans (lift_error outcome _))
    obtain ⟨test, tests, -, disjunction_eq⟩ := list.disjunction_eq ends made
    exact ⟨_, stop, disjunction_eq⟩
  · have made e (isMember : e ∈ es) := list.items_of_compiles compiles isMember
    obtain ⟨first_test, tests, items, disjunction_eq⟩ := list.disjunction_eq ends made
    obtain ⟨rfl, -⟩ := EStateM.Result.ok.inj (disjunction_eq.symm.trans compiles)
    obtain ⟨first_equality, rest, isEqualities, equalities_eq⟩ := equalities.disjunction_eq
      (fun e isMember op' => (same e isMember op').isOk_iff.mp (made e isMember)) endsLast
    refine ⟨_, equalities_eq, fun values v ws x_value es_values => ?_⟩
    obtain ⟨truths, items_true, equalities_true⟩ :=
      exists_truths alike items isEqualities x_value es_values
    cases items_true with
    | @cons _ b _ bs first_value rest_values =>
        obtain ⟨first_value', rest_values'⟩ := List.forall₂_cons.mp equalities_true
        exact ⟨b || bs.any id, Expr.evaluate_anyOf first_value rest_values,
          Expr.evaluate_anyOf first_value' rest_values'⟩

end Meaning

section Names

variable {params : List Parameter} {p q : Parameter} {next : Token} {rest : List Token}

/-- The name of a parameter is an expression of each level. -/
theorem levelAt_name_eq (names : ctx.Names params) (isParam : p ∈ params)
    (isName : start.current.word = .name p.name) (isNext : start.rest = next :: rest)
    (noSuffix : next.kind.opensSuffix = false) {n : Nat} (isLevel : 1 ≤ n) (bound : n ≤ 8)
    (ends : Ends n next) :
    ctx.levelAt expression n start = .ok (.parameter p) (start.moveTo next rest) := by
  have unary_eq : ctx.levelAt expression 8 start =
      .ok (.parameter p) (start.moveTo next rest) := by
    have isKind : start.current.kind = .identifier := congrArg Word.kind isName
    change ctx.unary expression start = _
    rw [unary, bind_eq (tokensLeft_eq start),
      unaryFrom_eq_primary (isKind ▸ by decide) (isKind ▸ by decide)]
    exact primary_name_eq names isParam isName isNext noSuffix
  exact (levelAt_eq_of_stopsAt isLevel bound (Nat.le_refl 8) (.of_ok unary_eq ends)).trans unary_eq

/-- The equality of two parameters is read from their names. -/
theorem ReadsEquality.of_names {operator item : Token} (names : ctx.Names params)
    (p_param : p ∈ params) (q_param : q ∈ params) (p_name : start.current.word = .name p.name)
    (isEqual : operator.kind = .doubleEqual) (q_name : item.word = .name q.name)
    (behind : start.rest = operator :: item :: next :: rest)
    (noSuffix : next.kind.opensSuffix = false) :
    ctx.ReadsEquality expression start (.parameter p) (.parameter q) (start.moveTo next rest) := by
  have noOperand : operator.kind.opensSuffix = false := isEqual ▸ rfl
  have shift : ctx.shift expression start =
      .ok (.parameter p) (start.moveTo operator (item :: next :: rest)) :=
    levelAt_name_eq (n := 5) names p_param p_name behind noOperand (by decide) (by decide)
      (.of_grip (by decide) (isEqual ▸ Nat.le_refl 5))
  have isOperator : comparisonOperator? operator = some .equal := by
    rw [comparisonOperator?, isEqual]
  refine .intro shift isOperator rfl ?_
  exact levelAt_name_eq (n := 8) names q_param q_name rfl noSuffix (by decide) (by decide) .of_unary

end Names

section Example

/-- The state before a text of sizes that starts with a width. -/
def sizesSession (tokens : List Token) : Session :=
  ⟨⟨.identifier, "w", 0⟩, tokens, none, .of (.outermost none), .empty, .initial⟩

theorem start_sizes {text : String} {tokens : List Token}
    (scanned : (Scan.ofText text '.').tokens = ⟨.identifier, "w", 0⟩ :: tokens)
    (complete : (Scan.ofText text '.').failure.isNone = true) :
    Session.start (Scan.ofText text '.') shapeParams .initial = .ok (sizesSession tokens) := by
  rw [Session.start, scanned, Option.isNone_iff_eq_none.mp complete]
  rfl

/-- The tokens of `w in (h, w)` behind the first one. -/
def sizesList : List Token :=
  [⟨.identifier, "in", 2⟩, ⟨.openParen, "(", 5⟩, ⟨.identifier, "h", 6⟩, ⟨.comma, ",", 7⟩,
    ⟨.identifier, "w", 9⟩, ⟨.closeParen, ")", 10⟩, ⟨.finish, "", 11⟩]

/-- The tokens of `w == h || w == w` behind the first one. -/
def sizesDisjunction : List Token :=
  [⟨.doubleEqual, "==", 2⟩, ⟨.identifier, "h", 5⟩, ⟨.doubleBar, "||", 7⟩, ⟨.identifier, "w", 10⟩,
    ⟨.doubleEqual, "==", 12⟩, ⟨.identifier, "w", 15⟩, ⟨.finish, "", 16⟩]

/-- The tokens of `w == h` or `w == w` behind the first one. -/
def sizesEquality : Expr → List Token
  | .parameter p => [⟨.doubleEqual, "==", 2⟩, ⟨.identifier, p.name, 5⟩, ⟨.finish, "", 6⟩]
  | _ => []

theorem readsMembership_sizes (names : ctx.Names shapeParams) (expression : Parse Expr) :
    ctx.ReadsMembership expression (sizesSession sizesList) ⟨.identifier, "in", 2⟩
      (.parameter widthParam) [.parameter heightParam, .parameter widthParam]
      ((sizesSession sizesList).moveTo ⟨.finish, "", 11⟩ []) := by
  have w_param : widthParam ∈ shapeParams := by simp [shapeParams]
  have h_param : heightParam ∈ shapeParams := by simp [shapeParams]
  have value : ctx.bits expression (sizesSession sizesList) =
      .ok (.parameter widthParam)
        ((sizesSession sizesList).moveTo ⟨.identifier, "in", 2⟩ (sizesList.drop 1)) :=
    levelAt_name_eq (n := 3) names w_param rfl rfl rfl (by decide) (by decide)
      ⟨fun low => absurd low (by decide), by decide⟩
  have height : ctx.unary expression
      ((sizesSession sizesList).moveTo ⟨.identifier, "h", 6⟩ (sizesList.drop 3)) =
        .ok (.parameter heightParam)
          ((sizesSession sizesList).moveTo ⟨.comma, ",", 7⟩ (sizesList.drop 4)) :=
    levelAt_name_eq (n := 8) names h_param rfl rfl rfl (by decide) (by decide) .of_unary
  have width : ctx.unary expression
      ((sizesSession sizesList).moveTo ⟨.identifier, "w", 9⟩ (sizesList.drop 5)) =
        .ok (.parameter widthParam)
          ((sizesSession sizesList).moveTo ⟨.closeParen, ")", 10⟩ (sizesList.drop 6)) :=
    levelAt_name_eq (n := 8) names w_param rfl rfl rfl (by decide) (by decide) .of_unary
  have last : ctx.ReadsItems expression
      ((sizesSession sizesList).moveTo ⟨.comma, ",", 7⟩ (sizesList.drop 4))
      [.parameter widthParam] (((sizesSession sizesList).moveTo ⟨.closeParen, ")", 10⟩
        (sizesList.drop 6)).moveTo ⟨.finish, "", 11⟩ []) := .last rfl width rfl rfl
  exact .intro value rfl (by decide) rfl rfl (.next rfl height (by decide) rfl last)

theorem membership_means_equalities_sizes : ∃ ctx list equalities,
    CompileContext.of plainEnvironment shapeParams [] = .ok ctx ∧
      Session.start (Scan.ofText "w in (h, w)" '.') shapeParams .initial = .ok list ∧
      Session.start (Scan.ofText "w == h || w == w" '.') shapeParams .initial = .ok equalities ∧
      ∃ test after disjunction last,
        ctx.disjunction ctx.wholeExpression list = .ok test after ∧
          ctx.disjunction ctx.wholeExpression equalities = .ok disjunction last ∧
            ∀ values v w, (Expr.parameter widthParam).HasValue values v →
              (Expr.parameter heightParam).HasValue values w →
                ∃ holds, test.evaluate values = .ok (.boolean holds) ∧
                  disjunction.evaluate values = .ok (.boolean holds) := by
  obtain ⟨ctx, context, -, names⟩ := plainEnvironment_canName.exists_context
  refine ⟨ctx, sizesSession sizesList, sizesSession sizesDisjunction, context,
    start_sizes (by decide +kernel) (by decide +kernel),
    start_sizes (by decide +kernel) (by decide +kernel), ?_⟩
  have w_param : widthParam ∈ shapeParams := by simp [shapeParams]
  have h_param : heightParam ∈ shapeParams := by simp [shapeParams]
  have ends {token : Token} {rest : List Token} (isFinish : token.kind = .finish) :
      Ends 1 ((sizesSession rest).moveTo token []).current :=
    .of_grip (Nat.le_refl 1) (isFinish ▸ Nat.zero_le 1)
  have alike : ∀ e ∈ [Expr.parameter heightParam, .parameter widthParam],
      TestedAlike ctx.env.classes (.parameter widthParam) e := by
    have size {p : Parameter} (isInteger : (Ty.int32 == p.type) = true) :
        TestedAlike ctx.env.classes (.parameter widthParam) (.parameter p) :=
      .builtin isInteger (Expr.unreadable_of_text? rfl) (Expr.unreadable_of_text? rfl) rfl
        (.inl rfl)
    exact List.forall_mem_cons.mpr ⟨size rfl, List.forall_mem_singleton.mpr (size rfl)⟩
  have list := readsMembership_sizes names ctx.wholeExpression
  have each : ∀ e ∈ [Expr.parameter heightParam, .parameter widthParam],
      ctx.ReadsEquality ctx.wholeExpression (sizesSession (sizesEquality e))
        (.parameter widthParam) e ((sizesSession (sizesEquality e)).moveTo ⟨.finish, "", 6⟩ []) ∧
      Ends 1 ((sizesSession (sizesEquality e)).moveTo ⟨.finish, "", 6⟩ []).current := by
    refine List.forall_mem_cons.mpr ⟨⟨?_, ends rfl⟩, List.forall_mem_singleton.mpr ⟨?_, ends rfl⟩⟩
    · exact .of_names names w_param h_param rfl rfl rfl rfl rfl
    · exact .of_names names w_param w_param rfl rfl rfl rfl rfl
  have equalities : ctx.ReadsEqualities ctx.wholeExpression (.parameter widthParam)
      (sizesSession sizesDisjunction) [.parameter heightParam, .parameter widthParam]
      ((sizesSession sizesDisjunction).moveTo ⟨.finish, "", 16⟩ []) := by
    refine .next (.of_names names w_param h_param rfl rfl rfl rfl rfl) (by decide) rfl rfl
      (.last (.of_names names w_param w_param rfl rfl rfl rfl rfl))
  have made : ∀ e ∈ [Expr.parameter heightParam, .parameter widthParam],
      ∃ test, Expr.isItem ctx.env.classes ⟨.identifier, "in", 2⟩ (.parameter widthParam) e =
        .ok test :=
    List.forall_mem_cons.mpr ⟨⟨_, Expr.isItem_of_same rfl⟩,
      List.forall_mem_singleton.mpr ⟨_, Expr.isItem_of_same rfl⟩⟩
  obtain ⟨test, tests, -, compiles⟩ := list.disjunction_eq (ends rfl) made
  obtain ⟨disjunction, disjunction_eq, values⟩ := (membership_means_equalities alike list (ends rfl)
    each equalities (ends rfl)).2 _ _ compiles
  refine ⟨_, _, disjunction, _, compiles, disjunction_eq, fun values' v w v_value w_value => ?_⟩
  exact values values' v [w, v] v_value (.cons w_value (.cons v_value .nil))

end Example

end CompileContext

end QueryTree
