import QueryTree.Proofs.Comparison.Mirror
import QueryTree.Proofs.Compile.Enclosed
import QueryTree.Proofs.Compile.Node

/-!
# Comparisons as texts

The texts `(a) < (b)` and `(b) > (a)`, and those with the other operators and their mirrored ones.
Both compile or none does, and they have the same value, but for the constants of two enumerations
and for members out of range.
-/

namespace QueryTree

open Parse

namespace Expr

variable {table : ClassTable} {operator : BinaryOp} {op : Token} {a b : Option Expr} {e : Expr}

/-- A comparison of what is read on both sides. -/
def compared? (table : ClassTable) (operator : BinaryOp) (op : Token) (left right : Option Expr) :
    Option Expr :=
  left.bind fun left => right.bind fun right => (comparison table operator op left right).toOption

theorem compared?_eq_some {x y : Expr} :
    compared? table operator op (some x) (some y) = some e ↔
      comparison table operator op x y = .ok e := by
  change (comparison table operator op x y).toOption = some e ↔ _
  cases comparison table operator op x y <;> simp [Except.toOption]

theorem exists_compared?_iff {x y : Expr} :
    (∃ e, compared? table operator op (some x) (some y) = some e) ↔
      (operandsOf table operator op x y).isSome = true := by
  simp only [compared?_eq_some, exists_comparison_iff]

theorem compared?_none {left right : Option Expr} (none : left = none ∨ right = none) :
    ¬ ∃ e, compared? table operator op left right = some e := by
  rintro ⟨e, made⟩
  obtain rfl | rfl := none
  · cases made
  · cases left <;> cases made

end Expr

namespace CompileContext

variable {ctx : CompileContext} {operator : BinaryOp} {a b a' b' : Option Expr}
  {start stop start' stop' : Session}

theorem ends_of_comparisonOperator? {token : Token}
    (isOperator : comparisonOperator? token = some operator) : Ends 5 token := by
  refine .of_grip (by decide) ?_
  unfold comparisonOperator? at isOperator
  cases kind : token.kind <;> simp_all [TokenKind.grip]

/-- The text of a comparison: two operands in parentheses, and the operator between them. -/
inductive ReadsComparison (ctx : CompileContext) (operator : BinaryOp) (a b : Option Expr)
    (start stop : Session) : Prop where
  | intro {sign second : Session} (left : ctx.ReadsEnclosed start a sign)
      (isOperator : comparisonOperator? sign.current = some operator)
      (passes : sign.Passes sign.current.kind second) (right : ctx.ReadsEnclosed second b stop)

theorem ReadsComparison.isComparison (reads : ctx.ReadsComparison operator a b start stop) :
    operator.isComparison = true := by
  obtain ⟨-, isOperator, -, -⟩ := reads
  exact isComparison_of_comparisonOperator? isOperator

/-- What stands in parentheses on both sides of the operator is compared. -/
theorem ReadsComparison.readsWhole (reads : ctx.ReadsComparison operator a b start stop)
    (ends : EndsExpression stop.current) :
    ∃ op, ctx.ReadsWhole start (Expr.compared? ctx.env.classes operator op a b) stop := by
  obtain @⟨sign, second, left, isOperator, passes, right⟩ := reads
  refine ⟨sign.current, fun depth enough => ?_⟩
  obtain ⟨depth, rfl⟩ := Nat.exists_eq_succ_of_ne_zero (Nat.ne_zero_of_lt enough)
  have fewer := left.passes
  rw [passes.length] at fewer
  obtain @⟨token, rest, -, behind⟩ := passes
  have first : ReadsTo (ctx.shift (ctx.expression depth)) start a sign :=
    left.levelAt (n := 5) (by decide) (by decide) (ends_of_comparisonOperator? isOperator)
      (Nat.le_of_lt_succ enough)
  have second : ReadsTo (ctx.shift (ctx.expression depth)) (sign.moveTo token rest) b stop :=
    right.levelAt (n := 5) (by decide) (by decide) (ends.noOperator.mono (by decide)) (by omega)
  have compared : ReadsTo (ctx.comparison (ctx.expression depth)) start
      (Expr.compared? ctx.env.classes operator sign.current a b) stop := by
    refine first.bind fun x _ => ?_
    have joined : ReadsTo (ctx.shift (ctx.expression depth) >>= fun y =>
        Parse.lift (Expr.comparison ctx.env.classes operator sign.current x y) >>=
          chainFrom (ctx.shift (ctx.expression depth)) comparisonOperator?
            (Expr.comparison ctx.env.classes) (rest.length + 1)) (sign.moveTo token rest)
        (b.bind fun y => (Expr.comparison ctx.env.classes operator sign.current x y).toOption)
        stop :=
      second.bind fun y _ => (ReadsTo.lift _ stop).keep fun e =>
        chainFrom_end (ends.noOperator.2 4 (by decide) (by decide))
    refine joined.congr ?_
    rw [bind_eq (tokensLeft_eq sign), behind, List.length_cons, chainFrom,
      bind_eq (current_eq sign), isOperator]
    exact bind_eq (advance_eq behind)
  have disjunction := levelAt_eq_of_stopsAt (n := 1) (m := 4) (by decide) (by decide) (by decide)
    (compared.stopsAt ends.noOperator)
  exact conditional_readsTo_disjunction (compared.congr disjunction) ends

theorem ReadsEnclosed.proper {e : Expr} (enclosed : ctx.ReadsEnclosed start (some e) stop)
    (supplies : ctx.SuppliesProper) (fit : e.type.MembersFit) : e.Proper := by
  have nested : ctx.Nested (start.current :: start.rest) Expr.Proper
      (ctx.expression start.rest.length) :=
    ⟨supplies.exprs, expression_yields supplies.exprs _⟩
  have read : ctx.primary (ctx.expression start.rest.length) start = .ok e stop :=
    (enclosed.reads _ (Nat.le_refl _) e stop).mpr ⟨rfl, rfl⟩
  have yields := primary_yields nested start ⟨rfl, start.reads_ahead⟩
  rw [read] at yields
  exact yields.2.proper supplies fit

theorem ReadsComparison.proper {e : Expr} (reads : ctx.ReadsComparison operator a b start stop)
    (supplies : ctx.SuppliesProper) (isOperand : a = some e ∨ b = some e)
    (fit : e.type.MembersFit) : e.Proper := by
  obtain ⟨left, -, -, right⟩ := reads
  obtain rfl | rfl := isOperand
  · exact left.proper supplies fit
  · exact right.proper supplies fit

/-- A text of a comparison compiles to the comparison of its operands. -/
theorem ReadsComparison.compilesTo_iff (reads : ctx.ReadsComparison operator a b start stop)
    (ends : EndsExpression stop.current) :
    ∃ op, ∀ e, ctx.CompilesTo start e ↔
      Expr.compared? ctx.env.classes operator op a b = some e := by
  obtain ⟨op, whole⟩ := reads.readsWhole ends
  exact ⟨op, fun _ => whole.compilesTo_iff⟩

/-- A comparison and the mirrored one with its sides changed, of operands whose types declare
nothing and that are read alike in both texts.  Both texts compile or none does, but where one
operand is a null of an enumeration type and the other one a member of another enumeration the null
has to be on the left.  Where both operands have values, the comparisons have the same truth value
as far as they have one, and of steady operands one comparison fails if and only if the other one
does. -/
theorem comparison_mirrors (supplies : ctx.SuppliesProper)
    (first : ctx.ReadsComparison operator a b start stop)
    (ends : EndsExpression stop.current)
    (second : ctx.ReadsComparison operator.mirror b' a' start' stop')
    (ends' : EndsExpression stop'.current) (left : Option.Rel Expr.Twin a a')
    (right : Option.Rel Expr.Twin b b')
    (operands : ∀ e, a = some e ∨ b = some e →
      e.type.DeclaresNothing ctx.env.classes ∧ e.type.MembersFit) :
    ((∀ x y, a = some x → b = some y → ¬ Expr.NullApart x y ∧ ¬ Expr.NullApart y x) →
        ((∃ e, ctx.CompilesTo start e) ↔ ∃ e, ctx.CompilesTo start' e)) ∧
      (∀ x y, a = some x → b = some y →
        (Expr.NullApart x y →
          (∃ e, ctx.CompilesTo start e) ∧ ¬ ∃ e, ctx.CompilesTo start' e) ∧
        (Expr.NullApart y x →
          (¬ ∃ e, ctx.CompilesTo start e) ∧ ∃ e, ctx.CompilesTo start' e)) ∧
      ∀ x y test test' values v w, a = some x → b = some y → ctx.CompilesTo start test →
        ctx.CompilesTo start' test' → x.evaluate values = .ok v → y.evaluate values = .ok w →
          (∀ u u', test.evaluate values = .ok u → test'.evaluate values = .ok u' →
            ∃ holds, u = .boolean holds ∧ u' = .boolean holds) ∧
          (Expr.Steady ctx.env.classes operator x y values →
            ((∃ u, test.evaluate values = .ok u) ↔ ∃ u, test'.evaluate values = .ok u)) := by
  have isComparison := first.isComparison
  obtain ⟨op, compiles⟩ := first.compilesTo_iff ends
  obtain ⟨op', compiles'⟩ := second.compilesTo_iff ends'
  simp only [compiles, compiles']
  cases left with
  | none =>
      refine ⟨fun _ => iff_of_false (Expr.compared?_none (.inl rfl))
        (Expr.compared?_none (.inr rfl)), nofun, nofun⟩
  | @some x x' left =>
      cases right with
      | none =>
          refine ⟨fun _ => iff_of_false (Expr.compared?_none (.inr rfl))
            (Expr.compared?_none (.inl rfl)), nofun, nofun⟩
      | @some y y' right =>
          obtain ⟨left_plain, left_fit⟩ := operands x (.inl rfl)
          obtain ⟨right_plain, right_fit⟩ := operands y (.inr rfl)
          have mirrored : Expr.Mirrored ctx.env.classes operator x y
              (Expr.operandsOf ctx.env.classes operator op x y)
              (Expr.operandsOf ctx.env.classes operator.mirror op' y' x') :=
            Expr.operandsOf_mirrored isComparison left right left_plain right_plain
              (first.proper supplies (.inl rfl) left_fit)
              (first.proper supplies (.inr rfl) right_fit)
          simp only [Expr.exists_compared?_iff]
          refine ⟨fun apart => ?_, ?_, ?_⟩
          · exact mirrored.accepts (apart x y rfl rfl).1 (apart x y rfl rfl).2
          · rintro _ _ ⟨⟩ ⟨⟩
            refine ⟨fun apart => ?_, fun apart => ?_⟩
            · obtain ⟨isSome, none⟩ := mirrored.left_only apart
              simp [isSome, none]
            · obtain ⟨none, isSome⟩ := mirrored.right_only apart
              simp [isSome, none]
          · rintro _ _ test test' values v w ⟨⟩ ⟨⟩ outcome outcome' x_value y_value
            exact mirrored.comparison isComparison (Expr.compared?_eq_some.mp outcome)
              (Expr.compared?_eq_some.mp outcome') x_value y_value

section Example

/-- An enumeration of bytes. -/
def sizes : EnumType := ⟨"Size", none, .byte, false, [("Small", 1), ("Large", 2)]⟩

/-- A member that may be missing. -/
def maybeSize : Parameter := ⟨0, "a", .nullable (.enum sizes)⟩

/-- A member. -/
def someSize : Parameter := ⟨1, "b", .enum sizes⟩

/-- Two members of an enumeration, of which one may be missing. -/
def sizeParams : List Parameter := [maybeSize, someSize]

theorem plainEnvironment_canName_sizes : plainEnvironment.CanName sizeParams :=
  .of_isNone (by decide +kernel) (by decide +kernel) (by decide +kernel)

/-- Whether the first member is smaller. -/
def smaller : Expr :=
  .test .lessThan (.convert (.nullable (.integral .byte)) (.parameter maybeSize))
    (.convert (.nullable (.integral .byte))
      (.convert (.nullable (.enum sizes)) (.parameter someSize)))

/-- The state before the text of a comparison of two names in parentheses. -/
def comparedSession (left right : Parameter) (sign : Token) : Session :=
  .outside ((enclosedName left.name 0).tail ++ sign ::
    (enclosedName right.name 6 ++ [⟨.finish, "", 9⟩]))

theorem readsComparison_sizes (names : ctx.Names sizeParams) {left right : Parameter} {sign : Token}
    (isLeft : left ∈ sizeParams) (isRight : right ∈ sizeParams)
    (isOperator : comparisonOperator? sign = some operator)
    (noSuffix : sign.kind.opensSuffix = false) :
    ctx.ReadsComparison operator (some (.parameter left)) (some (.parameter right))
      (comparedSession left right sign) ((Session.outside []).moveTo ⟨.finish, "", 9⟩ []) := by
  let rest : List Token := enclosedName right.name 6 ++ [⟨.finish, "", 9⟩]
  have first : ctx.ReadsEnclosed ((Session.outside []).moveTo ⟨.openParen, "(", 0⟩
      ((enclosedName left.name 0).tail ++ sign :: rest)) (some (.parameter left))
      ((Session.outside []).moveTo sign rest) :=
    .of_enclosedName names isLeft noSuffix
  exact .intro first isOperator (.intro rfl rfl) (.of_enclosedName names isRight rfl)

theorem declaresNothing_sizes {table : ClassTable} {p : Parameter} (isParam : p ∈ sizeParams) :
    p.type.DeclaresNothing table ∧ p.type.MembersFit := by
  obtain rfl | rfl : p = maybeSize ∨ p = someSize := by simpa [sizeParams] using isParam
  · refine ⟨rfl, ?_⟩
    rintro _ ⟨⟩
    decide
  · refine ⟨rfl, ?_⟩
    rintro _ ⟨⟩
    decide

/-- The texts `(a) < (b)` and `(b) > (a)` both compile, and they agree. -/
theorem comparison_mirrors_sizes : ∃ ctx test',
    CompileContext.of plainEnvironment sizeParams [] = .ok ctx ∧
      Session.start (Scan.ofText "(a) < (b)" '.') sizeParams .initial =
        .ok (comparedSession maybeSize someSize ⟨.lessThan, "<", 4⟩) ∧
      Session.start (Scan.ofText "(b) > (a)" '.') sizeParams .initial =
        .ok (comparedSession someSize maybeSize ⟨.greaterThan, ">", 4⟩) ∧
      ctx.CompilesTo (comparedSession maybeSize someSize ⟨.lessThan, "<", 4⟩) smaller ∧
      ctx.CompilesTo (comparedSession someSize maybeSize ⟨.greaterThan, ">", 4⟩) test' ∧
      ∀ values v w, values.lookup maybeSize = .ok v → values.lookup someSize = .ok w →
        (∀ u u', smaller.evaluate values = .ok u → test'.evaluate values = .ok u' →
          ∃ holds, u = .boolean holds ∧ u' = .boolean holds) ∧
        ((∃ u, smaller.evaluate values = .ok u) ↔ ∃ u, test'.evaluate values = .ok u) := by
  obtain ⟨ctx, context, -, names⟩ := plainEnvironment_canName_sizes.exists_context
  have isMaybe : maybeSize ∈ sizeParams := by simp [sizeParams]
  have isSome : someSize ∈ sizeParams := by simp [sizeParams]
  have ends : EndsExpression ((Session.outside []).moveTo ⟨.finish, "", 9⟩ []).current :=
    .of_grip (Nat.le_refl 0)
  have first : ctx.ReadsComparison .lessThan (some (.parameter maybeSize))
      (some (.parameter someSize)) (comparedSession maybeSize someSize ⟨.lessThan, "<", 4⟩)
      ((Session.outside []).moveTo ⟨.finish, "", 9⟩ []) :=
    readsComparison_sizes names isMaybe isSome rfl rfl
  have second : ctx.ReadsComparison .greaterThan (some (.parameter someSize))
      (some (.parameter maybeSize)) (comparedSession someSize maybeSize ⟨.greaterThan, ">", 4⟩)
      ((Session.outside []).moveTo ⟨.finish, "", 9⟩ []) :=
    readsComparison_sizes names isSome isMaybe rfl rfl
  obtain ⟨accepts, -, agree⟩ := comparison_mirrors (.of_noArguments context) first ends second
    ends (.some (.same _)) (.some (.same _)) fun e isOperand => by
      obtain ⟨⟨⟩⟩ | ⟨⟨⟩⟩ := isOperand
      · exact declaresNothing_sizes isMaybe
      · exact declaresNothing_sizes isSome
  obtain ⟨_, compiles⟩ := first.compilesTo_iff ends
  have isCompiled := (compiles smaller).mpr rfl
  have notApart : ∀ x y, some (Expr.parameter maybeSize) = some x →
      some (Expr.parameter someSize) = some y → ¬ Expr.NullApart x y ∧ ¬ Expr.NullApart y x := by
    rintro _ _ ⟨⟩ ⟨⟩
    exact ⟨fun apart => (nomatch apart.left_constant), fun apart => (nomatch apart.left_constant)⟩
  obtain ⟨test', isCompiled'⟩ := (accepts notApart).mp ⟨smaller, isCompiled⟩
  refine ⟨ctx, test', context, Session.start_outside rfl (by decide +kernel) (by decide +kernel),
    Session.start_outside rfl (by decide +kernel) (by decide +kernel), isCompiled, isCompiled',
    fun values v w a_value b_value => ?_⟩
  obtain ⟨same, fails⟩ := agree _ _ smaller test' values v w rfl rfl isCompiled isCompiled' a_value
    b_value
  exact ⟨same, fails (.written rfl rfl fun apart => nomatch apart.left_constant)⟩

end Example

end CompileContext

end QueryTree
