import QueryTree.Proofs.Compile.Enclosed
import QueryTree.Proofs.Compile.Operation

/-!
# Null coalescing before a conditional

How a null coalescing and the signs of a conditional behind it are grouped.  The right operand of a
null coalescing is a whole expression, so that a conditional behind the sign for null coalescing
belongs to the right operand, as if it stood in parentheses.
-/

namespace QueryTree

namespace Expr

variable {table : ClassTable} {a b test ifTrue ifFalse : Option Expr} {e : Expr}

theorem orElse?_eq_some (made : orElse? table a b = some e) :
    ∃ type left right, e = coalesce type left right := by
  obtain ⟨left, -, further⟩ := Option.bind_eq_some_iff.mp made
  obtain ⟨right, -, joined⟩ := Option.bind_eq_some_iff.mp further
  cases outcome : orElseValue table 0 left right with
  | error error =>
      rw [outcome] at joined
      cases joined
  | ok whole =>
      rw [outcome] at joined
      obtain rfl := Option.some.inj joined
      obtain ⟨type, left', right', rfl, -⟩ := orElseValue_cases outcome
      exact ⟨type, left', right', rfl⟩

theorem chosen?_eq_some (made : chosen? table test ifTrue ifFalse = some e) :
    ∃ test left right, e = conditional test left right := by
  obtain ⟨condition, -, branches⟩ := Option.bind_eq_some_iff.mp made
  obtain ⟨left, -, further⟩ := Option.bind_eq_some_iff.mp branches
  obtain ⟨right, -, joined⟩ := Option.bind_eq_some_iff.mp further
  cases outcome : choose table 0 condition left right with
  | error error =>
      rw [outcome] at joined
      cases joined
  | ok whole =>
      rw [outcome] at joined
      obtain rfl := Option.some.inj joined
      obtain ⟨left', right', rfl, -⟩ := choose_cases outcome
      exact ⟨condition, left', right', rfl⟩

/-- A null coalescing is no conditional. -/
theorem orElse?_ne_chosen? (isCoalescing : orElse? table a b = some e) :
    chosen? table test ifTrue ifFalse ≠ some e := by
  intro isConditional
  obtain ⟨_, _, _, rfl⟩ := orElse?_eq_some isCoalescing
  obtain ⟨_, _, _, same⟩ := chosen?_eq_some isConditional
  cases same

end Expr

namespace CompileContext

variable {ctx : CompileContext} {a b c d outcome : Option Expr} {start stop question : Session}
  {depth : Nat}

/-- The text of a null coalescing: an expression in parentheses, the sign, and the text of the right
operand. -/
inductive ReadsCoalescing (ctx : CompileContext) (left : Option Expr) (start right : Session) :
    Prop where
  | intro {sign : Session} (operand : ctx.ReadsEnclosed start left sign)
      (passes : sign.Passes .nullCoalescing right)

/-- The text of a conditional behind its test: the two signs, each before an expression in
parentheses. -/
inductive ReadsBranches (ctx : CompileContext) (ifTrue ifFalse : Option Expr)
    (question stop : Session) : Prop where
  | intro {first colon second : Session} (sign : question.Passes .question first)
      (trueBranch : ctx.ReadsEnclosed first ifTrue colon) (sign' : colon.Passes .colon second)
      (falseBranch : ctx.ReadsEnclosed second ifFalse stop)

/-- A null coalescing is made of its left operand and of all that is read behind the sign. -/
theorem ReadsCoalescing.readsWhole {right : Session}
    (coalescing : ctx.ReadsCoalescing a start right) (further : ctx.ReadsWhole right outcome stop)
    (ends : EndsExpression stop.current) :
    ctx.ReadsWhole start (Expr.orElse? ctx.env.classes a outcome) stop := by
  intro depth enough
  obtain ⟨depth, rfl⟩ := Nat.exists_eq_succ_of_ne_zero (Nat.ne_zero_of_lt enough)
  obtain ⟨operand, passes⟩ := coalescing
  have fewer := operand.passes
  rw [passes.length] at fewer
  obtain ⟨isSign, behind⟩ := passes
  have left := operand.beforeArrow (.of_coalescing isSign) (isSign ▸ by decide)
    (Nat.le_of_lt_succ enough)
  exact conditional_readsTo
    (coalescing_readsTo_orElse left isSign behind (further depth (by omega))) ends.noQuestion

/-- A conditional is made of an expression in parentheses and of its branches. -/
theorem ReadsBranches.readsWhole (branches : ctx.ReadsBranches b c question stop)
    (test : ctx.ReadsEnclosed start a question) (ends : EndsExpression stop.current) :
    ctx.ReadsWhole start (Expr.chosen? ctx.env.classes a b c) stop := by
  intro depth enough
  obtain ⟨depth, rfl⟩ := Nat.exists_eq_succ_of_ne_zero (Nat.ne_zero_of_lt enough)
  obtain ⟨sign, trueBranch, sign', falseBranch⟩ := branches
  have testFewer := test.passes
  have trueFewer := trueBranch.passes
  rw [sign.length] at testFewer
  rw [sign'.length] at trueFewer
  obtain ⟨isQuestion, behind⟩ := sign
  obtain ⟨isColon, behind'⟩ := sign'
  have loose : question.current.kind.grip ≤ 1 := isQuestion ▸ Nat.le_refl 1
  have tested := coalescing_readsTo
    (test.beforeArrow (.of_grip (Nat.le_refl 1) loose) (isQuestion ▸ by decide)
      (Nat.le_of_lt_succ enough)) (isQuestion ▸ by decide)
  have colonEnds := EndsExpression.of_grip (Nat.le_of_eq (congrArg TokenKind.grip isColon))
  exact conditional_readsTo_chosen tested isQuestion behind
    (trueBranch.whole colonEnds (by omega)) isColon behind'
    (falseBranch.whole ends (by omega))

/-- A text in parentheses. -/
theorem ReadsWhole.enclosed {first close next : Session}
    (inside : ctx.ReadsWhole first outcome close) (opens : start.Passes .openParen first)
    (passes : close.rest.length ≤ first.rest.length)
    (closes : close.Passes .closeParen next) (noSuffix : next.current.kind.opensSuffix = false) :
    ctx.ReadsEnclosed start outcome next := by
  obtain ⟨isOpen, behind⟩ := opens
  obtain ⟨isClose, behind'⟩ := closes
  exact .of_inside isOpen behind inside passes isClose behind' noSuffix

theorem ReadsBranches.length_le (branches : ctx.ReadsBranches b c question stop) :
    stop.rest.length ≤ question.rest.length := by
  obtain ⟨sign, trueBranch, sign', falseBranch⟩ := branches
  have trueFewer := trueBranch.passes
  have falseFewer := falseBranch.passes
  have signs := sign.length
  have signs' := sign'.length
  omega

theorem ReadsBranches.noSuffix (branches : ctx.ReadsBranches b c question stop) :
    question.current.kind.opensSuffix = false := by
  obtain ⟨sign, -, -, -⟩ := branches
  rw [sign.kind_eq]
  rfl

theorem ReadsCoalescing.length_le {right : Session}
    (coalescing : ctx.ReadsCoalescing a start right) : right.rest.length ≤ start.rest.length := by
  obtain ⟨operand, passes⟩ := coalescing
  have fewer := operand.passes
  have sign := passes.length
  omega

section Texts

/-- The text `a ?? b ? c : d`, whose operands stand in parentheses. -/
inductive ReadsUngrouped (ctx : CompileContext) (a b c d : Option Expr) (start stop : Session) :
    Prop where
  | intro {second question : Session} (coalescing : ctx.ReadsCoalescing a start second)
      (right : ctx.ReadsEnclosed second b question)
      (branches : ctx.ReadsBranches c d question stop)

/-- The text `a ?? (b ? c : d)`, whose operands stand in parentheses. -/
inductive ReadsConditionalGroup (ctx : CompileContext) (a b c d : Option Expr)
    (start stop : Session) : Prop where
  | intro {opening first question close : Session}
      (coalescing : ctx.ReadsCoalescing a start opening) (opens : opening.Passes .openParen first)
      (test : ctx.ReadsEnclosed first b question)
      (branches : ctx.ReadsBranches c d question close) (closes : close.Passes .closeParen stop)

/-- The text `(a ?? b) ? c : d`, whose operands stand in parentheses. -/
inductive ReadsCoalescingGroup (ctx : CompileContext) (a b c d : Option Expr)
    (start stop : Session) : Prop where
  | intro {first second close question : Session} (opens : start.Passes .openParen first)
      (coalescing : ctx.ReadsCoalescing a first second) (right : ctx.ReadsEnclosed second b close)
      (closes : close.Passes .closeParen question) (branches : ctx.ReadsBranches c d question stop)

/-- Without further parentheses the conditional is the right operand. -/
theorem ReadsUngrouped.readsWhole (text : ctx.ReadsUngrouped a b c d start stop)
    (ends : EndsExpression stop.current) :
    ctx.ReadsWhole start
      (Expr.orElse? ctx.env.classes a (Expr.chosen? ctx.env.classes b c d)) stop := by
  obtain ⟨coalescing, right, branches⟩ := text
  exact coalescing.readsWhole (branches.readsWhole right ends) ends

theorem ReadsConditionalGroup.readsWhole (text : ctx.ReadsConditionalGroup a b c d start stop)
    (ends : EndsExpression stop.current) (noSuffix : stop.current.kind.opensSuffix = false) :
    ctx.ReadsWhole start
      (Expr.orElse? ctx.env.classes a (Expr.chosen? ctx.env.classes b c d)) stop := by
  obtain ⟨coalescing, opens, test, branches, closes⟩ := text
  have closeEnds := EndsExpression.of_grip (Nat.le_of_eq (congrArg TokenKind.grip closes.kind_eq))
  have group := (branches.readsWhole test closeEnds).enclosed opens
    (Nat.le_trans branches.length_le test.passes) closes noSuffix
  exact coalescing.readsWhole (group.readsWhole ends) ends

theorem ReadsCoalescingGroup.readsWhole (text : ctx.ReadsCoalescingGroup a b c d start stop)
    (ends : EndsExpression stop.current) :
    ctx.ReadsWhole start
      (Expr.chosen? ctx.env.classes (Expr.orElse? ctx.env.classes a b) c d) stop := by
  obtain ⟨opens, coalescing, right, closes, branches⟩ := text
  have closeEnds := EndsExpression.of_grip (Nat.le_of_eq (congrArg TokenKind.grip closes.kind_eq))
  have group := (coalescing.readsWhole (right.readsWhole closeEnds) closeEnds).enclosed opens
    (Nat.le_trans right.passes coalescing.length_le) closes branches.noSuffix
  exact branches.readsWhole group ends

end Texts

section Meaning

/-- The right operand of a null coalescing is all that stands behind its sign.  So the text
`a ?? b ? c : d` compiles to what `a ?? (b ? c : d)` does: its conditional is of `b`, `c` and `d`,
and its null coalescing is of `a` and this conditional.  The text `(a ?? b) ? c : d` compiles to the
conditional of the null coalescing of `a` and `b`, of `c` and of `d`.  The two never compile to the
same, so that they are alike only where neither compiles. -/
theorem coalescing_takes_conditional {start₁ stop₁ start₂ stop₂ start₃ stop₃ : Session}
    (ungrouped : ctx.ReadsUngrouped a b c d start₁ stop₁) (ends₁ : EndsExpression stop₁.current)
    (conditionalGroup : ctx.ReadsConditionalGroup a b c d start₂ stop₂)
    (ends₂ : EndsExpression stop₂.current)
    (noSuffix : stop₂.current.kind.opensSuffix = false)
    (coalescingGroup : ctx.ReadsCoalescingGroup a b c d start₃ stop₃)
    (ends₃ : EndsExpression stop₃.current) :
    (∀ e, ctx.CompilesTo start₁ e ↔
        Expr.orElse? ctx.env.classes a (Expr.chosen? ctx.env.classes b c d) = some e) ∧
      (∀ e, ctx.CompilesTo start₁ e ↔ ctx.CompilesTo start₂ e) ∧
      (∀ e, ctx.CompilesTo start₃ e ↔
        Expr.chosen? ctx.env.classes (Expr.orElse? ctx.env.classes a b) c d = some e) ∧
      (∀ e, ctx.CompilesTo start₁ e → ¬ ctx.CompilesTo start₃ e) ∧
      ((∀ e, ctx.CompilesTo start₁ e ↔ ctx.CompilesTo start₃ e) ↔
        (¬ ∃ e, ctx.CompilesTo start₁ e) ∧ ¬ ∃ e, ctx.CompilesTo start₃ e) := by
  have first (e : Expr) := (ungrouped.readsWhole ends₁).compilesTo_iff (e := e)
  have second (e : Expr) := (conditionalGroup.readsWhole ends₂ noSuffix).compilesTo_iff (e := e)
  have third (e : Expr) := (coalescingGroup.readsWhole ends₃).compilesTo_iff (e := e)
  have differ (e : Expr) (compiles : ctx.CompilesTo start₁ e) : ¬ ctx.CompilesTo start₃ e :=
    fun compiles' => Expr.orElse?_ne_chosen? ((first e).mp compiles) ((third e).mp compiles')
  refine ⟨first, fun e => (first e).trans (second e).symm, third, differ, ?_, ?_⟩
  · intro alike
    exact ⟨fun ⟨e, compiles⟩ => differ e compiles ((alike e).mp compiles),
      fun ⟨e, compiles⟩ => differ e ((alike e).mpr compiles) compiles⟩
  · rintro ⟨none, none'⟩ e
    exact ⟨fun compiles => absurd ⟨e, compiles⟩ none, fun compiles => absurd ⟨e, compiles⟩ none'⟩

end Meaning

section Example

/-- A truth value that may be missing. -/
def maybeParam : Parameter := ⟨0, "a", .nullable .boolean⟩

/-- A truth value in its place. -/
def insteadParam : Parameter := ⟨1, "b", .boolean⟩

/-- A truth value to choose. -/
def chosenParam : Parameter := ⟨2, "c", .boolean⟩

/-- Another truth value to choose. -/
def otherParam : Parameter := ⟨3, "d", .boolean⟩

/-- Four truth values, of which one may be missing. -/
def choiceParams : List Parameter := [maybeParam, insteadParam, chosenParam, otherParam]

theorem plainEnvironment_canName_choices : plainEnvironment.CanName choiceParams :=
  .of_isNone (by decide +kernel) (by decide +kernel) (by decide +kernel)

/-- The tokens of the branches of a conditional. -/
def choiceBranches (position : Nat) : List Token :=
  ⟨.question, "?", position⟩ :: (enclosedName "c" (position + 2) ++
    ⟨.colon, ":", position + 6⟩ :: enclosedName "d" (position + 8))

/-- The tokens of `(a) ?? (b) ? (c) : (d)`. -/
def ungroupedChoice : List Token :=
  enclosedName "a" 0 ++ ⟨.nullCoalescing, "??", 4⟩ :: (enclosedName "b" 7 ++
    (choiceBranches 11 ++ [⟨.finish, "", 22⟩]))

/-- The tokens of `(a) ?? ((b) ? (c) : (d))`. -/
def conditionalChoice : List Token :=
  enclosedName "a" 0 ++ ⟨.nullCoalescing, "??", 4⟩ :: ⟨.openParen, "(", 7⟩ ::
    (enclosedName "b" 8 ++ (choiceBranches 12 ++ [⟨.closeParen, ")", 23⟩, ⟨.finish, "", 24⟩]))

/-- The tokens of `((a) ?? (b)) ? (c) : (d)`. -/
def coalescingChoice : List Token :=
  ⟨.openParen, "(", 0⟩ :: (enclosedName "a" 1 ++ ⟨.nullCoalescing, "??", 5⟩ ::
    (enclosedName "b" 8 ++ ⟨.closeParen, ")", 11⟩ :: (choiceBranches 13 ++ [⟨.finish, "", 24⟩])))

variable {p : Parameter} {session : Session} {next : Token} {rest : List Token} {position : Nat}

theorem readsBranches_choice (names : ctx.Names choiceParams)
    (noSuffix : next.kind.opensSuffix = false) :
    ctx.ReadsBranches (some (.parameter chosenParam)) (some (.parameter otherParam))
      (session.moveTo ⟨.question, "?", position⟩ ((choiceBranches position).tail ++ next :: rest))
      (session.moveTo next rest) := by
  have chosen : chosenParam ∈ choiceParams := by simp [choiceParams]
  have other : otherParam ∈ choiceParams := by simp [choiceParams]
  exact .intro (.intro rfl rfl) (.of_enclosedName names chosen rfl) (.intro rfl rfl)
    (.of_enclosedName names other noSuffix)

/-- The null coalescing of `a` and the conditional of `b`, `c` and `d`. -/
def coalescingOutside : Expr :=
  .coalesce .boolean (.parameter maybeParam)
    (.conditional (.parameter insteadParam) (.parameter chosenParam) (.parameter otherParam))

/-- The conditional of the null coalescing of `a` and `b`, of `c` and of `d`. -/
def conditionalOutside : Expr :=
  .conditional (.coalesce .boolean (.parameter maybeParam) (.parameter insteadParam))
    (.parameter chosenParam) (.parameter otherParam)

/-- The two groupings mean different things: where `a` is true, one of them is true whatever `c`
is. -/
theorem groupings_differ : ∃ values, coalescingOutside.evaluate values = .ok (.boolean true) ∧
    conditionalOutside.evaluate values = .ok (.boolean false) := by
  let values : EvalContext :=
    ⟨[(0, .boolean true), (1, .boolean true), (2, .boolean false), (3, .boolean true)],
      DateTime.minValue⟩
  exact ⟨values, rfl, rfl⟩

theorem coalescing_takes_conditional_choice : ∃ ctx ungrouped conditionalGroup coalescingGroup,
    CompileContext.of plainEnvironment choiceParams [] = .ok ctx ∧
      Session.start (Scan.ofText "(a) ?? (b) ? (c) : (d)" '.') choiceParams .initial =
        .ok ungrouped ∧
      Session.start (Scan.ofText "(a) ?? ((b) ? (c) : (d))" '.') choiceParams .initial =
        .ok conditionalGroup ∧
      Session.start (Scan.ofText "((a) ?? (b)) ? (c) : (d)" '.') choiceParams .initial =
        .ok coalescingGroup ∧
      ctx.CompilesTo ungrouped coalescingOutside ∧
      ctx.CompilesTo conditionalGroup coalescingOutside ∧
      ctx.CompilesTo coalescingGroup conditionalOutside := by
  obtain ⟨ctx, context, -, names⟩ := plainEnvironment_canName_choices.exists_context
  refine ⟨ctx, Session.outside ungroupedChoice.tail, Session.outside conditionalChoice.tail,
    Session.outside coalescingChoice.tail, context, Session.start_outside rfl (by decide +kernel)
    (by decide +kernel), Session.start_outside rfl (by decide +kernel) (by decide +kernel),
    Session.start_outside rfl (by decide +kernel) (by decide +kernel), ?_⟩
  have maybe : maybeParam ∈ choiceParams := by simp [choiceParams]
  have instead : insteadParam ∈ choiceParams := by simp [choiceParams]
  have coalescing (position : Nat) (opening : Token) (rest : List Token) :
      ctx.ReadsCoalescing (some (.parameter maybeParam))
        ((Session.outside []).moveTo ⟨.openParen, "(", position⟩
          ((enclosedName "a" position).tail ++
            ⟨.nullCoalescing, "??", position + 4⟩ :: opening :: rest))
        ((Session.outside []).moveTo opening rest) :=
    .intro (.of_enclosedName names maybe rfl) (.intro rfl rfl)
  have ungrouped : ctx.ReadsUngrouped (some (.parameter maybeParam))
      (some (.parameter insteadParam)) (some (.parameter chosenParam))
      (some (.parameter otherParam)) (Session.outside ungroupedChoice.tail)
      ((Session.outside []).moveTo ⟨.finish, "", 22⟩ []) :=
    .intro (coalescing 0 ⟨.openParen, "(", 7⟩ _) (.of_enclosedName names instead rfl)
      (readsBranches_choice names rfl)
  have conditionalGroup : ctx.ReadsConditionalGroup (some (.parameter maybeParam))
      (some (.parameter insteadParam)) (some (.parameter chosenParam))
      (some (.parameter otherParam)) (Session.outside conditionalChoice.tail)
      ((Session.outside []).moveTo ⟨.finish, "", 24⟩ []) :=
    .intro (coalescing 0 ⟨.openParen, "(", 7⟩ _) (.intro rfl rfl)
      (.of_enclosedName names instead rfl) (readsBranches_choice names rfl) (.intro rfl rfl)
  have coalescingGroup : ctx.ReadsCoalescingGroup (some (.parameter maybeParam))
      (some (.parameter insteadParam)) (some (.parameter chosenParam))
      (some (.parameter otherParam)) (Session.outside coalescingChoice.tail)
      ((Session.outside []).moveTo ⟨.finish, "", 24⟩ []) :=
    .intro (.intro rfl rfl) (coalescing 1 ⟨.openParen, "(", 8⟩ _)
      (.of_enclosedName names instead rfl) (.intro rfl rfl) (readsBranches_choice names rfl)
  have ends (position : Nat) : EndsExpression ⟨.finish, "", position⟩ :=
    .of_grip (Nat.le_refl 0)
  obtain ⟨first, same, third, -⟩ := coalescing_takes_conditional ungrouped (ends 22)
    conditionalGroup (ends 24) rfl coalescingGroup (ends 24)
  have compiles := (first coalescingOutside).mpr rfl
  exact ⟨compiles, (same _).mp compiles, (third _).mpr rfl⟩

end Example

end CompileContext

end QueryTree
