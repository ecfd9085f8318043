import QueryTree.Proofs.Parallel.Point

/-!
# Words for an element

An element of a call can be written by the word for the current element or by a name of its own.
Two texts that write it in different ways are read side by side, as long as they do not write it in
the scope of another element.
-/

namespace QueryTree

/-- A way to write an element, other than by a folded name that stands for something else. -/
structure ElementWord (ctx : CompileContext) (p : Parameter) (key : String) where
  isWord : Token → Prop
  /-- What the words need of the names in the scope of the element. -/
  binds : ElementNames → Prop
  identifier : ∀ {token}, isWord token → token.kind = .identifier
  noClause : ∀ {token}, isWord token → ∀ word ∈ ["in", "as"], token.isWord word = false
  notNew : ∀ {token}, isWord token →
    (ctx.env.keyword? token.text).all fun keyword => !keyword matches .new
  denotes : ∀ {token frame names}, isWord token → frame.it = some p → binds names →
    ctx.Denotes frame names token.text p
  binds_set : ∀ {names}, binds names → ∀ other, binds (names.set other (some p))

/-- A token that is a name and not a word of a construct. -/
structure Token.IsNamed (token : Token) (options : Options) (key : String) : Prop where
  kind : token.kind = .identifier
  text : options.fold token.text = key
  noClause : ∀ word ∈ ["in", "as"], token.isWord word = false

namespace ElementWord

variable {ctx : CompileContext} {p : Parameter} {key : String}

/-- The word for the current element. -/
def it (isKeyword : ctx.env.keyword? "it" = some (.context .it)) : ElementWord ctx p key where
  isWord token := token.kind = .identifier ∧ token.text = "it"
  binds _ := True
  identifier isWord := isWord.1
  noClause := by
    rintro token ⟨-, isWord⟩ word isClause
    rw [Token.isWord, isWord]
    obtain rfl | rfl : word = "in" ∨ word = "as" := by simpa using isClause
    all_goals exact Bool.and_eq_false_imp.mpr fun _ => by decide
  notNew := by
    rintro token ⟨-, isWord⟩
    rw [isWord, isKeyword]
    rfl
  denotes := by
    rintro token frame names ⟨-, isWord⟩ current -
    refine .inl ⟨?_, current⟩
    rw [CompileContext.visibleKeyword?, isWord, isKeyword]
    rfl
  binds_set _ _ := trivial

/-- A name that stands for nothing else. -/
def name (noKeyword : ctx.env.keywords.lookup key = none) (noSymbol : ctx.symbols.lookup key = none)
    (noExternal : ctx.externals.lookup key = none) : ElementWord ctx p key where
  isWord token := token.IsNamed ctx.env.options key
  binds names := names.lookup key = some p
  identifier isNamed := isNamed.kind
  noClause isNamed := isNamed.noClause
  notNew isNamed := by
    rw [Environment.keyword?, isNamed.text, noKeyword]
    rfl
  denotes := by
    intro token frame names isNamed _ bound
    refine .inr ⟨?_, ?_⟩
    · rw [CompileContext.visibleKeyword?, Environment.keyword?, isNamed.text, noKeyword]
      rfl
    · rw [isNamed.text, CompileContext.symbol?, noSymbol, noExternal, bound]
      rfl
  binds_set := by
    intro names bound other
    rw [ElementNames.lookup, ElementNames.set]
    split
    next => rfl
    next => exact bound

/-- The name of an element may stand behind every word for an element. -/
theorem introduces (word : ElementWord ctx p key) {token : Token} (isWord : word.isWord token) :
    ctx.env.Introduces token where
  left := by
    rw [word.identifier isWord]
    decide
  right := ⟨word.noClause isWord "as" (by simp), fun _ => word.notNew isWord⟩

end ElementWord

/-- Where an expression is read in the scope of another element, none of some places is passed. -/
def CompileContext.Avoids (ctx : CompileContext) (p : Parameter) (marks : Nat → Prop)
    (point : Session) : Prop :=
  point.scopes.current.it = some p ∨ ∀ e after, ctx.wholeExpression point = .ok e after →
    Pairing.Unpassed marks point.rest.length after.rest.length

/-- Throughout the reading of a whole expression, none of some places is passed in the scope of
another element. -/
def CompileContext.WritesInside (ctx : CompileContext) (p : Parameter) (marks : Nat → Prop)
    (start : Session) : Prop :=
  ctx.Throughout (ctx.Avoids p marks) (start.rest.length + 2) start

/-- Where no expression is nested in another one, the element is written in its own scope only. -/
theorem CompileContext.writesInside_of_flat {ctx : CompileContext} {p : Parameter}
    {marks : Nat → Prop} {start after : Session} {fault : CompileFault} {e : Expr}
    (endsWell : start.EndsWell) (current : start.scopes.current.it = some p)
    (flat : ctx.conditional (Parse.failHere fault) start = .ok e after) :
    ctx.WritesInside p marks start :=
  ⟨.inl current, ctx.readsOnly_of_flat endsWell flat⟩

open Classical in
/-- An expression that is read only where a condition holds throughout its reading. -/
noncomputable def CompileContext.expressionWhere (ctx : CompileContext) (holds : Session → Prop)
    (depth : Nat) : Parse Expr := fun session =>
  if ctx.Throughout holds depth session then ctx.expression depth session
  else Parse.failHere (.expected .expression) session

namespace Pairing

variable {ctx : CompileContext} {p : Parameter} {key : String}

/-- Two texts that write an element in two ways. -/
def ofWords (left right : ElementWord ctx p key) (marks walls : Nat → Prop) : Pairing ctx where
  swaps token token' := left.isWord token ∧ right.isWord token'
  marks := marks
  keys := (· = key)
  walls := walls
  outer frame := frame.it = some p
  agrees frame names names' :=
    (∀ other, other ≠ key → names.lookup other = names'.lookup other) ∧
      (frame.it = some p → left.binds names ∧ right.binds names')
  fresh _ number := p.id < number
  placed _ _ := True
  failing _ _ := True
  lenient := True
  placed_refl _ := trivial
  placed_add _ _ := trivial
  placed_of_failing _ := trivial
  swaps_placed _ := trivial
  swaps_kind swaps := ⟨left.identifier swaps.1, right.identifier swaps.2⟩
  swaps_word swaps word isClause :=
    (left.noClause swaps.1 word isClause).trans (right.noClause swaps.2 word isClause).symm
  swaps_denote swaps isOuter agrees :=
    ⟨p, left.denotes swaps.1 isOuter (agrees.2 isOuter).1,
      right.denotes swaps.2 isOuter (agrees.2 isOuter).2⟩
  lenient_or_clear := .inl trivial
  agrees_off agrees other notKey := agrees.1 other notKey
  agrees_set := by
    rintro frame names names' ⟨off, bound⟩ other element current
    refine ⟨fun another notKey => ?_, fun isOuter => ?_⟩
    · have same := off another notKey
      rw [ElementNames.lookup, ElementNames.lookup] at same
      rw [ElementNames.lookup, ElementNames.lookup, ElementNames.set, ElementNames.set, same]
    · obtain rfl := Option.some.inj (current.symm.trans isOuter)
      exact ⟨left.binds_set (bound isOuter).1 other, right.binds_set (bound isOuter).2 other⟩
  agrees_enter := by
    rintro stack names names' number ⟨off, bound⟩ earlier operation name type
    refine ⟨off, fun isOuter => bound ?_⟩
    rw [Aggregate.argumentScope] at isOuter
    split at isOuter
    next => exact isOuter
    next =>
      obtain rfl := Option.some.inj isOuter
      exact absurd earlier (Nat.lt_irrefl _)
  persists := ⟨fun earlier le => Nat.lt_of_lt_of_le earlier le,
    fun earlier _ _ _ => Nat.lt_succ_of_lt earlier⟩

section Converse

variable {left right : ElementWord ctx p key} {marks walls : Nat → Prop} {token token' : Token}
  {rest rest' : List Token}

theorem Stand.converse {place : Nat}
    (stand : (ofWords left right marks walls).Stand place token token') :
    (ofWords right left marks walls).Stand place token' token := by
  cases stand with
  | same same walled =>
      refine .same ⟨same.kind.symm, same.text.symm, trivial⟩ ?_
      rw [← same.kind, ← same.text]
      exact walled
  | swapped swaps marked => exact .swapped ⟨swaps.2, swaps.1⟩ marked

/-- Where the name of an element may stand behind a token in one text, it may in the other one. -/
theorem Stand.introduces {place : Nat}
    (stand : (ofWords left right marks walls).Stand place token token')
    (introduces : ctx.env.Introduces token) : ctx.env.Introduces token' := by
  cases stand with
  | same same =>
      rw [Environment.Introduces, Token.isWord, ← same.kind, ← same.text]
      exact introduces
  | swapped swaps => exact right.introduces swaps.2

theorem Ahead.converse (ahead : (ofWords left right marks walls).Ahead token rest rest')
    (introduces : ctx.env.Introduces token → ctx.env.Introduces token') :
    (ofWords right left marks walls).Ahead token' rest' rest := by
  induction ahead generalizing token' with
  | nil => exact .nil
  | @cons token next next' rest rest' stand introduced ahead ih =>
      refine .cons (ahead.length_eq ▸ stand.converse) ?_ (ih stand.introduces)
      exact introduced.imp (fun same => ⟨same.kind.symm, same.text.symm, trivial⟩) introduces

/-- The two texts may change places. -/
theorem Twins.converse {stack : ScopeStack} {names names' : ElementNames}
    {session session' : Session}
    (twins : (ofWords left right marks walls).Twins stack names names' session session')
    (endsWell : session'.EndsWell) :
    (ofWords right left marks walls).Twins stack names' names session' session where
  current := twins.ahead.length_eq ▸ twins.current.converse
  ahead := twins.ahead.converse twins.current.introduces
  failure := by
    have failures := twins.failure
    generalize session.failure = failure at failures
    generalize session'.failure = failure' at failures
    cases failures with
    | some => exact .some trivial
    | none => exact .none
  scopes := twins.scopes'
  scopes' := twins.scopes
  internals := twins.internals'
  internals' := twins.internals
  store := twins.store.symm
  agrees := ⟨fun other notKey => (twins.agrees.1 other notKey).symm,
    fun isOuter => (twins.agrees.2 isOuter).symm⟩
  fresh := twins.store ▸ twins.fresh
  endsWell := endsWell

end Converse

variable {w : Pairing ctx} {demand : w.Demand} {place : Nat} {stack : ScopeStack}
  {names names' : ElementNames} {α : Type} {holds : α → α → Prop} {session : Session}
  {outcome' : EStateM.Result CompileError Session α}

/-- Where a step finds the same as another one, it ends as that one does. -/
theorem Ends.of_found {step step' : Parse α}
    (ends : w.Ends demand place stack names names' holds (step session) outcome')
    (same : step'.found session = step.found session) :
    w.Ends demand place stack names names' holds (step' session) outcome' := by
  unfold Parse.found at same
  generalize step session = outcome at ends same
  generalize step' session = found at same
  cases ends with
  | ok carried =>
      cases found with
      | ok a after =>
          obtain ⟨rfl, rfl⟩ := Prod.mk.inj (Except.ok.inj same)
          exact .ok carried
      | error => cases same
  | error failed =>
      cases found with
      | ok => cases same
      | error error after =>
          have position : error.position = _ := Except.error.inj same
          refine .error ?_
          rw [position]
          exact failed

end Pairing

namespace CompileContext

open Pairing

variable {ctx : CompileContext}

section Where

variable {holds : Session → Prop} {depth : Nat} {point : Session}

theorem expressionWhere_eq (throughout : ctx.Throughout holds depth point) :
    ctx.expressionWhere holds depth point = ctx.expression depth point :=
  if_pos throughout

theorem expressionWhere_failed (passing : ¬ ctx.Throughout holds depth point) :
    ctx.expressionWhere holds depth point = Parse.failHere (.expected .expression) point :=
  if_neg passing

theorem expressionWhere_follows {after : Session} {e : Expr} (endsWell : point.EndsWell)
    (ran : ctx.expressionWhere holds depth point = .ok e after) : after.Follows point := by
  by_cases throughout : ctx.Throughout holds depth point
  · exact ctx.expression_follows endsWell ((expressionWhere_eq throughout).symm.trans ran)
  · rw [expressionWhere_failed throughout] at ran
    cases ran

/-- The reading around nested expressions does not notice that they are read only where a condition
holds. -/
theorem expressionWhere_found (throughout : ctx.Throughout holds (depth + 1) point) :
    (ctx.expressionWhere holds (depth + 1)).found point =
      (ctx.conditional (ctx.expressionWhere holds depth)).found point := by
  have unnoticed := throughout.2 (ctx.expressionWhere holds depth) fun _ => expressionWhere_eq
  rw [unnoticed, Parse.found, expressionWhere_eq throughout]
  rfl

end Where

variable {p : Parameter} {key : String} (left right : ElementWord ctx p key)
  (marks walls : Nat → Prop)

/-- Expressions that write the element only in its own scope are read side by side.  In the
induction on the depth the expressions below are cut off where they write the element elsewhere. -/
theorem expressionWhere_nested {depth n : Nat} (less : n < depth) :
    (ofWords left right marks walls).Nested n (ctx.expressionWhere (ctx.Avoids p marks) depth)
      (ctx.expression depth) := by
  induction depth generalizing n with
  | zero => exact absurd less (Nat.not_lt_zero _)
  | succ depth ih =>
      have around (frame : ScopeFrame) :
          (ofWords left right marks walls).Carries (.guarded _ frame) frame n Known.nothing
            (ctx.conditional (ctx.expressionWhere (ctx.Avoids p marks) depth))
            (ctx.conditional (ctx.expression depth)) Eq :=
        conditional_carries fun m before =>
          ih (Nat.lt_of_lt_of_le before (Nat.le_of_lt_succ less))
      have guarded (frame : ScopeFrame) :
          (ofWords left right marks walls).Carries (.guarded _ frame) frame n Known.nothing
            (ctx.expressionWhere (ctx.Avoids p marks) (depth + 1)) (ctx.expression (depth + 1))
            Eq := by
        refine ⟨fun endsWell _ _ _ _ _ _ => expressionWhere_follows endsWell, ?_⟩
        intro stack names names' session session' twins framed bound start
        by_cases throughout : ctx.Throughout (ctx.Avoids p marks) (depth + 1) session
        · exact ((around frame).ends twins framed bound start).of_found
            (expressionWhere_found throughout)
        · rw [expressionWhere_failed throughout]
          exact .error (.inl trivial)
      refine ⟨guarded, fun frame other => ⟨(guarded frame).follows, ?_⟩⟩
      intro stack names names' session session' twins framed bound start
      refine ((guarded frame).ends twins framed bound start).demanding ?_
      intro e after ran unwalled
      refine ⟨unwalled, .inr ?_⟩
      by_cases throughout : ctx.Throughout (ctx.Avoids p marks) (depth + 1) session
      · have avoids := throughout.1.resolve_left (by rw [twins.scopes, framed]; exact other)
        rw [expressionWhere_eq throughout] at ran
        refine avoids e after ?_
        rw [ctx.wholeExpression_eq]
        exact ctx.expression_eq_deeper twins.endsWell (Nat.lt_of_le_of_lt bound less) (by omega) ran
      · rw [expressionWhere_failed throughout] at ran
        cases ran

/-- What is read where an element is written in one way is read where it is written in another. -/
theorem expression_of_words {stack : ScopeStack} {names names' : ElementNames}
    {session session' after : Session} {e : Expr} {depth : Nat}
    (twins : (ofWords left right marks walls).Twins stack names names' session session')
    (current : stack.current.it = some p) (less : session.rest.length < depth)
    (throughout : ctx.Throughout (ctx.Avoids p marks) depth session)
    (read : ctx.expression depth session = .ok e after)
    (unwalled : Unpassed walls session.rest.length after.rest.length) :
    ∃ after', ctx.expression depth session' = .ok e after' ∧
      (ofWords left right marks walls).Twins stack names names' after after' := by
  have ends := ((expressionWhere_nested left right marks walls less).guarded stack.current).ends
    twins rfl (Nat.le_refl _) trivial
  rw [expressionWhere_eq throughout, read] at ends
  cases ends with
  | ok carried =>
      obtain ⟨e', after', read', rfl, twins⟩ := carried ⟨unwalled, .inl current⟩
      exact ⟨after', read', twins⟩

end CompileContext

end QueryTree
