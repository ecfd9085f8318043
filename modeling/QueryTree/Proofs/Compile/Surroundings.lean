import QueryTree.Compile.Session
import QueryTree.Proofs.Type.Equality

/-!
# Steps and their surroundings

What a step of a compile ensures, and what it leaves as it was around it.
-/

namespace QueryTree.Parse

/-! ## Steps of a compile

What a step of a compile makes of the state that it starts in, whether it succeeds or fails.
-/

variable {α β : Type}

/-- From a state that satisfies `before`, a step ends in a state that satisfies `after` if it
succeeds, and in one that satisfies `failed` if it does not. -/
def Ensures (before : Session → Prop) (step : Parse α) (after : α → Session → Prop)
    (failed : Session → Prop) : Prop :=
  ∀ session, before session →
    match step session with
    | .ok a next => after a next
    | .error _ next => failed next

namespace Ensures

variable {before failed : Session → Prop} {after : α → Session → Prop}

theorem pure {a : α} (holds : ∀ session, before session → after a session) :
    Ensures before (Pure.pure a : Parse α) after failed :=
  holds

theorem bind {step : Parse α} {next : α → Parse β} {middle : α → Session → Prop}
    {after : β → Session → Prop} (first : Ensures before step middle failed)
    (second : ∀ a, Ensures (middle a) (next a) after failed) :
    Ensures before (step >>= next) after failed := by
  intro session start
  have reached := first session start
  change match EStateM.bind step next session with
    | .ok b state => after b state
    | .error _ state => failed state
  rw [EStateM.bind]
  cases outcome : step session with
  | ok a state =>
      rw [outcome] at reached
      exact second a state reached
  | error error state =>
      rw [outcome] at reached
      exact reached

theorem throw {error : CompileError} (holds : ∀ session, before session → failed session) :
    Ensures before (MonadExcept.throw error : Parse α) after failed :=
  holds

theorem imp {step : Parse α} {before' failed' : Session → Prop} {after' : α → Session → Prop}
    (ensured : Ensures before step after failed)
    (weaker : ∀ session, before' session → before session)
    (stronger : ∀ a session, after a session → after' a session)
    (failing : ∀ session, failed session → failed' session) :
    Ensures before' step after' failed' := by
  intro session start
  have reached := ensured session (weaker session start)
  cases outcome : step session with
  | ok a state =>
      rw [outcome] at reached
      exact stronger a state reached
  | error error state =>
      rw [outcome] at reached
      exact failing state reached

end Ensures

end QueryTree.Parse

namespace QueryTree

/-! ## Surroundings

The scopes and the element names around a step of a compile, and the tokens of the text.  A step
stays within its surroundings if it leaves them as they were, whether it succeeds or fails, and
meets only tokens of the text.  The elementary steps stay within theirs, and so do the two that
change them for a while.
-/

/-- The scopes and the names that stand for an element. -/
structure Surroundings where
  scopes : ScopeStack
  names : ElementNames

/-- The scopes and the element names of a state. -/
def Session.surroundings (session : Session) : Surroundings :=
  ⟨session.scopes, session.internals⟩

namespace Surroundings

/-- The innermost scope. -/
def frame (around : Surroundings) : ScopeFrame := around.scopes.current

/-- The surroundings inside a further scope. -/
def enter (around : Surroundings) (frame : ScopeFrame) : Surroundings :=
  { around with scopes := around.scopes.push frame }

/-- The surroundings in which a name stands for an element. -/
def name (around : Surroundings) (key : String) (element : Parameter) : Surroundings :=
  { around with names := around.names.set key (some element) }

end Surroundings

/-- The tokens that a compile meets in a text: those of the text, and the ones that a minus sign is
made part of. -/
inductive Token.Met (tokens : List Token) : Token → Prop where
  | own {token} (isToken : token ∈ tokens) : Met tokens token
  | signed {sign number : Token} (isSign : sign.kind = .minus) (left : Met tokens sign)
      (right : Met tokens number) :
      Met tokens { number with text := "-" ++ number.text, position := sign.position }

/-- Only tokens of a text are ahead. -/
def Session.Reads (session : Session) (tokens : List Token) : Prop :=
  Token.Met tokens session.current ∧ ∀ token ∈ session.rest, Token.Met tokens token

theorem Session.reads_ahead (session : Session) :
    session.Reads (session.current :: session.rest) :=
  ⟨.own (by simp), fun _ isAhead => .own (List.mem_cons_of_mem _ isAhead)⟩

/-- A name that is set anew and then set back stands for what it stood for before, and so do all
other names, whether they were there or not. -/
theorem ElementNames.set_set_lookup (names : ElementNames) (key : String)
    (element? : Option Parameter) :
    (names.set key element?).set key (names.lookup key) = names := by
  funext other
  by_cases isKey : other = key
  · simp [set, lookup, isKey]
  · simp [set, isKey]

namespace Parse

variable {α β : Type}

/-- A step that meets tokens of a text leaves the surroundings it starts in as they were, and what
it yields if it succeeds satisfies a condition. -/
def Within (tokens : List Token) (around : Surroundings) (step : Parse α) (holds : α → Prop) :
    Prop :=
  Ensures (fun session => session.surroundings = around ∧ session.Reads tokens) step
    (fun a next => (next.surroundings = around ∧ next.Reads tokens) ∧ holds a)
    (·.surroundings = around)

namespace Within

variable {tokens : List Token} {around : Surroundings} {holds : α → Prop}

theorem pure {a : α} (satisfied : holds a) :
    Within tokens around (Pure.pure a : Parse α) holds :=
  Ensures.pure fun _ unchanged => ⟨unchanged, satisfied⟩

theorem bind {step : Parse α} {next : α → Parse β} {result : β → Prop}
    (first : Within tokens around step holds)
    (second : ∀ a, holds a → Within tokens around (next a) result) :
    Within tokens around (step >>= next) result := by
  refine Ensures.bind first ?_
  intro a session reached
  exact second a reached.2 session reached.1

theorem imp {step : Parse α} {weaker : α → Prop} (within : Within tokens around step holds)
    (implies : ∀ a, holds a → weaker a) : Within tokens around step weaker :=
  Ensures.imp within (fun _ start => start)
    (fun a _ reached => ⟨reached.1, implies a reached.2⟩) (fun _ failing => failing)

theorem throw {error : CompileError} :
    Within tokens around (MonadExcept.throw error : Parse α) holds :=
  Ensures.throw fun _ unchanged => unchanged.1

theorem lift {outcome : Except CompileError α} (satisfied : ∀ a, outcome = .ok a → holds a) :
    Within tokens around (Parse.lift outcome) holds := by
  cases outcome with
  | ok a => exact pure (satisfied a rfl)
  | error error => exact throw

theorem get : Within tokens around (MonadState.get : Parse Session)
    fun session => session.surroundings = around ∧ session.Reads tokens :=
  fun _ unchanged => ⟨unchanged, unchanged⟩

theorem set {session : Session} (unchanged : session.surroundings = around)
    (reads : session.Reads tokens) :
    Within tokens around (MonadStateOf.set session : Parse PUnit) fun _ => True :=
  fun _ _ => ⟨⟨unchanged, reads⟩, trivial⟩

theorem current : Within tokens around Parse.current (Token.Met tokens) :=
  bind get fun _ unchanged => pure unchanged.2.1

theorem position : Within tokens around Parse.position fun _ => True :=
  bind current fun _ _ => pure trivial

theorem check {kind : TokenKind} : Within tokens around (Parse.check kind) fun _ => True :=
  bind current fun _ _ => pure trivial

theorem checkWord {word : String} : Within tokens around (Parse.checkWord word) fun _ => True :=
  bind current fun _ _ => pure trivial

theorem tokensLeft : Within tokens around Parse.tokensLeft fun _ => True :=
  bind get fun _ _ => pure trivial

theorem scope : Within tokens around Parse.scope (· = around.frame) :=
  bind get fun _ unchanged => pure (congrArg Surroundings.frame unchanged.1)

theorem failAt {position : Nat} {fault : CompileFault} :
    Within tokens around (Parse.failAt position fault : Parse α) holds :=
  throw

theorem failHere {fault : CompileFault} :
    Within tokens around (Parse.failHere fault : Parse α) holds :=
  bind position fun _ _ => failAt

theorem advance : Within tokens around Parse.advance fun _ => True := by
  refine bind get fun session unchanged => ?_
  cases ahead : session.rest with
  | cons token rest =>
      obtain ⟨isNext, later⟩ := List.forall_mem_cons.mp (ahead ▸ unchanged.2.2)
      exact set unchanged.1 ⟨isNext, later⟩
  | nil =>
      cases session.failure with
      | some error => exact throw
      | none => exact pure trivial

theorem validate {kind : TokenKind} {fault : CompileFault} :
    Within tokens around (Parse.validate kind fault) fun _ => True := by
  refine bind check fun found _ => ?_
  cases found with
  | true => exact pure trivial
  | false => exact failHere

theorem expect {kind : TokenKind} {fault : CompileFault} :
    Within tokens around (Parse.expect kind fault) fun _ => True :=
  bind validate fun _ _ => advance

theorem identifier : Within tokens around Parse.identifier
    fun name => ∃ token, Token.Met tokens token ∧ name = Parse.unescapedName token.text :=
  bind validate fun _ _ => bind current fun token met => pure ⟨token, met, rfl⟩

theorem newParameter {name : String} {type : Ty} :
    Within tokens around (Parse.newParameter name type) (·.type = type) :=
  bind get fun _ unchanged => bind (set unchanged.1 unchanged.2) fun _ _ => pure rfl

theorem withScope {frame : ScopeFrame} {step : Parse α}
    (inside : Within tokens (around.enter frame) step holds) :
    Within tokens around (Parse.withScope frame step) holds := by
  rintro session ⟨unchanged, reads⟩
  have entered := inside { session with scopes := session.scopes.push frame }
    ⟨by rw [← unchanged]; rfl, reads⟩
  simp only [Parse.withScope]
  cases outcome : step { session with scopes := session.scopes.push frame } with
  | ok a next =>
      rw [outcome] at entered
      obtain ⟨⟨same, later⟩, satisfied⟩ := entered
      refine ⟨⟨?_, later⟩, satisfied⟩
      calc
        _ = ⟨next.surroundings.scopes.pop, next.surroundings.names⟩ := rfl
        _ = around := by rw [same]; rfl
  | error error next =>
      rw [outcome] at entered
      have same : next.surroundings = around.enter frame := entered
      calc
        _ = ⟨next.surroundings.scopes.pop, next.surroundings.names⟩ := rfl
        _ = around := by rw [same]; rfl

theorem withInternal {key : String} {element : Parameter} {step : Parse α}
    (inside : Within tokens (around.name key element) step holds) :
    Within tokens around (Parse.withInternal key element step) holds := by
  rintro session ⟨unchanged, reads⟩
  have entered := inside { session with internals := session.internals.set key (some element) }
    ⟨by rw [← unchanged]; rfl, reads⟩
  -- the names are put back one by one, so that the rest of them has to be the same as before
  have restored (next : Session) (same : next.surroundings = around.name key element) :
      Session.surroundings { next with
        internals := next.internals.set key (session.internals.lookup key) } = around := by
    have scopes : next.scopes = around.scopes := congrArg Surroundings.scopes same
    have names : next.internals = around.names.set key (some element) :=
      congrArg Surroundings.names same
    have before : session.internals = around.names := congrArg Surroundings.names unchanged
    simp only [Session.surroundings, scopes, names, before, ElementNames.set_set_lookup]
  simp only [Parse.withInternal]
  cases outcome : step { session with
      internals := session.internals.set key (some element) } with
  | ok a next =>
      rw [outcome] at entered
      obtain ⟨⟨same, later⟩, satisfied⟩ := entered
      exact ⟨⟨restored next same, later⟩, satisfied⟩
  | error error next =>
      rw [outcome] at entered
      exact restored next entered

theorem commaListFrom {item : Parse α} (each : Within tokens around item holds) (fuel : Nat) :
    Within tokens around (Parse.commaList.go item fuel) (∀ a ∈ ·, holds a) := by
  induction fuel with
  | zero => exact pure (by simp)
  | succ fuel rest =>
      refine bind check fun more _ => ?_
      cases more with
      | false => exact pure (by simp)
      | true =>
          refine bind advance fun _ _ => bind each fun a satisfied => bind rest fun as all => ?_
          exact pure (List.forall_mem_cons.mpr ⟨satisfied, all⟩)

theorem commaList {item : Parse α} (each : Within tokens around item holds) :
    Within tokens around (Parse.commaList item) (∀ a ∈ ·, holds a) := by
  refine bind each fun a satisfied => bind tokensLeft fun fuel _ => ?_
  refine bind (commaListFrom each (fuel + 1)) fun as all => ?_
  exact pure (List.forall_mem_cons.mpr ⟨satisfied, all⟩)

theorem argumentList {expression : Parse Expr} {holds : Expr → Prop}
    (each : Within tokens around expression holds) :
    Within tokens around (Parse.argumentList expression) (∀ a ∈ ·, holds a) := by
  have close (args : List Expr) (all : ∀ a ∈ args, holds a) : Within tokens around
      (do Parse.expect .closeParen (.expected .closeParenOrComma); return args)
      (∀ a ∈ ·, holds a) :=
    bind expect fun _ _ => pure all
  refine bind expect fun _ _ => bind check fun closed _ => ?_
  cases closed with
  | true => exact close [] (by simp)
  | false => exact bind (commaList each) close

theorem recordType {names : List String} {types : List Ty} :
    Within tokens around (Parse.recordType names types) fun type =>
      ∃ id held, type = .record id names held ∧ Ty.sameAll held types := by
  refine bind get fun session unchanged => bind (set unchanged.1 unchanged.2) fun _ _ => ?_
  exact pure (session.store.records.intern_type names types)

end Within

end Parse

end QueryTree
