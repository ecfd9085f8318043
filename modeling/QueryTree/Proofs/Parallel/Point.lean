import QueryTree.Proofs.Parallel.Level

/-!
# Points of a compile

The states in which a compile reads an expression, and the expressions nested in it.  A step reads
expressions only in some states if it finds the same with every other way of reading them that is
the same in these states.  The depth to which expressions are nested does not matter, as long as it
is not less than the number of tokens.
-/

namespace QueryTree

namespace Parse

variable {α : Type}

/-- What a step finds: its value and the state behind it, or the place where it fails. -/
def found (step : Parse α) (session : Session) : Except Nat (α × Session) :=
  match step session with
  | .ok a after => .ok (a, after)
  | .error error _ => .error error.position

theorem found_eq_ok {step : Parse α} {session after : Session} {a : α} :
    step.found session = .ok (a, after) ↔ step session = .ok a after := by
  unfold found
  cases step session <;> simp

section Congruence

variable {β : Type} {step step' : Parse α} {session : Session}

theorem found_bind (same : step'.found session = step.found session) (next : α → Parse β) :
    (step' >>= next).found session = (step >>= next).found session := by
  unfold found at same ⊢
  cases ran : step session <;> cases ran' : step' session <;> rw [ran, ran'] at same
  · obtain ⟨rfl, rfl⟩ := Prod.mk.inj (Except.ok.inj same)
    rw [bind_eq ran, bind_eq ran']
  · cases same
  · cases same
  · rw [bind_error ran, bind_error ran']
    exact congrArg Except.error (Except.error.inj same)

theorem found_withScope {frame : ScopeFrame}
    (same : step'.found { session with scopes := session.scopes.push frame } =
      step.found { session with scopes := session.scopes.push frame }) :
    (withScope frame step').found session = (withScope frame step).found session := by
  unfold found withScope at *
  generalize step { session with scopes := session.scopes.push frame } = outcome at same
  generalize step' { session with scopes := session.scopes.push frame } = outcome' at same
  cases outcome <;> cases outcome'
  · obtain ⟨rfl, rfl⟩ := Prod.mk.inj (Except.ok.inj same)
    rfl
  · cases same
  · cases same
  · exact same

end Congruence

/-- A step reads expressions only in some states. -/
def ReadsOnly (holds : Session → Prop) (step : Parse Expr → Parse α) (expression : Parse Expr)
    (session : Session) : Prop :=
  ∀ other : Parse Expr, (∀ point, holds point → other point = expression point) →
    (step other).found session = (step expression).found session

theorem ReadsOnly.mono {holds weaker : Session → Prop} {step : Parse Expr → Parse α}
    {expression : Parse Expr} {session : Session} (reads : ReadsOnly holds step expression session)
    (implies : ∀ point, holds point → weaker point) : ReadsOnly weaker step expression session :=
  fun other same => reads other fun point isPoint => same point (implies point isPoint)

end Parse

/-- A condition holds throughout the reading of an expression: where it starts, and throughout the
reading of every expression that is nested in it. -/
def CompileContext.Throughout (ctx : CompileContext) (holds : Session → Prop) :
    Nat → Session → Prop
  | 0, session => holds session
  | depth + 1, session => holds session ∧
      Parse.ReadsOnly (ctx.Throughout holds depth) ctx.conditional (ctx.expression depth) session

theorem CompileContext.Throughout.mono {ctx : CompileContext} {holds weaker : Session → Prop}
    (implies : ∀ point, holds point → weaker point) {depth : Nat} {session : Session}
    (throughout : ctx.Throughout holds depth session) : ctx.Throughout weaker depth session := by
  induction depth generalizing session with
  | zero => exact implies _ throughout
  | succ depth ih => exact ⟨implies _ throughout.1, throughout.2.mono fun _ nested => ih nested⟩

namespace Pairing

variable {ctx : CompileContext} {inv : ScopeStack → Nat → Prop}

/-- Two compiles of the same text, of which the second one may have to go on where the first one
fails. -/
def ofSame (ctx : CompileContext) (persists : Persists inv) (lenient : Prop) : Pairing ctx where
  swaps _ _ := False
  marks _ := False
  keys _ := False
  walls _ := False
  outer _ := False
  agrees _ names names' := names = names'
  fresh := inv
  placed := Eq
  failing := Eq
  lenient := lenient
  placed_refl _ := rfl
  placed_add := by rintro _ _ rfl _; rfl
  placed_of_failing := by rintro _ _ rfl; rfl
  swaps_placed := False.elim
  swaps_kind := False.elim
  swaps_word := False.elim
  swaps_denote := False.elim
  lenient_or_clear := .inr fun _ => ⟨id, id⟩
  agrees_off := by rintro _ _ _ rfl _ _; rfl
  agrees_set := by rintro _ _ _ rfl _ _ _; rfl
  agrees_enter := by rintro _ _ _ _ rfl _ _ _ _; rfl
  persists := persists

variable {persists : Persists inv} {lenient : Prop}

section Twins

variable {stack : ScopeStack} {names names' : ElementNames} {session session' : Session}

theorem Stand.eq_of_same {place : Nat} {token token' : Token}
    (stand : (ofSame ctx persists lenient).Stand place token token') : token' = token := by
  cases stand with
  | same same _ =>
      obtain ⟨kind, text, position⟩ := token
      obtain ⟨kind', text', position'⟩ := token'
      obtain ⟨rfl, rfl, rfl⟩ := same
      rfl
  | swapped swaps _ => exact swaps.elim

theorem Ahead.eq_of_same {token : Token} {rest rest' : List Token}
    (ahead : (ofSame ctx persists lenient).Ahead token rest rest') : rest' = rest := by
  induction ahead with
  | nil => rfl
  | cons stand _ _ ih => rw [stand.eq_of_same, ih]

theorem Ahead.of_same (token : Token) (rest : List Token) :
    (ofSame ctx persists lenient).Ahead token rest rest := by
  induction rest generalizing token with
  | nil => exact .nil
  | cons next rest ih =>
      exact .cons (.same (.refl next) fun _ => False.elim) (.inl (.refl next)) (ih next)

/-- Two compiles of the same text are in the same state. -/
theorem Twins.eq_of_same
    (twins : (ofSame ctx persists lenient).Twins stack names names' session session') :
    session' = session := by
  obtain ⟨current, rest, failure, scopes, internals, store⟩ := session
  obtain ⟨current', rest', failure', scopes', internals', store'⟩ := session'
  obtain rfl : current' = current := twins.current.eq_of_same
  obtain rfl : rest' = rest := twins.ahead.eq_of_same
  have failures : Option.Rel Eq failure failure' := twins.failure
  have scopes_eq : scopes = stack := twins.scopes
  have scopes_eq' : scopes' = stack := twins.scopes'
  have names_eq : internals = names := twins.internals
  have names_eq' : internals' = names' := twins.internals'
  have agree : names = names' := twins.agrees
  obtain rfl : store' = store := twins.store
  rw [scopes_eq, scopes_eq', names_eq, names_eq', agree]
  cases failures with
  | some same => rw [same]
  | none => rfl

theorem Twins.of_same (persisting : inv session.scopes session.store.nextParameter)
    (endsWell : session.EndsWell) :
    (ofSame ctx persists lenient).Twins session.scopes session.internals session.internals session
      session where
  current := .same (.refl _) fun _ => False.elim
  ahead := .of_same _ _
  failure := by
    cases session.failure with
    | some error => exact .some rfl
    | none => exact .none
  scopes := rfl
  scopes' := rfl
  internals := rfl
  internals' := rfl
  store := rfl
  agrees := rfl
  fresh := persisting
  endsWell := endsWell

/-- What the twins of a state keep. -/
theorem Twins.persisting
    (twins : (ofSame ctx persists lenient).Twins stack names names' session session') :
    inv session.scopes session.store.nextParameter :=
  twins.scopes ▸ twins.fresh

end Twins

variable {α : Type} {frame : ScopeFrame} {n : Nat} {known : Token → Token → Prop}
  {holds : α → α → Prop}

/-- In two compiles of the same text nothing special is asked for. -/
theorem Demand.meets_of_same (start stop : Nat) :
    (Demand.guarded (ofSame ctx persists lenient) frame).meets start stop :=
  ⟨fun _ => False.elim, .inr fun _ => False.elim⟩

/-- A step that reads the same text twice side by side succeeds twice. -/
theorem Carries.eq_ok {step step' : Parse α} {session after : Session} {a : α}
    (carries : (ofSame ctx persists lenient).Carries (.guarded _ session.scopes.current)
      session.scopes.current session.rest.length Known.nothing step step' Eq)
    (persisting : inv session.scopes session.store.nextParameter) (endsWell : session.EndsWell)
    (ran : step session = .ok a after) : step' session = .ok a after := by
  have ends := carries.ends (.of_same persisting endsWell) rfl (Nat.le_refl _) trivial
  rw [ran] at ends
  cases ends with
  | ok carried =>
      obtain ⟨a', after', ran', rfl, twins⟩ := carried (Demand.meets_of_same _ _)
      rw [ran', twins.eq_of_same]

/-- A step that reads the same text twice side by side finds the same twice. -/
theorem Carries.found_eq {step step' : Parse α} {session : Session}
    (carries : (ofSame ctx persists False).Carries (.guarded _ session.scopes.current)
      session.scopes.current session.rest.length Known.nothing step step' Eq)
    (persisting : inv session.scopes session.store.nextParameter) (endsWell : session.EndsWell) :
    step'.found session = step.found session := by
  unfold Parse.found
  cases ran : step session with
  | ok a after => rw [carries.eq_ok persisting endsWell ran]
  | error error after =>
      have ends := carries.ends (.of_same persisting endsWell) rfl (Nat.le_refl _) trivial
      rw [ran] at ends
      cases ends with
      | error failed =>
          obtain ⟨error', after', ran', related⟩ := failed.resolve_left id
          rw [ran']
          exact congrArg Except.error related.symm

/-- Expressions nested in the same text go on side by side wherever they do where something is asked
for. -/
theorem Nested.of_same {expression expression' : Parse Expr}
    (carries : ∀ frame, (ofSame ctx persists lenient).Carries (.guarded _ frame) frame n
      Known.nothing expression expression' Eq) :
    (ofSame ctx persists lenient).Nested n expression expression' where
  guarded := carries
  free frame _ := ⟨(carries frame).follows, fun twins framed bound start =>
    ((carries frame).ends twins framed bound start).demanding fun _ _ _ _ =>
      Demand.meets_of_same _ _⟩

end Pairing

namespace CompileContext

open Pairing

variable (ctx : CompileContext) {inv : ScopeStack → Nat → Prop} (kept : Persists inv)

theorem wholeExpression_eq (session : Session) :
    ctx.wholeExpression session = ctx.expression (session.rest.length + 2) session := by
  rw [wholeExpression, Parse.bind_eq (Parse.tokensLeft_eq session)]

include kept

theorem expression_nested (depth n : Nat) :
    (ofSame ctx kept False).Nested n (ctx.expression depth) (ctx.expression depth) := by
  induction depth generalizing n with
  | zero => exact .of_same fun _ => .failHere
  | succ depth ih => exact .of_same fun _ => conditional_carries fun m _ => ih m

/-- Expressions of any depths are read alike that are greater than the number of tokens. -/
theorem expression_deeper {n depth depth' : Nat} (less : n < depth) (less' : n < depth') :
    (ofSame ctx kept False).Nested n (ctx.expression depth) (ctx.expression depth') := by
  induction n using Nat.strongRecOn generalizing depth depth' with
  | ind n ih =>
      obtain ⟨depth, rfl⟩ := Nat.exists_eq_add_one_of_ne_zero (Nat.ne_zero_of_lt less)
      obtain ⟨depth', rfl⟩ := Nat.exists_eq_add_one_of_ne_zero (Nat.ne_zero_of_lt less')
      refine .of_same fun _ => conditional_carries fun m before => ?_
      exact ih m before (Nat.lt_of_lt_of_le before (Nat.le_of_lt_add_one less))
        (Nat.lt_of_lt_of_le before (Nat.le_of_lt_add_one less'))

/-- An expression may be read in every other way that is the same where a compile comes. -/
theorem nested_of_eq {depth : Nat} {other : Parse Expr}
    (same : ∀ point : Session, inv point.scopes point.store.nextParameter → point.EndsWell →
      other point = ctx.expression depth point) (n : Nat) :
    (ofSame ctx kept False).Nested n (ctx.expression depth) other := by
  refine .of_same fun frame => ?_
  have reflexive := (ctx.expression_nested kept depth n).guarded frame
  refine ⟨reflexive.follows, fun twins framed bound start => ?_⟩
  obtain rfl := twins.eq_of_same
  rw [same _ twins.persisting twins.endsWell]
  exact reflexive.ends twins framed bound start

omit kept in
/-- An expression in which no other one is nested is read in every way to read those. -/
theorem readsOnly_of_flat {holds : Session → Prop} {expression : Parse Expr} {fault : CompileFault}
    {session after : Session} {e : Expr} (endsWell : session.EndsWell)
    (flat : ctx.conditional (Parse.failHere fault) session = .ok e after) :
    Parse.ReadsOnly holds ctx.conditional expression session := by
  have trivially : Persists fun _ _ => True := ⟨fun _ _ => trivial, fun _ _ _ _ => trivial⟩
  have fails (other : Parse Expr) (n : Nat) :
      (ofSame ctx trivially True).Nested n (Parse.failHere fault) other := by
    refine .of_same fun frame => ⟨?_, fun _ _ _ _ => .error (.inl trivial)⟩
    intro session token' endsWell framed bound paired start a after ran
    cases ran
  have same (other : Parse Expr) : ctx.conditional other session = .ok e after := by
    have carries (frame : ScopeFrame) (n : Nat) :
        (ofSame ctx trivially True).Carries (.guarded _ frame) frame n Known.nothing
          (ctx.conditional (Parse.failHere fault)) (ctx.conditional other) Eq :=
      conditional_carries fun m _ => fails other m
    exact (carries _ _).eq_ok trivial endsWell flat
  intro other _
  rw [Parse.found, Parse.found, same other, same expression]

/-- What a compile keeps holds throughout the reading of an expression. -/
theorem throughout_persisting {session : Session}
    (persisting : inv session.scopes session.store.nextParameter) (endsWell : session.EndsWell)
    (depth : Nat) :
    ctx.Throughout (fun point => inv point.scopes point.store.nextParameter ∧ point.EndsWell) depth
      session := by
  induction depth generalizing session with
  | zero => exact ⟨persisting, endsWell⟩
  | succ depth ih =>
      refine ⟨⟨persisting, endsWell⟩, fun other same => ?_⟩
      have each (m : Nat) := ctx.nested_of_eq kept
        (fun point held ends => same point (ih held ends)) m
      have carries (frame : ScopeFrame) (n : Nat) :
          (ofSame ctx kept False).Carries (.guarded _ frame) frame n Known.nothing
            (ctx.conditional (ctx.expression depth)) (ctx.conditional other) Eq :=
        conditional_carries fun m _ => each m
      exact (carries _ _).found_eq persisting endsWell

/-- What a compile keeps from the scope of the arguments of a call on holds throughout their
reading. -/
theorem arguments_persisting {session : Session} {element : Ty} (operation : Aggregate)
    (source : Expr) (name : String) (position : Nat)
    (persisting : inv
      (session.scopes.push (operation.argumentScope session.scopes.current
        (session.store.newParameter "" element).1)) (session.store.nextParameter + 1))
    (endsWell : session.EndsWell) (depth : Nat) :
    Parse.ReadsOnly
      (ctx.Throughout (fun point => inv point.scopes point.store.nextParameter ∧ point.EndsWell)
        depth)
      (fun expression => operation.parseCall ctx expression source element name position)
      (ctx.expression depth) session := by
  intro other same
  let begun : Session := { session with store := (session.store.newParameter "" element).2 }
  let frame := operation.argumentScope session.scopes.current
    (session.store.newParameter "" element).1
  have read : (Parse.withScope frame (Parse.argumentList other)).found begun =
      (Parse.withScope frame (Parse.argumentList (ctx.expression depth))).found begun := by
    refine Parse.found_withScope ?_
    have each (m : Nat) := ctx.nested_of_eq kept (fun point held ends =>
      same point (ctx.throughout_persisting kept held ends depth)) m
    have carries (frame : ScopeFrame) (n : Nat) :
        (ofSame ctx kept False).Carries (.guarded _ frame) frame n Known.nothing
          (Parse.argumentList (ctx.expression depth)) (Parse.argumentList other) Eq :=
      .argumentList fun m _ => (each m).guarded frame
    exact (carries _ _).found_eq persisting endsWell
  exact Parse.found_bind read _

omit kept in
/-- An expression that is found at one depth is found at every other one that is great enough. -/
theorem expression_eq_deeper {session after : Session} {e : Expr} {depth depth' : Nat}
    (endsWell : session.EndsWell) (less : session.rest.length < depth)
    (less' : session.rest.length < depth') (ran : ctx.expression depth session = .ok e after) :
    ctx.expression depth' session = .ok e after := by
  have trivially : Persists fun _ _ => True := ⟨fun _ _ => trivial, fun _ _ _ _ => trivial⟩
  have nested := ctx.expression_deeper trivially less less'
  have same := (nested.guarded _).found_eq trivial endsWell
  exact Parse.found_eq_ok.mp (same.trans (Parse.found_eq_ok.mpr ran))

omit kept in
/-- An expression ends in the scopes in which it starts. -/
theorem expression_follows {session after : Session} {e : Expr} {depth : Nat}
    (endsWell : session.EndsWell) (ran : ctx.expression depth session = .ok e after) :
    after.Follows session := by
  have trivially : Persists fun _ _ => True := ⟨fun _ _ => trivial, fun _ _ _ _ => trivial⟩
  have nested := ctx.expression_nested trivially depth session.rest.length
  exact (nested.guarded _).follows endsWell rfl (Nat.le_refl _) (.refl _) trivial ran

end CompileContext

end QueryTree
