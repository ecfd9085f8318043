import QueryTree.Proofs.Compile.Text
import QueryTree.Proofs.Parallel.Point

/-!
# The elements around a point

At a point of a compile the scopes are those that the calls around it enter.  So the words for
elements stand for the elements of the functions around the point, except in an argument list that
sees the outer scope: there the word for the element around the current one stands for the current
one.
-/

namespace QueryTree

/-- A call of a sequence operation around a point, with the parameter that is made for its
elements. -/
structure EnclosingCall where
  operation : Aggregate
  element : Parameter

namespace EnclosingCall

/-- Whether the arguments of a call are no functions of its elements. -/
def seesOuterScope (call : EnclosingCall) : Bool := call.operation.seesOuterScope

variable (it : Option Parameter)

/-- The scopes at a point inside calls, of which the innermost one comes first. -/
def scopes : List EnclosingCall → ScopeStack
  | [] => .of (.outermost it)
  | call :: calls =>
    (scopes calls).push (call.operation.argumentScope (scopes calls).current call.element)

/-- The elements of the functions around a point, of which the innermost one comes first. -/
def elements : List EnclosingCall → List Parameter
  | [] => it.toList
  | call :: calls => if call.seesOuterScope then elements calls else call.element :: elements calls

/-- The parameters that are made around a point. -/
def parameters (calls : List EnclosingCall) : List Parameter :=
  calls.map element ++ it.toList

variable {it} {calls : List EnclosingCall}

theorem elements_sublist : List.Sublist (elements it calls) (parameters it calls) := by
  induction calls with
  | nil => exact .refl _
  | cons call calls ih =>
      rw [elements]
      split
      next => exact ih.cons _
      next => exact ih.cons_cons _

/-- The current element is that of the innermost function. -/
theorem scopes_it : (scopes it calls).current.it = (elements it calls).head? := by
  induction calls with
  | nil => cases it <;> rfl
  | cons call calls ih =>
      rw [scopes, ScopeStack.current_push, Aggregate.argumentScope, elements, seesOuterScope]
      split
      next => exact ih
      next => rfl

/-- The element around the current one is that of the next function, except in the argument list of
a call that sees the outer scope. -/
theorem scopes_parent : (scopes it calls).current.parent =
    if calls.head?.any seesOuterScope then (scopes it calls).current.it
    else (elements it calls)[1]? := by
  cases calls with
  | nil => cases it <;> rfl
  | cons call calls =>
      rw [scopes, ScopeStack.current_push, Aggregate.argumentScope, elements, seesOuterScope,
        List.head?_cons, Option.any_some, seesOuterScope]
      split
      next => rfl
      next => rw [List.getElem?_cons_succ, ← List.head?_eq_getElem?, ← scopes_it]; rfl

end EnclosingCall

open EnclosingCall (elements parameters)

/-- A point of a compile inside calls. -/
structure Session.Inside (session : Session) (it : Option Parameter) (calls : List EnclosingCall) :
    Prop where
  scopes : session.scopes = EnclosingCall.scopes it calls
  distinct : (parameters it calls).Nodup
  numbered : ∀ p ∈ parameters it calls, p.id < session.store.nextParameter
  endsWell : session.EndsWell

/-- Inside of calls, and perhaps of further ones, the parameters around a point are distinct and
numbered. -/
def EnclosingCall.Within (it : Option Parameter) (calls : List EnclosingCall) (stack : ScopeStack)
    (number : Nat) : Prop :=
  ∃ further, stack = scopes it (further ++ calls) ∧ (parameters it (further ++ calls)).Nodup ∧
    ∀ p ∈ parameters it (further ++ calls), p.id < number

variable {it : Option Parameter} {calls : List EnclosingCall} {session : Session}

/-- A parameter that is made anew is none of those made before. -/
theorem EnclosingCall.parameters_cons {number : Nat} (distinct : (parameters it calls).Nodup)
    (numbered : ∀ p ∈ parameters it calls, p.id < number) (operation : Aggregate) (name : String)
    (type : Ty) :
    (parameters it (⟨operation, ⟨number, name, type⟩⟩ :: calls)).Nodup ∧
      ∀ p ∈ parameters it (⟨operation, ⟨number, name, type⟩⟩ :: calls), p.id < number + 1 := by
  refine ⟨List.nodup_cons.mpr ⟨fun isMember => ?_, distinct⟩, List.forall_mem_cons.mpr ⟨?_, ?_⟩⟩
  · exact Nat.lt_irrefl _ (numbered _ isMember)
  · exact Nat.lt_succ_self _
  · exact fun p isMember => Nat.lt_succ_of_lt (numbered p isMember)

theorem EnclosingCall.within_persists : Persists (Within it calls) where
  later := by
    rintro stack number number' ⟨further, scopes, distinct, numbered⟩ le
    exact ⟨further, scopes, distinct, fun p isMember => Nat.lt_of_lt_of_le (numbered p isMember) le⟩
  enter := by
    rintro stack number ⟨further, rfl, distinct, numbered⟩ operation name type
    obtain ⟨distinct, numbered⟩ := parameters_cons distinct numbered operation name type
    exact ⟨⟨operation, ⟨number, name, type⟩⟩ :: further, rfl, distinct, numbered⟩

namespace Session.Inside

theorem within (inside : session.Inside it calls) :
    EnclosingCall.Within it calls session.scopes session.store.nextParameter :=
  ⟨[], inside.scopes, inside.distinct, inside.numbered⟩

theorem of_within {point : Session}
    (within : EnclosingCall.Within it calls point.scopes point.store.nextParameter ∧
      point.EndsWell) :
    ∃ further, point.Inside it (further ++ calls) := by
  obtain ⟨⟨further, scopes, distinct, numbered⟩, endsWell⟩ := within
  exact ⟨further, scopes, distinct, numbered, endsWell⟩

/-- Behind a step that starts inside calls a compile is inside the same calls. -/
theorem follows {after : Session} (inside : session.Inside it calls)
    (follows : after.Follows session) : after.Inside it calls where
  scopes := follows.scopes.trans inside.scopes
  distinct := inside.distinct
  numbered p isMember := Nat.lt_of_lt_of_le (inside.numbered p isMember) follows.parameters_le
  endsWell := follows.endsWell

end Session.Inside

namespace CompileContext

variable {ctx : CompileContext}

/-- The states in which a compile begins with the expressions of a text: with the first one where it
starts, and with each of the following ones behind the comma that follows a sort key. -/
inductive Begins (ctx : CompileContext) (start : Session) : Session → Prop where
  | first : Begins ctx start start
  | next {point after comma next : Session} {selector : Expr} {ascending : Bool}
      (begins : Begins ctx start point) (read : ctx.wholeExpression point = .ok selector after)
      (directed : direction after = .ok ascending comma)
      (isComma : comma.current.kind = .comma) (passed : Parse.advance comma = .ok () next) :
      Begins ctx start next

theorem direction_follows {after : Session} {ascending : Bool} (endsWell : session.EndsWell)
    (ran : direction session = .ok ascending after) : after.Follows session := by
  have passed {found : Bool}
      (ran : (do Parse.advance; return found : Parse Bool) session = .ok ascending after) :
      after.Follows session := by
    obtain ⟨_, middle, passed, ran⟩ := Parse.bind_eq_ok_iff.mp ran
    obtain ⟨-, rfl⟩ := EStateM.Result.ok.inj ran
    exact Session.advance_follows endsWell passed
  rw [direction, Parse.bind_eq (Parse.current_eq session)] at ran
  split at ran
  next => exact passed ran
  next =>
    split at ran
    next => exact passed ran
    next =>
      obtain ⟨-, rfl⟩ := EStateM.Result.ok.inj ran
      exact .refl endsWell

/-- The expressions of a text begin inside the calls in which the first one begins. -/
theorem Begins.inside {start point : Session} (inside : start.Inside it calls)
    (begins : ctx.Begins start point) : point.Inside it calls := by
  induction begins with
  | first => exact inside
  | next _ read directed _ passed before =>
      rw [ctx.wholeExpression_eq] at read
      have behind := before.follows (ctx.expression_follows before.endsWell read)
      have directed := behind.follows (direction_follows behind.endsWell directed)
      exact directed.follows (Session.advance_follows directed.endsWell passed)

end CompileContext

/-- A compile starts outside of all calls. -/
theorem Session.start_inside {text : String} {separator : Char} {params : List Parameter}
    {store : Store} (numbered : ∀ p ∈ params, p.id < store.nextParameter)
    (start : Session.start (Scan.ofText text separator) params store = .ok session) :
    session.Inside (initialElement? params) [] where
  scopes := congrArg Surroundings.scopes (start_surroundings start)
  distinct := by
    cases initialElement? params with
    | none => exact .nil
    | some p => exact List.nodup_singleton p
  numbered p isMember := by
    rw [start_store start]
    exact numbered p (initialElement?_mem (Option.mem_toList.mp isMember))
  endsWell := start_endsWell start

/-- What a compile does at a point inside calls. -/
structure Session.Encloses (point : Session) (ctx : CompileContext) (it : Option Parameter)
    (calls : List EnclosingCall) : Prop where
  distinct : (elements it calls).Nodup
  /-- The current element is that of the innermost function. -/
  it_eq : point.scopes.current.it = (elements it calls).head?
  /-- The element around the current one is that of the next function.  In an argument list that
  sees the outer scope it is the current one again. -/
  parent_eq : point.scopes.current.parent =
    if calls.head?.any EnclosingCall.seesOuterScope then point.scopes.current.it
    else (elements it calls)[1]?
  /-- An expression and all those that are nested in it are read inside the same calls, and perhaps
  further ones. -/
  nested : ∀ depth,
    ctx.Throughout (fun inner => ∃ further, inner.Inside it (further ++ calls)) depth point
  /-- The arguments of a call are read inside this call as well. -/
  arguments : ∀ depth (operation : Aggregate) source element name position,
    Parse.ReadsOnly
      (ctx.Throughout (fun inner => ∃ further, inner.Inside it
        (further ++ ⟨operation, (point.store.newParameter "" element).1⟩ :: calls)) depth)
      (fun expression => operation.parseCall ctx expression source element name position)
      (ctx.expression depth) point
  /-- Behind an expression a compile is inside the same calls as before. -/
  behind : ∀ depth e after, ctx.expression depth point = .ok e after → after.Inside it calls

theorem Session.Inside.encloses {ctx : CompileContext} {point : Session}
    (inside : point.Inside it calls) : point.Encloses ctx it calls where
  distinct := inside.distinct.sublist EnclosingCall.elements_sublist
  it_eq := by
    rw [inside.scopes]
    exact EnclosingCall.scopes_it
  parent_eq := by
    rw [inside.scopes]
    exact EnclosingCall.scopes_parent
  nested depth := (ctx.throughout_persisting EnclosingCall.within_persists inside.within
    inside.endsWell depth).mono fun _ => Session.Inside.of_within
  arguments depth operation source element name position := by
    obtain ⟨distinct, numbered⟩ :=
      EnclosingCall.parameters_cons inside.distinct inside.numbered operation "" element
    refine (ctx.arguments_persisting EnclosingCall.within_persists operation source name position
      ⟨[], ?_, distinct, numbered⟩ inside.endsWell depth).mono ?_
    · rw [inside.scopes]; rfl
    · exact fun _ throughout => throughout.mono fun _ => Session.Inside.of_within
  behind _ _ _ ran := inside.follows (ctx.expression_follows inside.endsWell ran)

namespace CompileContext

variable {ctx : CompileContext}

/-- The elements around a point, at every point of every compile.  Each expression of a text begins
outside of all calls.  Inside calls the current element is that of the innermost function around the
point, and the one around it is a different one, that of the next function, or none if there is
none; but in the argument list of `Contains`, `Skip` or `Take` it is the current one again.  Nested
expressions are read inside the same calls and perhaps further ones, those in the arguments of a
call also inside this call. -/
theorem parent_encloses {text : String} {separator : Char} {params : List Parameter} {store : Store}
    {start : Session} (numbered : ∀ p ∈ params, p.id < store.nextParameter)
    (started : Session.start (Scan.ofText text separator) params store = .ok start) :
    let it := Session.initialElement? params
    (∀ point, ctx.Begins start point → point.Inside it []) ∧
      ∀ calls (point : Session), point.Inside it calls → point.Encloses ctx it calls :=
  ⟨fun _ begins => begins.inside (Session.start_inside numbered started),
    fun _ _ inside => inside.encloses⟩

section Example

/-- A sequence of integers as the element. -/
def numbersElement : List Parameter := [⟨0, "", .array .int32⟩]

/-- Where there is no element around the current one, there is one in the arguments of a call. -/
theorem parent_encloses_contains :
    let env : Environment := .of .initial .empty .initial
    let ctx : CompileContext := ⟨env, [], []⟩
    let text := "Any(it in (1)) || Contains(parent)"
    ((compileExpr env numbersElement none text [] ⟨.empty, 1⟩).1.toOption.isSome = true ∧
        (compileExpr env numbersElement none "parent" [] ⟨.empty, 1⟩).1.toOption.isSome = false) ∧
      ∃ start,
        Session.start (Scan.ofText text '.') numbersElement ⟨.empty, 1⟩ = .ok start ∧
        (∀ p ∈ numbersElement, p.id < 1) ∧
        (∀ point, ctx.Begins start point → point.Inside (some ⟨0, "", .array .int32⟩) []) ∧
        ∀ calls (point : Session), point.Inside (some ⟨0, "", .array .int32⟩) calls →
          point.Encloses ctx (some ⟨0, "", .array .int32⟩) calls := by
  intro env ctx text
  refine ⟨by decide +kernel, ?_⟩
  obtain ⟨start, started, -⟩ := exists_ok_of_any
    (show (Session.start (Scan.ofText "Any(it in (1)) || Contains(parent)" '.') numbersElement
      ⟨.empty, 1⟩).toOption.any (fun _ => true) = true by decide +kernel)
  have numbered : ∀ p ∈ numbersElement, p.id < 1 := by decide
  exact ⟨start, started, numbered, parent_encloses numbered started⟩

end Example

end CompileContext

end QueryTree
