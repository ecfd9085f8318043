import QueryTree.Proofs.Naming.Folding
import QueryTree.Proofs.Projection.Reading
import Mathlib.Data.List.Pairwise

/-!
# Members of projections

A member of a projection has the value of the part whose name matches.  In a record type the member
is found by that name when the text is compiled; in a bag it is found when it is evaluated, and then
only if the written name differs from that of the part at most in the case of ASCII letters.
-/

namespace QueryTree

open QueryTree.Expr

namespace Named

variable {α : Type} {name other : String} {part : α} {held parts : List (String × α)}

theorem lookup_insert :
    (insert name part held).lookup other = if other = name then some part else held.lookup other := by
  by_cases isName : other = name
  · subst isName
    rw [if_pos rfl]
    induction held with
    | nil => exact List.lookup_cons_self
    | cons first rest ih =>
        obtain ⟨key, kept⟩ := first
        rw [insert]
        split
        next => exact List.lookup_cons_self
        next differs =>
          split
          next => exact List.lookup_cons_self
          next => rw [List.lookup_cons, beq_false_of_ne differs, ih]
  · have differs : (other == name) = false := beq_false_of_ne isName
    rw [if_neg isName]
    induction held with
    | nil => rw [insert, List.lookup_cons, differs]
    | cons first rest ih =>
        obtain ⟨key, kept⟩ := first
        rw [insert]
        split
        next same => rw [← same, List.lookup_cons, List.lookup_cons, differs]
        next =>
          split
          next => rw [List.lookup_cons, differs]
          next => rw [List.lookup_cons, List.lookup_cons, ih]

theorem lookup_foldl_insert (absent : ∀ p ∈ parts, p.1 ≠ name) :
    (parts.foldl (fun held p => insert p.1 p.2 held) held).lookup name = held.lookup name := by
  induction parts generalizing held with
  | nil => rfl
  | cons first rest ih =>
      rw [List.foldl_cons, ih fun p isPart => absent p (List.mem_cons_of_mem _ isPart),
        lookup_insert, if_neg (absent first List.mem_cons_self).symm]

/-- Parts with different names are found by their names. -/
theorem lookup_sort (apart : parts.Pairwise fun p q => p.1 ≠ q.1) (isPart : (name, part) ∈ parts) :
    (sort parts).lookup name = some part := by
  obtain ⟨front, back, rfl⟩ := List.append_of_mem isPart
  obtain ⟨-, behind, -⟩ := List.pairwise_append.mp apart
  have absent : ∀ p ∈ back, p.1 ≠ name := fun p isBehind =>
    ((List.pairwise_cons.mp behind).1 p isBehind).symm
  rw [sort, List.foldl_append, List.foldl_cons, lookup_foldl_insert absent, lookup_insert,
    if_pos rfl]

end Named

namespace Options

variable {options : Options} {left right : String} {α : Type}

theorem sameName_iff : options.sameName left right = true ↔
    options.fold left = options.fold right := beq_iff_eq

/-- Members with different names by the options, of which at most one matches a name. -/
theorem eq_of_sameName {members : List (String × α)} {p q : String × α}
    (apart : members.Pairwise fun a b => options.sameName a.1 b.1 = false) (isMember : p ∈ members)
    (isOther : q ∈ members) (same : options.sameName p.1 q.1 = true) : p = q := by
  by_contra differs
  have symm : Std.Symm fun a b : String × α => options.sameName a.1 b.1 = false :=
    ⟨fun a b differs => by rwa [sameName, BEq.comm]⟩
  exact Bool.eq_false_iff.mp (apart.forall isMember isOther differs) same

theorem ne_of_sameName_eq_false (differs : options.sameName left right = false) : left ≠ right := by
  rintro rfl
  rw [sameName, beq_self_eq_true] at differs
  cases differs

end Options

namespace Value

variable {options : Options} {members : List (String × Value)} {name written : String} {v : Value}

/-- The member of a bag that a name matches is found if the name differs from that of the member at
most in the case of ASCII letters. -/
theorem memberNamed_sort (apart : members.Pairwise fun a b => options.sameName a.1 b.1 = false)
    (isMember : (name, v) ∈ members) (same : options.sameName written name = true) :
    memberNamed written (Named.sort members) =
      if Text.sameIgnoringAsciiCase name written then v else null := by
  have found : (Named.sort members).lookup name = some v :=
    Named.lookup_sort (apart.imp Options.ne_of_sameName_eq_false) isMember
  have unique {p : String × Value} (isHeld : p ∈ Named.sort members)
      (matched : options.sameName p.1 written = true) : p = (name, v) :=
    Options.eq_of_sameName apart (Named.mem_of_mem_sort isHeld) isMember
      (Options.sameName_iff.mpr
        ((Options.sameName_iff.mp matched).trans (Options.sameName_iff.mp same)))
  by_cases isWritten : written = name
  · subst isWritten
    simp [memberNamed, found, Text.sameIgnoringAsciiCase]
  · have insensitive : options.caseSensitive = false := by
      refine Bool.eq_false_iff.mpr fun sensitive => isWritten ?_
      simpa [Options.sameName, Options.fold, sensitive] using same
    have byLetters {p : String × Value}
        (matched : Text.sameIgnoringAsciiCase p.1 written = true) :
        options.sameName p.1 written = true :=
      Options.sameName_of_ascii_iff.mpr insensitive _ _ matched
    have notFound : (Named.sort members).lookup written = none := by
      refine List.lookup_eq_none_iff.mpr fun p isHeld => ?_
      rw [bne_iff_ne]
      rintro rfl
      obtain rfl := unique isHeld (Options.sameName_iff.mpr rfl)
      exact isWritten rfl
    rw [memberNamed, notFound]
    cases first : (Named.sort members).find? fun p => Text.sameIgnoringAsciiCase p.1 written with
    | some p =>
        have matched : Text.sameIgnoringAsciiCase p.1 written = true := by
          simpa using List.find?_some first
        obtain rfl := unique (List.mem_of_find?_eq_some first) (byLetters matched)
        simp [matched]
    | none =>
        have isHeld : (name, v) ∈ Named.sort members := CompileContext.mem_of_lookup found
        have unmatched := List.find?_eq_none.mp first (name, v) isHeld
        simp only [Bool.not_eq_true] at unmatched
        simp [unmatched]

end Value

section Parts

variable {values : EvalContext} {parts : List (String × Expr)} {held : List (String × Value)}
  {name : String} {e : Expr}

/-- Values by the names of some parts, each the value of its part. -/
def HoldsParts (values : EvalContext) (parts : List (String × Expr))
    (held : List (String × Value)) : Prop :=
  List.Forall₂ (fun part member => member.1 = part.1 ∧ evaluate part.2 values = .ok member.2)
    parts held

theorem exists_holdsParts (all : ∀ part ∈ parts, ∃ v, evaluate part.2 values = .ok v) :
    ∃ held, HoldsParts values parts held ∧ evaluateMembers parts values = .ok held := by
  induction parts with
  | nil => exact ⟨[], .nil, rfl⟩
  | cons part parts ih =>
      obtain ⟨v, value⟩ := all part List.mem_cons_self
      obtain ⟨held, holds, others⟩ := ih fun part isPart => all part (List.mem_cons_of_mem _ isPart)
      refine ⟨(part.1, v) :: held, .cons ⟨rfl, value⟩ holds, ?_⟩
      rw [evaluateMembers, value, others]
      rfl

theorem HoldsParts.mem (holds : HoldsParts values parts held) (isPart : (name, e) ∈ parts) :
    ∃ v, (name, v) ∈ held ∧ evaluate e values = .ok v := by
  induction holds with
  | nil => cases isPart
  | @cons part member _ _ head _ ih =>
      obtain ⟨key, v⟩ := member
      obtain ⟨rfl, value⟩ := head
      obtain rfl | later := List.mem_cons.mp isPart
      · exact ⟨v, List.mem_cons_self, value⟩
      · obtain ⟨v, isMember, value⟩ := ih later
        exact ⟨v, List.mem_cons_of_mem _ isMember, value⟩

theorem HoldsParts.separates {options : Options} (holds : HoldsParts values parts held)
    (apart : options.Separates parts) :
    held.Pairwise fun a b => options.sameName a.1 b.1 = false := by
  have names : held.map (·.1) = parts.map (·.1) := by
    induction holds with
    | nil => rfl
    | cons head _ ih => rw [List.map_cons, List.map_cons, head.1, ih (List.pairwise_cons.mp apart).2]
  have apart' : (parts.map (·.1)).Pairwise fun a b => options.sameName a b = false :=
    List.pairwise_map.mpr apart
  rw [← names] at apart'
  exact List.pairwise_map.mp apart'

end Parts

namespace CompileContext

variable {ctx : CompileContext} {depth : Nat} {start stop : Session}
  {parts : List (String × Expr)} {name written : String} {e : Expr} {type : Ty}

/-- A member of a projection, read by a name that matches that of a part: an item of a bag by the
written name, or the member of a record that has the name of the part. -/
inductive Projects (ctx : CompileContext) (parts : List (String × Expr)) (name written : String) :
    Expr → Prop
  | item (isBag : ctx.env.options.dynamicRecords = true) :
      Projects ctx parts name written
        (indexByName .object (.record .dynamic .anonymous parts) written)
  | member {id : Nat} {held : List Ty} {result : Ty}
      (isRecord : ctx.env.options.dynamicRecords = false) :
      Projects ctx parts name written
        (.member result (.record (.record id (parts.map (·.1)) held) .anonymous parts) name)

/-- The members of a record type have the names of its parts. -/
theorem members_record {held : List Ty} {id : Nat} (arity : held.length = parts.length) {m : Member} :
    m ∈ (Ty.record id (parts.map (·.1)) held).members ctx.env.classes ↔
      ∃ i, ∃ (isPart : i < parts.length),
        m = .property parts[i].1 (held.get ⟨i, arity ▸ isPart⟩) := by
  rw [Ty.members, List.mem_iff_getElem]
  simp only [List.getElem_zipWith, List.getElem_map, List.length_zipWith, List.length_map, arity,
    Nat.min_self]
  constructor
  · rintro ⟨i, isPart, rfl⟩
    exact ⟨i, isPart, rfl⟩
  · rintro ⟨i, isPart, rfl⟩
    exact ⟨i, isPart, rfl⟩

theorem declaredMember?_value : ctx.declaredMember? (.value e) written =
    ((e.type.members ctx.env.classes).find? fun m =>
      m.isStatic == false && ctx.env.options.sameName m.name written).map fun m =>
        .member m.type e m.name := rfl

theorem declaredMember?_record (id : Nat) (form : RecordForm) {held : List Ty}
    (arity : held.length = parts.length) (apart : ctx.env.options.Separates parts)
    (isPart : (name, e) ∈ parts) (same : ctx.env.options.sameName written name = true) :
    ∃ result, ctx.declaredMember?
        (.value (.record (.record id (parts.map (·.1)) held) form parts)) written =
      some (.member result (.record (.record id (parts.map (·.1)) held) form parts) name) := by
  have matched : ∀ m : Member, (m.isStatic == false && ctx.env.options.sameName m.name written) =
      true ↔ m.isStatic = false ∧ ctx.env.options.sameName m.name name = true := by
    intro m
    rw [Bool.and_eq_true, beq_iff_eq, Options.sameName_iff, Options.sameName_iff,
      Options.sameName_iff.mp same]
  obtain ⟨i, bound, isName⟩ := List.mem_iff_getElem.mp isPart
  rw [declaredMember?_value, Expr.type]
  cases found : ((Ty.record id (parts.map (·.1)) held).members ctx.env.classes).find? fun m =>
      m.isStatic == false && ctx.env.options.sameName m.name written with
  | none =>
      have refused := List.find?_eq_none.mp found _ ((members_record arity).mpr ⟨i, bound, rfl⟩)
      exact absurd ((matched _).mpr ⟨rfl, by rw [isName]; exact Options.sameName_iff.mpr rfl⟩) refused
  | some m =>
      obtain ⟨j, isOther, rfl⟩ := (members_record arity).mp (List.mem_of_find?_eq_some found)
      obtain ⟨-, sameOther⟩ := (matched _).mp (by simpa using List.find?_some found)
      have isPart' := Options.eq_of_sameName apart (List.getElem_mem isOther) isPart sameOther
      refine ⟨held.get ⟨j, arity ▸ isOther⟩, ?_⟩
      rw [Option.map_some, isPart']
      rfl

theorem exists_projects (isType : ctx.ProjectionType parts type)
    (apart : ctx.env.options.Separates parts) (isPart : (name, e) ∈ parts)
    (same : ctx.env.options.sameName written name = true) :
    ∃ tree, ctx.Projects parts name written tree ∧
      ∀ position, ctx.namedMember (.value (.record type .anonymous parts)) written position =
        .ok tree := by
  cases dynamic : ctx.env.options.dynamicRecords with
  | true =>
      obtain rfl : type = .dynamic := by simpa [ProjectionType, dynamic] using isType
      exact ⟨_, .item dynamic, fun _ => rfl⟩
  | false =>
      obtain ⟨id, held, rfl, arity⟩ :
          ∃ id held, type = .record id (parts.map (·.1)) held ∧ held.length = parts.length := by
        simpa [ProjectionType, dynamic] using isType
      obtain ⟨result, declared⟩ := declaredMember?_record id .anonymous arity apart isPart same
      refine ⟨.member result (.record (.record id (parts.map (·.1)) held) .anonymous parts) name,
        .member dynamic, fun position => ?_⟩
      rw [namedMember, declared]
      rfl

theorem Projects.evaluate_eq {tree : Expr} {values : EvalContext} {held : List (String × Value)}
    {v : Value} (projects : ctx.Projects parts name written tree)
    (isHeld : evaluateMembers parts values = .ok held)
    (apart : held.Pairwise fun a b => ctx.env.options.sameName a.1 b.1 = false)
    (isMember : (name, v) ∈ held) (same : ctx.env.options.sameName written name = true) :
    evaluate tree values =
      if ctx.env.options.dynamicRecords && !Text.sameIgnoringAsciiCase name written then .ok .null
      else .ok v := by
  cases projects with
  | item isBag =>
      rw [indexByName, evaluate, evaluate, isHeld]
      change Except.ok (Value.memberNamed written (Named.sort held)) = _
      rw [Value.memberNamed_sort apart isMember same, isBag]
      cases Text.sameIgnoringAsciiCase name written <;> rfl
  | member isRecord =>
      rw [evaluate, evaluate, isHeld, isRecord]
      change Except.ok (Value.memberNamed name (Named.sort held)) = _
      rw [Value.memberNamed_sort apart isMember (Options.sameName_iff.mpr rfl)]
      simp [Text.sameIgnoringAsciiCase]

/-- A member of a projection has the value of the part whose name matches, wherever it is read: in a
record type always, in a bag if the names differ at most in the case of ASCII letters.  Otherwise a
bag has no such member, and what is read is null. -/
theorem ReadsProjected.keeps_part
    (reads : ctx.ReadsProjected (ctx.expression depth) start parts written stop)
    (endsWell : start.EndsWell) (apart : ctx.env.options.Separates parts)
    (isPart : (name, e) ∈ parts) (same : ctx.env.options.sameName written name = true)
    (noSuffix : stop.current.kind.opensSuffix = false) :
    ∃ tree store, ctx.unary (ctx.expression depth) start = .ok tree (stop.withStore store) ∧
      (stop.current.kind.grip ≤ 0 →
        ctx.expression (depth + 1) start = .ok tree (stop.withStore store)) ∧
      ∀ values, (∀ part ∈ parts, ∃ v, evaluate part.2 values = .ok v) →
        evaluate tree values =
          if ctx.env.options.dynamicRecords && !Text.sameIgnoringAsciiCase name written then
            .ok .null
          else evaluate e values := by
  obtain ⟨type, store, isType, read⟩ := reads.unary_eq endsWell apart noSuffix
  obtain ⟨tree, projects, found⟩ := exists_projects isType apart isPart same
  have unary := read tree found
  refine ⟨tree, store, unary, expression_of_unary unary, fun values all => ?_⟩
  obtain ⟨held, holds, isHeld⟩ := exists_holdsParts all
  obtain ⟨v, isMember, value⟩ := holds.mem isPart
  rw [projects.evaluate_eq isHeld (holds.separates apart) isMember same, value]

end CompileContext

section Example

/-- A number. -/
def countParam : Parameter := ⟨0, "x", .int32⟩

/-- What texts over the number are compiled with, where projections are bags. -/
def overCount : CompileContext :=
  ⟨.of { Options.initial with dynamicRecords := true } .empty .initial,
    [("x", .parameter countParam)], []⟩

/-- The tokens of `new(x as É, x as b).B` behind the first one. -/
def countTokens : List Token :=
  [⟨.openParen, "(", 3⟩, ⟨.identifier, "x", 4⟩, ⟨.identifier, "as", 6⟩, ⟨.identifier, "É", 9⟩,
    ⟨.comma, ",", 10⟩, ⟨.identifier, "x", 12⟩, ⟨.identifier, "as", 14⟩, ⟨.identifier, "b", 17⟩,
    ⟨.closeParen, ")", 18⟩, ⟨.dot, ".", 19⟩, ⟨.identifier, "B", 20⟩, ⟨.finish, "", 21⟩]

/-- The state before these tokens. -/
def beforeCount : Session := CompileContext.namedSession "new" countTokens

theorem overCount_names : overCount.Names [countParam] :=
  List.forall_mem_singleton.mpr ⟨(Environment.keyword?_of "x").trans rfl, rfl⟩

theorem overCount_new : overCount.env.keyword? "new" = some .new :=
  (Environment.keyword?_of "new").trans rfl

/-- A member of a bag is found by the other case of its letter. -/
theorem keeps_part_count :
    ∃ tree after, overCount.expression (1 + 1) beforeCount = .ok tree after ∧
      ∀ now n, evaluate tree ((EvalContext.initial now).bind countParam (.int32 n)) =
        .ok (.int32 n) := by
  have first : overCount.expression 1
      (beforeCount.moveTo ⟨.identifier, "x", 4⟩ (countTokens.drop 2)) =
        .ok (.parameter countParam)
          (beforeCount.moveTo ⟨.identifier, "as", 6⟩ (countTokens.drop 3)) :=
    CompileContext.expression_name overCount_names List.mem_cons_self rfl rfl rfl
  have second : overCount.expression 1
      (beforeCount.moveTo ⟨.identifier, "x", 12⟩ (countTokens.drop 6)) =
        .ok (.parameter countParam)
          (beforeCount.moveTo ⟨.identifier, "as", 14⟩ (countTokens.drop 7)) :=
    CompileContext.expression_name overCount_names List.mem_cons_self rfl rfl rfl
  have parts : ReadsParts (overCount.expression 1)
      (beforeCount.moveTo ⟨.identifier, "x", 4⟩ (countTokens.drop 2))
      [("É", .parameter countParam), ("b", .parameter countParam)]
      (beforeCount.moveTo ⟨.closeParen, ")", 18⟩ (countTokens.drop 9)) :=
    .next first rfl rfl rfl rfl (.last second rfl rfl rfl rfl)
  have reads : overCount.ReadsProjected (overCount.expression 1) beforeCount
      [("É", .parameter countParam), ("b", .parameter countParam)] "B"
      (beforeCount.moveTo ⟨.finish, "", 21⟩ []) :=
    @CompileContext.ReadsProjected.intro overCount (overCount.expression 1) beforeCount _
      ⟨.openParen, "(", 3⟩ ⟨.identifier, "x", 4⟩ ⟨.dot, ".", 19⟩ ⟨.identifier, "B", 20⟩
      ⟨.finish, "", 21⟩ (countTokens.drop 2) []
      (beforeCount.moveTo ⟨.closeParen, ")", 18⟩ (countTokens.drop 9))
      rfl overCount_new rfl rfl parts rfl rfl rfl (by decide)
  have endsWell : beforeCount.EndsWell := by
    simp [Session.EndsWell, EndsWell, beforeCount, CompileContext.namedSession, countTokens]
  have apart : overCount.env.options.Separates
      [("É", .parameter countParam), ("b", .parameter countParam)] :=
    List.pairwise_pair.mpr (by decide +kernel)
  obtain ⟨tree, store, -, whole, value⟩ := reads.keeps_part endsWell apart
    (List.mem_cons_of_mem _ List.mem_cons_self) (by decide +kernel) rfl
  have ends : (beforeCount.moveTo ⟨.finish, "", 21⟩ []).current.kind.grip ≤ 0 := Nat.le_refl 0
  refine ⟨tree, (beforeCount.moveTo ⟨.finish, "", 21⟩ []).withStore store, whole ends, ?_⟩
  intro now n
  have lookup : evaluate (.parameter countParam)
      ((EvalContext.initial now).bind countParam (.int32 n)) = .ok (.int32 n) := by
    rw [evaluate, EvalContext.lookup, EvalContext.bind, List.lookup_cons_self]
    rfl
  rw [value _ (by simp [lookup]), lookup]
  exact if_neg (by decide +kernel)

/-- A bag has no member where the letter of another case is none of ASCII, though a record has. -/
theorem bag_misses_letter :
    let isNull (areBags : Bool) : Option Bool :=
      match (compileFunction (.of { Options.initial with dynamicRecords := areBags } .empty .initial)
        [countParam] none "new(x as É).é" [] ⟨.empty, 1⟩).1 with
      | .ok f =>
        match call f .minValue [.int32 7] with
        | .ok v => some v.isNull
        | .error _ => none
      | .error _ => none
    Options.initial.sameName "é" "É" = true ∧ isNull true = some true ∧
      isNull false = some false := by
  decide +kernel

end Example

end QueryTree
