import QueryTree.Proofs.Naming.Escape
import QueryTree.Proofs.Nesting.Text
import QueryTree.Proofs.Propagation.Text
import QueryTree.Proofs.Sequence.Reading

/-!
# Reading projections

A projection such as `new(Name as Label, Price * 2 as Total)` is read as a record with these parts,
if no two of their names match.  Its type has members of these names, or it is the type of bags.
-/

namespace QueryTree

open Parse

/-- The parts of a projection are read, each an expression with a name behind `as`, up to the
parenthesis that closes them. -/
inductive ReadsParts (expression : Parse Expr) : Session → List (String × Expr) → Session → Prop
  | last {start word : Session} {e : Expr} {name close : Token} {rest : List Token}
      (read : expression start = .ok e word) (isAs : word.current.isWord "as" = true)
      (behind : word.rest = name :: close :: rest) (isName : name.kind = .identifier)
      (closes : close.kind = .closeParen) :
      ReadsParts expression start [(unescapedName name.text, e)] (word.moveTo close rest)
  | next {start word close : Session} {e : Expr} {name comma first : Token} {rest : List Token}
      {parts : List (String × Expr)} (read : expression start = .ok e word)
      (isAs : word.current.isWord "as" = true)
      (behind : word.rest = name :: comma :: first :: rest) (isName : name.kind = .identifier)
      (separates : comma.kind = .comma)
      (others : ReadsParts expression (word.moveTo first rest) parts close) :
      ReadsParts expression start ((unescapedName name.text, e) :: parts) close

/-- A state with another store. -/
def Session.withStore (session : Session) (store : Store) : Session := { session with store := store }

/-- No two names of some parts match. -/
def Options.Separates (options : Options) (parts : List (String × Expr)) : Prop :=
  parts.Pairwise fun a b => options.sameName a.1 b.1 = false

theorem Ty.length_eq_of_sameAll {ts us : List Ty} (same : sameAll ts us = true) :
    ts.length = us.length := by
  induction ts generalizing us with
  | nil =>
      cases us with
      | nil => rfl
      | cons => cases same
  | cons t ts ih =>
      cases us with
      | nil => cases same
      | cons u us => exact congrArg (· + 1) (ih ((Bool.and_eq_true _ _).mp same).2)

namespace NewItem

/-- All items have names, and these are the named parts that they are. -/
def AreParts (items : List NewItem) (parts : List (String × Expr)) : Prop :=
  items.map (fun item => (item.name, item.value)) = parts.map fun part => (some part.1, part.2)

variable {expression : Parse Expr} {start word : Session} {e : Expr} {name next : Token}
  {rest : List Token} {items : List NewItem} {parts : List (String × Expr)}

theorem AreParts.named_eq (same : AreParts items parts) : named items = parts := by
  have some_parts : (parts.map fun part => (some part.1, part.2)).filterMap
      (fun part : Option String × Expr => part.1.map fun name => (name, part.2)) = parts := by
    rw [List.filterMap_map]
    exact List.filterMap_some
  rw [← some_parts, ← same, List.filterMap_map]
  rfl

/-- Parts whose names do not match are no duplicates. -/
theorem AreParts.duplicate?_eq_none {options : Options} {seen : List String}
    (same : AreParts items parts) (apart : options.Separates parts)
    (unseen : ∀ part ∈ parts, ∀ name ∈ seen, options.sameName name part.1 = false) :
    duplicate? options seen items = none := by
  induction items generalizing seen parts with
  | nil => rfl
  | cons item items ih =>
      cases parts with
      | nil => cases same
      | cons part parts =>
          obtain ⟨head, tail⟩ := List.cons.inj same
          obtain ⟨named, -⟩ := Prod.mk.inj head
          obtain ⟨first, others⟩ := List.pairwise_cons.mp apart
          have fresh : seen.any (options.sameName · part.1) = false :=
            List.any_eq_false.mpr fun name isSeen =>
              Bool.eq_false_iff.mp (unseen part List.mem_cons_self name isSeen)
          simp only [duplicate?, named, fresh, Bool.false_eq_true, if_false]
          refine ih tail others fun other isOther name isSeen => ?_
          obtain rfl | before := List.mem_cons.mp isSeen
          · exact first other isOther
          · exact unseen other (List.mem_cons_of_mem _ isOther) name before

theorem parse_eq (read : expression start = .ok e word) (isAs : word.current.isWord "as" = true)
    (behind : word.rest = name :: next :: rest) (isName : name.kind = .identifier) :
    NewItem.parse expression .inferred start =
      .ok ⟨some (unescapedName name.text), e, start.current.position⟩ (word.moveTo next rest) := by
  have checkAs : Parse.checkWord "as" word = .ok true word := congrArg (EStateM.Result.ok · _) isAs
  have identifier : Parse.identifier (word.moveTo name (next :: rest)) =
      .ok (unescapedName name.text) (word.moveTo name (next :: rest)) := identifier_eq isName
  rw [NewItem.parse, bind_eq (position_eq start), bind_eq read]
  simp only [reduceCtorEq, if_false]
  rw [bind_eq checkAs]
  simp only [if_true]
  rw [bind_eq (advance_eq behind), bind_eq identifier, bind_eq (advance_eq rfl)]
  rfl

theorem atEnd_eq (session : Session) :
    NewItem.atEnd session = .ok
      (session.current.kind == .closeParen || session.current.kind == .closeCurly) session := by
  rw [NewItem.atEnd, bind_eq (check_eq .closeParen _), bind_eq (check_eq .closeCurly _)]
  rfl

end NewItem

namespace CompileContext

variable {ctx : CompileContext} {depth : Nat} {session start stop close : Session} {e : Expr}
  {parts : List (String × Expr)} {items : List NewItem}

/-- No expression starts with what ends the parts of a construction. -/
theorem atEnd_of_expression (read : ctx.expression depth session = .ok e stop) :
    NewItem.atEnd session = .ok false session := by
  have noStart {kind : TokenKind} (isKind : session.current.kind = kind) :
      kind ≠ .closeParen ∧ kind ≠ .closeCurly := by
    constructor <;> rintro rfl
    all_goals
      cases depth with
      | zero => cases read
      | succ depth =>
          have failed : ctx.atom (ctx.expression depth) session =
              Parse.failHere (.expected .expression) session := by
            rw [atom, bind_eq (current_eq session)]
            simp only [isKind]
          -- where what fails would end does not count
          have refused := expression_readsTo_atom
            (ReadsTo.of_error failed (session.moveTo ⟨.finish, "", 0⟩ []))
            (isKind ▸ by decide) (isKind ▸ by decide) (Nat.le_refl 0)
          cases ((refused e stop).mp read).1
  rw [NewItem.atEnd_eq, beq_false_of_ne (noStart rfl).1, beq_false_of_ne (noStart rfl).2]
  rfl

/-- The word before a name ends an expression. -/
theorem EndsExpression.of_as {token : Token} (isAs : token.isWord "as" = true) :
    EndsExpression token := by
  have isKind : token.kind = .identifier := isWord_kind isAs
  have spelled : Text.foldAscii token.text = Text.foldAscii "as" := by
    simpa [Token.isWord, isKind, Text.sameIgnoringAsciiCase] using isAs
  have noOperator : Ends 1 token := by
    refine ⟨fun _ => ?_, fun m isLevel bound => ?_⟩
    · rw [Token.isWord, isKind, Text.sameIgnoringAsciiCase, spelled]
      decide
    · obtain rfl | rfl | rfl | rfl | rfl | rfl | rfl :
          m = 1 ∨ m = 2 ∨ m = 3 ∨ m = 4 ∨ m = 5 ∨ m = 6 ∨ m = 7 := by omega
      all_goals
        simp [operatorAt?, orOperator?, andOperator?, bitOperator?, comparisonOperator?,
          shiftOperator?, sumOperator?, productOperator?, isKind]
  exact ⟨noOperator, by simp [isKind], by simp [isKind], by simp [isKind]⟩

/-- The name of a parameter is a part of a projection. -/
theorem expression_name {params : List Parameter} {p : Parameter} {word : Token}
    {rest : List Token} (names : ctx.Names params) (isParam : p ∈ params)
    (isName : session.current.word = .name p.name) (behind : session.rest = word :: rest)
    (isAs : word.isWord "as" = true) :
    ctx.expression (depth + 1) session = .ok (.parameter p) (session.moveTo word rest) := by
  have isKind : session.current.kind = .identifier := congrArg Word.kind isName
  have noSuffix : word.kind.opensSuffix = false := isWord_kind isAs ▸ rfl
  have ends : EndsExpression word := .of_as isAs
  have unary : ctx.unary (ctx.expression depth) session =
      .ok (.parameter p) (session.moveTo word rest) := by
    rw [CompileContext.unary, bind_eq (tokensLeft_eq session),
      unaryFrom_eq_primary (isKind ▸ by decide) (isKind ▸ by decide)]
    exact primary_name_eq names isParam isName behind noSuffix
  exact (conditional_readsTo_disjunction
    (.of_ok (disjunction_of_unary unary ends.noOperator)) ends).eq_ok

section Parts

variable (reads : ReadsParts (ctx.expression depth) start parts close)

include reads

theorem readsParts_closes : close.current.kind = .closeParen := by
  induction reads with
  | last _ _ _ _ closes => exact closes
  | next _ _ _ _ _ _ ih => exact ih

/-- Each part takes tokens of its own. -/
theorem readsParts_length (endsWell : start.EndsWell) :
    parts.length ≤ start.rest.length ∧ close.EndsWell ∧
      close.rest.length ≤ start.rest.length := by
  have passes {start word : Session} {e : Expr} (endsWell : start.EndsWell)
      (read : ctx.expression depth start = .ok e word) :
      word.EndsWell ∧ word.rest.length ≤ start.rest.length :=
    endsWell.passes (expression_nests (fun _ _ => trivial) depth : Nests (fun _ => True) _) read
  induction reads with
  | @last start word _ name close rest read isAs behind isName closes =>
      obtain ⟨atWord, fewer⟩ := passes endsWell read
      have atName := atWord.moveTo (isWord_kind isAs ▸ by decide) behind
      have atClose := atName.moveTo (isName ▸ by decide) rfl
      rw [behind] at fewer
      simp only [List.length_cons, Session.moveTo_rest, List.length_nil] at fewer ⊢
      exact ⟨by omega, atClose, by omega⟩
  | @next start word close _ name comma first rest _ read isAs behind isName separates _ ih =>
      obtain ⟨atWord, fewer⟩ := passes endsWell read
      have atName := atWord.moveTo (isWord_kind isAs ▸ by decide) behind
      have atComma := atName.moveTo (isName ▸ by decide) rfl
      have atFirst := atComma.moveTo (separates ▸ by decide) rfl
      obtain ⟨enough, atClose, less⟩ := ih atFirst
      rw [behind] at fewer
      simp only [List.length_cons, Session.moveTo_rest] at fewer enough less ⊢
      exact ⟨by omega, atClose, by omega⟩

/-- The parts of a projection are read as items with these names. -/
theorem parseAll_eq {fuel : Nat} (enough : parts.length ≤ fuel) :
    ∃ items, NewItem.AreParts items parts ∧
      NewItem.parseAll (ctx.expression depth) .inferred fuel start = .ok items close := by
  induction reads generalizing fuel with
  | @last start word e name close rest read isAs behind isName closes =>
      obtain ⟨fuel, rfl⟩ := Nat.exists_eq_succ_of_ne_zero (Nat.ne_zero_of_lt enough)
      have noComma : Parse.check .comma (word.moveTo close rest) =
          .ok false (word.moveTo close rest) := by
        rw [check_eq, Session.moveTo_current, closes]
        rfl
      refine ⟨[⟨some (unescapedName name.text), e, start.current.position⟩], rfl, ?_⟩
      rw [NewItem.parseAll, bind_eq (atEnd_of_expression read)]
      simp only [Bool.false_eq_true, if_false]
      rw [bind_eq (NewItem.parse_eq read isAs behind isName), bind_eq noComma]
      rfl
  | @next start word close e name comma first rest parts read isAs behind isName separates _ ih =>
      obtain ⟨fuel, rfl⟩ := Nat.exists_eq_succ_of_ne_zero (Nat.ne_zero_of_lt enough)
      obtain ⟨items, same, others⟩ := ih (Nat.le_of_succ_le_succ enough)
      have isComma : Parse.check .comma (word.moveTo comma (first :: rest)) =
          .ok true (word.moveTo comma (first :: rest)) := by
        rw [check_eq, Session.moveTo_current, separates]
        rfl
      have advances : Parse.advance (word.moveTo comma (first :: rest)) =
          .ok () (word.moveTo first rest) := advance_eq rfl
      refine ⟨⟨some (unescapedName name.text), e, start.current.position⟩ :: items,
        congrArg ((some (unescapedName name.text), e) :: ·) same, ?_⟩
      rw [NewItem.parseAll, bind_eq (atEnd_of_expression read)]
      simp only [Bool.false_eq_true, if_false]
      rw [bind_eq (NewItem.parse_eq read isAs behind isName), bind_eq isComma]
      simp only [if_true]
      rw [bind_eq advances, bind_eq others]
      rfl

end Parts

/-- A type that a projection with some parts has: that of bags, or a record type with a member for
each part. -/
def ProjectionType (ctx : CompileContext) (parts : List (String × Expr)) (type : Ty) : Prop :=
  if ctx.env.options.dynamicRecords then type = .dynamic
  else ∃ id held, type = .record id (parts.map (·.1)) held ∧ held.length = parts.length

theorem projection_eq (same : NewItem.AreParts items parts) :
    ∃ type store, ctx.ProjectionType parts type ∧ ctx.projection items session =
      .ok (.record type .anonymous parts) (session.withStore store) := by
  rw [projection, same.named_eq]
  unfold ProjectionType
  split
  next => exact ⟨.dynamic, session.store, rfl, rfl⟩
  next =>
    obtain ⟨id, held, interned, types⟩ := session.store.records.intern_type
      (parts.map (·.1)) (parts.map (·.2.type))
    refine ⟨_, _, ⟨id, held, interned, ?_⟩, rfl⟩
    rw [Ty.length_eq_of_sameAll types, List.length_map]

/-- Behind `new` and its parts, whose names do not match, stands a record with these parts. -/
theorem construction_eq {opening first next : Token} {rest rest' : List Token}
    (behind : start.rest = opening :: first :: rest) (opens : opening.kind = .openParen)
    (reads : ReadsParts (ctx.expression depth) (start.moveTo first rest) parts close)
    (enough : parts.length ≤ rest.length) (apart : ctx.env.options.Separates parts)
    (behind' : close.rest = next :: rest') :
    ∃ type store, ctx.ProjectionType parts type ∧
      ctx.construction (ctx.expression depth) start = .ok (.record type .anonymous parts)
        ((close.moveTo next rest').withStore store) := by
  obtain ⟨items, same, all⟩ := parseAll_eq reads (Nat.le_succ_of_le enough)
  obtain ⟨type, store, isType, made⟩ := @projection_eq ctx (close.moveTo next rest') _ _ same
  refine ⟨type, store, isType, ?_⟩
  have atOpening : Parse.advance start = .ok () (start.moveTo opening (first :: rest)) :=
    advance_eq behind
  have opensParts : opensConstruction opening.kind = true := by rw [opens]; rfl
  have noType : ctx.newType? opening.position (start.moveTo opening (first :: rest)) =
      .ok none (start.moveTo opening (first :: rest)) := by
    rw [newType?, bind_eq (check_eq .identifier _), Session.moveTo_current, opens]
    rfl
  have noArray : arrayMark (start.moveTo opening (first :: rest)) =
      .ok false (start.moveTo opening (first :: rest)) := by
    rw [arrayMark, bind_eq (check_eq .openBracket _), Session.moveTo_current, opens]
    rfl
  have advances : Parse.advance (start.moveTo opening (first :: rest)) =
      .ok () (start.moveTo first rest) := advance_eq rfl
  have ended : NewItem.atEnd close = .ok true close := by
    rw [NewItem.atEnd_eq, readsParts_closes reads]
    rfl
  have noDuplicate : NewItem.duplicate? ctx.env.options [] items = none :=
    same.duplicate?_eq_none apart (by simp)
  rw [construction, bind_eq atOpening, bind_eq (position_eq _), bind_eq (current_eq _)]
  rw [Session.moveTo_current, if_pos opensParts, constructionBody, bind_eq noType, bind_eq noArray, bind_eq advances,
    bind_eq (tokensLeft_eq _)]
  simp only [Bool.false_eq_true, if_false, Option.isSome_none, Session.moveTo_rest]
  rw [bind_eq all, bind_eq ended]
  simp only [if_true]
  rw [bind_eq (advance_eq behind'), constructed]
  simp only [Bool.false_eq_true, if_false, noDuplicate]
  exact made

/-- A member of a projection is read, from `new` up to what follows the name of the member. -/
inductive ReadsProjected (ctx : CompileContext) (expression : Parse Expr) (start : Session)
    (parts : List (String × Expr)) : String → Session → Prop
  | intro {opening first dot name next : Token} {rest rest' : List Token} {close : Session}
      (isName : start.current.kind = .identifier)
      (isNew : ctx.env.keyword? start.current.text = some .new)
      (behind : start.rest = opening :: first :: rest) (opens : opening.kind = .openParen)
      (reads : ReadsParts expression (start.moveTo first rest) parts close)
      (behind' : close.rest = dot :: name :: next :: rest') (isDot : dot.kind = .dot)
      (isMember : name.kind = .identifier) (noCall : next.kind ≠ .openParen) :
      ReadsProjected ctx expression start parts (unescapedName name.text)
        (close.moveTo next rest')

theorem atom_eq_construction {expression : Parse Expr}
    (isName : start.current.kind = .identifier)
    (isNew : ctx.env.keyword? start.current.text = some .new) :
    ctx.atom expression start = ctx.construction expression start := by
  have visible : ctx.visibleKeyword? start.scopes.current start.current.text = some .new := by
    rw [visibleKeyword?, isNew]
    rfl
  rw [CompileContext.atom, bind_eq (current_eq start)]
  simp only [isName]
  rw [CompileContext.name, bind_eq (current_eq start), bind_eq (scope_eq start)]
  simp only [visible]
  rfl

/-- A member of a projection whose names do not match is read as the member of the record. -/
theorem ReadsProjected.unary_eq {member : String}
    (reads : ctx.ReadsProjected (ctx.expression depth) start parts member stop)
    (endsWell : start.EndsWell) (apart : ctx.env.options.Separates parts)
    (noSuffix : stop.current.kind.opensSuffix = false) :
    ∃ type store, ctx.ProjectionType parts type ∧ ∀ e,
      (∀ position, ctx.namedMember (.value (.record type .anonymous parts)) member position =
        .ok e) →
      ctx.unary (ctx.expression depth) start = .ok e (stop.withStore store) := by
  obtain @⟨opening, first, dot, name, next, rest, rest', close, isName, isNew, behind, opens, reads,
    behind', isDot, isMember, noCall⟩ := reads
  have atOpening := endsWell.moveTo (isName ▸ by decide) behind
  have atFirst := atOpening.moveTo (opens ▸ by decide) rfl
  obtain ⟨enough, -, -⟩ := readsParts_length reads atFirst
  obtain ⟨type, store, isType, made⟩ := construction_eq behind opens reads enough apart behind'
  refine ⟨type, store, isType, fun e found => ?_⟩
  have record : ctx.ReadsReceiver (ctx.expression depth) start (.record type .anonymous parts)
      ((close.moveTo dot (name :: next :: rest')).withStore store) :=
    .atom ((atom_eq_construction isName isNew).trans made)
  have access : ctx.memberAccess (ctx.expression depth) (.value (.record type .anonymous parts))
      ((close.moveTo name (next :: rest')).withStore store) =
        .ok e ((close.moveTo next rest').withStore store) := by
    rw [@memberAccess_eq_accessNamed ctx (ctx.expression depth)
        ((close.moveTo name (next :: rest')).withStore store) next rest' _ isMember rfl,
      accessNamed_eq_namedMember (.inr rfl) noCall]
    exact lift_eq (found _) _
  have member := ReadsReceiver.member record isDot rfl access (Nat.le_succ _)
  obtain ⟨fuel, enough, primary_eq⟩ := member.primary_eq
  obtain ⟨fuel, rfl⟩ := Nat.exists_eq_succ_of_ne_zero (Nat.ne_zero_of_lt enough)
  rw [record.unary_eq, primary_eq]
  exact suffixes_end noSuffix

end CompileContext

end QueryTree
