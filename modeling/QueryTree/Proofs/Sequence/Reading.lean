import QueryTree.Proofs.Membership.Text
import QueryTree.Proofs.Compile.Primary

/-!
# Reading calls of sequence operations

How a call such as `Orders.Sum(Total)` is read, whatever it stands in: the sequence up to a dot, the
name of the operation, and the arguments, which are read in a scope of their own.
-/

namespace QueryTree

open Parse

namespace CompileContext

variable {ctx : CompileContext} {expression : Parse Expr} {start stop dot : Session} {e e' : Expr}

/-- An expression is read with all members and indices behind it up to a place.  None of these has
more tokens left at its end than at its beginning. -/
inductive ReadsReceiver (ctx : CompileContext) (expression : Parse Expr) (start : Session) :
    Expr → Session → Prop where
  | atom {e : Expr} {stop : Session} (read : ctx.atom expression start = .ok e stop) :
      ReadsReceiver ctx expression start e stop
  | member {e e' : Expr} {dot stop : Session} {token : Token} {rest : List Token}
      (before : ReadsReceiver ctx expression start e dot) (isDot : dot.current.kind = .dot)
      (behind : dot.rest = token :: rest)
      (read : ctx.memberAccess expression (.value e) (dot.moveTo token rest) = .ok e' stop)
      (passes : stop.rest.length ≤ rest.length) : ReadsReceiver ctx expression start e' stop
  | index {e e' : Expr} {bracket stop : Session}
      (before : ReadsReceiver ctx expression start e bracket)
      (opens : bracket.current.kind = .openBracket)
      (read : ctx.elementAccess expression e bracket = .ok e' stop)
      (passes : stop.rest.length < bracket.rest.length) : ReadsReceiver ctx expression start e' stop

/-- The state before the first token of a text. -/
theorem start_eq {text : String} {params : List Parameter} {store : Store} {token : Token}
    {tokens : List Token} (scanned : (Scan.ofText text '.').tokens = token :: tokens)
    (complete : (Scan.ofText text '.').failure.isNone = true)
    (named : Session.initialElement? params = none) :
    Session.start (Scan.ofText text '.') params store =
      .ok ⟨token, tokens, none, .of (.outermost none), .empty, store⟩ := by
  rw [Session.start, scanned, Option.isNone_iff_eq_none.mp complete, named]

/-- The state before a text that starts with a name. -/
def namedSession (name : String) (tokens : List Token) : Session :=
  ⟨⟨.identifier, name, 0⟩, tokens, none, .of (.outermost none), .empty, .initial⟩

section Suffix

variable {fuel : Nat} {token : Token} {rest : List Token}

theorem suffixes_dot (isDot : dot.current.kind = .dot) (behind : dot.rest = token :: rest) :
    ctx.suffixes expression (fuel + 1) e dot =
      (ctx.memberAccess expression (.value e) >>= ctx.suffixes expression fuel)
        (dot.moveTo token rest) := by
  rw [suffixes, bind_eq (current_eq dot)]
  simp only [isDot]
  rw [bind_eq (advance_eq behind)]

theorem suffixes_bracket (opens : start.current.kind = .openBracket) :
    ctx.suffixes expression (fuel + 1) e start =
      (ctx.elementAccess expression e >>= ctx.suffixes expression fuel) start := by
  rw [suffixes, bind_eq (current_eq start)]
  simp only [opens]

end Suffix

/-- A unary expression is a whole disjunction where no operator follows. -/
theorem disjunction_of_unary (read : ctx.unary expression start = .ok e stop)
    (ends : Ends 1 stop.current) : ctx.disjunction expression start = .ok e stop :=
  (levelAt_eq_of_stopsAt (n := 1) (m := 8) (Nat.le_refl 1) (by decide) (Nat.le_refl 8)
    (.of_ok read ends)).trans read

/-- A disjunction is refused where its first operand is. -/
theorem disjunction_of_unary_error {error : CompileError}
    (failed : ctx.unary expression start = .error error stop) :
    ctx.disjunction expression start = .error error stop :=
  (levelAt_eq_of_stopsAt (n := 1) (m := 8) (Nat.le_refl 1) (by decide) (Nat.le_refl 8)
    (.of_error failed)).trans failed

namespace ReadsReceiver

/-- Behind a receiver a primary expression goes on with what may follow it. -/
theorem primary_eq (reads : ctx.ReadsReceiver expression start e stop) :
    ∃ fuel, stop.rest.length < fuel ∧
      ctx.primary expression start = ctx.suffixes expression fuel e stop := by
  induction reads with
  | @atom e stop read =>
      refine ⟨stop.rest.length + 1, Nat.lt_succ_self _, ?_⟩
      rw [primary, bind_eq read, bind_eq (tokensLeft_eq stop)]
  | member before isDot behind read passes ih =>
      obtain ⟨fuel, enough, primary_eq⟩ := ih
      obtain ⟨fuel, rfl⟩ := Nat.exists_eq_succ_of_ne_zero (Nat.ne_zero_of_lt enough)
      rw [behind, List.length_cons] at enough
      refine ⟨fuel, by omega, ?_⟩
      rw [primary_eq, suffixes_dot isDot behind, bind_eq read]
  | index before opens read passes ih =>
      obtain ⟨fuel, enough, primary_eq⟩ := ih
      obtain ⟨fuel, rfl⟩ := Nat.exists_eq_succ_of_ne_zero (Nat.ne_zero_of_lt enough)
      refine ⟨fuel, by omega, ?_⟩
      rw [primary_eq, suffixes_bracket opens, bind_eq read]

theorem exists_atom (reads : ctx.ReadsReceiver expression start e stop) :
    ∃ first after, ctx.atom expression start = .ok first after := by
  induction reads with
  | atom read => exact ⟨_, _, read⟩
  | member _ _ _ _ _ ih => exact ih
  | index _ _ _ _ ih => exact ih

/-- A receiver does not start with a sign. -/
theorem unary_eq (reads : ctx.ReadsReceiver expression start e stop) :
    ctx.unary expression start = ctx.primary expression start := by
  obtain ⟨first, after, read⟩ := reads.exists_atom
  have sign {kind : TokenKind} (isKind : start.current.kind = kind) :
      kind ≠ .minus ∧ kind ≠ .exclamation := by
    constructor <;> rintro rfl
    all_goals
      rw [CompileContext.atom, bind_eq (current_eq start)] at read
      simp only [isKind] at read
      cases read
  rw [unary, bind_eq (tokensLeft_eq start)]
  exact unaryFrom_eq_primary (sign rfl).1 (sign rfl).2

variable {name : Token} {rest : List Token}

/-- A member of a receiver is a whole disjunction where no operator follows. -/
theorem disjunction_eq (reads : ctx.ReadsReceiver expression start e dot)
    (isDot : dot.current.kind = .dot) (behind : dot.rest = name :: rest)
    (read : ctx.memberAccess expression (.value e) (dot.moveTo name rest) = .ok e' stop)
    (noSuffix : stop.current.kind.opensSuffix = false) (passes : stop.rest.length ≤ rest.length)
    (ends : Ends 1 stop.current) : ctx.disjunction expression start = .ok e' stop := by
  obtain ⟨fuel, enough, primary_eq⟩ :=
    (ReadsReceiver.member reads isDot behind read passes).primary_eq
  obtain ⟨fuel, rfl⟩ := Nat.exists_eq_succ_of_ne_zero (Nat.ne_zero_of_lt enough)
  refine disjunction_of_unary ?_ ends
  rw [reads.unary_eq, primary_eq, suffixes_end noSuffix]

/-- A text is refused where the first member behind a receiver is. -/
theorem disjunction_refused {error : CompileError}
    (reads : ctx.ReadsReceiver expression start e dot) (isDot : dot.current.kind = .dot)
    (behind : dot.rest = name :: rest)
    (failed : ctx.memberAccess expression (.value e) (dot.moveTo name rest) = .error error stop) :
    ctx.disjunction expression start = .error error stop := by
  obtain ⟨fuel, enough, primary_eq⟩ := reads.primary_eq
  obtain ⟨fuel, rfl⟩ := Nat.exists_eq_succ_of_ne_zero (Nat.ne_zero_of_lt enough)
  refine disjunction_of_unary_error ?_
  rw [reads.unary_eq, primary_eq, suffixes_dot isDot behind, bind_error failed]

end ReadsReceiver

end CompileContext

section Arguments

variable {expression : Parse Expr} {session close : Session} {next : Token} {rest : List Token}

theorem Parse.argumentList_nil (begins : session.Begins [.openParen, .closeParen] next rest) :
    Parse.argumentList expression session = .ok [] (session.moveTo next rest) := by
  obtain ⟨isOpen, token, rest', behind, begins⟩ := begins.cons
  obtain ⟨isClose, behind'⟩ := begins.single
  have open_kind : session.current.kind = .openParen := congrArg Word.kind isOpen
  have close_kind : token.kind = .closeParen := congrArg Word.kind isClose
  rw [argumentList, bind_eq (expect_eq open_kind behind), bind_eq (check_eq .closeParen _)]
  simp only [Session.moveTo_current, close_kind, BEq.rfl, if_true]
  rw [bind_eq (pure_eq [] _), bind_eq (expect_eq close_kind behind')]
  rfl

theorem Parse.argumentList_singleton {token : Token} {rest' : List Token} {e : Expr}
    (opens : session.current.kind = .openParen) (behind : session.rest = token :: rest')
    (noClose : token.kind ≠ .closeParen)
    (read : expression (session.moveTo token rest') = .ok e close)
    (closes : close.current.kind = .closeParen) (behind' : close.rest = next :: rest) :
    Parse.argumentList expression session = .ok [e] (close.moveTo next rest) := by
  have noArgument : ((session.moveTo token rest').current.kind == .closeParen) = false :=
    beq_eq_false_iff_ne.mpr noClose
  have noComma : Parse.check .comma close = .ok false close := by
    rw [check_eq, closes]
    rfl
  have one : Parse.commaList expression (session.moveTo token rest') = .ok [e] close := by
    rw [commaList, bind_eq read, bind_eq (tokensLeft_eq close)]
    have none (fuel : Nat) : Parse.commaList.go expression fuel close = .ok [] close := by
      cases fuel with
      | zero => rfl
      | succ fuel =>
          rw [commaList.go, bind_eq noComma]
          rfl
    rw [bind_eq (none _)]
    rfl
  rw [argumentList, bind_eq (expect_eq opens behind), bind_eq (check_eq .closeParen _), noArgument]
  simp only [Bool.false_eq_true, if_false]
  rw [bind_eq one, bind_eq (expect_eq closes behind')]
  rfl

theorem Parse.withScope_eq {α : Type} {step : Parse α} {frame : ScopeFrame} {a : α}
    (ran : step { session with scopes := session.scopes.push frame } = .ok a close) :
    Parse.withScope frame step session =
      .ok a { close with scopes := close.scopes.pop } := by
  rw [withScope, ran]

/-- The one argument of a call is read, from the opening parenthesis to what follows the closing
one.  It has no more tokens left at its end than at its beginning. -/
inductive ReadsArgument (expression : Parse Expr) (opening : Session) (e : Expr) (next : Token)
    (rest : List Token) : Prop where
  | intro {close : Session} {token : Token} {rest' : List Token}
      (behind : opening.rest = token :: rest') (noClose : token.kind ≠ .closeParen)
      (read : expression (opening.moveTo token rest') = .ok e close)
      (passes : close.rest.length ≤ rest'.length) (closes : close.current.kind = .closeParen)
      (behind' : close.rest = next :: rest) : ReadsArgument expression opening e next rest

namespace ReadsArgument

variable {opening : Session} {e : Expr}

/-- An argument is read from its words, if these are read where they stand. -/
theorem of_begins {first : Word} {words : List Word}
    (begins : opening.Begins (.openParen :: first :: (words ++ [.closeParen])) next rest)
    (noClose : first.kind ≠ .closeParen)
    (read : ∀ token rest' close rest'', (opening.moveTo token rest').Begins (first :: words) close
      rest'' → close.kind = .closeParen →
        expression (opening.moveTo token rest') = .ok e (opening.moveTo close rest'')) :
    ReadsArgument expression opening e next rest := by
  obtain ⟨-, token, rest', behind, inside⟩ := begins.cons
  obtain ⟨close, rest'', argument, closing⟩ :=
    @Session.Begins.append _ (first :: words) _ _ _ inside
  obtain ⟨isClose, behind'⟩ := closing.single
  have isKind : close.kind = .closeParen := congrArg Word.kind isClose
  have isFirst : token.kind = first.kind := congrArg Word.kind argument.cons.1
  exact .intro behind (isFirst ▸ noClose) (read token rest' close rest'' argument isKind)
    (Nat.le.intro ((Nat.add_comm _ _).trans argument.length.symm)) isKind behind'

theorem length_lt (argument : ReadsArgument expression opening e next rest) :
    rest.length < opening.rest.length := by
  obtain ⟨behind, -, -, passes, -, behind'⟩ := argument
  rw [behind'] at passes
  rw [behind]
  exact Nat.lt_succ_of_lt passes

theorem argumentList_eq (argument : ReadsArgument expression opening e next rest)
    (opens : opening.current.kind = .openParen) :
    ∃ close : Session,
      Parse.argumentList expression opening = .ok [e] (close.moveTo next rest) := by
  obtain ⟨behind, noClose, read, -, closes, behind'⟩ := argument
  exact ⟨_, Parse.argumentList_singleton opens behind noClose read closes behind'⟩

end ReadsArgument

end Arguments

namespace Aggregate

variable {ctx : CompileContext} {expression : Parse Expr} {operation : Aggregate}
  {source : Expr} {element : Ty} {name : String} {position : Nat} {session stop : Session}
  {args : List Expr}

/-- The parameter that stands for an element in a call that is read from a state on. -/
def elementAt (session : Session) (element : Ty) : Parameter :=
  (session.store.newParameter "" element).1

/-- The state in which the arguments of a call are read. -/
def insideCall (operation : Aggregate) (session : Session) (element : Ty) : Session :=
  { session with
    store := (session.store.newParameter "" element).2
    scopes := session.scopes.push
      (operation.argumentScope session.scopes.current (elementAt session element)) }

/-- The state behind the arguments of a call, which leaves their scope. -/
def behindCall (stop : Session) : Session := { stop with scopes := stop.scopes.pop }

section Call

variable
  (read : Parse.argumentList expression (operation.insideCall session element) = .ok args stop)

include read

theorem withScope_insideCall :
    Parse.withScope (operation.argumentScope session.scopes.current (elementAt session element))
      (Parse.argumentList expression)
      { session with store := (session.store.newParameter "" element).2 } =
        .ok args (behindCall stop) :=
  Parse.withScope_eq read

/-- A call with arguments that an overload accepts. -/
theorem parseCall_found {params : List Ty} {promoted : List Expr} {type : Ty} {typeArgs : List Ty}
    (resolved : resolve ctx.env.classes name args = .found (operation, params) promoted)
    (plain : operation ≠ .ofType ∧ operation ≠ .cast)
    (typed : operation.typing? ctx.env.classes element (promoted.map (·.type)) =
      some (type, typeArgs)) :
    operation.parseCall ctx expression source element name position session =
      .ok (.aggregate type operation source typeArgs
        (operation.bindElement (elementAt session element) promoted)) (behindCall stop) := by
  have fresh : Parse.newParameter "" element session = .ok (elementAt session element)
      { session with store := (session.store.newParameter "" element).2 } := rfl
  rw [parseCall, bind_eq fresh, bind_eq (scope_eq _), bind_eq (withScope_insideCall read)]
  simp only [resolved]
  cases operation with
  | ofType => exact absurd rfl plain.1
  | cast => exact absurd rfl plain.2
  | _ =>
      simp only [typed]
      rfl

/-- A call with arguments that no overload accepts best. -/
theorem parseCall_unresolved
    (unresolved : ∀ found promoted, resolve ctx.env.classes name args ≠ .found found promoted) :
    operation.parseCall ctx expression source element name position session =
      .error ⟨position, .noApplicableAggregate name⟩ (behindCall stop) := by
  have fresh : Parse.newParameter "" element session = .ok (elementAt session element)
      { session with store := (session.store.newParameter "" element).2 } := rfl
  rw [parseCall, bind_eq fresh, bind_eq (scope_eq _), bind_eq (withScope_insideCall read)]
  cases resolved : resolve ctx.env.classes name args with
  | found found promoted => exact absurd resolved (unresolved found promoted)
  | notFound | ambiguous => rfl

end Call

end Aggregate

/-- The parameter of a scope that a word stands for. -/
def ScopeFrame.named? (frame : ScopeFrame) : ContextName → Option Parameter
  | .it => frame.it
  | .parent => frame.parent
  | .root => frame.root

namespace CompileContext

variable {ctx : CompileContext} {expression : Parse Expr} {start dot : Session} {source : Expr}
  {operation : Aggregate} {element : Ty} {name : Token} {rest : List Token}

/-- An operation is called by its name on a sequence that has no method with this name. -/
theorem sequenceOperation?_eq {called : String} (noText : source.type.isString = false)
    (noMethod : source.type.hasMethod ctx.env.classes called = false)
    (named : Aggregate.ofName? called = some operation)
    (isSequence : source.type.element? ctx.env.classes = some element) :
    ctx.sequenceOperation? (.value source) called = some (source, operation, element) := by
  simp [sequenceOperation?, Receiver.value?, noText, noMethod, named, isSequence]

/-- The name of an operation behind a sequence starts a call of it. -/
theorem memberAccess_eq_parseCall {opening : Token} {session : Session}
    (isName : session.current.kind = .identifier) (behind : session.rest = opening :: rest)
    (opens : opening.kind = .openParen)
    (isOperation : ctx.sequenceOperation? (.value source)
      (Parse.unescapedName session.current.text) = some (source, operation, element)) :
    ctx.memberAccess expression (.value source) session =
      operation.parseCall ctx expression source element (Parse.unescapedName session.current.text)
        session.current.position (session.moveTo opening rest) := by
  have identifier : Parse.identifier session =
      .ok (Parse.unescapedName session.current.text) session := by
    rw [Parse.identifier, bind_eq (validate_eq isName), bind_eq (current_eq session)]
    rfl
  have noElement (element? : Option Parameter) :
      element?.filter (fun _ => (session.moveTo opening rest).current.kind == .lambda) = none := by
    rw [Session.moveTo_current, opens]
    cases element? <;> rfl
  have isOpen : ((session.moveTo opening rest).current.kind == .openParen) = true :=
    beq_iff_eq.mpr opens
  rw [memberAccess, bind_eq (position_eq session), bind_eq identifier, bind_eq (advance_eq behind),
    bind_eq (scope_eq _), bind_eq (check_eq .lambda _)]
  simp only [noElement]
  rw [bind_eq (check_eq .openParen _)]
  simp only [isOpen, if_true, isOperation]

/-- Where an operand ends an expression, it is a whole one. -/
theorem expression_of_unary {depth : Nat} {session : Session} {e : Expr} {after : Session}
    (read : ctx.unary (ctx.expression depth) session = .ok e after)
    (ends : after.current.kind.grip ≤ 0) : ctx.expression (depth + 1) session = .ok e after :=
  conditional_eq (disjunction_of_unary read (.of_grip (Nat.le_refl 1) (Nat.le_succ_of_le ends)))
    ends

/-- A word for an element of a scope is a whole expression before the end of one. -/
theorem expression_context {depth : Nat} {session : Session} {name : ContextName} {p : Parameter}
    {next : Token} (isName : session.current.kind = .identifier)
    (isContext : ctx.env.keyword? session.current.text = some (.context name))
    (current : session.scopes.current.named? name = some p) (behind : session.rest = next :: rest)
    (ends : next.kind.grip ≤ 0) :
    ctx.expression (depth + 1) session = .ok (.parameter p) (session.moveTo next rest) := by
  have visible : ctx.visibleKeyword? session.scopes.current session.current.text =
      some (.context name) := by
    rw [visibleKeyword?, isContext]
    rfl
  have element : contextParameter name session = .ok (.parameter p) (session.moveTo next rest) := by
    cases name with
    | it | parent | root =>
        simp only [ScopeFrame.named?] at current
        rw [contextParameter, bind_eq (scope_eq session)]
        simp only [current]
        rw [bind_eq (advance_eq behind)]
        rfl
  have atom (expression : Parse Expr) :
      ctx.atom expression session = .ok (.parameter p) (session.moveTo next rest) := by
    rw [CompileContext.atom, bind_eq (current_eq session)]
    simp only [isName]
    rw [CompileContext.name, bind_eq (current_eq session), bind_eq (scope_eq session)]
    simp only [visible]
    exact element
  have unary (expression : Parse Expr) :
      ctx.unary expression session = .ok (.parameter p) (session.moveTo next rest) := by
    rw [CompileContext.unary, bind_eq (tokensLeft_eq session),
      unaryFrom_eq_primary (isName ▸ by decide) (isName ▸ by decide)]
    exact primary_eq (atom expression)
      (TokenKind.opensSuffix_of_grip (Nat.le_trans ends (by decide)))
  exact expression_of_unary (unary _) ends

/-- The argument of a call is a word for an element of the scope of the arguments. -/
theorem readsArgument_context {depth : Nat} {opening : Session} {name : ContextName}
    {word : String} {p : Parameter} {next : Token}
    (begins : opening.Begins [.openParen, .name word, .closeParen] next rest)
    (isContext : ctx.env.keyword? word = some (.context name))
    (current : opening.scopes.current.named? name = some p) :
    ReadsArgument (ctx.expression (depth + 1)) opening (.parameter p) next rest := by
  refine @ReadsArgument.of_begins _ _ _ _ _ _ [] begins nofun ?_
  intro token rest' close rest'' inside closes
  obtain ⟨isWord, behind⟩ := inside.single
  have isText : token.text = word := congrArg Word.text isWord
  exact expression_context (congrArg Word.kind isWord) (isText ▸ isContext) current behind
    (closes ▸ Nat.le_refl 0)

/-- The text of a call of a sequence operation is read up to the parenthesis before its
arguments. -/
inductive ReadsCall (ctx : CompileContext) (expression : Parse Expr) (start : Session)
    (source : Expr) (operation : Aggregate) (element : Ty) : Session → Prop where
  | intro {dot : Session} {name opening : Token} {rest : List Token}
      (receiver : ctx.ReadsReceiver expression start source dot)
      (isDot : dot.current.kind = .dot) (behind : dot.rest = name :: opening :: rest)
      (isName : name.kind = .identifier) (opens : opening.kind = .openParen)
      (isOperation : ctx.sequenceOperation? (.value source) (Parse.unescapedName name.text) =
        some (source, operation, element)) :
      ReadsCall ctx expression start source operation element (dot.moveTo opening rest)

namespace ReadsCall

variable {opening stop : Session}

/-- A call of an operation on a parameter is read from the name of the parameter on. -/
theorem of_names {params : List Parameter} {p : Parameter} {dot name opening : Token}
    (names : ctx.Names params) (isParam : p ∈ params) (isName : start.current.word = .name p.name)
    (behind : start.rest = dot :: name :: opening :: rest) (isDot : dot.kind = .dot)
    (isOperationName : name.kind = .identifier) (opens : opening.kind = .openParen)
    (isOperation : ctx.sequenceOperation? (.value (.parameter p)) (Parse.unescapedName name.text) =
      some (.parameter p, operation, element)) :
    ctx.ReadsCall expression start (.parameter p) operation element
      (start.moveTo opening rest) := by
  have receiver : ctx.ReadsReceiver expression start (.parameter p)
      (start.moveTo dot (name :: opening :: rest)) :=
    .atom (atom_name_eq names isParam isName behind)
  have call := ReadsCall.intro receiver isDot rfl isOperationName opens isOperation
  exact call

theorem opens (call : ctx.ReadsCall expression start source operation element opening) :
    opening.current.kind = .openParen := by
  cases call
  assumption

/-- A call is compiled as the operation on what its arguments are read as. -/
theorem disjunction_eq (call : ctx.ReadsCall expression start source operation element opening) :
    ∃ name position, Aggregate.ofName? name = some operation ∧
      (∀ e stop, operation.parseCall ctx expression source element name position opening =
        .ok e stop → stop.rest.length ≤ opening.rest.length →
          stop.current.kind.opensSuffix = false → Ends 1 stop.current →
            ctx.disjunction expression start = .ok e stop) ∧
      ∀ error stop, operation.parseCall ctx expression source element name position opening =
        .error error stop → ctx.disjunction expression start = .error error stop := by
  obtain @⟨dot, name, opening, rest, receiver, isDot, behind, isName, opens, isOperation⟩ := call
  have called := @memberAccess_eq_parseCall ctx expression source operation element rest opening
    (dot.moveTo name (opening :: rest)) isName rfl opens isOperation
  have named := (sequenceOperation?_eq_some isOperation).2.1
  refine ⟨_, name.position, named, ?_, ?_⟩
  · intro e stop read passes noSuffix ends
    exact receiver.disjunction_eq isDot behind (called.trans read) noSuffix
      (Nat.le_succ_of_le passes) ends
  · intro error stop failed
    exact receiver.disjunction_refused isDot behind (called.trans failed)

end ReadsCall

end CompileContext

end QueryTree
