import QueryTree.Proofs.Parallel.Word
import QueryTree.Proofs.Propagation.Text
import QueryTree.Proofs.Sequence.Reading

/-!
# Named elements

The argument of a call as a function of a named element, as in `Roles.Any(r => r.Level > 1)`, and
as an expression that writes the element by the word for it.  Both are read alike if they are read
up to the closing parenthesis.
-/

namespace QueryTree

/-- Tokens that differ at most in their positions are alike. -/
theorem Token.Alike.of_word_eq {token token' : Token} (same : token.word = token'.word) :
    token.Alike (fun _ _ => True) token' where
  kind := congrArg (fun word => word.kind.normal) same
  text _ := congrArg Word.text same
  position := trivial
  aligned _ _ _ := trivial

/-- Behind a token, an argument that writes an element by a name, and the same argument with the
word for the current element in place of each name. -/
inductive CompileContext.Renamed (ctx : CompileContext) (key : String) :
    Token → List Token → List Token → Prop where
  | nil {before : Token} : Renamed ctx key before [] []
  | same {before token token' : Token} {behind behind' : List Token}
      (word_eq : token.word = token'.word)
      (other : token.kind = .identifier → ctx.env.options.fold token.text ≠ key)
      (renamed : Renamed ctx key token behind behind') :
      Renamed ctx key before (token :: behind) (token' :: behind')
  | name {before token token' : Token} {behind behind' : List Token}
      (introduced : ctx.env.Introduces before) (isNamed : token.IsNamed ctx.env.options key)
      (isWord : token'.word = .name "it") (renamed : Renamed ctx key token behind behind') :
      Renamed ctx key before (token :: behind) (token' :: behind')

/-- An argument of a call, its closing parenthesis, and the tokens behind it. -/
structure ArgumentText where
  first : Token
  more : List Token
  close : Token
  next : Token
  rest : List Token

namespace ArgumentText

/-- The tokens of an argument. -/
def tokens (argument : ArgumentText) : List Token := argument.first :: argument.more

/-- The tokens from the closing parenthesis on. -/
def behind (argument : ArgumentText) : List Token :=
  argument.close :: argument.next :: argument.rest

/-- All tokens behind the first one. -/
def ahead (argument : ArgumentText) : List Token := argument.more ++ argument.behind

theorem behind_suffix (argument : ArgumentText) :
    argument.next :: argument.rest <:+ argument.ahead :=
  (List.suffix_cons argument.close _).trans (List.suffix_append argument.more _)

/-- An argument is read up to its closing parenthesis. -/
inductive IsRead (argument : ArgumentText) (expression : Parse Expr) (start : Session) (e : Expr) :
    Session → Prop where
  | intro {stop : Session} (read : expression start = .ok e stop)
      (closes : stop.current.kind = .closeParen)
      (behind : stop.rest = argument.next :: argument.rest) :
      IsRead argument expression start e stop

/-- Whether a result is that of an argument that is read up to its closing parenthesis. -/
def reads (argument : ArgumentText) : EStateM.Result CompileError Session Expr → Bool
  | .ok _ stop =>
    stop.current.kind == .closeParen && stop.rest == argument.next :: argument.rest
  | .error _ _ => false

theorem exists_isRead (argument : ArgumentText) {expression : Parse Expr}
    {start : Session} (read : argument.reads (expression start) = true) :
    ∃ e stop, argument.IsRead expression start e stop := by
  cases ran : expression start with
  | ok e stop =>
      rw [ran, reads, Bool.and_eq_true, beq_iff_eq, beq_iff_eq] at read
      exact ⟨e, stop, ran, read.1, read.2⟩
  | error =>
      rw [ran] at read
      cases read

/-- The places of an argument where a name stands, by the number of tokens behind it. -/
def NameAt (argument : ArgumentText) (options : Options) (key : String) (place : Nat) : Prop :=
  ∃ front token back, argument.tokens = front ++ token :: back ∧
    place = (back ++ argument.behind).length ∧ token.IsNamed options key

end ArgumentText

namespace Aggregate

/-- Where an argument of a call starts; the current token of the call opens its arguments. -/
def argumentStart (operation : Aggregate) (opening : Session) (element : Ty)
    (argument : ArgumentText) : Session :=
  (operation.insideCall opening element).moveTo argument.first argument.ahead

/-- Where the body of a function of a named element starts that is an argument of a call. -/
def bodyStart (operation : Aggregate) (opening : Session) (element : Ty) (key : String)
    (body : ArgumentText) : Session :=
  { operation.argumentStart opening element body with
    internals := opening.internals.set key (some (elementAt opening element)) }

end Aggregate

/-- Two calls from their opening parentheses on, in states that are equal but for the text.  The
argument of the first one is a function of an element with a name that stands for nothing else, and
that of the second one writes this element by the word for it. -/
structure CompileContext.NamesElement (ctx : CompileContext) (opening opening' : Session)
    (name arrow : Token) (argument argument' : ArgumentText) : Prop where
  opens : opening.current.kind = .openParen
  opens' : opening'.current.kind = .openParen
  tokens_eq : opening.rest = name :: arrow :: argument.first :: argument.ahead
  tokens_eq' : opening'.rest = argument'.first :: argument'.ahead
  isNamed : name.IsNamed ctx.env.options (ctx.env.options.fold name.text)
  noSign : name.text.toList.head? ≠ some '@'
  noKeyword : ctx.env.keyword? name.text = none
  noSymbol : ctx.symbols.lookup (ctx.env.options.fold name.text) = none
  noExternal : ctx.externals.lookup (ctx.env.options.fold name.text) = none
  noElement : opening.internals.lookup (ctx.env.options.fold name.text) = none
  isArrow : arrow.kind = .lambda
  renamed : ctx.Renamed (ctx.env.options.fold name.text) arrow argument.tokens argument'.tokens
  closes : argument.close.kind = .closeParen
  behind_eq : argument.behind.map Token.word = argument'.behind.map Token.word
  failure_eq : opening.failure.isSome = opening'.failure.isSome
  scopes_eq : opening.scopes = opening'.scopes
  internals_eq : opening.internals = opening'.internals
  store_eq : opening.store = opening'.store
  endsWell : opening.EndsWell
  endsWell' : opening'.EndsWell

namespace CompileContext

open Pairing

variable {ctx : CompileContext} {p : Parameter} {key : String}

section Twins

variable {left right : ElementWord ctx p key} {marks walls : Nat → Prop} {before token : Token}
  {rest rest' : List Token}

/-- Behind walls the two texts are the same. -/
theorem ahead_of_word_eq (same : rest.map Token.word = rest'.map Token.word)
    (walled : ∀ place < rest.length, walls place) :
    (ofWords left right marks walls).Ahead before rest rest' := by
  induction rest generalizing before rest' with
  | nil =>
      obtain rfl := List.map_eq_nil_iff.mp same.symm
      exact .nil
  | cons next rest ih =>
      obtain ⟨next', rest', rfl, first, later⟩ := List.map_eq_cons_iff.mp same.symm
      have equal : (ofWords left right marks walls).Same next next' :=
        ⟨(congrArg Word.kind first).symm, (congrArg Word.text first).symm, trivial⟩
      refine .cons (.same equal fun _ _ => walled _ (Nat.lt_succ_self _)) (.inl equal) ?_
      exact ih later.symm fun place less => walled place (Nat.lt_succ_of_lt less)

/-- The tokens of an argument that writes an element by a name, and of the one that writes it by its
word, in front of further ones. -/
theorem Renamed.ahead {body body' tail tail' : List Token}
    (renamed : ctx.Renamed key before body body')
    (isLeft : ∀ token, token.IsNamed ctx.env.options key → left.isWord token)
    (isRight : ∀ token, token.word = .name "it" → right.isWord token)
    (marked : ∀ front token back, body = front ++ token :: back →
      token.IsNamed ctx.env.options key → marks (back ++ tail).length)
    (tails : ∀ before, (ofWords left right marks walls).Ahead before tail tail') :
    (ofWords left right marks walls).Ahead before (body ++ tail) (body' ++ tail') := by
  induction renamed with
  | nil => exact tails _
  | @same before token token' behind behind' word_eq other renamed ih =>
      have equal : (ofWords left right marks walls).Same token token' :=
        ⟨congrArg Word.kind word_eq, congrArg Word.text word_eq, trivial⟩
      refine .cons (.same equal fun isName isKey => absurd isKey (other isName)) (.inl equal) ?_
      refine ih fun front another back same => marked (token :: front) another back ?_
      rw [same, List.cons_append]
  | @name before token token' behind behind' introduced isNamed isWord renamed ih =>
      refine .cons (.swapped ⟨isLeft _ isNamed, isRight _ isWord⟩ ?_) (.inr introduced) ?_
      · exact marked [] token behind rfl isNamed
      · refine ih fun front another back same => marked (token :: front) another back ?_
        rw [same, List.cons_append]

end Twins

section Read

variable {left right : ElementWord ctx p key} {marks : Nat → Prop} {stack : ScopeStack}
  {names names' : ElementNames} {start start' stop : Session} {argument argument' : ArgumentText}
  {e : Expr}

/-- An argument that is read up to its closing parenthesis where it writes the element in one way is
read where it writes it in another way. -/
theorem isRead_of_words
    (twins : (ofWords left right marks (· < (argument.next :: argument.rest).length)).Twins stack
      names names' start start')
    (current : stack.current.it = some p)
    (inside : ctx.WritesInside p marks start) (endsWell : start'.EndsWell)
    (behind : argument'.next :: argument'.rest <:+ start'.rest)
    (lengths : (argument'.next :: argument'.rest).length = (argument.next :: argument.rest).length)
    (read : argument.IsRead ctx.wholeExpression start e stop) :
    ∃ stop', argument'.IsRead ctx.wholeExpression start' e stop' ∧
      (ofWords left right marks (· < (argument.next :: argument.rest).length)).Twins stack names
        names' stop stop' := by
  obtain ⟨read, closes, stops⟩ := read
  rw [wholeExpression_eq] at read
  have unwalled : Unpassed (· < (argument.next :: argument.rest).length) start.rest.length
      stop.rest.length := by
    intro place less _
    rw [stops]
    exact less
  have enough : start.rest.length < start.rest.length + 2 := by omega
  obtain ⟨stop', read', stopped⟩ :=
    expression_of_words left right marks _ twins current enough inside read unwalled
  have rest_eq : stop'.rest = argument'.next :: argument'.rest := by
    have suffix := (ctx.expression_follows endsWell read').suffix
    have same : stop'.rest.length = (argument'.next :: argument'.rest).length := by
      rw [stopped.ahead.length_eq, stops, lengths]
    exact (List.suffix_of_suffix_length_le suffix behind (Nat.le_of_eq same)).eq_of_length same
  refine ⟨stop', ⟨?_, stopped.current.paired.kind ▸ closes, rest_eq⟩, stopped⟩
  rw [wholeExpression_eq, twins.ahead.length_eq]
  exact read'

end Read

namespace NamesElement

variable {opening opening' : Session} {name arrow : Token} {argument argument' : ArgumentText}
  (names : ctx.NamesElement opening opening' name arrow argument argument')
  (isIt : ctx.env.keyword? "it" = some (.context .it)) {operation : Aggregate} {element : Ty}

/-- The two calls as texts that write the element by its name and by the word for it.  Behind the
closing parentheses the name may stand for something else. -/
def pairing (names : ctx.NamesElement opening opening' name arrow argument argument')
    (isIt : ctx.env.keyword? "it" = some (.context .it)) (p : Parameter) : Pairing ctx :=
  ofWords (p := p) (.name names.noKeyword names.noSymbol names.noExternal) (.it isIt)
    (argument.NameAt ctx.env.options (ctx.env.options.fold name.text))
    (· < (argument.next :: argument.rest).length)

include names

theorem ahead (p : Parameter) : (pairing names isIt p).Ahead arrow
    (argument.first :: argument.ahead) (argument'.first :: argument'.ahead) := by
  refine @Renamed.ahead _ _ _ _ _ _ _ _ _ _ argument.behind argument'.behind names.renamed
    ?_ ?_ ?_ ?_
  · exact fun _ isNamed => isNamed
  · exact fun _ isWord => ⟨congrArg Word.kind isWord, congrArg Word.text isWord⟩
  · exact fun front token back same isNamed => ⟨front, token, back, same, rfl, isNamed⟩
  · intro before
    obtain ⟨closes, behind⟩ := List.cons.inj names.behind_eq
    have equal : (pairing names isIt p).Same argument.close argument'.close :=
      ⟨congrArg Word.kind closes, congrArg Word.text closes, trivial⟩
    refine .cons (.same equal fun isName => ?_) (.inl equal) ?_
    · cases names.closes.symm.trans isName
    · exact ahead_of_word_eq behind fun _ less => less

theorem start_endsWell : (opening.moveTo argument.first argument.ahead).EndsWell := by
  have atName := names.endsWell.moveTo (names.opens ▸ by decide) names.tokens_eq
  have atArrow := atName.moveTo (names.isNamed.kind ▸ by decide) rfl
  exact atArrow.moveTo (names.isArrow ▸ by decide) rfl

theorem start_endsWell' : (opening'.moveTo argument'.first argument'.ahead).EndsWell :=
  names.endsWell'.moveTo (names.opens' ▸ by decide) names.tokens_eq'

theorem element_eq :
    Aggregate.elementAt opening' element = Aggregate.elementAt opening element := by
  rw [Aggregate.elementAt, Aggregate.elementAt, names.store_eq]

theorem insideCall_scopes_eq : (operation.insideCall opening' element).scopes =
    (operation.insideCall opening element).scopes := by
  simp only [Aggregate.insideCall, names.element_eq, names.scopes_eq]

/-- Where the arguments start, the two calls are read side by side. -/
theorem twins : (pairing names isIt (Aggregate.elementAt opening element)).Twins
    (operation.insideCall opening element).scopes
    (opening.internals.set (ctx.env.options.fold name.text)
      (some (Aggregate.elementAt opening element))) opening'.internals
    (operation.bodyStart opening element (ctx.env.options.fold name.text) argument)
    (operation.argumentStart opening' element argument') := by
  have ahead := names.ahead isIt (Aggregate.elementAt opening element)
  cases ahead with
  | cons stand introduced ahead =>
      refine ⟨stand, ahead, ?_, rfl, names.insideCall_scopes_eq, rfl, rfl, ?_, ?_, ?_, ?_⟩
      · have failure_eq := names.failure_eq
        change Option.Rel _ opening.failure opening'.failure
        cases failed : opening.failure <;> cases failed' : opening'.failure <;>
          simp [failed, failed'] at failure_eq
        · exact .none
        · exact .some trivial
      · simp only [Aggregate.bodyStart, Aggregate.argumentStart, Aggregate.insideCall,
          Session.moveTo, names.store_eq]
      · refine ⟨fun other notKey => ?_, fun _ => ⟨?_, trivial⟩⟩
        · rw [← names.internals_eq, ElementNames.lookup, ElementNames.lookup, ElementNames.set,
            if_neg notKey]
        · exact if_pos rfl
      · exact Nat.lt_succ_self _
      · exact names.start_endsWell

omit names in
/-- The element is the current one in the arguments of a call that is about it. -/
theorem current_it (sees : operation.seesOuterScope = false) :
    (operation.insideCall opening element).scopes.current.it =
      some (Aggregate.elementAt opening element) := by
  rw [Aggregate.insideCall, ScopeStack.current_push, Aggregate.argumentScope, sees]
  rfl

theorem behind_length :
    (argument'.next :: argument'.rest).length = (argument.next :: argument.rest).length := by
  have lengths := congrArg List.length (List.cons.inj names.behind_eq).2
  simpa using lengths.symm

end NamesElement

section Call

variable {session stop : Session} {e : Expr} {depth : Nat}

/-- No expression starts with a closing parenthesis. -/
theorem expression_noClose (read : ctx.expression depth session = .ok e stop) :
    session.current.kind ≠ .closeParen := by
  intro closes
  cases depth with
  | zero => cases read
  | succ depth =>
      have failed : ctx.atom (ctx.expression depth) session =
          Parse.failHere (.expected .expression) session := by
        rw [atom, Parse.bind_eq (Parse.current_eq session)]
        simp only [closes]
      have refused := expression_readsTo_atom (ReadsTo.of_error failed session)
        (closes ▸ by decide) (closes ▸ by decide) (closes ▸ by decide)
      cases ((refused e stop).mp read).1

theorem withInternal_eq {α : Type} {step : Parse α} {key : String} {element : Parameter} {a : α}
    (ran : step { session with internals := session.internals.set key (some element) } =
      .ok a stop) :
    Parse.withInternal key element step session =
      .ok a { stop with internals := stop.internals.set key (session.internals.lookup key) } := by
  rw [Parse.withInternal]
  simp only [ran]

/-- A name before an arrow that stands for nothing is a name for the element of the scope in what
follows the arrow. -/
theorem atom_named {expression : Parse Expr} {element : Parameter} {arrow first : Token}
    {rest : List Token} (isName : session.current.kind = .identifier)
    (noSign : session.current.text.toList.head? ≠ some '@')
    (noKeyword : ctx.env.keyword? session.current.text = none)
    (noSymbol : ctx.symbol? session.internals (ctx.env.options.fold session.current.text) = none)
    (current : session.scopes.current.it = some element)
    (behind : session.rest = arrow :: first :: rest) (isArrow : arrow.kind = .lambda) :
    ctx.atom expression session =
      Parse.withInternal (ctx.env.options.fold session.current.text) element
        (do Parse.advance; expression) (session.moveTo arrow (first :: rest)) := by
  have unescaped : Parse.unescapedName session.current.text = session.current.text := by
    rw [Parse.unescapedName]
    split
    next isSign => exact absurd (congrArg List.head? isSign) noSign
    next => rfl
  have noPosition : isPositional session.current.text = false := by
    rw [isPositional]
    split
    next isSign => exact absurd (congrArg List.head? isSign) noSign
    next => rfl
  have identifier : Parse.identifier session = .ok session.current.text session := by
    rw [Parse.identifier, Parse.bind_eq (Parse.validate_eq isName),
      Parse.bind_eq (Parse.current_eq session), unescaped]
    rfl
  have visible : ctx.visibleKeyword? session.scopes.current session.current.text = none := by
    rw [visibleKeyword?, noKeyword]
    rfl
  have isElement : (element == element) = true := beq_self_eq_true element.id
  have receiver : elementReceiver? (.value (.parameter element))
      (session.moveTo arrow (first :: rest)).scopes.current = some element := by
    change elementReceiver? (.value (.parameter element)) session.scopes.current = some element
    simp [elementReceiver?, Receiver.value?, Expr.parameter?, current, isElement]
  rw [atom, Parse.bind_eq (Parse.current_eq session)]
  simp only [isName]
  rw [name_eq_nameIn]
  simp only [nameIn, visible, noSymbol, current, noPosition, Option.filter_some, Bool.not_false,
    if_true]
  rw [memberAccess, Parse.bind_eq (Parse.position_eq session), Parse.bind_eq identifier,
    Parse.bind_eq (Parse.advance_eq behind), Parse.bind_eq (Parse.scope_eq _),
    Parse.bind_eq (Parse.check_eq .lambda _)]
  simp only [Session.moveTo_current, isArrow, BEq.rfl, receiver, Option.filter_some, if_true]

end Call

end CompileContext

namespace Aggregate

variable {ctx : CompileContext} {operation : Aggregate} {element : Ty} {args : List Expr}

/-- A call makes the same of arguments that are read alike. -/
theorem parseCall_ends {expression expression' : Parse Expr} {session session' stop stop' : Session}
    (source : Expr) (name : String) (position : Nat)
    (read : Parse.argumentList expression (operation.insideCall session element) = .ok args stop)
    (read' : Parse.argumentList expression' (operation.insideCall session' element) =
      .ok args stop')
    (same : elementAt session' element = elementAt session element)
    (alike : (behindCall stop).Alike (fun _ _ => True) (behindCall stop')) :
    Parse.Ends (fun _ _ => True) Eq
      (operation.parseCall ctx expression source element name position session)
      (operation.parseCall ctx expression' source element name position session') := by
  have made (session : Session) : Parse.newParameter "" element session =
      .ok (elementAt session element)
        { session with store := (session.store.newParameter "" element).2 } := rfl
  rw [parseCall, Parse.bind_eq (made session), Parse.bind_eq (Parse.scope_eq _),
    Parse.bind_eq (withScope_insideCall read), parseCall, Parse.bind_eq (made session'),
    Parse.bind_eq (Parse.scope_eq _), Parse.bind_eq (withScope_insideCall read'), same]
  refine (?_ : Parse.Alike (fun _ _ => True) (fun _ => True) _ _ Eq) _ _ alike trivial
  split
  next =>
    split
    next => exact (CompileContext.typeArgument_alike trivial).bind fun _ => .pure rfl
    next => exact (CompileContext.typeArgument_alike trivial).bind fun _ => .pure rfl
    next =>
      split
      next => exact .pure rfl
      next => exact .failAt trivial
  next => exact .failAt trivial

end Aggregate

namespace CompileContext.NamesElement

variable {ctx : CompileContext} {opening opening' : Session} {name arrow : Token}
  {argument argument' : ArgumentText} {operation : Aggregate} {element : Ty} {e : Expr}
  {stop : Session} {depth : Nat}
  (names : ctx.NamesElement opening opening' name arrow argument argument')

include names

/-- The argument is a function of a named element. -/
theorem argumentList_named (sees : operation.seesOuterScope = false)
    (enough : opening.rest.length < depth)
    (read : argument.IsRead ctx.wholeExpression
      (operation.bodyStart opening element (ctx.env.options.fold name.text) argument) e stop) :
    Parse.argumentList (ctx.expression depth) (operation.insideCall opening element) =
      .ok [e] ({ stop with internals := opening.internals }.moveTo argument.next
        argument.rest) := by
  obtain ⟨read, closes, behind⟩ := read
  obtain ⟨depth, rfl⟩ := Nat.exists_eq_succ_of_ne_zero (Nat.ne_zero_of_lt enough)
  rw [names.tokens_eq] at enough
  simp only [List.length_cons] at enough
  rw [ctx.wholeExpression_eq] at read
  let key := ctx.env.options.fold name.text
  let start := operation.bodyStart opening element key argument
  have endsWell : start.EndsWell := names.start_endsWell
  change ctx.expression (start.rest.length + 2) start = .ok e stop at read
  have follows : stop.Follows start := ctx.expression_follows endsWell read
  have body : (do Parse.advance; ctx.expression depth : Parse Expr)
      { operation.insideCall opening element with
        current := arrow
        rest := argument.first :: argument.ahead
        internals := opening.internals.set key (some (Aggregate.elementAt opening element)) } =
      .ok e stop := by
    have shorter : start.rest.length < depth := by
      change argument.ahead.length < depth
      omega
    have here : ctx.expression depth start = .ok e stop :=
      ctx.expression_eq_deeper endsWell (by omega) shorter read
    rw [Parse.bind_eq (Parse.advance_eq rfl)]
    exact here
  have named : ctx.atom (ctx.expression depth)
      ((operation.insideCall opening element).moveTo name
        (arrow :: argument.first :: argument.ahead)) =
      .ok e { stop with internals := opening.internals } := by
    refine Eq.trans (atom_named names.isNamed.kind names.noSign names.noKeyword ?_
      (current_it sees) rfl names.isArrow) ?_
    · change ctx.symbol? opening.internals key = none
      rw [symbol?, names.noSymbol, names.noExternal, names.noElement]
      rfl
    · have outside : stop.internals.set key (opening.internals.lookup key) = opening.internals := by
        rw [follows.internals]
        exact ElementNames.set_set_lookup _ _ _
      refine (withInternal_eq body).trans ?_
      exact congrArg (fun names => EStateM.Result.ok e { stop with internals := names }) outside
  have whole := expression_readsTo_atom (.of_ok named) (names.isNamed.kind ▸ by decide)
    (names.isNamed.kind ▸ by decide) (closes ▸ by decide)
  refine Parse.argumentList_singleton names.opens names.tokens_eq ?_ whole.eq_ok closes behind
  rw [names.isNamed.kind]
  decide

/-- The argument is an expression that writes the element by its word. -/
theorem argumentList_word (enough : opening'.rest.length < depth)
    (read : argument'.IsRead ctx.wholeExpression
      (operation.argumentStart opening' element argument') e stop) :
    Parse.argumentList (ctx.expression depth) (operation.insideCall opening' element) =
      .ok [e] (stop.moveTo argument'.next argument'.rest) := by
  obtain ⟨read, closes, behind⟩ := read
  rw [names.tokens_eq', List.length_cons] at enough
  rw [ctx.wholeExpression_eq] at read
  have here : ctx.expression depth (operation.argumentStart opening' element argument') =
      .ok e stop :=
    ctx.expression_eq_deeper names.start_endsWell' (by omega) (Nat.lt_of_succ_lt enough) read
  exact Parse.argumentList_singleton names.opens' names.tokens_eq' (expression_noClose read) here
    closes behind

theorem length_lt (isIt : ctx.env.keyword? "it" = some (.context .it))
    (enough : opening.rest.length < depth) : opening'.rest.length < depth := by
  have lengths := (names.ahead isIt ⟨0, "", .object⟩).length_eq
  rw [names.tokens_eq, List.length_cons, List.length_cons] at enough
  rw [names.tokens_eq', lengths]
  omega

/-- Behind the two arguments the two calls are alike. -/
theorem behind_alike {stop' : Session} (isIt : ctx.env.keyword? "it" = some (.context .it))
    (twins : (pairing names isIt (Aggregate.elementAt opening element)).Twins
      (operation.insideCall opening element).scopes
      (opening.internals.set (ctx.env.options.fold name.text)
        (some (Aggregate.elementAt opening element))) opening'.internals stop stop') :
    (Aggregate.behindCall ({ stop with internals := opening.internals }.moveTo argument.next
        argument.rest)).Alike (fun _ _ => True)
      (Aggregate.behindCall (stop'.moveTo argument'.next argument'.rest)) := by
  obtain ⟨-, behind⟩ := List.cons.inj names.behind_eq
  obtain ⟨next, rest⟩ := List.cons.inj behind
  refine ⟨.of_word_eq next, ?_, twins.failure, ?_, ?_, twins.store.symm⟩
  · have same : List.Forall₂ Eq (argument.rest.map Token.word) (argument'.rest.map Token.word) :=
      rest ▸ List.forall₂_same.mpr fun _ _ => rfl
    rw [List.forall₂_map_left_iff, List.forall₂_map_right_iff] at same
    exact same.imp fun _ _ => .of_word_eq
  · exact congrArg ScopeStack.pop (twins.scopes.trans twins.scopes'.symm)
  · exact names.internals_eq.trans twins.internals'.symm

section Reading

variable (sees : operation.seesOuterScope = false)
  (isIt : ctx.env.keyword? "it" = some (.context .it))

include sees

/-- What is read as the body of the function is read as the argument that writes the element by its
word, if no expression in the scope of another element writes it. -/
theorem argument_isRead
    (inside : ctx.WritesInside (Aggregate.elementAt opening element)
      (argument.NameAt ctx.env.options (ctx.env.options.fold name.text))
      (operation.bodyStart opening element (ctx.env.options.fold name.text) argument))
    (read : argument.IsRead ctx.wholeExpression
      (operation.bodyStart opening element (ctx.env.options.fold name.text) argument) e stop) :
    ∃ stop', argument'.IsRead ctx.wholeExpression
        (operation.argumentStart opening' element argument') e stop' ∧
      (pairing names isIt (Aggregate.elementAt opening element)).Twins
        (operation.insideCall opening element).scopes
        (opening.internals.set (ctx.env.options.fold name.text)
          (some (Aggregate.elementAt opening element))) opening'.internals stop stop' :=
  isRead_of_words (names.twins isIt) (current_it sees) inside names.start_endsWell'
    argument'.behind_suffix names.behind_length read

include isIt

theorem body_isRead {stop' : Session}
    (inside : ctx.WritesInside (Aggregate.elementAt opening element)
      (argument.NameAt ctx.env.options (ctx.env.options.fold name.text))
      (operation.argumentStart opening' element argument'))
    (read : argument'.IsRead ctx.wholeExpression
      (operation.argumentStart opening' element argument') e stop') :
    ∃ stop, argument.IsRead ctx.wholeExpression
      (operation.bodyStart opening element (ctx.env.options.fold name.text) argument) e stop := by
  have start : (pairing names isIt (Aggregate.elementAt opening element)).Twins _ _ _
      (operation.bodyStart opening element (ctx.env.options.fold name.text) argument)
      (operation.argumentStart opening' element argument') := names.twins isIt
  have twins := start.converse names.start_endsWell'
  rw [← names.behind_length] at twins
  obtain ⟨stop, read, -⟩ := isRead_of_words twins (current_it sees) inside names.start_endsWell
    argument.behind_suffix names.behind_length.symm read
  exact ⟨stop, read⟩

/-- A named element means the same as the word for it.  In a call whose arguments are about an
element, the body of a function of a named element is read up to the closing parenthesis if and only
if the same body with the word in place of each name is read up to it, and as the same expression,
provided that no expression in the scope of another element writes this one.  Then the calls compile
to the same tree, with the same parameter for the element, and go on alike, or both do not
compile. -/
theorem means_it
    (inside : ctx.WritesInside (Aggregate.elementAt opening element)
      (argument.NameAt ctx.env.options (ctx.env.options.fold name.text))
      (operation.bodyStart opening element (ctx.env.options.fold name.text) argument))
    (inside' : ctx.WritesInside (Aggregate.elementAt opening element)
      (argument.NameAt ctx.env.options (ctx.env.options.fold name.text))
      (operation.argumentStart opening' element argument')) :
    (∀ e,
      (∃ stop, argument.IsRead ctx.wholeExpression
          (operation.bodyStart opening element (ctx.env.options.fold name.text) argument) e stop) ↔
        ∃ stop', argument'.IsRead ctx.wholeExpression
          (operation.argumentStart opening' element argument') e stop') ∧
    ∀ e stop', argument'.IsRead ctx.wholeExpression
        (operation.argumentStart opening' element argument') e stop' →
      ∀ depth source called position, opening.rest.length < depth →
        let call (session : Session) :=
          operation.parseCall ctx (ctx.expression depth) source element called position session
        (∀ tree, (∃ after, call opening = .ok tree after) ↔
          ∃ after', call opening' = .ok tree after') ∧
        Parse.Ends (fun _ _ => True) Eq (call opening) (call opening') := by
  refine ⟨fun e => ⟨?_, ?_⟩, ?_⟩
  · rintro ⟨stop, read⟩
    obtain ⟨stop', read', -⟩ := names.argument_isRead sees isIt inside read
    exact ⟨stop', read'⟩
  · rintro ⟨stop', read'⟩
    exact names.body_isRead sees isIt inside' read'
  · intro e stop' read' depth source called position enough call
    obtain ⟨stop, read⟩ := names.body_isRead sees isIt inside' read'
    obtain ⟨stop', read', twins⟩ := names.argument_isRead sees isIt inside read
    have ends : Parse.Ends (fun _ _ => True) Eq (call opening) (call opening') :=
      Aggregate.parseCall_ends source called position (names.argumentList_named sees enough read)
        (names.argumentList_word (names.length_lt isIt enough) read') names.element_eq
        (names.behind_alike isIt twins)
    refine ⟨?_, ends⟩
    generalize call opening = outcome at ends
    generalize call opening' = outcome' at ends
    intro tree
    cases ends with
    | ok same _ => simp [same]
    | error => simp

end Reading

end CompileContext.NamesElement

open CompileContext

section Example

/-- The context of a text about integers. -/
def overNumbers : CompileContext :=
  ⟨.of .initial .empty .initial, [("ns", .parameter ⟨0, "Ns", .array .int32⟩)], []⟩

/-- Before the arguments of the call in `Ns.Any(...)`. -/
def beforeArguments (tokens : List Token) : Session :=
  ⟨⟨.openParen, "(", 6⟩, tokens, none, .of (.outermost none), .empty, ⟨.empty, 1⟩⟩

/-- The body in `Ns.Any(x => x > 1)`. -/
def namedBody : ArgumentText where
  first := ⟨.identifier, "x", 12⟩
  more := [⟨.greaterThan, ">", 14⟩, ⟨.integerLiteral, "1", 16⟩]
  close := ⟨.closeParen, ")", 17⟩
  next := ⟨.finish, "", 18⟩
  rest := []

/-- The argument in `Ns.Any(it > 1)`. -/
def wordArgument : ArgumentText where
  first := ⟨.identifier, "it", 7⟩
  more := [⟨.greaterThan, ">", 10⟩, ⟨.integerLiteral, "1", 12⟩]
  close := ⟨.closeParen, ")", 13⟩
  next := ⟨.finish, "", 14⟩
  rest := []

/-- Before the arguments of the call in `Ns.Any(x => x > 1)`. -/
def beforeNamed : Session :=
  beforeArguments
    (⟨.identifier, "x", 7⟩ :: ⟨.lambda, "=>", 9⟩ :: namedBody.first :: namedBody.ahead)

/-- Before the arguments of the call in `Ns.Any(it > 1)`. -/
def beforeWord : Session := beforeArguments (wordArgument.first :: wordArgument.ahead)

theorem namesElement_greaterThan :
    overNumbers.NamesElement beforeNamed beforeWord ⟨.identifier, "x", 7⟩ ⟨.lambda, "=>", 9⟩
      namedBody wordArgument where
  opens := rfl
  opens' := rfl
  tokens_eq := rfl
  tokens_eq' := rfl
  isNamed := ⟨rfl, rfl, by decide +kernel⟩
  noSign := by decide
  noKeyword := Option.isNone_iff_eq_none.mp (by decide +kernel)
  noSymbol := Option.isNone_iff_eq_none.mp (by decide +kernel)
  noExternal := rfl
  noElement := rfl
  isArrow := rfl
  renamed := by
    refine .name ⟨by decide, by decide, by simp⟩ ⟨rfl, by decide +kernel, by decide +kernel⟩ rfl ?_
    exact .same rfl (by simp) (.same rfl (by simp) .nil)
  closes := rfl
  behind_eq := rfl
  failure_eq := rfl
  scopes_eq := rfl
  internals_eq := rfl
  store_eq := rfl
  endsWell := by
    simp [Session.EndsWell, EndsWell, beforeNamed, beforeArguments, namedBody, ArgumentText.ahead,
      ArgumentText.behind]
  endsWell' := by
    simp [Session.EndsWell, EndsWell, beforeWord, beforeArguments, wordArgument, ArgumentText.ahead,
      ArgumentText.behind]

/-- Whether any number is greater than one. -/
theorem means_it_greaterThan :
    let call (session : Session) :=
      Aggregate.any.parseCall overNumbers (overNumbers.expression 9)
        (.parameter ⟨0, "Ns", .array .int32⟩) .int32 "Any" 3 session
    ∃ tree after after', call beforeNamed = .ok tree after ∧ call beforeWord = .ok tree after' := by
  intro call
  have names := namesElement_greaterThan
  have isIt : overNumbers.env.keyword? "it" = some (.context .it) :=
    (Environment.keyword?_of "it").trans rfl
  have inside : overNumbers.WritesInside (Aggregate.elementAt beforeNamed .int32)
      (namedBody.NameAt overNumbers.env.options (overNumbers.env.options.fold "x"))
      (Aggregate.any.bodyStart beforeNamed .int32 (overNumbers.env.options.fold "x") namedBody) := by
    obtain ⟨e, after, flat⟩ := exists_of_succeeds
      (show succeeds (overNumbers.conditional (Parse.failHere .malformed) (Aggregate.any.bodyStart
        beforeNamed .int32 (overNumbers.env.options.fold "x") namedBody)) = true by decide +kernel)
    exact writesInside_of_flat names.start_endsWell rfl flat
  have inside' : overNumbers.WritesInside (Aggregate.elementAt beforeNamed .int32)
      (namedBody.NameAt overNumbers.env.options (overNumbers.env.options.fold "x"))
      (Aggregate.any.argumentStart beforeWord .int32 wordArgument) := by
    obtain ⟨e, after, flat⟩ := exists_of_succeeds
      (show succeeds (overNumbers.conditional (Parse.failHere .malformed)
        (Aggregate.any.argumentStart beforeWord .int32 wordArgument)) = true by decide +kernel)
    exact writesInside_of_flat names.start_endsWell' rfl flat
  obtain ⟨e, stop, read⟩ := wordArgument.exists_isRead
    (show wordArgument.reads (overNumbers.wholeExpression
      (Aggregate.any.argumentStart beforeWord .int32 wordArgument)) = true by decide +kernel)
  obtain ⟨tree, after', compiled⟩ :=
    exists_of_succeeds (show succeeds (call beforeWord) = true by decide +kernel)
  obtain ⟨-, alike⟩ := names.means_it rfl isIt inside inside'
  have same := (alike e stop read 9 (.parameter ⟨0, "Ns", .array .int32⟩) "Any" 3 (by decide)).1
  obtain ⟨after, compiled'⟩ := (same tree).mpr ⟨after', compiled⟩
  exact ⟨tree, after, after', compiled', compiled⟩

/-- The function is read in the place of a name.  So an operator behind a body that ends with a test
for membership is applied to the result of the body, while none may stand behind the test itself. -/
theorem membership_reads_on :
    (compileExpr (.of .initial .empty .initial) [⟨0, "Ns", .array .int32⟩] none
        "Ns.Any(x => x in (2) == true)" [] ⟨.empty, 1⟩).1.toOption.isSome = true ∧
      (compileExpr (.of .initial .empty .initial) [⟨0, "Ns", .array .int32⟩] none
        "Ns.Any(it in (2) == true)" [] ⟨.empty, 1⟩).1.toOption.isSome = false := by
  decide +kernel

end Example

end QueryTree
