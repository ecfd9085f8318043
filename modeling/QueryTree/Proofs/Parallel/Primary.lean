import QueryTree.Proofs.Parallel.Step
import QueryTree.Proofs.Spelling.Operation

/-!
# Primary expressions side by side

The procedures of the grammar up to primary expressions go on side by side, provided that the
expressions nested in them do.
-/

namespace QueryTree

/-- Two tokens for one literal. -/
theorem Pairing.Paired.alike {ctx : CompileContext} {w : Pairing ctx} {token token' : Token}
    (paired : w.Paired token token') (noName : token.kind ≠ .identifier) :
    token.Alike w.placed token' where
  kind := congrArg TokenKind.normal paired.kind
  text _ := (paired.same noName).text
  position := paired.position
  aligned _ offset _ := w.placed_add paired.position offset

namespace CompileContext

open Pairing

variable {ctx : CompileContext} {w : Pairing ctx} {frame : ScopeFrame} {n : Nat}
  {known : Token → Token → Prop} {expression expression' : Parse Expr} {position position' : Nat}

section Member

theorem typeArgument_carries {demand : w.Demand} (related : w.placed position position')
    {function : String} {arg : Expr} :
    w.Carries demand frame n known (ctx.typeArgument function position arg)
      (ctx.typeArgument function position' arg) Eq := by
  unfold typeArgument
  split
  next =>
    refine .scope ?_
    split
    next => exact .pure rfl
    next => exact .failAt related
  next => exact .pure rfl
  next => exact .failAt related

theorem elementReceiver?_current {receiver : Receiver} {element : Parameter}
    (isElement : elementReceiver? receiver frame = some element) : frame.it = some element := by
  obtain ⟨p, -, isElement⟩ := Option.bind_eq_some_iff.mp isElement
  exact (Option.filter_eq_some_iff.mp isElement).1

variable (below : ∀ m < n, w.Nested m expression expression')

include below

theorem parseCall_carries (related : w.placed position position') {operation : Aggregate}
    {source : Expr} {element : Ty} {name : String} :
    w.Carries (.guarded w frame) frame n known
      (operation.parseCall ctx expression source element name position)
      (operation.parseCall ctx expression' source element name position') Eq := by
  refine .call below fun p args => ?_
  split
  next =>
    split
    next => exact (typeArgument_carries related).bind fun wanted => .pure rfl
    next => exact (typeArgument_carries related).bind fun wanted => .pure rfl
    next =>
      split
      next => exact .pure rfl
      next => exact .failAt related
  next => exact .failAt related

theorem arguments_carries :
    w.Carries (.guarded w frame) frame n known (Parse.argumentList expression)
      (Parse.argumentList expression') Eq :=
  .argumentList fun m less => (below m less).guarded frame

/-- The name of a member is the same in both texts. -/
theorem memberAccess_carries (receiver : Receiver)
    (same : ∀ token token', known token token' → w.Same token token') :
    w.Carries (.guarded w frame) frame n known (ctx.memberAccess expression receiver)
      (ctx.memberAccess expression' receiver) Eq := by
  refine .position fun position position' related => .identifier same fun name => ?_
  refine .next (fun _ _ start => by rw [start.2]; decide) fun m less => ?_
  refine .scope (.check fun beforeArrow => ?_)
  have before : ∀ k < m, w.Nested k expression expression' :=
    fun k inside => below k (Nat.lt_trans inside less)
  split
  next element isElement =>
    have current := elementReceiver?_current (Option.filter_eq_some_iff.mp isElement).1
    exact .withInternal current (Carries.advance.bind fun _ => (below m less).guarded frame)
  next =>
    refine .check fun call => ?_
    cases call with
    | true =>
        simp only [if_true]
        split
        next => exact parseCall_carries before related
        next =>
          exact (arguments_carries before).bind fun args => .lift (methodCall_alike related)
    | false => exact .lift (namedMember_alike related)

theorem elementAccess_carries (e : Expr) :
    w.Carries (.guarded w frame) frame n known (ctx.elementAccess expression e)
      (ctx.elementAccess expression' e) Eq :=
  .position fun _ _ related => .expectNext (by decide) fun m less =>
    (Carries.commaList ((below m less).guarded frame)).bind fun _ => Carries.expect.bind fun _ =>
      .lift (indexAccess_alike related)

omit below in
theorem nullableMark_carries {demand : w.Demand} (type : Ty) :
    w.Carries demand frame n known (nullableMark type) (nullableMark type) Eq := by
  refine .check fun marked => ?_
  cases marked with
  | true =>
      simp only [if_true]
      split
      next => exact .failHere
      next => exact Carries.advance.bind fun _ => .pure rfl
  | false => exact .pure rfl

theorem typeAccess_carries (type : Ty) :
    w.Carries (.guarded w frame) frame n known (ctx.typeAccess expression type)
      (ctx.typeAccess expression' type) Eq := by
  refine .position fun position position' related => ?_
  refine (nullableMark_carries type).bind fun type => .check fun quoted => ?_
  cases quoted with
  | true =>
      refine .current fun token token' paired isString => ?_
      have isString : token.kind = .stringLiteral := beq_iff_eq.mp isString.2
      have literal := Literal.quoted_alike (paired.alike (by rw [isString]; decide)) isString
      refine (Carries.lift literal).bind fun text => ?_
      exact Carries.advance.bind fun _ => .lift (Expr.convertTo_alike related)
  | false =>
      refine .check fun call => ?_
      cases call with
      | true =>
          exact (arguments_carries below).bind fun args => .lift (Expr.constructOf_alike related)
      | false =>
          refine .check fun dotted => ?_
          cases dotted with
          | true =>
              refine .nextDot (fun _ _ start => beq_iff_eq.mp start.2) fun m less => ?_
              exact memberAccess_carries (fun k inside => below k (Nat.lt_trans inside less)) _
                fun _ _ same => same
          | false => exact .pure rfl

theorem functionCall_carries (function : Expr) (params : List Ty) (result : Ty) :
    w.Carries (.guarded w frame) frame n known
      (ctx.functionCall expression function params result)
      (ctx.functionCall expression' function params result) Eq := by
  refine .position fun position position' related => (arguments_carries below).bind fun args => ?_
  split
  next => exact .failAt related
  next =>
    split
    next => exact .pure rfl
    next => exact .failAt related

end Member

section Construction

theorem newItem_carries (each : w.Nested n expression expression') {naming : ItemNaming} :
    w.Carries (.guarded w frame) frame n Known.nothing (NewItem.parse expression naming)
      (NewItem.parse expression' naming) (NewItem.Alike w.placed) := by
  refine .position fun position position' related => (each.guarded frame).bind fun value => ?_
  split
  next => exact .pure ⟨rfl, rfl, related⟩
  next =>
    refine .checkWord (by simp) fun named => ?_
    cases named with
    | true =>
        refine .nextSame ?_ ?_ fun m _ => ?_
        · rintro token _ ⟨-, isAs⟩ introduces
          exact Bool.false_ne_true (introduces.2.1.symm.trans isAs)
        · rintro token _ ⟨-, isAs⟩
          rw [beq_iff_eq.mp ((Bool.and_eq_true _ _).mp isAs).1]
          decide
        · refine .identifier (fun _ _ same => same) fun name => ?_
          exact Carries.advance.bind fun _ => .pure ⟨rfl, rfl, related⟩
    | false =>
        simp only [Bool.false_eq_true, if_false]
        split
        next => exact .pure ⟨rfl, rfl, related⟩
        next =>
          split
          next => exact .pure ⟨rfl, rfl, related⟩
          next => exact .failAt related

theorem atEnd_carries {demand : w.Demand} :
    w.Carries demand frame n known NewItem.atEnd NewItem.atEnd Eq := by
  refine .check fun round => ?_
  cases round with
  | true => exact .pure rfl
  | false => exact .check fun curly => .pure rfl

theorem newItems_carries (each : w.Nested n expression expression') {naming : ItemNaming}
    (fuel : Nat) :
    w.Carries (.guarded w frame) frame n known (NewItem.parseAll expression naming fuel)
      (NewItem.parseAll expression' naming fuel) (List.Forall₂ (NewItem.Alike w.placed)) := by
  have reflexive (item : NewItem) : item.Alike w.placed item := ⟨rfl, rfl, w.placed_refl _⟩
  induction fuel generalizing known with
  | zero => exact .pure .nil
  | succ fuel ih =>
      refine atEnd_carries.bind fun ended => ?_
      cases ended with
      | true => exact .pure .nil
      | false =>
          refine (newItem_carries each).bindRel reflexive fun item item' first => ?_
          refine .check fun more => ?_
          cases more with
          | true =>
              refine Carries.advance.bind fun _ => ih.bindRel ?_ fun rest rest' others => ?_
              · exact fun items => List.forall₂_same.mpr fun item _ => reflexive item
              · exact .pure (.cons first others)
          | false => exact .pure (.cons first .nil)

theorem qualifiedRest_carries {demand : w.Demand} (fuel : Nat) (name : String) :
    w.Carries demand frame n known (qualifiedRest fuel name) (qualifiedRest fuel name) Eq := by
  induction fuel generalizing n known name with
  | zero => exact .pure rfl
  | succ fuel ih =>
      refine .check fun dotted => ?_
      cases dotted with
      | true =>
          refine .nextDot (fun _ _ start => beq_iff_eq.mp start.2) fun m _ => ?_
          refine .identifier (fun _ _ same => same) fun part => ?_
          exact Carries.advance.bind fun _ => ih _
      | false => exact .pure rfl

theorem newType?_carries {demand : w.Demand} (related : w.placed position position') :
    w.Carries demand frame n w.Same (ctx.newType? position) (ctx.newType? position') Eq := by
  refine .check fun named => ?_
  cases named with
  | true =>
      refine .current fun token token' _ start => ?_
      rw [← start.1.text]
      refine Carries.advance.bind fun _ => .tokensLeft fun fuel => ?_
      refine (qualifiedRest_carries _ _).bind fun name => .scope ?_
      split
      next => exact .failAt related
      next type _ =>
        refine .current fun next next' following _ => ?_
        rw [← following.kind]
        split
        next => exact .pure rfl
        next => exact .failHere
  | false => exact .pure rfl

theorem arrayMark_carries {demand : w.Demand} :
    w.Carries demand frame n known arrayMark arrayMark Eq := by
  refine .check fun marked => ?_
  cases marked with
  | true =>
      exact Carries.advance.bind fun _ => Carries.expect.bind fun _ => .validate (.pure rfl)
  | false => exact .pure rfl

theorem projection_carries {demand : w.Demand} (items : List NewItem) :
    w.Carries demand frame n known (ctx.projection items) (ctx.projection items) Eq := by
  rw [projection]
  simp only
  split
  next => exact .pure rfl
  next => exact Carries.recordType.bind fun type => .pure rfl

theorem constructed_carries {demand : w.Demand} (related : w.placed position position')
    {items items' : List NewItem} (parts : List.Forall₂ (NewItem.Alike w.placed) items items')
    {type? : Option Ty} {isArray : Bool} :
    w.Carries demand frame n known (ctx.constructed type? isArray position items)
      (ctx.constructed type? isArray position' items') Eq := by
  unfold constructed
  rw [← NewItem.map_value_eq parts]
  split
  next => exact .lift (newArray_alike related)
  next =>
    have duplicates := NewItem.duplicate?_alike ctx.env.options [] parts
    generalize NewItem.duplicate? ctx.env.options [] items = found? at duplicates
    generalize NewItem.duplicate? ctx.env.options [] items' = found?' at duplicates
    cases duplicates with
    | some found => exact .failAt found.position
    | none =>
        cases type? with
        | none =>
            have same : ctx.projection items' = ctx.projection items := by
              rw [projection, projection, NewItem.named_eq parts]
            simp only [same]
            exact projection_carries items
        | some type => exact .lift (newOfType_alike parts related)

theorem constructionBody_carries (each : w.Nested n expression expression')
    (related : w.placed position position') :
    w.Carries (.guarded w frame) frame n w.Same (ctx.constructionBody expression position)
      (ctx.constructionBody expression' position') Eq := by
  refine (newType?_carries related).bind fun type? => arrayMark_carries.bind fun isArray => ?_
  refine Carries.advance.bind fun _ => .tokensLeft fun fuel => ?_
  refine (newItems_carries each _).bindRel ?_ fun items items' parts => ?_
  · exact fun items => List.forall₂_same.mpr fun item _ => ⟨rfl, rfl, w.placed_refl _⟩
  refine atEnd_carries.bind fun ended => ?_
  cases ended with
  | true => exact Carries.advance.bind fun _ => constructed_carries related parts
  | false => exact .failHere

/-- Behind the word that starts a construction the first token is the same in both texts. -/
theorem construction_carries (below : ∀ m < n, w.Nested m expression expression')
    (isNew : ∀ token token', known token token' →
      token.kind = .identifier ∧ ctx.env.keyword? token.text = some .new) :
    w.Carries (.guarded w frame) frame n known (ctx.construction expression)
      (ctx.construction expression') Eq := by
  refine .nextSame ?_ ?_ fun m less => .position fun position position' related => ?_
  · intro token token' start introduces
    obtain ⟨isName, isNew⟩ := isNew token token' start
    have notNew := introduces.2.2 isName
    rw [isNew] at notNew
    cases notNew
  · intro token token' start
    rw [(isNew token token' start).1]
    decide
  · refine .current fun next next' paired same => ?_
    rw [← paired.kind]
    split
    next =>
      refine (constructionBody_carries (below m less) related).imp ?_
      rintro _ _ ⟨rfl, rfl⟩
      exact same
    next => exact .failHere

end Construction

section Function

variable (below : ∀ m < n, w.Nested m expression expression')

include below

theorem functionArguments_carries :
    w.Carries (.guarded w frame) frame n known (functionArguments expression)
      (functionArguments expression') Eq :=
  Carries.advance.bind fun _ => arguments_carries below

theorem iifFunction_carries :
    w.Carries (.guarded w frame) frame n known (ctx.iifFunction expression)
      (ctx.iifFunction expression') Eq := by
  refine .position fun position position' related => ?_
  refine (functionArguments_carries below).bind fun args => ?_
  split
  next => exact .lift (Expr.choose_alike related)
  next => exact .failAt related

theorem isnullFunction_carries :
    w.Carries (.guarded w frame) frame n known (ctx.isnullFunction expression)
      (ctx.isnullFunction expression') Eq := by
  refine .position fun position position' related => ?_
  refine (functionArguments_carries below).bind fun args => ?_
  split
  next => exact .lift (Expr.orElseValue_alike related)
  next => exact .failAt related

theorem npFunction_carries :
    w.Carries (.guarded w frame) frame n known (ctx.npFunction expression)
      (ctx.npFunction expression') Eq := by
  refine .position fun position position' related => ?_
  have protect (chain : Expr) (default? : Option Expr) :
      w.Carries (.guarded w frame) frame n Known.nothing
        (if chain.receiver?.isSome then
          Parse.lift (chain.propagateNull ctx.env.classes position default?)
        else Parse.failAt position .npTarget)
        (if chain.receiver?.isSome then
          Parse.lift (chain.propagateNull ctx.env.classes position' default?)
        else Parse.failAt position' .npTarget) Eq := by
    split
    next => exact .lift (Expr.propagateNull_alike related)
    next => exact .failAt related
  refine (functionArguments_carries below).bind fun args => ?_
  split
  next chain => exact protect chain none
  next chain default => exact protect chain (some default)
  next => exact .failAt related

theorem typeTestFunction_carries (test : TypeTest) :
    w.Carries (.guarded w frame) frame n known (ctx.typeTestFunction expression test)
      (ctx.typeTestFunction expression' test) Eq := by
  refine .position fun position position' related => ?_
  have finish (target arg : Expr) :
      w.Carries (.guarded w frame) frame n Known.nothing
        (do
          let wanted ← ctx.typeArgument test.word position arg
          let type ← Parse.lift (typeTestType test wanted position)
          return Expr.typeTest type target wanted test)
        (do
          let wanted ← ctx.typeArgument test.word position' arg
          let type ← Parse.lift (typeTestType test wanted position')
          return Expr.typeTest type target wanted test) Eq :=
    (typeArgument_carries related).bind fun wanted =>
      (Carries.lift (typeTestType_alike related)).bind fun type => .pure rfl
  refine (functionArguments_carries below).bind fun args => ?_
  split
  next arg =>
    refine .scope ?_
    split
    next it _ => exact finish _ arg
    next => exact .failAt related
  next target arg => exact finish target arg
  next => exact .failAt related

omit below in
theorem contextParameter_carries {demand : w.Demand} (name : ContextName) :
    w.Carries demand frame n known (contextParameter name) (contextParameter name) Eq := by
  refine .scope ?_
  simp only
  split
  next => exact Carries.advance.bind fun _ => .pure rfl
  next => exact .failHere

theorem keyword_carries {keyword : Keyword} (isKeyword : ∀ token token', known token token' →
      token.kind = .identifier ∧ ctx.env.keyword? token.text = some keyword) :
    w.Carries (.guarded w frame) frame n known (ctx.keyword expression keyword)
      (ctx.keyword expression' keyword) Eq := by
  cases keyword with
  | context name => exact contextParameter_carries name
  | iif => exact iifFunction_carries below
  | isnull => exact isnullFunction_carries below
  | new => exact construction_carries below isKeyword
  | nullPropagation => exact npFunction_carries below
  | typeTest test => exact typeTestFunction_carries below test
  | type t => exact Carries.advance.bind fun _ => typeAccess_carries below t
  | constant value => exact Carries.advance.bind fun _ => .pure rfl

end Function

section Primary

theorem literalToken_carries {demand : w.Demand} {read : Token → Except CompileError Expr}
    (reads : ∀ token token' : Token, w.Paired token token' → known token token' →
      Outcome.Alike w.placed Eq (read token) (read token')) :
    w.Carries demand frame n known (literalToken read) (literalToken read) Eq :=
  .current fun token token' paired start => (Carries.lift (reads token token' paired start)).bind
    fun _ => Carries.advance.bind fun _ => .pure rfl

/-- A name in a scope: the keyword that it is, the symbol that it stands for, or a member. -/
def nameIn (ctx : CompileContext) (expression : Parse Expr) (frame : ScopeFrame) (text : String)
    (symbol? : Option Symbol) : Parse Expr :=
  match ctx.visibleKeyword? frame text with
  | some keyword => ctx.keyword expression keyword
  | none =>
    match symbol? with
    | some symbol => do
      Parse.advance
      ctx.symbolExpr expression symbol
    | none =>
      match frame.it.filter fun _ => !isPositional text with
      | some it => ctx.memberAccess expression (.value (.parameter it))
      | none => Parse.failHere (.unknownIdentifier text)

theorem name_eq_nameIn (session : Session) :
    ctx.name expression session =
      ctx.nameIn expression session.scopes.current session.current.text
        (ctx.symbol? session.internals (ctx.env.options.fold session.current.text)) session := by
  rw [name, Parse.bind_eq (Parse.current_eq session), Parse.bind_eq (Parse.scope_eq session)]
  unfold nameIn
  cases ctx.visibleKeyword? session.scopes.current session.current.text <;> rfl

/-- A word that means an element is read as the element. -/
theorem Denotes.name_eq {p : Parameter} {session : Session}
    (denotes : ctx.Denotes session.scopes.current session.internals session.current.text p) :
    ctx.name expression session =
      (do Parse.advance; return Expr.parameter p : Parse Expr) session := by
  rw [name_eq_nameIn]
  unfold nameIn
  obtain ⟨isWord, current⟩ | ⟨noKeyword, isSymbol⟩ := denotes
  · simp only [isWord, keyword, contextParameter]
    rw [Parse.bind_eq (Parse.scope_eq session)]
    simp only [current]
  · simp only [noKeyword, isSymbol]
    rfl

variable (below : ∀ m < n, w.Nested m expression expression')

include below

theorem symbolExpr_carries (symbol : Symbol) :
    w.Carries (.guarded w frame) frame n known (ctx.symbolExpr expression symbol)
      (ctx.symbolExpr expression' symbol) Eq := by
  unfold symbolExpr
  split
  next p => exact .pure rfl
  next t => exact typeAccess_carries below t
  next v _ => exact .pure rfl
  next e =>
    split
    next params result typed =>
      refine .check fun call => ?_
      cases call with
      | true => exact functionCall_carries below _ _ _
      | false => exact .pure rfl
    next => exact .pure rfl

theorem nameIn_carries {text : String} (symbol? : Option Symbol) :
    w.Carries (.guarded w frame) frame n
      (fun token token' => w.Same token token' ∧ token.kind = .identifier ∧ token.text = text)
      (ctx.nameIn expression frame text symbol?) (ctx.nameIn expression' frame text symbol?)
      Eq := by
  unfold nameIn
  split
  next keyword isKeyword =>
    refine keyword_carries below ?_
    rintro token _ ⟨-, isName, rfl⟩
    exact ⟨isName, (Option.filter_eq_some_iff.mp isKeyword).1⟩
  next =>
    split
    next symbol => exact Carries.advance.bind fun _ => symbolExpr_carries below symbol
    next =>
      split
      next it _ => exact memberAccess_carries below _ fun _ _ start => start.1
      next => exact .failHere

theorem name_follows {session after : Session} {a : Expr} (endsWell : session.EndsWell)
    (bound : session.rest.length ≤ n) (isName : session.current.kind = .identifier)
    (ran : ctx.name expression session = .ok a after) : after.Follows session := by
  rw [name_eq_nameIn] at ran
  exact (nameIn_carries below _).follows endsWell rfl bound (.refl _) ⟨.refl _, isName, rfl⟩ ran

/-- A name at a place that is not to be passed is read as it may be. -/
theorem name_ends_of_unpassed {demand : w.Demand} {stack : ScopeStack} {names names' : ElementNames}
    {session : Session} {outcome' : EStateM.Result CompileError Session Expr} {holds : Nat → Prop}
    (endsWell : session.EndsWell) (bound : session.rest.length ≤ n)
    (isName : session.current.kind = .identifier) (isPlace : holds session.rest.length)
    (unpassed : ∀ stop, demand.meets session.rest.length stop →
      Unpassed holds session.rest.length stop) (lenient : w.lenient) :
    w.Ends demand session.rest.length stack names names' Eq (ctx.name expression session)
      outcome' := by
  cases ran : ctx.name expression session with
  | ok a after =>
      refine .ok fun meets => ?_
      have passed := unpassed _ meets _ isPlace (Nat.le_refl _)
      have reached := name_follows below endsWell bound isName ran
      exact absurd reached.length_le (Nat.not_le.mpr passed)
  | error error after => exact .error (.inl lenient)

/-- A word for the element is read as the element where it means the same, and where it does not
the demand is not met. -/
theorem name_carries (isName : ∀ token token', known token token' → token.kind = .identifier) :
    w.Carries (.guarded w frame) frame n known (ctx.name expression) (ctx.name expression')
      Eq where
  follows endsWell _ bound _ start _ _ ran :=
    name_follows below endsWell bound (isName _ _ start) ran
  ends {stack names names' session session'} twins framed bound start := by
    have isName := isName _ _ start
    have stand := twins.current
    cases stand with
    | same same walled =>
        by_cases isKey : w.keys (ctx.env.options.fold session.current.text)
        · have wall := walled isName isKey
          exact name_ends_of_unpassed below twins.endsWell bound isName wall
            (fun _ meets => meets.1) (w.lenient_or_clear.resolve_right fun clear =>
              (clear _).2 wall)
        · have symbols :
              ctx.symbol? session'.internals (ctx.env.options.fold session.current.text) =
                ctx.symbol? session.internals (ctx.env.options.fold session.current.text) := by
            rw [twins.internals, twins.internals', symbol?, symbol?,
              w.agrees_off twins.agrees _ isKey]
          rw [name_eq_nameIn, name_eq_nameIn, ← same.text, symbols, twins.scopes, twins.scopes',
            framed]
          exact (nameIn_carries below _).ends twins framed bound ⟨same, isName, rfl⟩
    | swapped swaps marked =>
        by_cases isOuter : w.outer frame
        · obtain ⟨p, left, right⟩ := w.swaps_denote swaps isOuter (framed ▸ twins.agrees)
          rw [← framed] at left right
          rw [← twins.scopes, ← twins.internals] at left
          rw [← twins.scopes', ← twins.internals'] at right
          have element : w.Carries (.guarded w frame) frame n Known.nothing
              (do Parse.advance; return Expr.parameter p) (do Parse.advance; return .parameter p)
              Eq :=
            Carries.advance.bind fun _ => .pure rfl
          rw [left.name_eq, right.name_eq]
          exact element.ends twins framed bound trivial
        · exact name_ends_of_unpassed below twins.endsWell bound isName marked
            (fun _ meets => meets.2.resolve_left isOuter) (w.lenient_or_clear.resolve_right
              fun clear => (clear _).1 marked)

theorem atom_carries :
    w.Carries (.guarded w frame) frame n known (ctx.atom expression) (ctx.atom expression')
      Eq := by
  refine .current fun token token' paired _ => ?_
  rw [← paired.kind]
  split
  next isName =>
    refine name_carries below ?_
    rintro _ _ ⟨rfl, -⟩
    exact isName
  next isString =>
    refine literalToken_carries ?_
    rintro _ _ paired ⟨rfl, rfl⟩
    exact Literal.quoted_alike (paired.alike (by rw [isString]; decide)) isString
  next isInteger =>
    refine literalToken_carries ?_
    rintro _ _ paired ⟨rfl, rfl⟩
    rw [(paired.same (by rw [isInteger]; decide)).text]
    exact Literal.integer_alike paired.position
  next isReal =>
    refine literalToken_carries ?_
    rintro _ _ paired ⟨rfl, rfl⟩
    rw [(paired.same (by rw [isReal]; decide)).text]
    exact Literal.real_alike paired.position
  next isOpen =>
    refine .next ?_ fun m less => ((below m less).guarded frame).bind fun e => ?_
    · rintro _ _ ⟨rfl, -⟩
      rw [isOpen]
      decide
    · exact Carries.expect.bind fun _ => .pure rfl
  next => exact .failHere

theorem suffixes_carries (fuel : Nat) (e : Expr) :
    w.Carries (.guarded w frame) frame n known (ctx.suffixes expression fuel e)
      (ctx.suffixes expression' fuel e) Eq := by
  induction fuel generalizing n known e with
  | zero => exact .pure rfl
  | succ fuel ih =>
      refine .current fun token token' paired _ => ?_
      rw [← paired.kind]
      split
      next isDot =>
        refine .nextDot ?_ fun m less => ?_
        · rintro _ _ ⟨rfl, -⟩
          exact isDot
        · have before : ∀ k < m, w.Nested k expression expression' :=
            fun k inside => below k (Nat.lt_trans inside less)
          exact (memberAccess_carries before _ fun _ _ same => same).bind fun e => ih before e
      next => exact (elementAccess_carries below e).bind fun e => ih below e
      next => exact .failHere
      next => exact .pure rfl

theorem primary_carries :
    w.Carries (.guarded w frame) frame n known (ctx.primary expression) (ctx.primary expression')
      Eq :=
  (atom_carries below).bind fun e => .tokensLeft fun _ => suffixes_carries below _ e

end Primary

end CompileContext

end QueryTree
