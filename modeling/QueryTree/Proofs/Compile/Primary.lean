import QueryTree.Proofs.Compile.Built
import QueryTree.Proofs.Overload.Promotion

/-!
# Primary expressions build trees

The procedures of the grammar up to primary expressions stay within their surroundings and yield
built trees, provided that the expressions nested in them do.
-/

namespace QueryTree.CompileContext

open Parse (Within)

variable {ctx : CompileContext} {tokens : List Token} {granted : Expr → Prop}

section Procedures

variable {expression : Parse Expr} {around : Surroundings}

theorem mem_of_lookup {α : Type} {entries : List (String × α)} {key : String} {a : α}
    (found : entries.lookup key = some a) : (key, a) ∈ entries := by
  obtain ⟨front, back, rfl, -⟩ := List.lookup_eq_some_iff.mp found
  exact List.mem_append_right front List.mem_cons_self

theorem typeArgument_within {function : String} {position : Nat} {arg : Expr} :
    Within tokens around (ctx.typeArgument function position arg) fun _ => True := by
  rw [typeArgument]
  split
  next =>
    refine .bind .scope fun frame _ => ?_
    split
    next => exact .pure trivial
    next => exact .failAt
  next => exact .pure trivial
  next => exact .failAt

theorem parseCall_yields (nested : ctx.Nested tokens granted expression) {operation : Aggregate}
    {source : Expr} {element : Ty} {name : String} {position : Nat}
    (named : Aggregate.ofName? name = some operation)
    (elements : source.type.element? ctx.env.classes = some element)
    (source_built : ctx.Built tokens granted (ctx.Visible around) source) :
    Within tokens around (operation.parseCall ctx expression source element name position)
      (ctx.Built tokens granted (ctx.Visible around)) := by
  refine .bind .newParameter fun p p_type => .bind .scope fun frame isFrame => ?_
  subst isFrame
  have args := Within.argumentList
    (nested.yields (around.enter (operation.argumentScope around.frame p)))
  refine .bind (.withScope args) fun args each => ?_
  split
  next found params promoted resolved =>
    obtain rfl := Aggregate.resolve_operation named resolved
    split
    next =>
      refine .bind typeArgument_within fun wanted _ => .pure ?_
      exact .typedAggregate source_built elements (.inl rfl)
    next =>
      refine .bind typeArgument_within fun wanted _ => .pure ?_
      exact .typedAggregate source_built elements (.inr rfl)
    next =>
      split
      next type typeArgs typed =>
        exact .pure (.aggregate source_built p_type elements each
          (fun _ isInside => Visible.of_argument isInside) resolved typed)
      next => exact .failAt
  next => exact .failAt

theorem sequenceOperation?_eq_some {receiver : Receiver} {name : String} {source : Expr}
    {operation : Aggregate} {element : Ty}
    (isOperation : ctx.sequenceOperation? receiver name = some (source, operation, element)) :
    receiver.value? = some source ∧ Aggregate.ofName? name = some operation ∧
      source.type.element? ctx.env.classes = some element := by
  obtain ⟨e, isValue, isSequence⟩ := Option.bind_eq_some_iff.mp isOperation
  split at isSequence
  next => cases isSequence
  next =>
    obtain ⟨named, named_eq, rest⟩ := Option.bind_eq_some_iff.mp isSequence
    obtain ⟨elements, elements_eq, same⟩ := Option.bind_eq_some_iff.mp rest
    obtain ⟨rfl, rfl, rfl⟩ : e = source ∧ named = operation ∧ elements = element := by
      simpa using same
    exact ⟨isValue, named_eq, elements_eq⟩

theorem memberAccess_yields (nested : ctx.Nested tokens granted expression) {receiver : Receiver}
    (receiver_built : ∀ r ∈ receiver.value?, ctx.Built tokens granted (ctx.Visible around) r) :
    Within tokens around (ctx.memberAccess expression receiver)
      (ctx.Built tokens granted (ctx.Visible around)) := by
  refine .bind .position fun position _ => .bind .identifier fun name named => ?_
  refine .bind .advance fun _ _ => .bind .scope fun frame isFrame => .bind .check fun arrow _ => ?_
  subst isFrame
  split
  next element isElement =>
    have it : around.frame.it = some element := by
      obtain ⟨isReceiver, -⟩ := Option.filter_eq_some_iff.mp isElement
      obtain ⟨p, -, filtered⟩ := Option.bind_eq_some_iff.mp isReceiver
      exact (Option.filter_eq_some_iff.mp filtered).1
    refine .withInternal (.bind .advance fun _ _ => ?_)
    exact (nested.yields _).imp fun e built => built.mono fun p => Visible.of_name it
  next =>
    refine .bind .check fun call _ => ?_
    cases call with
    | false =>
        obtain ⟨token, met, named⟩ := named
        exact .lift fun e outcome => .namedMember receiver_built met named outcome
    | true =>
        simp only [if_true]
        split
        next source operation element isOperation =>
          obtain ⟨isValue, named, elements⟩ := sequenceOperation?_eq_some isOperation
          exact parseCall_yields nested named elements (receiver_built source isValue)
        next =>
          exact .bind (.argumentList (nested.yields around)) fun args each =>
            .lift fun e outcome => .methodCall receiver_built each outcome

theorem elementAccess_yields (nested : ctx.Nested tokens granted expression) {e : Expr}
    (built : ctx.Built tokens granted (ctx.Visible around) e) :
    Within tokens around (ctx.elementAccess expression e)
      (ctx.Built tokens granted (ctx.Visible around)) := by
  refine .bind .position fun position _ => .bind .expect fun _ _ => ?_
  refine .bind (.commaList (nested.yields around)) fun args each => .bind .expect fun _ _ => ?_
  exact .lift fun e outcome => .indexAccess built each outcome

theorem nullableMark_within {type : Ty} :
    Within tokens around (nullableMark type) fun _ => True := by
  refine .bind .check fun marked _ => ?_
  cases marked with
  | false => exact .pure trivial
  | true =>
      simp only [if_true]
      split
      next => exact .failHere
      next => exact .bind .advance fun _ _ => .pure trivial

theorem typeAccess_yields (nested : ctx.Nested tokens granted expression) (type : Ty) :
    Within tokens around (ctx.typeAccess expression type)
      (ctx.Built tokens granted (ctx.Visible around)) := by
  refine .bind .position fun position _ => .bind nullableMark_within fun type _ => ?_
  refine .bind .check fun quoted _ => ?_
  cases quoted with
  | true =>
      refine .bind .current fun token met => ?_
      refine .bind (.lift fun text read => Literal.ReadFrom.quoted met read) fun text read => ?_
      refine .bind .advance fun _ _ => .lift fun e outcome => ?_
      exact .convertTo (.literal read) outcome
  | false =>
      refine .bind .check fun call _ => ?_
      cases call with
      | true =>
          exact .bind (.argumentList (nested.yields around)) fun args each =>
            .lift fun e outcome => .constructOf each outcome
      | false =>
          refine .bind .check fun dotted _ => ?_
          cases dotted with
          | true =>
              exact .bind .advance fun _ _ =>
                memberAccess_yields nested (by simp [Receiver.value?])
          | false => exact .pure .type

theorem functionCall_yields (nested : ctx.Nested tokens granted expression) {function : Expr}
    {params : List Ty} {result : Ty}
    (built : ctx.Built tokens granted (ctx.Visible around) function)
    (typed : function.type = .lambda params result) :
    Within tokens around (ctx.functionCall expression function params result)
      (ctx.Built tokens granted (ctx.Visible around)) := by
  refine .bind .position fun position _ => ?_
  refine .bind (.argumentList (nested.yields around)) fun args each => ?_
  split
  next => exact .failAt
  next =>
    split
    next promoted fits => exact .pure (.invoke built typed each fits)
    next => exact .failAt

theorem newItem_within {naming : ItemNaming} (nested : ctx.Nested tokens granted expression) :
    Within tokens around (NewItem.parse expression naming)
      (fun item => ctx.Built tokens granted (ctx.Visible around) item.value) := by
  refine .bind .position fun position _ => .bind (nested.yields around) fun value built => ?_
  split
  next => exact .pure built
  next =>
    refine .bind .checkWord fun named _ => ?_
    cases named with
    | true =>
        refine .bind .advance fun _ _ => .bind .identifier fun name _ => ?_
        exact .bind .advance fun _ _ => .pure built
    | false =>
        simp only [Bool.false_eq_true, if_false]
        split
        next => exact .pure built
        next =>
          split
          next => exact .pure built
          next => exact .failAt

theorem atEnd_within : Within tokens around NewItem.atEnd fun _ => True := by
  refine .bind .check fun closed _ => ?_
  cases closed with
  | true => exact .pure trivial
  | false => exact .bind .check fun _ _ => .pure trivial

theorem newItems_within {naming : ItemNaming} (nested : ctx.Nested tokens granted expression)
    (fuel : Nat) :
    Within tokens around (NewItem.parseAll expression naming fuel)
      (∀ item ∈ ·, ctx.Built tokens granted (ctx.Visible around) item.value) := by
  induction fuel with
  | zero => exact .pure (by simp)
  | succ fuel ih =>
      refine .bind atEnd_within fun ended _ => ?_
      cases ended with
      | true => exact .pure (by simp)
      | false =>
          refine .bind (newItem_within nested) fun item built => .bind .check fun more _ => ?_
          cases more with
          | true =>
              refine .bind .advance fun _ _ => .bind ih fun rest each => ?_
              exact .pure (List.forall_mem_cons.mpr ⟨built, each⟩)
          | false => exact .pure (by simpa using built)

theorem qualifiedRest_within (fuel : Nat) (name : String) :
    Within tokens around (qualifiedRest fuel name) fun _ => True := by
  induction fuel generalizing name with
  | zero => exact .pure trivial
  | succ fuel ih =>
      refine .bind .check fun dotted _ => ?_
      cases dotted with
      | true =>
          refine .bind .advance fun _ _ => .bind .identifier fun part _ => ?_
          exact .bind .advance fun _ _ => ih _
      | false => exact .pure trivial

theorem newType_within {position : Nat} :
    Within tokens around (ctx.newType? position) fun _ => True := by
  refine .bind .check fun named _ => ?_
  cases named with
  | false => exact .pure trivial
  | true =>
      refine .bind .current fun first _ => .bind .advance fun _ _ => ?_
      refine .bind .tokensLeft fun fuel _ => .bind (qualifiedRest_within _ _) fun name _ => ?_
      refine .bind .scope fun frame _ => ?_
      split
      next => exact .failAt
      next =>
        refine .bind .current fun next _ => ?_
        cases opensParts next.kind with
        | true => exact .pure trivial
        | false => exact .failHere

theorem arrayMark_within : Within tokens around arrayMark fun _ => True := by
  refine .bind .check fun marked _ => ?_
  cases marked with
  | true =>
      refine .bind .advance fun _ _ => .bind .expect fun _ _ => ?_
      exact .bind .validate fun _ _ => .pure trivial
  | false => exact .pure trivial

theorem projection_yields {items : List NewItem}
    (each : ∀ item ∈ items, ctx.Built tokens granted (ctx.Visible around) item.value) :
    Within tokens around (ctx.projection items)
      (ctx.Built tokens granted (ctx.Visible around)) := by
  rw [projection]
  simp only
  split
  next => exact .bind (.pure (.inl rfl)) fun type isRecord => .pure (.projection each isRecord)
  next =>
    refine .bind .recordType fun type isRecord => .pure ?_
    exact .projection each (.inr isRecord)

theorem constructed_yields {type? : Option Ty} {isArray : Bool} {position : Nat}
    {items : List NewItem}
    (each : ∀ item ∈ items, ctx.Built tokens granted (ctx.Visible around) item.value) :
    Within tokens around (ctx.constructed type? isArray position items)
      (ctx.Built tokens granted (ctx.Visible around)) := by
  cases isArray with
  | true =>
      refine .lift fun e outcome => .newArray (fun a member => ?_) outcome
      obtain ⟨item, isItem, rfl⟩ := List.mem_map.mp member
      exact each item isItem
  | false =>
      simp only [constructed, Bool.false_eq_true, if_false]
      split
      next => exact .failAt
      next =>
        cases type? with
        | none => exact projection_yields each
        | some type => exact .lift fun e outcome => .newOfType each outcome

theorem constructionBody_yields (nested : ctx.Nested tokens granted expression) {position : Nat} :
    Within tokens around (ctx.constructionBody expression position)
      (ctx.Built tokens granted (ctx.Visible around)) := by
  refine .bind newType_within fun type? _ => .bind arrayMark_within fun isArray _ => ?_
  refine .bind .advance fun _ _ => .bind .tokensLeft fun fuel _ => ?_
  refine .bind (newItems_within nested _) fun items each => .bind atEnd_within fun ended _ => ?_
  cases ended with
  | true => exact .bind .advance fun _ _ => constructed_yields each
  | false => exact .failHere

theorem construction_yields (nested : ctx.Nested tokens granted expression) :
    Within tokens around (ctx.construction expression)
      (ctx.Built tokens granted (ctx.Visible around)) := by
  refine .bind .advance fun _ _ => .bind .position fun position _ => .bind .current fun next _ => ?_
  cases opensConstruction next.kind with
  | true => exact constructionBody_yields nested
  | false => exact .failHere

theorem functionArguments_within (nested : ctx.Nested tokens granted expression) :
    Within tokens around (functionArguments expression)
      (∀ a ∈ ·, ctx.Built tokens granted (ctx.Visible around) a) :=
  .bind .advance fun _ _ => .argumentList (nested.yields around)

theorem iifFunction_yields (nested : ctx.Nested tokens granted expression) :
    Within tokens around (ctx.iifFunction expression)
      (ctx.Built tokens granted (ctx.Visible around)) := by
  refine .bind .position fun position _ => ?_
  refine .bind (functionArguments_within nested) fun args each => ?_
  split
  next test ifTrue ifFalse =>
    simp only [List.forall_mem_cons] at each
    exact .lift fun e outcome => .choose each.1 each.2.1 each.2.2.1 outcome
  next => exact .failAt

theorem isnullFunction_yields (nested : ctx.Nested tokens granted expression) :
    Within tokens around (ctx.isnullFunction expression)
      (ctx.Built tokens granted (ctx.Visible around)) := by
  refine .bind .position fun position _ => ?_
  refine .bind (functionArguments_within nested) fun args each => ?_
  split
  next left right =>
    simp only [List.forall_mem_cons] at each
    exact .lift fun e outcome => .orElseValue each.1 each.2.1 outcome
  next => exact .failAt

theorem npFunction_yields (nested : ctx.Nested tokens granted expression) :
    Within tokens around (ctx.npFunction expression)
      (ctx.Built tokens granted (ctx.Visible around)) := by
  refine .bind .position fun position _ => ?_
  have protect (chain : Expr) (default? : Option Expr)
      (built : ctx.Built tokens granted (ctx.Visible around) chain)
      (default_built : ∀ d ∈ default?, ctx.Built tokens granted (ctx.Visible around) d) :
      Within tokens around
        (if chain.receiver?.isSome then
          Parse.lift (chain.propagateNull ctx.env.classes position default?)
        else Parse.failAt position .npTarget) (ctx.Built tokens granted (ctx.Visible around)) := by
    split
    next => exact .lift fun e outcome => .propagateNull built default_built outcome
    next => exact .failAt
  refine .bind (functionArguments_within nested) fun args each => ?_
  split
  next chain =>
    simp only [List.forall_mem_cons] at each
    exact protect chain none each.1 (by simp)
  next chain default =>
    simp only [List.forall_mem_cons] at each
    exact protect chain (some default) each.1 (by simpa using each.2.1)
  next => exact .failAt

theorem typeTestFunction_yields (nested : ctx.Nested tokens granted expression) {test : TypeTest} :
    Within tokens around (ctx.typeTestFunction expression test)
      (ctx.Built tokens granted (ctx.Visible around)) := by
  refine .bind .position fun position _ => ?_
  have finish (target arg : Expr) (built : ctx.Built tokens granted (ctx.Visible around) target) :
      Within tokens around (do
        let wanted ← ctx.typeArgument test.word position arg
        let type ← Parse.lift (typeTestType test wanted position)
        return .typeTest type target wanted test)
          (ctx.Built tokens granted (ctx.Visible around)) := by
    refine .bind typeArgument_within fun wanted _ => ?_
    refine .bind (.lift fun type outcome => outcome) fun type outcome => .pure ?_
    exact .typeTest built outcome
  refine .bind (functionArguments_within nested) fun args each => ?_
  split
  next arg =>
    refine .bind .scope fun frame isFrame => ?_
    subst isFrame
    split
    next it isElement => exact finish _ arg (.parameter (.inl isElement))
    next => exact .failAt
  next target arg => exact finish target arg (each target (by simp))
  next => exact .failAt

theorem contextParameter_yields {name : ContextName} :
    Within tokens around (contextParameter name)
      (ctx.Built tokens granted (ctx.Visible around)) := by
  refine .bind .scope fun frame isFrame => ?_
  subst isFrame
  simp only
  split
  next p isParameter =>
    have isVisible : ctx.Visible around p := by
      cases name with
      | it => exact .inl isParameter
      | parent => exact .inr (.inl isParameter)
      | root => exact .inr (.inr (.inl isParameter))
    exact .bind .advance fun _ _ => .pure (.parameter isVisible)
  next => exact .failHere

theorem keyword_yields (nested : ctx.Nested tokens granted expression) {keyword : Keyword}
    (of_constant : ∀ v, keyword = .constant v →
      ctx.Built tokens granted (ctx.Visible around) (.ofValue v.naturalType v)) :
    Within tokens around (ctx.keyword expression keyword)
      (ctx.Built tokens granted (ctx.Visible around)) := by
  cases keyword with
  | context name => exact contextParameter_yields
  | iif => exact iifFunction_yields nested
  | isnull => exact isnullFunction_yields nested
  | new => exact construction_yields nested
  | nullPropagation => exact npFunction_yields nested
  | typeTest test => exact typeTestFunction_yields nested
  | type t => exact .bind .advance fun _ _ => typeAccess_yields nested t
  | constant value =>
      refine .bind .advance fun _ _ => .pure ?_
      split
      next => exact .null
      next => exact of_constant value rfl

end Procedures

section Primary

variable {expression : Parse Expr} {around : Surroundings}

theorem symbolExpr_yields (nested : ctx.Nested tokens granted expression) {symbol : Symbol}
    (of_parameter : ∀ p, symbol = .parameter p →
      ctx.Built tokens granted (ctx.Visible around) (.parameter p))
    (of_value : ∀ v, symbol = .value v →
      ctx.Built tokens granted (ctx.Visible around) (.ofValue v.naturalType v))
    (of_expr : ∀ e, symbol = .expr e → ctx.Built tokens granted (ctx.Visible around) e) :
    Within tokens around (ctx.symbolExpr expression symbol)
      (ctx.Built tokens granted (ctx.Visible around)) := by
  unfold symbolExpr
  split
  next p => exact .pure (of_parameter p rfl)
  next t => exact typeAccess_yields nested t
  next v _ => exact .pure (of_value v rfl)
  next e =>
    have built := of_expr e rfl
    split
    next params result typed =>
      refine .bind .check fun call _ => ?_
      cases call with
      | true => exact functionCall_yields nested built typed
      | false => exact .pure built
    next => exact .pure built

/-- What a name stands for is visible or was supplied. -/
theorem symbol?_cases {names : ElementNames} {key : String} {symbol : Symbol}
    (found : ctx.symbol? names key = some symbol) :
    (key, symbol) ∈ ctx.symbols ∨ (∃ v, symbol = .value v) ∨
      ∃ p, symbol = .parameter p ∧ names.lookup key = some p := by
  rw [symbol?] at found
  cases own : ctx.symbols.lookup key with
  | some held =>
      obtain rfl : held = symbol := by simpa [own] using found
      exact .inl (mem_of_lookup own)
  | none =>
      cases external : ctx.externals.lookup key with
      | some value =>
          obtain rfl : Symbol.value value = symbol := by simpa [own, external] using found
          exact .inr (.inl ⟨value, rfl⟩)
      | none =>
          have element : (names.lookup key).map Symbol.parameter = some symbol := by
            simpa [own, external] using found
          obtain ⟨p, named, same⟩ := Option.map_eq_some_iff.mp element
          exact .inr (.inr ⟨p, same.symm, named⟩)

theorem name_yields (nested : ctx.Nested tokens granted expression) :
    Within tokens around (ctx.name expression) (ctx.Built tokens granted (ctx.Visible around)) := by
  refine .bind .current fun token _ => .bind .scope fun frame isFrame => ?_
  subst isFrame
  split
  next keyword isKeyword =>
    refine keyword_yields nested fun v isConstant => .value ?_
    exact .inr ⟨_, isConstant ▸ (Option.filter_eq_some_iff.mp isKeyword).1⟩
  next =>
    refine .bind .get fun session unchanged => ?_
    have names : session.internals = around.names := congrArg Surroundings.names unchanged.1
    rw [names]
    split
    next symbol found =>
      refine .bind .advance fun _ _ => symbolExpr_yields nested ?_ ?_ ?_
      · rintro p rfl
        obtain isSymbol | ⟨v, isValue⟩ | ⟨q, same, named⟩ := symbol?_cases found
        · exact .parameter (.of_symbol isSymbol)
        · cases isValue
        · cases same
          exact .parameter (.inr (.inr (.inr (.inl ⟨_, named⟩))))
      · rintro v rfl
        exact .value (.inl ⟨_, _, found⟩)
      · rintro e rfl
        obtain isSymbol | ⟨v, isValue⟩ | ⟨q, same, -⟩ := symbol?_cases found
        · exact .granted (nested.supplies _ e isSymbol)
        · cases isValue
        · cases same
    next =>
      split
      next it isElement =>
        refine memberAccess_yields nested fun r isValue => ?_
        cases isValue
        exact .parameter (.inl (Option.filter_eq_some_iff.mp isElement).1)
      next => exact .failHere

theorem literalToken_yields {read : Token → Except CompileError Expr}
    (reads : ∀ token e, Token.Met tokens token → read token = .ok e → Literal.ReadFrom tokens e) :
    Within tokens around (literalToken read) (ctx.Built tokens granted (ctx.Visible around)) := by
  refine .bind .current fun token met => ?_
  refine .bind (.lift fun e outcome => reads token e met outcome) fun e read => ?_
  exact .bind .advance fun _ _ => .pure (.literal read)

theorem atom_yields (nested : ctx.Nested tokens granted expression) :
    Within tokens around (ctx.atom expression) (ctx.Built tokens granted (ctx.Visible around)) := by
  refine .bind .current fun token _ => ?_
  split
  next => exact name_yields nested
  next => exact literalToken_yields fun _ _ met outcome => .quoted met outcome
  next => exact literalToken_yields fun _ _ met outcome => .integer met outcome
  next => exact literalToken_yields fun _ _ met outcome => .real met outcome
  next =>
    refine .bind .advance fun _ _ => .bind (nested.yields around) fun e built => ?_
    exact .bind .expect fun _ _ => .pure built
  next => exact .failHere

theorem suffixes_yields (nested : ctx.Nested tokens granted expression) (fuel : Nat) {e : Expr}
    (built : ctx.Built tokens granted (ctx.Visible around) e) :
    Within tokens around (ctx.suffixes expression fuel e)
      (ctx.Built tokens granted (ctx.Visible around)) := by
  induction fuel generalizing e with
  | zero => exact .pure built
  | succ fuel ih =>
      refine .bind .current fun token _ => ?_
      split
      next =>
        refine .bind .advance fun _ _ => ?_
        refine .bind (memberAccess_yields nested ?_) fun _ built => ih built
        rintro r ⟨⟩
        exact built
      next => exact .bind (elementAccess_yields nested built) fun _ built => ih built
      next => exact .failHere
      next => exact .pure built

theorem primary_yields (nested : ctx.Nested tokens granted expression) :
    Within tokens around (ctx.primary expression) (ctx.Built tokens granted (ctx.Visible around)) :=
  .bind (atom_yields nested) fun _ built => .bind .tokensLeft fun _ _ =>
    suffixes_yields nested _ built

end Primary

end QueryTree.CompileContext
