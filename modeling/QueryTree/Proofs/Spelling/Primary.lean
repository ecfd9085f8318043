import QueryTree.Proofs.Spelling.Operation

/-!
# Primary expressions in two spellings

The procedures of the grammar up to primary expressions make the same of two spellings of one text,
provided that the expressions nested in them do.
-/

namespace QueryTree

namespace CompileContext

open Parse (Alike Steady)

variable {placed : Nat → Nat → Prop} {kinds : TokenKind → Prop} {ctx : CompileContext}
  {expression : Parse Expr} {position position' : Nat}

section Member

theorem typeArgument_alike (related : placed position position') {function : String} {arg : Expr} :
    Alike placed kinds (ctx.typeArgument function position arg)
      (ctx.typeArgument function position' arg) Eq := by
  unfold typeArgument
  split
  next =>
    refine .scope fun frame => ?_
    split
    next => exact .pure rfl
    next => exact .failAt related
  next => exact .pure rfl
  next => exact .failAt related

variable (steady : Steady placed expression)

include steady

theorem parseCall_alike (related : placed position position') {operation : Aggregate}
    {source : Expr} {element : Ty} {name : String} :
    Alike placed kinds (operation.parseCall ctx expression source element name position)
      (operation.parseCall ctx expression source element name position') Eq := by
  refine (Parse.steady_newParameter _).bind fun p => .scope fun outer => ?_
  refine (steady.argumentList.withScope _).bind fun args => ?_
  split
  next =>
    split
    next => exact (typeArgument_alike related).bind fun wanted => .pure rfl
    next => exact (typeArgument_alike related).bind fun wanted => .pure rfl
    next =>
      split
      next => exact .pure rfl
      next => exact .failAt related
  next => exact .failAt related

theorem memberAccess_steady (receiver : Receiver) :
    Steady placed (ctx.memberAccess expression receiver) := by
  intro kinds
  refine .position fun position position' related => ?_
  refine (Parse.steady_identifier _).bind fun name => (Parse.steady_advance _).bind fun _ => ?_
  refine .scope fun frame => .check rfl fun beforeArrow => ?_
  split
  next element _ =>
    have arrow : Steady placed (do Parse.advance; expression) :=
      fun _ => (Parse.steady_advance _).bind fun _ => steady _
    exact arrow.withInternal _
  next =>
    refine .check rfl fun call => ?_
    cases call with
    | true =>
        simp only [if_true]
        split
        next => exact parseCall_alike steady related
        next =>
          exact (steady.argumentList _).bind fun args => .lift (methodCall_alike related)
    | false => exact .lift (namedMember_alike related)

theorem elementAccess_steady (e : Expr) : Steady placed (ctx.elementAccess expression e) :=
  fun _ => .position fun _ _ related => (Parse.steady_expect rfl _).bind fun _ =>
    (steady.commaList _).bind fun _ => (Parse.steady_expect rfl _).bind fun _ =>
      .lift (indexAccess_alike related)

omit steady in
theorem nullableMark_steady (type : Ty) : Steady placed (nullableMark type) := by
  intro kinds
  refine .check rfl fun marked => ?_
  cases marked with
  | true =>
      simp only [if_true]
      split
      next => exact .failHere
      next => exact (Parse.steady_advance _).bind fun _ => .pure rfl
  | false => exact .pure rfl

theorem typeAccess_steady (type : Ty) : Steady placed (ctx.typeAccess expression type) := by
  intro kinds
  refine .position fun position position' related => ?_
  refine (nullableMark_steady type _).bind fun type => .check rfl fun quoted => ?_
  cases quoted with
  | true =>
      refine .current fun token token' alike isString => ?_
      have literal := Literal.quoted_alike alike (beq_iff_eq.mp isString.2)
      refine (Alike.lift literal).bind fun text => ?_
      exact (Parse.steady_advance _).bind fun _ => .lift (Expr.convertTo_alike related)
  | false =>
      refine .check rfl fun call => ?_
      cases call with
      | true =>
          exact (steady.argumentList _).bind fun args => .lift (Expr.constructOf_alike related)
      | false =>
          refine .check rfl fun dotted => ?_
          cases dotted with
          | true => exact (Parse.steady_advance _).bind fun _ => memberAccess_steady steady _ _
          | false => exact .pure rfl

theorem functionCall_steady (function : Expr) (params : List Ty) (result : Ty) :
    Steady placed (ctx.functionCall expression function params result) := by
  intro kinds
  refine .position fun position position' related => (steady.argumentList _).bind fun args => ?_
  split
  next => exact .failAt related
  next =>
    split
    next => exact .pure rfl
    next => exact .failAt related

end Member

section Construction

theorem newItem_alike (steady : Steady placed expression) {naming : ItemNaming} :
    Alike placed kinds (NewItem.parse expression naming) (NewItem.parse expression naming)
      (NewItem.Alike placed) := by
  refine .position fun position position' related => (steady _).bind fun value => ?_
  split
  next => exact .pure ⟨rfl, rfl, related⟩
  next =>
    refine .checkWord fun named => ?_
    cases named with
    | true =>
        refine (Parse.steady_advance _).bind fun _ => ?_
        refine (Parse.steady_identifier _).bind fun name => ?_
        exact (Parse.steady_advance _).bind fun _ => .pure ⟨rfl, rfl, related⟩
    | false =>
        simp only [Bool.false_eq_true, if_false]
        split
        next => exact .pure ⟨rfl, rfl, related⟩
        next =>
          split
          next => exact .pure ⟨rfl, rfl, related⟩
          next => exact .failAt related

theorem atEnd_steady : Steady placed NewItem.atEnd := by
  intro kinds
  refine .check rfl fun round => ?_
  cases round with
  | true => exact .pure rfl
  | false => exact .check rfl fun curly => .pure rfl

theorem newItems_alike (steady : Steady placed expression) {naming : ItemNaming} (fuel : Nat) :
    Alike placed kinds (NewItem.parseAll expression naming fuel)
      (NewItem.parseAll expression naming fuel) (List.Forall₂ (NewItem.Alike placed)) := by
  induction fuel generalizing kinds with
  | zero => exact .pure .nil
  | succ fuel ih =>
      refine (atEnd_steady _).bind fun ended => ?_
      cases ended with
      | true => exact .pure .nil
      | false =>
          refine (newItem_alike steady).bindRel fun item item' first => .check rfl fun more => ?_
          cases more with
          | true =>
              refine (Parse.steady_advance _).bind fun _ => ih.bindRel fun rest rest' others => ?_
              exact .pure (.cons first others)
          | false => exact .pure (.cons first .nil)

theorem qualifiedRest_steady (fuel : Nat) (name : String) :
    Steady placed (qualifiedRest fuel name) := by
  induction fuel generalizing name with
  | zero => exact fun _ => .pure rfl
  | succ fuel ih =>
      intro kinds
      refine .check rfl fun dotted => ?_
      cases dotted with
      | true =>
          refine (Parse.steady_advance _).bind fun _ => ?_
          refine (Parse.steady_identifier _).bind fun part => ?_
          exact (Parse.steady_advance _).bind fun _ => ih _ _
      | false => exact .pure rfl

theorem opensParts_eq {token token' : Token} (same : token.Equivalent token') :
    opensParts token.kind = opensParts token'.kind :=
  TokenKind.congr_of_normal_eq same.kind opensParts rfl rfl

theorem opensConstruction_eq {token token' : Token} (same : token.Equivalent token') :
    opensConstruction token.kind = opensConstruction token'.kind :=
  TokenKind.congr_of_normal_eq same.kind opensConstruction rfl rfl

theorem newType?_alike (related : placed position position') :
    Alike placed kinds (ctx.newType? position) (ctx.newType? position') Eq := by
  refine .check rfl fun named => ?_
  cases named with
  | true =>
      refine .current fun token token' alike isName => ?_
      rw [alike.text (by rw [beq_iff_eq.mp isName.2]; rfl)]
      refine (Parse.steady_advance _).bind fun _ => .tokensLeft fun fuel => ?_
      refine (qualifiedRest_steady _ _ _).bind fun name => .scope fun frame => ?_
      split
      next => exact .failAt related
      next type _ =>
        refine .current fun next next' following _ => ?_
        rw [← opensParts_eq following.toEquivalent]
        split
        next => exact .pure rfl
        next => exact .failHere
  | false => exact .pure rfl

theorem arrayMark_steady : Steady placed arrayMark := by
  intro kinds
  refine .check rfl fun marked => ?_
  cases marked with
  | true =>
      exact (Parse.steady_advance _).bind fun _ => (Parse.steady_expect rfl _).bind fun _ =>
        .validate rfl (.pure rfl)
  | false => exact .pure rfl

theorem projection_steady (items : List NewItem) : Steady placed (ctx.projection items) := by
  intro kinds
  rw [projection]
  simp only
  split
  next => exact .pure rfl
  next => exact (Parse.steady_recordType _).bind fun type => .pure rfl

theorem constructed_alike (related : placed position position') {items items' : List NewItem}
    (parts : List.Forall₂ (NewItem.Alike placed) items items') {type? : Option Ty}
    {isArray : Bool} :
    Alike placed kinds (ctx.constructed type? isArray position items)
      (ctx.constructed type? isArray position' items') Eq := by
  unfold constructed
  rw [← NewItem.map_value_eq parts]
  split
  next => exact .lift (newArray_alike related)
  next =>
    have duplicates := NewItem.duplicate?_alike ctx.env.options [] parts
    generalize NewItem.duplicate? ctx.env.options [] items = found? at duplicates
    generalize NewItem.duplicate? ctx.env.options [] items' = found?' at duplicates
    cases duplicates with
    | some found => exact .failAt found.position
    | none =>
        cases type? with
        | none =>
            have same : ctx.projection items' = ctx.projection items := by
              rw [projection, projection, NewItem.named_eq parts]
            simp only [same]
            exact projection_steady items kinds
        | some type => exact .lift (newOfType_alike parts related)

variable (steady : Steady placed expression)

include steady

theorem constructionBody_alike (related : placed position position') :
    Alike placed kinds (ctx.constructionBody expression position)
      (ctx.constructionBody expression position') Eq := by
  refine (newType?_alike related).bind fun type? => (arrayMark_steady _).bind fun isArray => ?_
  refine (Parse.steady_advance _).bind fun _ => .tokensLeft fun fuel => ?_
  refine (newItems_alike steady _).bindRel fun items items' parts => ?_
  refine (atEnd_steady _).bind fun ended => ?_
  cases ended with
  | true => exact (Parse.steady_advance _).bind fun _ => constructed_alike related parts
  | false => exact .failHere

theorem construction_steady : Steady placed (ctx.construction expression) := by
  intro kinds
  refine (Parse.steady_advance _).bind fun _ => .position fun position position' related => ?_
  refine .current fun next next' alike _ => ?_
  rw [← opensConstruction_eq alike.toEquivalent]
  split
  next => exact constructionBody_alike steady related
  next => exact .failHere

end Construction

section Function

variable (steady : Steady placed expression)

include steady

theorem functionArguments_steady : Steady placed (functionArguments expression) :=
  fun _ => (Parse.steady_advance _).bind fun _ => steady.argumentList _

theorem iifFunction_steady : Steady placed (ctx.iifFunction expression) := by
  intro kinds
  refine .position fun position position' related => ?_
  refine (functionArguments_steady steady _).bind fun args => ?_
  split
  next => exact .lift (Expr.choose_alike related)
  next => exact .failAt related

theorem isnullFunction_steady : Steady placed (ctx.isnullFunction expression) := by
  intro kinds
  refine .position fun position position' related => ?_
  refine (functionArguments_steady steady _).bind fun args => ?_
  split
  next => exact .lift (Expr.orElseValue_alike related)
  next => exact .failAt related

theorem npFunction_steady : Steady placed (ctx.npFunction expression) := by
  intro kinds
  refine .position fun position position' related => ?_
  have protect (chain : Expr) (default? : Option Expr) :
      Alike placed (fun _ => True)
        (if chain.receiver?.isSome then
          Parse.lift (chain.propagateNull ctx.env.classes position default?)
        else Parse.failAt position .npTarget)
        (if chain.receiver?.isSome then
          Parse.lift (chain.propagateNull ctx.env.classes position' default?)
        else Parse.failAt position' .npTarget) Eq := by
    split
    next => exact .lift (Expr.propagateNull_alike related)
    next => exact .failAt related
  refine (functionArguments_steady steady _).bind fun args => ?_
  split
  next chain => exact protect chain none
  next chain default => exact protect chain (some default)
  next => exact .failAt related

theorem typeTestFunction_steady (test : TypeTest) :
    Steady placed (ctx.typeTestFunction expression test) := by
  intro kinds
  refine .position fun position position' related => ?_
  have finish {kinds : TokenKind → Prop} (target arg : Expr) :
      Alike placed kinds
        (do
          let wanted ← ctx.typeArgument test.word position arg
          let type ← Parse.lift (typeTestType test wanted position)
          return Expr.typeTest type target wanted test)
        (do
          let wanted ← ctx.typeArgument test.word position' arg
          let type ← Parse.lift (typeTestType test wanted position')
          return Expr.typeTest type target wanted test) Eq :=
    (typeArgument_alike related).bind fun wanted =>
      (Alike.lift (typeTestType_alike related)).bind fun type => .pure rfl
  refine (functionArguments_steady steady _).bind fun args => ?_
  split
  next arg =>
    refine .scope fun frame => ?_
    split
    next it _ => exact finish _ arg
    next => exact .failAt related
  next target arg => exact finish target arg
  next => exact .failAt related

omit steady in
theorem contextParameter_steady (name : ContextName) : Steady placed (contextParameter name) := by
  intro kinds
  refine .scope fun frame => ?_
  simp only
  split
  next => exact (Parse.steady_advance _).bind fun _ => .pure rfl
  next => exact .failHere

theorem keyword_steady (keyword : Keyword) : Steady placed (ctx.keyword expression keyword) := by
  cases keyword with
  | context name => exact contextParameter_steady name
  | iif => exact iifFunction_steady steady
  | isnull => exact isnullFunction_steady steady
  | new => exact construction_steady steady
  | nullPropagation => exact npFunction_steady steady
  | typeTest test => exact typeTestFunction_steady steady test
  | type t => exact fun _ => (Parse.steady_advance _).bind fun _ => typeAccess_steady steady t _
  | constant value => exact fun _ => (Parse.steady_advance _).bind fun _ => .pure rfl

end Function

section Primary

theorem literalToken_alike {read : Token → Except CompileError Expr} {kind : TokenKind}
    (reads : ∀ token token' : Token, token.Alike placed token' → token.kind = kind →
      Outcome.Alike placed Eq (read token) (read token')) :
    Alike placed (· = kind) (literalToken read) (literalToken read) Eq :=
  .current fun token token' alike isKind => (Alike.lift (reads token token' alike isKind)).bind
    fun _ => (Parse.steady_advance _).bind fun _ => .pure rfl

variable (steady : Steady placed expression)

include steady

theorem symbolExpr_steady (symbol : Symbol) : Steady placed (ctx.symbolExpr expression symbol) := by
  intro kinds
  unfold symbolExpr
  split
  next p => exact .pure rfl
  next t => exact typeAccess_steady steady t _
  next v _ => exact .pure rfl
  next e =>
    split
    next params result typed =>
      refine .check rfl fun call => ?_
      cases call with
      | true => exact functionCall_steady steady _ _ _ _
      | false => exact .pure rfl
    next => exact .pure rfl

theorem name_alike :
    Alike placed (· = .identifier) (ctx.name expression) (ctx.name expression) Eq := by
  refine .current fun token token' alike isName => ?_
  rw [← alike.text (by rw [isName]; rfl)]
  refine .scope fun frame => ?_
  split
  next keyword _ => exact keyword_steady steady keyword _
  next =>
    refine .get fun session session' alike _ => ?_
    rw [← alike.internals]
    split
    next symbol _ =>
      exact (Parse.steady_advance _).bind fun _ => symbolExpr_steady steady symbol _
    next =>
      split
      next it _ => exact memberAccess_steady steady _ _
      next => exact .failHere

theorem atom_steady : Steady placed (ctx.atom expression) := by
  intro kinds
  refine .current fun token token' alike _ => ?_
  have normal := alike.kind
  generalize token.kind = kind at normal
  generalize token'.kind = kind' at normal
  induction kind, kind', normal using TokenKind.normal_cases with
  | same kind =>
      split
      next => exact name_alike steady
      next => exact literalToken_alike fun _ _ alike isString => Literal.quoted_alike alike isString
      next =>
        refine literalToken_alike fun token token' alike isInteger => ?_
        rw [alike.text (by rw [isInteger]; rfl)]
        exact Literal.integer_alike alike.position
      next =>
        refine literalToken_alike fun token token' alike isReal => ?_
        rw [alike.text (by rw [isReal]; rfl)]
        exact Literal.real_alike alike.position
      next =>
        exact (Parse.steady_advance _).bind fun _ => (steady _).bind fun e =>
          (Parse.steady_expect rfl _).bind fun _ => .pure rfl
      next => exact .failHere
  | _ => exact .failHere

theorem suffixes_steady (fuel : Nat) (e : Expr) :
    Steady placed (ctx.suffixes expression fuel e) := by
  induction fuel generalizing e with
  | zero => exact fun _ => .pure rfl
  | succ fuel ih =>
      intro kinds
      refine .current fun token token' alike _ => ?_
      have normal := alike.kind
      generalize token.kind = kind at normal
      generalize token'.kind = kind' at normal
      induction kind, kind', normal using TokenKind.normal_cases with
      | same kind =>
          split
          next =>
            exact (Parse.steady_advance _).bind fun _ =>
              (memberAccess_steady steady _ _).bind fun e => ih e _
          next => exact (elementAccess_steady steady _ _).bind fun e => ih e _
          next => exact .failHere
          next => exact .pure rfl
      | _ => exact .pure rfl

theorem primary_steady : Steady placed (ctx.primary expression) :=
  fun _ => (atom_steady steady _).bind fun e => .tokensLeft fun _ => suffixes_steady steady _ e _

end Primary

end CompileContext

end QueryTree
