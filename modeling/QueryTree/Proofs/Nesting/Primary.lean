import QueryTree.Compile.Primary
import QueryTree.Proofs.Nesting.Step

/-!
# Primary expressions nest their brackets

The procedures of the grammar up to primary expressions pass over texts whose brackets are nested
but for those around the parts of constructions, provided that the expressions nested in them do.
-/

namespace QueryTree

namespace Parse

variable {α : Type} {isNew : String → Prop}

theorem commaList_nests {item : Parse α} (items : Nests isNew item) :
    Nests isNew (commaList item) := by
  have further (fuel : Nat) : Nests isNew (commaList.go item fuel) := by
    intro before
    induction fuel generalizing before with
    | zero => exact .done
    | succ fuel ih =>
        refine .optional (by decide) (fun _ => rfl) (fun _ => ?_) fun _ => .done
        exact .nest (items _) fun next => .nest (ih _) fun rest => .done
  intro before
  exact .nest (items _) fun first => .look .tokensLeft fun fuel =>
    .nest (further (fuel + 1) _) fun rest => .done

theorem argumentList_nests {expression : Parse Expr} (nests : Nests isNew expression) :
    Nests isNew (argumentList expression) := by
  intro before
  have closes {before : Session → Prop} (args : List Expr) :
      Passes before {[Mark.closing .round]} (do
        expect .closeParen (.expected .closeParenOrComma)
        return args) fun _ _ => True :=
    .settle (.expect (by decide) fun _ => rfl) fun _ => .pure fun _ _ => trivial
  refine .weaken (.bind (.expect (by decide) fun _ => rfl) fun _ => .look .check fun closed => ?_)
    (fun _ start => start) (Mark.group_le_nested .round)
  cases closed with
  | true => exact .bind .done fun _ => closes _
  | false => exact .bind (commaList_nests nests _) fun args => closes args

end Parse

namespace CompileContext

open Parse (Nests Passes)

variable {ctx : CompileContext} {isNew : String → Prop} {expression : Parse Expr}

section Procedures

theorem typeArgument_passes {before : Session → Prop} {function : String} {position : Nat}
    {arg : Expr} : Passes before 1 (ctx.typeArgument function position arg) fun _ => before := by
  rw [typeArgument]
  split
  next =>
    refine .look .scope fun frame => ?_
    split
    next => exact .pure fun _ start => start
    next => exact .failAt
  next => exact .pure fun _ start => start
  next => exact .failAt

variable (nests : Nests isNew expression)

include nests

theorem parseCall_nests {operation : Aggregate} {source : Expr} {element : Ty} {name : String}
    {position : Nat} :
    Nests isNew (operation.parseCall ctx expression source element name position) := by
  intro before
  refine .look .newParameter fun p => .look .scope fun outer => ?_
  refine .nest (.withScope (Parse.argumentList_nests nests _)) fun args => ?_
  split
  next =>
    split
    next => exact .nothing (.look typeArgument_passes fun wanted => .pure fun _ _ => trivial)
    next => exact .nothing (.look typeArgument_passes fun wanted => .pure fun _ _ => trivial)
    next =>
      split
      next => exact .done
      next => exact .failAt
  next => exact .failAt

theorem memberAccess_nests {receiver : Receiver} :
    Nests isNew (ctx.memberAccess expression receiver) := by
  intro before
  refine .look .position fun position => .look .identifier fun name => ?_
  refine .nest (.sign (fun _ start => start.2) (by decide) fun _ => rfl) fun _ => ?_
  refine .look .scope fun frame => .look .check fun beforeArrow => ?_
  split
  next element isElement =>
    obtain ⟨-, rfl⟩ := Option.filter_eq_some_iff.mp isElement
    refine .withInternal (fun _ start => beq_iff_eq.mp start.2) ?_
    exact .nest (.sign (fun _ start => start) (by decide) fun _ => rfl) fun _ => nests _
  next =>
    refine .look .check fun call => ?_
    cases call with
    | true =>
        simp only [if_true]
        split
        next => exact parseCall_nests nests _
        next => exact .nest (Parse.argumentList_nests nests _) fun args => .made
    | false => exact .made

theorem elementAccess_nests {e : Expr} : Nests isNew (ctx.elementAccess expression e) := by
  intro before
  refine .look .position fun position => ?_
  refine .weaken (.bind (.expect (by decide) fun _ => rfl) fun _ =>
    .bind (Parse.commaList_nests nests _) fun args =>
      .settle (.expect (by decide) fun _ => rfl) fun _ => .lift fun _ _ => trivial)
    (fun _ start => start) (Mark.group_le_nested .square)

omit nests in
theorem nullableMark_nests {type : Ty} : Nests isNew (nullableMark type) := by
  intro before
  refine .look .check fun marked => ?_
  cases marked with
  | true =>
      simp only [if_true]
      split
      next => exact .failHere
      next =>
        exact .nest (.sign (fun _ start => beq_iff_eq.mp start.2) (by decide) fun _ => rfl)
          fun _ => .done
  | false => exact .done

theorem typeAccess_nests (type : Ty) : Nests isNew (ctx.typeAccess expression type) := by
  intro before
  refine .look .position fun position => .nest (nullableMark_nests _) fun type => ?_
  refine .look .check fun quoted => ?_
  cases quoted with
  | true =>
      refine .look .current fun token => .look (.lift fun _ start => start) fun text => ?_
      exact .nest (.sign (fun _ start => beq_iff_eq.mp start.1.2) (by decide) fun _ => rfl)
        fun _ => .made
  | false =>
      refine .look .check fun call => ?_
      cases call with
      | true => exact .nest (Parse.argumentList_nests nests _) fun args => .made
      | false =>
          exact .optional (by decide) (fun _ => rfl) (fun _ => memberAccess_nests nests _)
            fun _ => .done

theorem functionCall_nests {function : Expr} {params : List Ty} {result : Ty} :
    Nests isNew (ctx.functionCall expression function params result) := by
  intro before
  refine .look .position fun position => .nest (Parse.argumentList_nests nests _) fun args => ?_
  split
  next => exact .failAt
  next =>
    split
    next => exact .done
    next => exact .failAt

end Procedures

section Construction

theorem isWord_kind {token : Token} {word : String} (isWord : token.isWord word = true) :
    token.kind = .identifier :=
  beq_iff_eq.mp ((Bool.and_eq_true _ _).mp isWord).1

theorem newItem_nests (nests : Nests isNew expression) {naming : ItemNaming} :
    Nests isNew (NewItem.parse expression naming) := by
  intro before
  refine .look .position fun position => .nest (nests _) fun value => ?_
  split
  next => exact .done
  next =>
    refine .look .checkWord fun named => ?_
    cases named with
    | true =>
        refine .nest (.sign (fun _ start => isWord_kind start.2) (by decide) fun _ => rfl)
          fun _ => .look .identifier fun name => ?_
        exact .nest (.sign (fun _ start => start.2) (by decide) fun _ => rfl) fun _ => .done
    | false =>
        simp only [Bool.false_eq_true, if_false]
        split
        next => exact .done
        next =>
          split
          next => exact .done
          next => exact .failAt

/-- The parts of a construction end where a round or a curly bracket closes. -/
theorem atEnd_passes {before : Session → Prop} :
    Passes before 1 NewItem.atEnd fun ended session => ended = true →
      session.current.kind = .closeParen ∨ session.current.kind = .closeCurly := by
  refine .look .check fun round => ?_
  cases round with
  | true => exact .pure fun _ start _ => .inl (beq_iff_eq.mp start.2)
  | false =>
      refine .look .check fun curly => .pure fun _ start isCurly => ?_
      exact .inr (beq_iff_eq.mp (start.2.trans isCurly))

theorem newItems_nests (nests : Nests isNew expression) {naming : ItemNaming} (fuel : Nat) :
    Nests isNew (NewItem.parseAll expression naming fuel) := by
  intro before
  induction fuel generalizing before with
  | zero => exact .done
  | succ fuel ih =>
      refine .look atEnd_passes fun ended => ?_
      cases ended with
      | true => exact .done
      | false =>
          refine .nest (newItem_nests nests _) fun item => ?_
          exact .optional (by decide) (fun _ => rfl) (fun _ => .nest (ih _) fun rest => .done)
            fun _ => .done

theorem qualifiedRest_passes {before : Session → Prop} (fuel : Nat) (name : String) :
    Passes before Mark.names (qualifiedRest fuel name) fun _ _ => True := by
  have done {before : Session → Prop} {name : String} :
      Passes before Mark.names (pure name : Parse String) fun _ _ => True :=
    (Passes.pure fun _ _ => trivial).weaken (fun _ start => start) Mark.one_le_names
  induction fuel generalizing before name with
  | zero => exact done
  | succ fuel ih =>
      refine .look .check fun dotted => ?_
      cases dotted with
      | true =>
          refine .join Mark.names_mul_names_le (.pass (fun _ start => beq_iff_eq.mp start.2)
            (by decide) fun _ => List.forall_mem_singleton.mpr rfl) fun _ => ?_
          refine .look .identifier fun part => ?_
          exact .join Mark.names_mul_names_le (.pass (fun _ start => start.2) (by decide)
            fun _ => List.forall_mem_singleton.mpr rfl) fun _ => ih _
      | false => exact done

/-- What can follow `new` and is no name can follow the type of a construction. -/
theorem opensParts_of_opensConstruction {kind : TokenKind} (opens : opensConstruction kind = true)
    (notName : kind ≠ .identifier) : opensParts kind = true := by
  cases kind with
  | openParen | openBracket | openCurly => rfl
  | identifier => exact absurd rfl notName
  | _ => cases opens

/-- Without the mark of an array, the parts of a construction begin with a round or a curly
bracket. -/
theorem round_or_curly_of_opensParts {kind : TokenKind} (opens : opensParts kind = true)
    (notMarked : kind ≠ .openBracket) : kind = .openParen ∨ kind = .openCurly := by
  cases kind with
  | openParen => exact .inl rfl
  | openCurly => exact .inr rfl
  | openBracket => exact absurd rfl notMarked
  | _ => cases opens

theorem newType?_passes {position : Nat} :
    Passes (fun session => opensConstruction session.current.kind = true) Mark.names
      (ctx.newType? position) fun _ session => opensParts session.current.kind = true := by
  refine .look .check fun named => ?_
  cases named with
  | true =>
      refine .look .current fun first => .join Mark.names_mul_names_le (.pass
        (fun _ start => beq_iff_eq.mp start.1.2) (by decide)
        fun _ => List.forall_mem_singleton.mpr rfl) fun _ => ?_
      refine .look .tokensLeft fun fuel => .settle (qualifiedRest_passes _ _) fun name => ?_
      refine .look .scope fun frame => ?_
      split
      next => exact .failAt
      next type resolved =>
        refine .look .current fun next => ?_
        cases opens : opensParts next.kind with
        | true => exact .pure fun _ start => start.2 ▸ opens
        | false => exact .failHere
  | false =>
      refine (Passes.pure fun session start => ?_).weaken (fun _ start => start) Mark.one_le_names
      exact opensParts_of_opensConstruction start.1 (beq_eq_false_iff_ne.mp start.2)

theorem arrayMark_passes :
    Passes (fun session => opensParts session.current.kind = true) Mark.arrayMarks arrayMark
      fun _ session =>
        session.current.kind = .openParen ∨ session.current.kind = .openCurly := by
  refine .look .check fun marked => ?_
  cases marked with
  | true =>
      exact .weaken (.bind (.pass (fun _ start => beq_iff_eq.mp start.2) (by decide) fun _ => rfl)
        fun _ => .settle (.expect (by decide) fun _ => rfl) fun _ =>
          .look .validate fun _ => .pure fun _ start => .inr start.2)
        (fun _ start => start) Mark.arrayMark_le
  | false =>
      refine (Passes.pure fun session start => ?_).weaken (fun _ start => start)
        fun _ isEmpty => .inl isEmpty
      exact round_or_curly_of_opensParts start.1 (beq_eq_false_iff_ne.mp start.2)

theorem constructed_passes {before : Session → Prop} {type? : Option Ty} {isArray : Bool}
    {position : Nat} {items : List NewItem} :
    Passes before 1 (ctx.constructed type? isArray position items) fun _ _ => True := by
  unfold constructed
  split
  next => exact .lift fun _ _ => trivial
  next =>
    split
    next => exact .failAt
    next =>
      split
      next =>
        rw [projection]
        simp only
        split
        next => exact .pure fun _ _ => trivial
        next => exact .look .recordType fun type => .pure fun _ _ => trivial
      next => exact .lift fun _ _ => trivial

variable (nests : Nests isNew expression)

include nests

theorem constructionBody_passes {position : Nat} :
    Passes (fun session => opensConstruction session.current.kind = true)
      (Mark.names * (Mark.arrayMarks * (Mark.openers * (Mark.nested isNew * Mark.closers))))
      (ctx.constructionBody expression position) fun _ _ => True := by
  refine .bind newType?_passes fun type? => .bind arrayMark_passes fun isArray => ?_
  refine .bind (.advance fun session opens => Mark.mem_openers opens) fun _ => ?_
  refine .look .tokensLeft fun fuel => .bind (newItems_nests nests _ _) fun items => ?_
  refine .look atEnd_passes fun ended => ?_
  cases ended with
  | true =>
      exact .settle (.advance fun session closes => Mark.mem_closers (closes rfl)) fun _ =>
        constructed_passes
  | false => exact .failHere

/-- A construction passes over its brackets, whether they are of one kind or not. -/
theorem construction_nests :
    Passes (fun session => session.current.kind = .identifier ∧ isNew session.current.text)
      (Mark.nested isNew) (ctx.construction expression) fun _ _ => True := by
  refine .weaken (.bind (.advance fun session start => ?_) fun _ => .look .position fun position =>
    .look .current fun next => ?_) (fun _ start => start) Mark.construction_le_nested
  · obtain ⟨isName, isNew⟩ := start
    refine ⟨by simp [isName], session.current.text, isNew, ?_⟩
    rw [Token.mark, isName, TokenKind.mark]
  cases opens : opensConstruction next.kind with
  | true => exact (constructionBody_passes nests).weaken (fun _ start => start.2 ▸ opens) le_rfl
  | false => exact .failHere

end Construction

section Function

variable (nests : Nests isNew expression)

/-- The state at a name. -/
def AtName (session : Session) : Prop := session.current.kind = .identifier

include nests

theorem functionArguments_nests :
    Passes AtName (Mark.nested isNew) (functionArguments expression) fun _ _ => True :=
  .nest (.sign (fun _ start => start) (by decide) fun _ => rfl) fun _ =>
    Parse.argumentList_nests nests _

theorem iifFunction_nests :
    Passes AtName (Mark.nested isNew) (ctx.iifFunction expression) fun _ _ => True := by
  refine .look .position fun position => .nest (functionArguments_nests nests) fun args => ?_
  split
  next => exact .made
  next => exact .failAt

theorem isnullFunction_nests :
    Passes AtName (Mark.nested isNew) (ctx.isnullFunction expression) fun _ _ => True := by
  refine .look .position fun position => .nest (functionArguments_nests nests) fun args => ?_
  split
  next => exact .made
  next => exact .failAt

theorem npFunction_nests :
    Passes AtName (Mark.nested isNew) (ctx.npFunction expression) fun _ _ => True := by
  refine .look .position fun position => ?_
  have protect {before : Session → Prop} (chain : Expr) (default? : Option Expr) :
      Passes before (Mark.nested isNew)
        (if chain.receiver?.isSome then
          Parse.lift (chain.propagateNull ctx.env.classes position default?)
        else Parse.failAt position .npTarget) fun _ _ => True := by
    split
    next => exact .made
    next => exact .failAt
  refine .nest (functionArguments_nests nests) fun args => ?_
  split
  next chain => exact protect chain none
  next chain default => exact protect chain (some default)
  next => exact .failAt

theorem typeTestFunction_nests {test : TypeTest} :
    Passes AtName (Mark.nested isNew) (ctx.typeTestFunction expression test) fun _ _ => True := by
  refine .look .position fun position => ?_
  have finish {before : Session → Prop} (target arg : Expr) :
      Passes before (Mark.nested isNew) (do
        let wanted ← ctx.typeArgument test.word position arg
        let type ← Parse.lift (typeTestType test wanted position)
        return Expr.typeTest type target wanted test) fun _ _ => True :=
    .look typeArgument_passes fun wanted => .look (.lift fun _ start => start) fun type => .done
  refine .nest (functionArguments_nests nests) fun args => ?_
  split
  next arg =>
    refine .look .scope fun frame => ?_
    split
    next it _ => exact finish _ arg
    next => exact .failAt
  next target arg => exact finish target arg
  next => exact .failAt

omit nests in
theorem contextParameter_nests {name : ContextName} :
    Passes AtName (Mark.nested isNew) (contextParameter name) fun _ _ => True := by
  refine .look .scope fun frame => ?_
  simp only
  split
  next =>
    exact .nest (.sign (fun _ start => start) (by decide) fun _ => rfl) fun _ => .done
  next => exact .failHere

theorem keyword_nests {keyword : Keyword} :
    Passes (fun session => AtName session ∧ (keyword = .new → isNew session.current.text))
      (Mark.nested isNew) (ctx.keyword expression keyword) fun _ _ => True := by
  have atName (session : Session)
      (start : AtName session ∧ (keyword = .new → isNew session.current.text)) : AtName session :=
    start.1
  cases keyword with
  | context name => exact contextParameter_nests.weaken atName le_rfl
  | iif => exact (iifFunction_nests nests).weaken atName le_rfl
  | isnull => exact (isnullFunction_nests nests).weaken atName le_rfl
  | new => exact (construction_nests nests).weaken (fun _ start => ⟨start.1, start.2 rfl⟩) le_rfl
  | nullPropagation => exact (npFunction_nests nests).weaken atName le_rfl
  | typeTest test => exact (typeTestFunction_nests nests).weaken atName le_rfl
  | type t =>
      exact .nest (.sign atName (by decide) fun _ => rfl) fun _ => typeAccess_nests nests t _
  | constant value => exact .nest (.sign atName (by decide) fun _ => rfl) fun _ => .done

end Function

section Primary

variable (nests : Nests isNew expression)

theorem literalToken_nests {read : Token → Except CompileError Expr} {kind : TokenKind}
    (notFinish : kind ≠ .finish) (isPlain : ∀ text, (kind.mark text).isPlain = true) :
    Passes (fun session => session.current.kind = kind) (Mark.nested isNew) (literalToken read)
      fun _ _ => True :=
  .look .current fun _ => .look (.lift fun _ start => start.1) fun _ =>
    .nest (.sign (fun _ start => start) notFinish isPlain) fun _ => .done

include nests

theorem symbolExpr_nests (symbol : Symbol) : Nests isNew (ctx.symbolExpr expression symbol) := by
  intro before
  unfold symbolExpr
  split
  next p => exact .done
  next t => exact typeAccess_nests nests t _
  next v _ => exact .done
  next e =>
    split
    next params result typed =>
      refine .look .check fun call => ?_
      cases call with
      | true => exact functionCall_nests nests _
      | false => exact .done
    next => exact .done

variable (means : ∀ text, ctx.env.keyword? text = some .new → isNew text)

include means

theorem name_nests :
    Passes AtName (Mark.nested isNew) (ctx.name expression) fun _ _ => True := by
  refine .look .current fun token => .look .scope fun frame => ?_
  split
  next keyword visible =>
    have isKeyword : ctx.env.keyword? token.text = some keyword :=
      (Option.filter_eq_some_iff.mp visible).1
    refine (keyword_nests nests).weaken (fun session start => ⟨start.1, ?_⟩) le_rfl
    rintro rfl
    exact start.2 ▸ means token.text isKeyword
  next =>
    refine .look .get fun session => ?_
    split
    next symbol _ =>
      exact .nest (.sign (fun _ start => start.1) (by decide) fun _ => rfl) fun _ =>
        symbolExpr_nests nests symbol _
    next =>
      split
      next it _ => exact memberAccess_nests nests _
      next => exact .failHere

theorem atom_nests : Nests isNew (ctx.atom expression) := by
  intro before
  refine .look .current fun token => ?_
  split
  next isName =>
    exact (name_nests nests means).weaken
      (fun _ start => (congrArg Token.kind start.2).trans isName) le_rfl
  next isText =>
    exact (literalToken_nests (by decide) fun _ => rfl).weaken (fun _ start => start.2 ▸ isText)
      le_rfl
  next isInteger =>
    exact (literalToken_nests (by decide) fun _ => rfl).weaken (fun _ start => start.2 ▸ isInteger)
      le_rfl
  next isReal =>
    exact (literalToken_nests (by decide) fun _ => rfl).weaken (fun _ start => start.2 ▸ isReal)
      le_rfl
  next isOpen =>
    exact .weaken (.bind (.pass (fun _ start => start.2 ▸ isOpen) (by decide) fun _ => rfl)
      fun _ => .bind (nests _) fun e => .settle (.expect (by decide) fun _ => rfl)
        fun _ => .pure fun _ _ => trivial) (fun _ start => start) (Mark.group_le_nested .round)
  next => exact .failHere

omit means in
theorem suffixes_nests (fuel : Nat) (e : Expr) : Nests isNew (ctx.suffixes expression fuel e) := by
  intro before
  induction fuel generalizing before e with
  | zero => exact .done
  | succ fuel ih =>
      refine .look .current fun token => ?_
      split
      next isDot =>
        refine .nest (.sign (fun _ start => start.2 ▸ isDot) (by decide) fun _ => rfl) fun _ => ?_
        exact .nest (memberAccess_nests nests _) fun e => ih e _
      next => exact .nest (elementAccess_nests nests _) fun e => ih e _
      next => exact .failHere
      next => exact .done

theorem primary_nests : Nests isNew (ctx.primary expression) :=
  fun _ => .nest (atom_nests nests means _) fun e => .look .tokensLeft fun _ =>
    suffixes_nests nests _ e _

end Primary

end CompileContext

end QueryTree
