import QueryTree.Proofs.Compile.Member
import QueryTree.Proofs.Compile.Primary
import QueryTree.Proofs.Independence.Types
import QueryTree.Proofs.Independence.Runs
import QueryTree.Proofs.Safety.Operand

/-!
# Members and calls after a history

The procedures for members, calls and types go together in the run after the history and in the
fresh run, provided that the expressions nested in them do and that no name that is read mentions a
record type.
-/

namespace QueryTree

instance : Numbered Symbol where
  renumbered number
    | .parameter p => .parameter (p.renumbered number)
    | .value v => .value v
    | .expr e => .expr (e.renumbered number)
  renumbered_again number
    | .parameter p => congrArg Symbol.parameter (p.renumbered_renumbered number id)
    | .value _ => rfl
    | .expr e => congrArg Symbol.expr (e.renumbered_renumbered number id)

/-- An expression is no text that mentions a record type. -/
def Expr.IsSilent (e : Expr) : Prop :=
  ∀ name, e.value? = some (.string name) → mentionsRecord name = false

theorem Expr.IsSilent.of_noText {e : Expr} (noText : e.value?.bind Value.string? = none) :
    e.IsSilent := by
  intro name isText
  rw [isText] at noText
  cases noText

/-- No other text stands for an expression when it is adapted. -/
theorem Expr.IsSilent.adapted {table : ClassTable} {e e' : Expr} (silent : e.IsSilent)
    (isAdapted : Expr.Adapted table e e') : e'.IsSilent := by
  induction isAdapted with
  | same => exact silent
  | promoted _ outcome ih =>
      obtain ⟨rfl, -⟩ | ⟨_, _, constant, -⟩ | ⟨rfl, -⟩ | ⟨rfl, -⟩ := Expr.promote?_cases outcome
      · exact ih
      · cases Expr.promotedConstant constant with
        | null => exact .of_noText rfl
        | @reread _ _ again _ _ read =>
            rintro name isText
            obtain rfl : again = .string name := Option.some.inj isText
            cases Expr.string?_of_reread? read
      · exact .of_noText rfl
      · exact ih
  | read _ outcome =>
      obtain ⟨text, value, -, reads, rfl⟩ := Expr.readText?_eq_ok outcome
      rintro name isText
      obtain rfl : value = .string name := Option.some.inj isText
      obtain ⟨a, -, notString, kind⟩ := Value.ofText_kind reads
      obtain rfl : a = .string := Ty.atom.inj (Ty.eq_atom_of_beq kind.2)
      exact absurd rfl notString
  | integer _ outcome =>
      rintro name isText
      obtain rfl := Option.some.inj isText
      obtain ⟨text, -, read⟩ := Option.bind_eq_some_iff.mp outcome
      obtain ⟨n, -, made⟩ := Option.bind_eq_some_iff.mp read
      obtain ⟨i, -, same⟩ := Option.map_eq_some_iff.mp made
      cases same
  | member _ taken =>
      obtain ⟨op, outcome, -⟩ := taken
      obtain ⟨enum, n, -, -, rfl⟩ := Expr.enumConstant_cases outcome
      exact .of_noText rfl
  | null => exact .of_noText rfl
  | convert => exact .of_noText rfl

/-- The constant of a literal has no parameters and no record types in it. -/
theorem Literal.IsLiteral.renumbered {e : Expr} (isLiteral : Literal.IsLiteral e)
    (number : Nat → Nat) : e.renumbered number = e := by
  obtain ⟨value, text, rfl, isValue⟩ := isLiteral
  cases value <;> first | rfl | cases isValue

namespace Rerun

open Parse (Within)

/-- The contexts of the two runs. -/
structure Contexts (w : Rerun) (after fresh : CompileContext) : Prop where
  env : after.env = fresh.env
  symbols : ∀ key, w.Twin (after.symbols.lookup key) (fresh.symbols.lookup key)
  externals : after.externals = fresh.externals

/-- What is read in the fresh run mentions no record type. -/
structure Silent (w : Rerun) (ctx : CompileContext) (granted : Expr → Prop) : Prop where
  word : ∀ token, Token.Met w.tokens token → mentionsRecord token.text = false
  text : ∀ visible e, ctx.Built w.tokens granted visible e → e.IsSilent

/-- What the procedures rely on: the contexts of the two runs, and nested expressions that go
together. -/
structure Nested (w : Rerun) (ctx ctx' : CompileContext) (granted : Expr → Prop)
    (expression expression' : Parse Expr) : Prop where
  contexts : w.Contexts ctx ctx'
  silent : w.Silent ctx' granted
  built : ctx'.Nested w.tokens granted expression'
  steps : w.Steps expression expression'

variable {w : Rerun} {ctx ctx' : CompileContext}

theorem Contexts.unnumbered (contexts : w.Contexts ctx ctx') : ctx.unnumbered = ctx'.unnumbered := by
  rw [CompileContext.unnumbered, CompileContext.unnumbered, contexts.env]

theorem Contexts.classes (contexts : w.Contexts ctx ctx') : ctx.env.classes = ctx'.env.classes :=
  congrArg Environment.classes contexts.env

/-! ## Twins -/

section Twins

theorem Twin.expr {e e' : Expr} (twin : w.Twin e e') : e.renumbered id = e'.renumbered w.number :=
  twin

theorem Twin.exprs {es es' : List Expr} (twin : w.Twin es es') :
    es.map (Expr.renumbered id) = es'.map (Expr.renumbered w.number) :=
  twin

theorem Twin.unnumbered {type type' : Ty} (twin : w.Twin type type') :
    type.unnumbered = type'.unnumbered :=
  twin

theorem Twin.parameter {p p' : Parameter} (twin : w.Twin p p') :
    p.renumbered id = p'.renumbered w.number :=
  twin

theorem Twin.frame {frame frame' : ScopeFrame} (twin : w.Twin frame frame') :
    frame.renumbered id = frame'.renumbered w.number :=
  twin

theorem Twin.type {e e' : Expr} (twin : w.Twin e e') : w.Twin e.type e'.type := by
  have types := congrArg Expr.type twin.expr
  rwa [Expr.type_renumbered, Expr.type_renumbered] at types

theorem Twin.value? {e e' : Expr} (twin : w.Twin e e') : e.value? = e'.value? := by
  rw [← e.value?_renumbered, twin.expr, Expr.value?_renumbered]

theorem Twin.receiver {e e' : Expr} (twin : w.Twin e e') :
    (Receiver.value e).renumbered id = (Receiver.value e').renumbered w.number :=
  congrArg Receiver.value twin

theorem Steps.liftExpr {outcome outcome' : Except CompileError Expr}
    (same : outcome.toOption.map (Expr.renumbered id)
      = outcome'.toOption.map (Expr.renumbered w.number)) :
    w.Steps (Parse.lift outcome) (Parse.lift outcome') :=
  .lift same

/-- A literal is read as the same constant in both runs. -/
theorem Steps.literal {outcome : Except CompileError Expr}
    (isLiteral : ∀ e, outcome = .ok e → Literal.IsLiteral e) :
    w.Steps (Parse.lift outcome) (Parse.lift outcome) := by
  cases outcome with
  | ok e =>
      refine .pure ?_
      change e.renumbered id = e.renumbered w.number
      rw [(isLiteral e rfl).renumbered, (isLiteral e rfl).renumbered]
  | error error => exact .failAt

/-- Both of two optional values that are the same up to numbers are there, or neither. -/
theorem Twin.cases {α : Type} [Numbered α] {a? a'? : Option α} (twin : w.Twin a? a'?) :
    (a? = none ∧ a'? = none) ∨ ∃ a a', a? = some a ∧ a'? = some a' ∧ w.Twin a a' := by
  cases a? <;> cases a'?
  · exact .inl ⟨rfl, rfl⟩
  · cases twin
  · cases twin
  · exact .inr ⟨_, _, rfl, rfl, Option.some.inj twin⟩

theorem Twin.filter {α : Type} [Numbered α] {a? a'? : Option α} (twin : w.Twin a? a'?)
    (keeps : Bool) : w.Twin (a?.filter fun _ => keeps) (a'?.filter fun _ => keeps) := by
  obtain ⟨rfl, rfl⟩ | ⟨a, a', rfl, rfl, inner⟩ := twin.cases
  · rfl
  · cases keeps with
    | true => exact congrArg some inner
    | false => rfl

/-- Lists that are the same up to numbers are both empty, or neither. -/
theorem Twin.list_cases {α : Type} [Numbered α] {as as' : List α} (twin : w.Twin as as') :
    (as = [] ∧ as' = []) ∨ ∃ a rest a' rest', as = a :: rest ∧ as' = a' :: rest'
      ∧ w.Twin a a' ∧ w.Twin rest rest' := by
  cases as <;> cases as'
  · exact .inl ⟨rfl, rfl⟩
  · cases twin
  · cases twin
  · obtain ⟨first, rest⟩ := List.cons.inj twin
    exact .inr ⟨_, _, _, _, rfl, rfl, first, rest⟩

/-- Lists that are the same up to numbers are so part by part. -/
theorem Twin.forall₂ {α : Type} [Numbered α] {as as' : List α} (twin : w.Twin as as') :
    List.Forall₂ w.Twin as as' := by
  have same : as.map (Numbered.renumbered id) = as'.map (Numbered.renumbered w.number) := twin
  rwa [← List.forall₂_eq_eq_eq, List.forall₂_map_left_iff, List.forall₂_map_right_iff] at same

theorem Twin.types {args args' : List Expr} (twin : w.Twin args args') :
    w.Twin (args.map (·.type)) (args'.map (·.type)) := by
  have types := congrArg (List.map Expr.type) twin.exprs
  simp only [List.map_map, Function.comp_def, Expr.type_renumbered] at types
  change (args.map _).map _ = (args'.map _).map _
  rw [List.map_map, List.map_map]
  exact types

end Twins

/-! ## Named types -/

section Types

variable (contexts : w.Contexts ctx ctx')

include contexts

theorem resolveType? {name : String} (silent : mentionsRecord name = false) {frame frame' : ScopeFrame}
    (twin : w.Twin frame frame') (anyType : Bool) :
    w.Twin (ctx.env.resolveType? name frame.types anyType)
      (ctx'.env.resolveType? name frame'.types anyType) := by
  have scope : frame.types.map Ty.unnumbered = frame'.types.map Ty.unnumbered := by
    rw [← @ScopeFrame.types_renumbered id, twin.frame, ScopeFrame.types_renumbered]
  rw [contexts.env]
  exact ctx'.env.resolveType?_congr silent anyType scope

theorem typeArgument {function : String} {position : Nat} {arg arg' : Expr}
    (twin : w.Twin arg arg')
    (silent : arg'.IsSilent) :
    w.Steps (ctx.typeArgument function position arg) (ctx'.typeArgument function position arg') := by
  rw [CompileContext.typeArgument, CompileContext.typeArgument, twin.value?]
  split
  next name isText =>
    refine Steps.scope.bind fun frame frame' frames => ?_
    obtain ⟨missing, missing'⟩ | ⟨type, type', found, found', types⟩ :=
      (resolveType? contexts (silent name isText) frames true).cases
    · rw [missing, missing']
      exact .failAt
    · rw [found, found']
      exact .pure types
  next => exact .pure rfl
  next => exact .failAt

end Types

/-! ## Members and calls -/

namespace Nested

variable {granted : Expr → Prop} {expression expression' : Parse Expr}
  (nested : w.Nested ctx ctx' granted expression expression')

include nested

theorem arguments_silent (frame : ScopeFrame) :
    (Parse.withScope frame (Parse.argumentList expression')).Ascertains w.tokens
      fun args => ∀ arg ∈ args, arg.IsSilent :=
  Within.ascertains fun _ => .withScope <|
    Within.imp (.argumentList (nested.built.yields _)) fun _ each arg isArg =>
      nested.silent.text _ _ (each arg isArg)

theorem typing? (operation : Aggregate) {element element' : Ty} {args args' : List Expr}
    (elements : w.Twin element element') (twins : w.Twin args args') :
    w.Twin (operation.typing? ctx.env.classes element (args.map (·.type)))
      (operation.typing? ctx'.env.classes element' (args'.map (·.type))) := by
  have types : (args.map (·.type)).map Ty.unnumbered = (args'.map (·.type)).map Ty.unnumbered :=
    Twin.types twins
  have typed := Aggregate.typing?_unnumbered ctx'.env.classes operation element
    (args.map (·.type))
  rw [elements.unnumbered, types, Aggregate.typing?_unnumbered] at typed
  rw [nested.contexts.classes]
  exact typed.symm

theorem typedCall (operation : Aggregate) (position : Nat) {source source' : Expr}
    {element element' : Ty} {p p' : Parameter} {promoted promoted' : List Expr}
    (sources : w.Twin source source') (elements : w.Twin element element')
    (parameters : w.Twin p p') (twins : w.Twin promoted promoted') :
    w.Steps
      (match operation.typing? ctx.env.classes element (promoted.map (·.type)) with
        | some (type, typeArgs) =>
          return .aggregate type operation source typeArgs (operation.bindElement p promoted)
        | none => Parse.failAt position (.noApplicableAggregate operation.name) : Parse Expr)
      (match operation.typing? ctx'.env.classes element' (promoted'.map (·.type)) with
        | some (type, typeArgs) =>
          return .aggregate type operation source' typeArgs (operation.bindElement p' promoted')
        | none => Parse.failAt position (.noApplicableAggregate operation.name)) := by
  obtain ⟨missing, missing'⟩ | ⟨⟨type, typeArgs⟩, ⟨type', typeArgs'⟩, typed, typed', same⟩ :=
    (nested.typing? operation elements twins).cases
  · rw [missing, missing']
    exact .failAt
  · rw [typed, typed']
    obtain ⟨sameType, sameArgs⟩ : type.unnumbered = type'.unnumbered
      ∧ typeArgs.map Ty.unnumbered = typeArgs'.map Ty.unnumbered := Prod.mk.inj same
    refine .pure ?_
    change Expr.renumbered id _ = Expr.renumbered w.number _
    simp only [Expr.renumbered, sources.expr, sameType, sameArgs, Expr.renumberedAll_eq_map,
      ← Aggregate.bindElement_renumbered, parameters.parameter, twins.exprs]

theorem typeNamedCall (operation : Aggregate) (position : Nat) {source source' arg arg' : Expr}
    (sources : w.Twin source source') (args : w.Twin arg arg') (silent : arg'.IsSilent) :
    w.Steps
      (do
        let wanted ← ctx.typeArgument operation.name position arg
        return .aggregate (.sequence wanted) operation source [wanted] [] : Parse Expr)
      (do
        let wanted ← ctx'.typeArgument operation.name position arg'
        return .aggregate (.sequence wanted) operation source' [wanted] []) := by
  refine (typeArgument nested.contexts args silent).bind fun wanted wanted' types => .pure ?_
  change Expr.renumbered id _ = Expr.renumbered w.number _
  simp [Expr.renumbered, Ty.unnumbered, types.unnumbered, sources.expr]

theorem parseCall {operation : Aggregate} {source source' : Expr} {element element' : Ty}
    {name : String} {position : Nat} (sources : w.Twin source source')
    (elements : w.Twin element element') :
    w.Steps (operation.parseCall ctx expression source element name position)
      (operation.parseCall ctx' expression' source' element' name position) := by
  refine (Steps.newParameter elements).bind fun p p' ps =>
    Steps.scope.bind fun outer outer' outers => ?_
  have scopes : w.Twin (operation.argumentScope outer p) (operation.argumentScope outer' p') := by
    change ScopeFrame.renumbered id _ = ScopeFrame.renumbered w.number _
    rw [← Aggregate.argumentScope_renumbered, outers.frame, ps.parameter,
      Aggregate.argumentScope_renumbered]
  refine (Steps.withScope scopes nested.steps.argumentList).bindWhere
    (nested.arguments_silent _) fun args args' twins silent => ?_
  have chosen : (Aggregate.resolve ctx.env.classes name args).renumbered id id
      = (Aggregate.resolve ctx'.env.classes name args').renumbered w.number id := by
    rw [nested.contexts.classes, ← Aggregate.resolve_renumbered, twins.exprs,
      Aggregate.resolve_renumbered]
  cases h : Aggregate.resolve ctx.env.classes name args <;>
    cases h' : Aggregate.resolve ctx'.env.classes name args' <;> rw [h, h'] at chosen <;>
    first | exact .failAt | cases chosen | skip
  next candidate promoted candidate' promoted' =>
    obtain ⟨rfl, twins⟩ := Resolution.found.inj chosen
    obtain ⟨operation, params⟩ := candidate
    obtain ⟨targets, -, fits⟩ := Resolution.choose_found h'
    have adapted := Expr.promoteAll?_adapted fits
    have promotedSilent {arg' : Expr} (isArg : arg' ∈ promoted') : arg'.IsSilent := by
      obtain ⟨i, inBounds, rfl⟩ := List.getElem_of_mem isArg
      have before : i < args'.length := adapted.length_eq ▸ inBounds
      exact (silent _ (List.getElem_mem before)).adapted (adapted.get before inBounds)
    have typed := nested.typedCall operation position sources elements ps twins
    cases operation with
    | ofType | cast =>
        obtain ⟨rfl, rfl⟩ | ⟨arg, rest, arg', rest', rfl, rfl, argTwin, -⟩ :=
          Twin.list_cases twins
        · exact typed
        · exact nested.typeNamedCall _ position sources argTwin
            (promotedSilent List.mem_cons_self)
    | _ => exact typed

theorem memberAccess {receiver receiver' : Receiver}
    (receivers : receiver.renumbered id = receiver'.renumbered w.number) :
    w.Steps (ctx.memberAccess expression receiver) (ctx'.memberAccess expression' receiver') := by
  refine Steps.position.bind fun position position' positions => ?_
  obtain rfl : position = position' := positions
  refine Steps.identifier.bind fun name name' names => Steps.advance.bind fun _ _ _ => ?_
  obtain rfl : name = name' := names
  refine Steps.scope.bind fun frame frame' frames => Steps.check.bind fun arrow arrow' arrows => ?_
  obtain rfl : arrow = arrow' := arrows
  have elements : w.Twin ((CompileContext.elementReceiver? receiver frame).filter fun _ => arrow)
      ((CompileContext.elementReceiver? receiver' frame').filter fun _ => arrow) := by
    have same : (CompileContext.elementReceiver? receiver frame).map (·.renumbered id)
        = (CompileContext.elementReceiver? receiver' frame').map (·.renumbered w.number) := by
      rw [← CompileContext.elementReceiver?_renumbered _ Function.injective_id,
        ← CompileContext.elementReceiver?_renumbered _ w.distinct, receivers, frames.frame]
    exact Twin.filter same arrow
  obtain ⟨none, none'⟩ | ⟨element, element', some, some', twin⟩ := elements.cases
  · rw [none, none']
    refine Steps.check.bindEq ?_ ?_
    · have operations : w.Twin (ctx.sequenceOperation? receiver name)
          (ctx'.sequenceOperation? receiver' name) := by
        have same := @CompileContext.sequenceOperation?_renumbered id ctx receiver name
        rw [nested.contexts.unnumbered, receivers, CompileContext.sequenceOperation?_renumbered]
          at same
        exact same.symm
      simp only [if_true]
      obtain ⟨none, none'⟩ | ⟨found, found', some, some', twin⟩ := operations.cases
      · rw [none, none']
        exact nested.steps.argumentList.bind fun args args' twins => .liftExpr <| by
          rw [← CompileContext.methodCall_renumbered, ← CompileContext.methodCall_renumbered,
            nested.contexts.unnumbered, receivers, twins.exprs]
      · rw [some, some']
        obtain ⟨source, operation, element⟩ := found
        obtain ⟨source', operation', element'⟩ := found'
        obtain ⟨sources, rest⟩ := Prod.mk.inj twin
        obtain ⟨operations, elements⟩ := Prod.mk.inj rest
        obtain rfl : operation = operation' := operations
        exact nested.parseCall sources elements
    · exact .liftExpr <| by
        rw [← CompileContext.namedMember_renumbered, ← CompileContext.namedMember_renumbered,
          nested.contexts.unnumbered, receivers]
  · rw [some, some', nested.contexts.env]
    exact .withInternal twin (Steps.advance.bind fun _ _ _ => nested.steps)

theorem elementAccess {e e' : Expr} (twin : w.Twin e e') :
    w.Steps (ctx.elementAccess expression e) (ctx'.elementAccess expression' e') := by
  refine Steps.position.bind fun position position' positions => Steps.expect.bind fun _ _ _ => ?_
  obtain rfl : position = position' := positions
  refine nested.steps.commaList.bind fun args args' twins => Steps.expect.bind fun _ _ _ => ?_
  exact .liftExpr <| by
    rw [← CompileContext.indexAccess_renumbered, ← CompileContext.indexAccess_renumbered,
      nested.contexts.unnumbered, twin.expr, twins.exprs]

omit nested in
/-- The type before a mark is the same in both runs, with the numbers of its record types, and so is
the type behind it. -/
theorem nullableMark (type : Ty) :
    @Steps Ty Numbered.unchanged w (CompileContext.nullableMark type)
      (CompileContext.nullableMark type) := by
  let same : Numbered Ty := Numbered.unchanged
  refine Steps.check.bindEq ?_ (.pure rfl)
  simp only [if_true]
  split
  · exact .failHere
  · exact Steps.advance.bind fun _ _ _ => .pure rfl

theorem typeAccess (type : Ty) :
    w.Steps (ctx.typeAccess expression type) (ctx'.typeAccess expression' type) := by
  refine Steps.position.bind fun position position' positions =>
    @Steps.bind Ty Expr Numbered.unchanged _ w _ _ _ _ (nullableMark type)
      fun type type' types => ?_
  obtain rfl : position = position' := positions
  obtain rfl : type = type' := types
  refine Steps.check.bindEq ?_ (Steps.check.bindEq ?_ (Steps.check.bindEq ?_ (.pure rfl)))
  · refine Steps.current.bind fun token token' tokens => ?_
    obtain rfl : token = token' := tokens
    refine (Steps.literal fun _ => Literal.quoted_isLiteral).bind fun text text' texts =>
      Steps.advance.bind fun _ _ _ => ?_
    exact .liftExpr <| by
      rw [nested.contexts.classes, ← Expr.convertTo_renumbered, ← Expr.convertTo_renumbered,
        texts.expr]
  · exact nested.steps.argumentList.bind fun args args' twins => .liftExpr <| by
      rw [nested.contexts.classes, ← Expr.constructOf_renumbered, ← Expr.constructOf_renumbered,
        twins.exprs]
  · exact Steps.advance.bind fun _ _ _ => nested.memberAccess rfl

theorem functionCall {function function' : Expr} {params params' : List Ty} {result result' : Ty}
    (functions : w.Twin function function') (types : w.Twin params params')
    (results : w.Twin result result') :
    w.Steps (ctx.functionCall expression function params result)
      (ctx'.functionCall expression' function' params' result') := by
  refine Steps.position.bind fun position position' positions =>
    nested.steps.argumentList.bind fun args args' twins => ?_
  have types : params.map Ty.unnumbered = params'.map Ty.unnumbered := types
  have lengths : args.length = args'.length := by
    simpa using congrArg List.length twins.exprs
  have lengths' : params.length = params'.length := by
    simpa using congrArg List.length types
  rw [lengths, lengths']
  split
  · exact .failAt
  · have fits : w.Twin (Expr.promoteAll? ctx.env.classes .exactly params args)
        (Expr.promoteAll? ctx'.env.classes .exactly params' args') := by
      change Option.map (List.map (Expr.renumbered id)) _
        = Option.map (List.map (Expr.renumbered w.number)) _
      rw [nested.contexts.classes, ← Expr.promoteAll?_renumbered, ← Expr.promoteAll?_renumbered,
        types, twins.exprs]
    obtain ⟨none, none'⟩ | ⟨promoted, promoted', some, some', twin⟩ := fits.cases
    · rw [none, none']
      exact .failAt
    · rw [some, some']
      refine .pure ?_
      change Expr.renumbered id _ = Expr.renumbered w.number _
      simp only [Expr.renumbered, functions.expr, results.unnumbered, Expr.renumberedAll_eq_map,
        twin.exprs]

end Nested

end Rerun

end QueryTree
