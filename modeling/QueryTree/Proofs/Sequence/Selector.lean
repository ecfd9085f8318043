import QueryTree.Proofs.Config.Keyword
import QueryTree.Proofs.Sequence.Reading
import QueryTree.Proofs.Sequence.Total

/-!
# The element as a selector

Sums, means, least and greatest values of numbers, without a selector and with the element itself as
one.  A selector of a sum or of a mean is promoted to one of five types, and without a selector the
numbers are taken as they are.
-/

namespace QueryTree

/-- The width in which integers that a selector yields are summed, if they can be. -/
def IntKind.selected? : IntKind → Option IntKind
  | sbyte | byte | int16 | uint16 | int32 => some int32
  | uint32 | int64 => some int64
  | uint64 => none

/-- The type that numbers of a type are promoted to where a selector of a sum or of a mean yields
them, if there is one that is best. -/
def Ty.selected? (t : Ty) : Option Ty :=
  match t.core with
  | .integral kind => kind.selected?.map (·.type t.isNullable)
  | _ => some t

section Types

variable {kind wider : IntKind} {t : Ty}

theorem IntKind.bounds_of_selected (isSelected : kind.selected? = some wider) :
    wider.min ≤ kind.min ∧ kind.max ≤ wider.max := by
  cases kind <;> cases isSelected <;> decide

/-- A type of numbers is one of integers or one of three others, with null or without it. -/
theorem Ty.numeric_cases (isNumeric : t.isNumeric = true) :
    (∃ kind withNull, t = IntKind.type kind withNull) ∨
      ∃ real, (real = Ty.single ∨ real = .double ∨ real = .decimal) ∧
        (t = real ∨ t = .nullable real) := by
  have number {a : Atom} (isNumber : a.isNumeric = true) :
      (∃ kind, a = .integral kind) ∨
        (Ty.atom a = .single ∨ Ty.atom a = .double ∨ Ty.atom a = .decimal) := by
    cases a with
    | integral kind => exact .inl ⟨kind, rfl⟩
    | single => exact .inr (.inl rfl)
    | double => exact .inr (.inr (.inl rfl))
    | decimal => exact .inr (.inr (.inr rfl))
    | _ => cases isNumber
  cases t with
  | atom a =>
      obtain ⟨kind, rfl⟩ | isReal := number isNumeric
      · exact .inl ⟨kind, false, rfl⟩
      · exact .inr ⟨_, isReal, .inl rfl⟩
  | nullable inner =>
      cases inner with
      | atom a =>
          obtain ⟨kind, rfl⟩ | isReal := number isNumeric
          · exact .inl ⟨kind, true, rfl⟩
          · exact .inr ⟨_, isReal, .inr rfl⟩
      | _ => cases isNumeric
  | _ => cases isNumeric

theorem Ty.selected?_numeric {target : Ty} (isNumeric : t.isNumeric = true)
    (isSelected : t.selected? = some target) :
    target.isNumeric = true ∧ target.isSimple = true := by
  obtain ⟨kind, withNull, rfl⟩ | ⟨real, isReal, isType⟩ := numeric_cases isNumeric
  · cases withNull <;> cases kind <;> cases isSelected <;> exact ⟨rfl, rfl⟩
  · obtain rfl | rfl := isType <;> obtain rfl | rfl | rfl := isReal <;> cases isSelected <;>
      exact ⟨rfl, rfl⟩

theorem IntKind.selected?_type (kind : IntKind) (withNull : Bool) :
    (kind.type withNull).selected? = kind.selected?.map (·.type withNull) := by
  cases withNull <;> rfl

end Types

namespace Aggregate

variable {table : ClassTable} {operation : Aggregate} {name : String} {p : Parameter}

/-- Whether an operation makes a number of the numbers of a sequence. -/
def folds : Aggregate → Bool
  | sum | average | min | max => true
  | _ => false

/-- The type of the number that is made of numbers of a type. -/
def foldType (operation : Aggregate) (body : Ty) : Ty :=
  if operation = average then averageType body else body

/-- Whether an operation is applied to the numbers as they are, with and without a selector. -/
def keeps (operation : Aggregate) : Bool := operation = .min || operation = .max

theorem folds_cases (folds : operation.folds = true) :
    operation.keeps = true ∨ operation = .sum ∨ operation = .average := by
  cases operation with
  | sum | average | min | max => decide
  | _ => cases folds

theorem resolve_bare (folds : operation.folds = true) (named : ofName? name = some operation) :
    resolve table name [] = .found (operation, []) [] := by
  rw [resolve_eq named]
  cases operation with
  | sum | average | min | max => rfl
  | _ => cases folds

/-- The element itself is a selector of a least or greatest value as it is. -/
theorem resolve_keeps (keeps : operation.keeps = true) (named : ofName? name = some operation) :
    resolve table name [.parameter p] = .found (operation, [.object]) [.parameter p] := by
  have overloads : signatures.filter (·.1 = operation) =
      [(operation, []), (operation, [.object])] := by
    cases operation with
    | min | max => rfl
    | _ => cases keeps
  have refused : Expr.promoteAll? table .element [] [.parameter p] = none := rfl
  have accepted : Expr.promoteAll? table .element [.object] [.parameter p] =
      some [.parameter p] := by
    rw [Expr.promoteAll?, Expr.promote?_object_of_value? rfl]
    rfl
  rw [resolve_eq named, overloads]
  simp [Resolution.choose, Resolution.applicable, refused, accepted]

theorem signatures_of_total (isTotal : operation = .sum ∨ operation = .average) :
    signatures.filter (·.1 = operation) = (operation, []) ::
      (OperatorGroup.withNullable OperatorGroup.signedTypes).map fun t => (operation, [t]) := by
  obtain rfl | rfl := isTotal <;> rfl

/-- The element is promoted to the best type as a selector of a sum or of a mean. -/
theorem resolve_selected {target : Ty} (isTotal : operation = .sum ∨ operation = .average)
    (named : ofName? name = some operation) (numeric : p.type.isNumeric = true)
    (isSelected : p.type.selected? = some target) :
    resolve table name [.parameter p] =
      .found (operation, [target]) [(Expr.parameter p).convertedTo target] := by
  rw [resolve_eq named, signatures_of_total isTotal]
  obtain ⟨id, shown, type⟩ := p
  obtain ⟨kind, withNull, rfl⟩ | ⟨real, isReal, isType⟩ := Ty.numeric_cases numeric
  · cases withNull <;> cases kind <;> cases isSelected <;> rfl
  · obtain rfl | rfl := isType <;> obtain rfl | rfl | rfl := isReal <;> cases isSelected <;> rfl

/-- No type is the best one for integers of 64 bits without a sign. -/
theorem resolve_ambiguous (isTotal : operation = .sum ∨ operation = .average)
    (named : ofName? name = some operation) (numeric : p.type.isNumeric = true)
    (isSelected : p.type.selected? = none) :
    ∃ count, resolve table name [.parameter p] = .ambiguous count := by
  rw [resolve_eq named, signatures_of_total isTotal]
  obtain ⟨id, shown, type⟩ := p
  obtain ⟨kind, withNull, rfl⟩ | ⟨real, isReal, isType⟩ := Ty.numeric_cases numeric
  · rw [IntKind.selected?_type, Option.map_eq_none_iff] at isSelected
    obtain rfl : kind = .uint64 := by
      cases kind <;> first | rfl | cases isSelected
    cases withNull <;> exact ⟨_, rfl⟩
  · obtain rfl | rfl := isType <;> obtain rfl | rfl | rfl := isReal <;> cases isSelected

theorem typing?_folds (table : ClassTable) (folds : operation.folds = true) {element : Ty}
    (bodies : List Ty) (numeric : (bodies.head?.getD element).isNumeric = true) :
    ∃ types, operation.typing? table element bodies =
      some (operation.foldType (bodies.head?.getD element), types) := by
  cases operation with
  | sum | average => exact ⟨[element], if_pos numeric⟩
  | min | max => exact ⟨element :: bodies, rfl⟩
  | _ => cases folds

theorem plain_of_folds (folds : operation.folds = true) :
    (operation ≠ .ofType ∧ operation ≠ .cast) ∧ operation.seesOuterScope = false ∧
      operation.takesValues = false := by
  cases operation with
  | sum | average | min | max => decide
  | _ => cases folds

end Aggregate

namespace Aggregate

variable {operation : Aggregate} {type : Ty} {v : Value} {args args' : List SequenceArgument}

/-- An operation makes the same of the same numbers, whether a selector yields them or not. -/
theorem evaluate_congr (folds : operation.folds = true)
    (same : ∀ items, projected args.head? items = projected args'.head? items) :
    operation.evaluate type v args = operation.evaluate type v args' := by
  cases operation with
  | sum | average | min | max => simp only [evaluate, same]
  | _ => cases folds

theorem numbers_eq {values values' : List Value}
    (same : List.Forall₂ (fun v w => Value.toInt? v = w.toInt?) values values') :
    numbers values = numbers values' := by
  induction same with
  | nil => rfl
  | cons head _ ih =>
      rw [numbers, numbers, List.filterMap_cons, List.filterMap_cons, head, ← numbers, ← numbers,
        ih]

end Aggregate

namespace Expr

open Aggregate (totalIn meanIn numbers)

variable {ctx : EvalContext} {source : Expr} {operation : Aggregate} {type target : Ty}
  {types types' : List Ty} {p : Parameter} {items : List Value}

/-- The element itself selects the items. -/
theorem projected_parameter (items : List Value) :
    Aggregate.projected (arguments [lambda [p] (parameter p)] ctx).head? items = .ok items := by
  have each : ∀ item ∈ items, (lambda [p] (parameter p)).apply ctx [item] = .ok item :=
    fun item _ => ctx.lookup_bind p item
  exact (mapM_eq_ok each).trans (congrArg Except.ok (List.map_id' items))

section Integers

variable {kind wider : IntKind} {withNull : Bool} {args : List Expr}

/-- The arguments of an operation yield integers of a width, of the numbers of the items. -/
def YieldsNumbers (kind : IntKind) (operation : Aggregate) (source : Expr) (args : List Expr)
    (ctx : EvalContext) : Prop :=
  ∀ items, source.itemsFor operation ctx = .ok items →
    ∃ values, Aggregate.projected (arguments args ctx).head? items = .ok values ∧
      (∀ v ∈ values, v.OfWidth kind) ∧ numbers values = numbers items

variable (conform : ∀ items, source.itemsFor operation ctx = .ok items →
  ∀ v ∈ items, v.conformsTo (kind.type withNull) = true)

include conform

theorem yieldsNumbers_bare : YieldsNumbers kind operation source [] ctx := fun items isItems =>
  ⟨items, rfl, fun v isItem => Value.ofWidth_of_conformsTo (conform items isItems v isItem), rfl⟩

theorem yieldsNumbers_element (isType : p.type = kind.type withNull)
    (hasRoom : wider.min ≤ kind.min ∧ kind.max ≤ wider.max) :
    YieldsNumbers wider operation source
      [lambda [p] ((parameter p).convertedTo (wider.type withNull))] ctx := by
  intro items isItems
  have each : ∀ item ∈ items, ∃ addend,
      (lambda [p] ((parameter p).convertedTo (wider.type withNull))).apply ctx [item] =
        .ok addend ∧ addend.OfWidth wider ∧ addend.toInt? = item.toInt? := by
    intro item isItem
    have conforms := conform items isItems item isItem
    have ofWidth := Value.ofWidth_of_conformsTo conforms
    obtain ⟨addend, converted, isAddend⟩ :=
      Value.convertTo_of_fits withNull ofWidth (ofWidth.fits (Value.forall_fits_iff.mpr hasRoom))
    have isElement : item.conformsTo p.type = true := isType ▸ conforms
    have converts : ((parameter p).convertedTo (wider.type withNull)).evaluate (ctx.bind p item) =
        item.convertTo (wider.type withNull) :=
      evaluate_convertedTo (ctx.lookup_bind p item) isElement
    exact ⟨addend, converts.trans converted, isAddend⟩
  obtain ⟨addends, projected, areAddends⟩ := exists_mapM_eq_ok each
  obtain ⟨ofWidth, sameNumbers⟩ := List.forall₂_and_left _ _ |>.mp areAddends.flip
  exact ⟨addends, projected, ofWidth, Aggregate.numbers_eq sameNumbers⟩

end Integers

section Results

variable {kind : IntKind} {args : List Expr}

/-- Integers of one width are summed in it. -/
theorem evaluate_sum (isWidth : type.core = .integral kind)
    (yields : YieldsNumbers kind .sum source args ctx) :
    (aggregate type .sum source types args).evaluate ctx =
      source.itemsFor .sum ctx >>= fun items => totalIn kind (numbers items) := by
  refine evaluate_aggregate fun v items isItems isSequence => ?_
  obtain ⟨values, projected, ofWidth, sameNumbers⟩ := yields items isItems
  rw [Aggregate.evaluate_sum isWidth isSequence projected ofWidth, sameNumbers]

/-- The mean of integers is that of their numbers. -/
theorem evaluate_average (isReal : (type.core == .decimal) = false)
    (yields : YieldsNumbers kind .average source args ctx) :
    (aggregate type .average source types args).evaluate ctx =
      source.itemsFor .average ctx >>= fun items => meanIn type (numbers items) := by
  refine evaluate_aggregate fun v items isItems isSequence => ?_
  obtain ⟨values, projected, ofWidth, sameNumbers⟩ := yields items isItems
  rw [Aggregate.evaluate_average isReal isSequence projected ofWidth, sameNumbers]

end Results

/-- What a call without a selector makes of numbers, beside a call with the element itself as its
selector. -/
structure ElementSelects (operation : Aggregate) (source : Expr) (element : Ty)
    (bare selecting : Expr) : Prop where
  /-- Of numbers that are not promoted both make the same. -/
  unpromoted (isKept : operation.keeps = true ∨ element.selected? = some element)
    (ctx : EvalContext) : bare.evaluate ctx = selecting.evaluate ctx
  /-- Integers are added in their own width without a selector and in that of the promoted element
  with one.  The latter has room for all that the former has room for. -/
  sum {kind wider : IntKind} {withNull : Bool} {ctx : EvalContext} (isSum : operation = .sum)
    (isInteger : element = kind.type withNull) (isSelected : kind.selected? = some wider)
    (conform : ∀ items, source.itemsFor operation ctx = .ok items →
      ∀ v ∈ items, v.conformsTo element = true) :
    bare.evaluate ctx =
      source.itemsFor .sum ctx >>= (fun items => totalIn kind (numbers items)) ∧
    selecting.evaluate ctx =
      source.itemsFor .sum ctx >>= (fun items => totalIn wider (numbers items)) ∧
    ∀ total, bare.evaluate ctx = .ok total →
      ∃ same, selecting.evaluate ctx = .ok same ∧ same.toInt? = total.toInt?
  /-- The mean of integers that are promoted is truncated to an integer without a selector, and is a
  real number with one. -/
  average {kind wider : IntKind} {withNull : Bool} {ctx : EvalContext}
    (isAverage : operation = .average) (isInteger : element = kind.type withNull)
    (isSelected : kind.selected? = some wider) (isPromoted : kind ≠ wider)
    (conform : ∀ items, source.itemsFor operation ctx = .ok items →
      ∀ v ∈ items, v.conformsTo element = true) :
    bare.evaluate ctx = selecting.evaluate ctx >>= (·.convertTo element)

namespace ElementSelects

variable {element : Ty}

/-- The element itself as a selector changes nothing. -/
theorem evaluate_parameter (folds : operation.folds = true) :
    (aggregate type operation source types []).evaluate ctx =
      (aggregate type operation source types' [lambda [p] (parameter p)]).evaluate ctx := by
  rw [evaluate, evaluate]
  cases source.evaluate ctx with
  | error error => rfl
  | ok v => exact Aggregate.evaluate_congr folds fun items => (projected_parameter items).symm

theorem of_keeps (keeps : operation.keeps = true) :
    ElementSelects operation source element (aggregate type operation source types [])
      (aggregate type operation source types' [lambda [p] (parameter p)]) where
  unpromoted _ ctx := by
    refine evaluate_parameter ?_
    cases operation with
    | min | max => rfl
    | _ => cases keeps
  sum isSum := by
    rw [isSum] at keeps
    cases keeps
  average isAverage := by
    rw [isAverage] at keeps
    cases keeps

theorem of_selected (isTotal : operation = .sum ∨ operation = .average)
    (isSelected : element.selected? = some target) (isElement : p.type = element) :
    ElementSelects operation source element
      (aggregate (operation.foldType element) operation source types [])
      (aggregate (operation.foldType target) operation source types'
        [lambda [p] ((parameter p).convertedTo target)]) where
  unpromoted isKept ctx := by
    have same : target = element := by
      obtain keeps | isKept := isKept
      · obtain rfl | rfl := isTotal <;> cases keeps
      · exact Option.some.inj (isSelected.symm.trans isKept)
    have unconverted : (parameter p).convertedTo element = parameter p :=
      if_pos (show (p.type == element) = true from isElement ▸ BEq.rfl)
    rw [same, unconverted]
    refine evaluate_parameter ?_
    obtain rfl | rfl := isTotal <;> rfl
  sum {kind wider withNull ctx} isSum isInteger isWider conform := by
    subst isInteger
    rw [IntKind.selected?_type, isWider] at isSelected
    obtain rfl := Option.some.inj isSelected
    subst isSum
    have hasRoom := IntKind.bounds_of_selected isWider
    have bare : (aggregate _ .sum source types []).evaluate ctx = _ :=
      evaluate_sum (kind.core_type withNull) (yieldsNumbers_bare conform)
    have selecting : (aggregate _ .sum source types' _).evaluate ctx = _ :=
      evaluate_sum (wider.core_type withNull) (yieldsNumbers_element conform isElement hasRoom)
    refine ⟨bare, selecting, fun total outcome => ?_⟩
    obtain ⟨items, isItems, isTotal⟩ := bind_eq_ok_iff.mp (bare.symm.trans outcome)
    obtain ⟨same, isSame, number⟩ := Aggregate.totalIn_wider hasRoom isTotal
    refine ⟨same, selecting.trans ?_, number⟩
    rw [isItems]
    exact isSame
  average {kind wider withNull ctx} isAverage isInteger isWider isPromoted conform := by
    subst isInteger
    rw [IntKind.selected?_type, isWider] at isSelected
    obtain rfl := Option.some.inj isSelected
    subst isAverage
    have hasRoom := IntKind.bounds_of_selected isWider
    have narrow : Aggregate.averageType (kind.type withNull) = kind.type withNull := by
      cases kind <;> cases isWider <;> cases withNull <;> first | rfl | exact absurd rfl isPromoted
    have real : (Aggregate.averageType (wider.type withNull)).core = .double ∧
        (Aggregate.averageType (wider.type withNull)).admitsNull =
          (kind.type withNull).admitsNull := by
      cases kind <;> cases isWider <;> cases withNull <;> exact ⟨rfl, rfl⟩
    have bare : (aggregate (kind.type withNull) .average source types []).evaluate ctx = _ :=
      evaluate_average (by rw [kind.core_type]; rfl) (yieldsNumbers_bare conform)
    have selecting : (aggregate (Aggregate.averageType (wider.type withNull)) .average source types'
        _).evaluate ctx = _ :=
      evaluate_average (by rw [real.1]; rfl) (yieldsNumbers_element conform isElement hasRoom)
    have typed (t : Ty) : Aggregate.average.foldType t = Aggregate.averageType t := rfl
    rw [typed, typed, narrow, bare, selecting, bind_assoc]
    exact congrArg _ (funext fun items => Aggregate.meanIn_eq_convertTo real.1 real.2 _)

end ElementSelects

end Expr

namespace CompileContext.ReadsCall

open Aggregate (insideCall elementAt)
open Parse

variable {ctx : CompileContext} {expression : Parse Expr} {start opening : Session} {source : Expr}
  {operation : Aggregate} {element : Ty} {next : Token} {rest : List Token} {depth : Nat}
  {it : String}

/-- A call without arguments. -/
theorem bare_eq (call : ctx.ReadsCall expression start source operation element opening)
    (folds : operation.folds = true) (numeric : element.isNumeric = true)
    (closed : opening.Begins [.openParen, .closeParen] next rest)
    (noSuffix : next.kind.opensSuffix = false) (ends : Ends 1 next) :
    ∃ types stop, ctx.disjunction expression start =
      .ok (.aggregate (operation.foldType element) operation source types []) stop := by
  obtain ⟨name, position, named, found, -⟩ := call.disjunction_eq
  obtain ⟨types, typed⟩ := Aggregate.typing?_folds ctx.env.classes folds [] numeric
  let stop := Aggregate.behindCall ((operation.insideCall opening element).moveTo next rest)
  have read : argumentList expression (operation.insideCall opening element) =
      .ok [] ((operation.insideCall opening element).moveTo next rest) :=
    argumentList_nil closed
  have parsed : operation.parseCall ctx expression source element name position opening =
      .ok _ stop :=
    Aggregate.parseCall_found read (Aggregate.resolve_bare folds named)
      (Aggregate.plain_of_folds folds).1 typed
  rw [Aggregate.bindElement, (Aggregate.plain_of_folds folds).2.2] at parsed
  have passes : stop.rest.length ≤ opening.rest.length :=
    Nat.le.intro ((Nat.add_comm _ _).trans closed.length.symm)
  exact ⟨types, stop, found _ stop parsed passes noSuffix ends⟩

section Element

variable (call : ctx.ReadsCall (ctx.expression (depth + 1)) start source operation element opening)
  (folds : operation.folds = true)
  (selecting : opening.Begins [.openParen, .name it, .closeParen] next rest)
  (isElement : ctx.env.keyword? it = some (.context .it))

section Argument

include folds selecting isElement

/-- The argument of a call that has the element itself as its selector. -/
theorem readsElement :
    ReadsArgument (ctx.expression (depth + 1)) (operation.insideCall opening element)
      (.parameter (elementAt opening element)) next rest := by
  have current : (operation.insideCall opening element).scopes.current.it =
      some (elementAt opening element) := by
    rw [insideCall, ScopeStack.current_push, Aggregate.argumentScope,
      (Aggregate.plain_of_folds folds).2.1]
    rfl
  exact readsArgument_context selecting isElement current

end Argument

include call folds selecting isElement

/-- A call with a selector that an overload accepts. -/
theorem element_eq {params : List Ty} {selector : Expr}
    (resolved : ∀ name, Aggregate.ofName? name = some operation →
      Aggregate.resolve ctx.env.classes name [.parameter (elementAt opening element)] =
        .found (operation, params) [selector])
    (numeric : selector.type.isNumeric = true) (noSuffix : next.kind.opensSuffix = false)
    (ends : Ends 1 next) :
    ∃ types stop, ctx.disjunction (ctx.expression (depth + 1)) start =
      .ok (.aggregate (operation.foldType selector.type) operation source types
        [.lambda [elementAt opening element] selector]) stop := by
  obtain ⟨name, position, named, found, -⟩ := call.disjunction_eq
  obtain ⟨types, typed⟩ := Aggregate.typing?_folds ctx.env.classes folds [selector.type] numeric
  have argument : ReadsArgument (ctx.expression (depth + 1)) (operation.insideCall opening element)
      _ next rest := readsElement folds selecting isElement
  obtain ⟨close, read⟩ := argument.argumentList_eq call.opens
  let stop := Aggregate.behindCall (close.moveTo next rest)
  have parsed : operation.parseCall ctx (ctx.expression (depth + 1)) source element name position
      opening = .ok _ stop :=
    Aggregate.parseCall_found read (resolved name named) (Aggregate.plain_of_folds folds).1 typed
  rw [Aggregate.bindElement, (Aggregate.plain_of_folds folds).2.2] at parsed
  have passes : stop.rest.length ≤ opening.rest.length := Nat.le_of_lt argument.length_lt
  exact ⟨types, stop, found _ stop parsed passes noSuffix ends⟩

/-- A call with a selector that no overload accepts best. -/
theorem element_refused
    (unresolved : ∀ name, Aggregate.ofName? name = some operation → ∀ found promoted,
      Aggregate.resolve ctx.env.classes name [.parameter (elementAt opening element)] ≠
        .found found promoted) :
    ¬ ctx.Compiles (ctx.expression (depth + 1)) start := by
  obtain ⟨name, position, named, -, refused⟩ := call.disjunction_eq
  rintro ⟨e, after, compiles⟩
  have argument : ReadsArgument (ctx.expression (depth + 1)) (operation.insideCall opening element)
      _ next rest := readsElement folds selecting isElement
  obtain ⟨close, read⟩ := argument.argumentList_eq call.opens
  have failed : operation.parseCall ctx (ctx.expression (depth + 1)) source element name position
      opening = .error _ _ := Aggregate.parseCall_unresolved read (unresolved name named)
  cases compiles.symm.trans (refused _ _ failed)

/-- The element is taken as it is by an operation that accepts every value. -/
theorem element_of_keeps (keeps : operation.keeps = true) (numeric : element.isNumeric = true)
    (noSuffix : next.kind.opensSuffix = false) (ends : Ends 1 next) :
    ∃ types stop, ctx.disjunction (ctx.expression (depth + 1)) start =
      .ok (.aggregate (operation.foldType element) operation source types
        [.lambda [elementAt opening element] (.parameter (elementAt opening element))]) stop :=
  element_eq call folds selecting isElement
    (fun _ named => Aggregate.resolve_keeps keeps named) numeric noSuffix ends

/-- The element is promoted by an operation that adds numbers. -/
theorem element_of_selected {target : Ty} (isTotal : operation = .sum ∨ operation = .average)
    (numeric : element.isNumeric = true) (isSelected : element.selected? = some target)
    (noSuffix : next.kind.opensSuffix = false) (ends : Ends 1 next) :
    ∃ types stop, ctx.disjunction (ctx.expression (depth + 1)) start =
      .ok (.aggregate (operation.foldType target) operation source types
        [.lambda [elementAt opening element]
          ((Expr.parameter (elementAt opening element)).convertedTo target)]) stop := by
  obtain ⟨targetNumeric, simple⟩ := Ty.selected?_numeric numeric isSelected
  have isTarget : ((Expr.parameter (elementAt opening element)).convertedTo target).type = target :=
    Expr.type_convertedTo simple
  have read := element_eq call folds selecting isElement
    (fun _ named => Aggregate.resolve_selected isTotal named numeric isSelected)
    (by rwa [isTarget]) noSuffix ends
  rwa [isTarget] at read

/-- No call adds numbers for which no type is best. -/
theorem element_of_none (isTotal : operation = .sum ∨ operation = .average)
    (numeric : element.isNumeric = true) (isSelected : element.selected? = none) :
    ¬ ctx.Compiles (ctx.expression (depth + 1)) start := by
  refine element_refused call folds selecting isElement fun name named found promoted isFound => ?_
  obtain ⟨count, ambiguous⟩ := @Aggregate.resolve_ambiguous ctx.env.classes operation name
    (elementAt opening element) isTotal named numeric isSelected
  cases ambiguous.symm.trans isFound

end Element

end CompileContext.ReadsCall

namespace CompileContext

/-- The element itself is a selector of a sum, a mean, a least or a greatest value of numbers, but
not of a sum or a mean of integers of 64 bits without a sign, for which no type is best; without a
selector there is a call for all numbers.  Where both calls compile, they yield the same or what
the promotion of the selector makes of it. -/
theorem element_selects {ctx : CompileContext} {expression : Parse Expr} {depth : Nat}
    {start start' opening opening' : Session} {source : Expr} {operation : Aggregate}
    {element : Ty} {it : String} {next next' : Token} {rest rest' : List Token}
    (numeric : element.isNumeric = true) (folds : operation.folds = true)
    (bare : ctx.ReadsCall expression start source operation element opening)
    (closed : opening.Begins [.openParen, .closeParen] next rest)
    (noSuffix : next.kind.opensSuffix = false) (ends : Ends 1 next)
    (selecting : ctx.ReadsCall (ctx.expression (depth + 1)) start' source operation element
      opening')
    (named : opening'.Begins [.openParen, .name it, .closeParen] next' rest')
    (isElement : ctx.env.keyword? it = some (.context .it))
    (noSuffix' : next'.kind.opensSuffix = false) (ends' : Ends 1 next') :
    ctx.Compiles expression start ∧
      (ctx.Compiles (ctx.expression (depth + 1)) start' ↔
        operation.keeps = true ∨ element.selected?.isSome = true) ∧
      ∀ e stop e' stop', ctx.disjunction expression start = .ok e stop →
        ctx.disjunction (ctx.expression (depth + 1)) start' = .ok e' stop' →
          Expr.ElementSelects operation source element e e' := by
  obtain ⟨types, stop, isBare⟩ := bare.bare_eq folds numeric closed noSuffix ends
  refine ⟨⟨_, _, isBare⟩, ?_⟩
  by_cases keeps : operation.keeps = true
  · obtain ⟨types', stop', isSelecting⟩ := selecting.element_of_keeps folds named isElement keeps
      numeric noSuffix' ends'
    refine ⟨iff_of_true ⟨_, _, isSelecting⟩ (.inl keeps), fun e _ e' _ compiles compiles' => ?_⟩
    obtain ⟨rfl, -⟩ := EStateM.Result.ok.inj (isBare.symm.trans compiles)
    obtain ⟨rfl, -⟩ := EStateM.Result.ok.inj (isSelecting.symm.trans compiles')
    exact .of_keeps keeps
  · have isTotal := (Aggregate.folds_cases folds).resolve_left keeps
    cases isSelected : element.selected? with
    | none =>
        have refused := selecting.element_of_none folds named isElement isTotal numeric isSelected
        refine ⟨iff_of_false refused (by simp [keeps]), fun e _ e' _ _ compiles' => ?_⟩
        exact absurd ⟨_, _, compiles'⟩ refused
    | some target =>
        obtain ⟨types', stop', isSelecting⟩ := selecting.element_of_selected folds named isElement
          isTotal numeric isSelected noSuffix' ends'
        refine ⟨iff_of_true ⟨_, _, isSelecting⟩ (.inr rfl), fun e _ e' _ compiles compiles' => ?_⟩
        obtain ⟨rfl, -⟩ := EStateM.Result.ok.inj (isBare.symm.trans compiles)
        obtain ⟨rfl, -⟩ := EStateM.Result.ok.inj (isSelecting.symm.trans compiles')
        exact .of_selected isTotal isSelected rfl

section Example

/-- Integers of eight bits without a sign. -/
def bytesParam : Parameter := ⟨0, "b", .array (.integral .byte)⟩

theorem plainEnvironment_canName_bytes : plainEnvironment.CanName [bytesParam] :=
  .of_isNone (by decide +kernel) (by decide +kernel) (by decide +kernel)

theorem keyword?_it : plainEnvironment.keyword? "it" = some (.context .it) :=
  (Environment.keyword?_of "it").trans rfl

/-- The tokens of `b.Sum()` behind the first one. -/
def bareSum : List Token :=
  [⟨.dot, ".", 1⟩, ⟨.identifier, "Sum", 2⟩, ⟨.openParen, "(", 5⟩, ⟨.closeParen, ")", 6⟩,
    ⟨.finish, "", 7⟩]

/-- The tokens of `b.Sum(it)` behind the first one. -/
def elementSum : List Token :=
  [⟨.dot, ".", 1⟩, ⟨.identifier, "Sum", 2⟩, ⟨.openParen, "(", 5⟩, ⟨.identifier, "it", 6⟩,
    ⟨.closeParen, ")", 8⟩, ⟨.finish, "", 9⟩]

/-- A sum that has no room in eight bits is an overflow without a selector, but not with one. -/
theorem element_selects_bytes : ∃ ctx bare selecting,
    CompileContext.of plainEnvironment [bytesParam] [] = .ok ctx ∧
      Session.start (Scan.ofText "b.Sum()" '.') [bytesParam] .initial = .ok bare ∧
      Session.start (Scan.ofText "b.Sum(it)" '.') [bytesParam] .initial = .ok selecting ∧
      ∃ e stop e' stop', ctx.disjunction (ctx.expression 1) bare = .ok e stop ∧
        ctx.disjunction (ctx.expression 1) selecting = .ok e' stop' ∧
          ∀ now,
            let values := (EvalContext.initial now).bind bytesParam
              (.array [.ofInteger .byte 200, .ofInteger .byte 100])
            e.evaluate values = .error (Value.overflowOf .add) ∧
              e'.evaluate values = .ok (.int32 300) := by
  obtain ⟨ctx, context, isPlain, names⟩ := plainEnvironment_canName_bytes.exists_context
  have isOperation : ctx.sequenceOperation? (.value (.parameter bytesParam)) "Sum" =
      some (.parameter bytesParam, .sum, .integral .byte) :=
    sequenceOperation?_eq rfl (isPlain ▸ by decide +kernel) (by decide +kernel) rfl
  have bare : ctx.ReadsCall (ctx.expression 1) (namedSession "b" bareSum) (.parameter bytesParam)
      .sum (.integral .byte)
      ((namedSession "b" bareSum).moveTo ⟨.openParen, "(", 5⟩ (bareSum.drop 3)) :=
    .of_names names (by simp) rfl rfl rfl rfl rfl isOperation
  have selecting : ctx.ReadsCall (ctx.expression 1) (namedSession "b" elementSum)
      (.parameter bytesParam) .sum (.integral .byte)
      ((namedSession "b" elementSum).moveTo ⟨.openParen, "(", 5⟩ (elementSum.drop 3)) :=
    .of_names names (by simp) rfl rfl rfl rfl rfl isOperation
  have isElement : ctx.env.keyword? "it" = some (.context .it) := isPlain ▸ keyword?_it
  have ends {position : Nat} : Ends 1 ⟨.finish, "", position⟩ :=
    .of_grip (Nat.le_refl 1) (Nat.zero_le 1)
  obtain ⟨⟨e, stop, isBare⟩, compiles, related⟩ := element_selects rfl rfl bare
    ⟨[⟨.openParen, "(", 5⟩, ⟨.closeParen, ")", 6⟩], rfl, rfl⟩ rfl ends selecting
    ⟨[⟨.openParen, "(", 5⟩, ⟨.identifier, "it", 6⟩, ⟨.closeParen, ")", 8⟩], rfl, rfl⟩ isElement rfl
    ends
  obtain ⟨e', stop', isSelecting⟩ := compiles.mpr (.inr rfl)
  refine ⟨ctx, _, _, context, start_eq (by decide +kernel) (by decide +kernel) rfl,
    start_eq (by decide +kernel) (by decide +kernel) rfl, e, stop, e', stop', isBare, isSelecting,
    ?_⟩
  intro now values
  have isItems : (Expr.parameter bytesParam).itemsFor .sum values =
      .ok [.ofInteger .byte 200, .ofInteger .byte 100] := rfl
  have conform : ∀ items, (Expr.parameter bytesParam).itemsFor .sum values = .ok items →
      ∀ v ∈ items, v.conformsTo (.integral .byte) = true := by
    intro items same
    obtain rfl := Except.ok.inj (isItems.symm.trans same)
    simp only [List.forall_mem_cons]
    exact ⟨rfl, rfl, nofun⟩
  have isByte : Ty.integral .byte = IntKind.byte.type false := rfl
  obtain ⟨bareSum, elementSum, -⟩ :=
    (related e stop e' stop' isBare isSelecting).sum rfl isByte rfl conform
  exact ⟨bareSum, elementSum⟩

end Example

end CompileContext

end QueryTree
