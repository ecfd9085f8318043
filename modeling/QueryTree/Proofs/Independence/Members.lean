import QueryTree.Compile.Expression
import QueryTree.Proofs.Independence.Operations

/-!
# Members and constructions under other numbers

What a name, a call, an index or the parts of a construction mean depends on no numbers of
parameters and record types.
-/

namespace QueryTree

variable {number : Nat → Nat}

/-- The context in which all declared types have lost the numbers of record types, without its
symbols and values. -/
def CompileContext.unnumbered (ctx : CompileContext) : CompileContext :=
  ⟨{ ctx.env with classes := ctx.env.classes.unnumbered }, [], []⟩

/-! ## Receivers and scopes -/

/-- A receiver with other numbers. -/
def Receiver.renumbered (number : Nat → Nat) : Receiver → Receiver
  | type t => type t.unnumbered
  | value e => value (e.renumbered number)

/-- A scope with other numbers. -/
def ScopeFrame.renumbered (number : Nat → Nat) (frame : ScopeFrame) : ScopeFrame :=
  ⟨frame.it.map (·.renumbered number), frame.parent.map (·.renumbered number),
    frame.root.map (·.renumbered number)⟩

theorem ScopeFrame.types_renumbered (frame : ScopeFrame) :
    (frame.renumbered number).types = frame.types.map Ty.unnumbered := by
  obtain ⟨it, parent, root⟩ := frame
  cases it <;> cases parent <;> cases root <;> rfl

namespace Receiver

variable (receiver : Receiver)

@[simp] theorem memberType_renumbered :
    (receiver.renumbered number).memberType = receiver.memberType.unnumbered := by
  cases receiver with
  | type t => rfl
  | value e => exact e.type_renumbered

@[simp] theorem isStatic_renumbered : (receiver.renumbered number).isStatic = receiver.isStatic := by
  cases receiver <;> rfl

@[simp] theorem value?_renumbered :
    (receiver.renumbered number).value? = receiver.value?.map (Expr.renumbered number) := by
  cases receiver <;> rfl

@[simp] theorem access_renumbered (m : Member) :
    (receiver.renumbered number).access m.unnumbered = (receiver.access m).renumbered number := by
  cases receiver <;> rfl

@[simp] theorem call_renumbered (type : Ty) (method : Method) (args : List Expr) :
    (receiver.renumbered number).call type.unnumbered method.unnumbered
        (args.map (Expr.renumbered number))
      = (receiver.call type method args).renumbered number := by
  cases receiver <;> simp [renumbered, call, Expr.renumbered]

end Receiver

namespace CompileContext

variable (ctx : CompileContext) (receiver : Receiver) (name : String) (position : Nat)

/-! ## Members -/

@[simp] theorem mayCall_unnumbered (method : Method) :
    ctx.unnumbered.mayCall method.unnumbered = ctx.mayCall method := by
  have known (type : Ty) : ctx.unnumbered.env.knowsType type.unnumbered = ctx.env.knowsType type := by
    simp only [Environment.knowsType, Ty.core_unnumbered, Ty.unnumbered_beq_right]
    rfl
  simp only [mayCall, Method.unnumbered, Option.any_map, known]
  rfl

theorem methodCall_renumbered (args : List Expr) :
    (ctx.unnumbered.methodCall (receiver.renumbered number) name position
        (args.map (Expr.renumbered number))).toOption
      = (ctx.methodCall receiver name position args).toOption.map (Expr.renumbered number) := by
  have chosen : (receiver.renumbered number).memberType.resolveMethod ctx.unnumbered.env.classes
      name (receiver.renumbered number).isStatic (args.map (Expr.renumbered number))
      = (receiver.memberType.resolveMethod ctx.env.classes name receiver.isStatic args).renumbered
          number Method.unnumbered := by
    rw [Receiver.memberType_renumbered, Receiver.isStatic_renumbered]
    exact Ty.resolveMethod_renumbered ..
  simp only [methodCall, chosen]
  cases receiver.memberType.resolveMethod ctx.env.classes name receiver.isStatic args with
  | notFound | ambiguous _ => rfl
  | found method args =>
      simp only [Resolution.renumbered, mayCall_unnumbered]
      split
      · rfl
      · obtain ⟨name, declaringType, params, result, isStatic⟩ := method
        cases result with
        | none => rfl
        | some result =>
            exact congrArg some (receiver.call_renumbered result
              ⟨name, declaringType, params, some result, isStatic⟩ args)

@[simp] theorem enumMember?_renumbered :
    enumMember? (receiver.renumbered number) name
      = (enumMember? receiver name).map (Expr.renumbered number) := by
  cases receiver with
  | value e => rfl
  | type t =>
      simp only [Receiver.renumbered, enumMember?, Ty.enum?_unnumbered]
      cases t.enum? with
      | none => rfl
      | some enum =>
          simp only [Option.bind_some]
          cases enum.valueOf? name <;> rfl

theorem declaredMember?_renumbered :
    ctx.unnumbered.declaredMember? (receiver.renumbered number) name
      = (ctx.declaredMember? receiver name).map (Expr.renumbered number) := by
  have members : (receiver.renumbered number).memberType.members ctx.unnumbered.env.classes
      = (receiver.memberType.members ctx.env.classes).map Member.unnumbered := by
    rw [Receiver.memberType_renumbered]
    exact receiver.memberType.members_unnumbered ctx.env.classes
  simp only [declaredMember?, members, List.find?_map, Option.map_map, Function.comp_def,
    Receiver.isStatic_renumbered, Receiver.access_renumbered]
  rfl

theorem indexedMember?_renumbered :
    ctx.unnumbered.indexedMember? (receiver.renumbered number) name
      = (ctx.indexedMember? receiver name).map (Expr.renumbered number) := by
  have allowed : ctx.unnumbered.env.options.noIndexFallback = ctx.env.options.noIndexFallback := rfl
  simp only [indexedMember?, allowed, Receiver.value?_renumbered]
  split
  · rfl
  · cases receiver.value? with
    | none => rfl
    | some e =>
        have indexers : (e.renumbered number).type.indexers ctx.unnumbered.env.classes
            = (e.type.indexers ctx.env.classes).map Indexer.unnumbered := by
          rw [Expr.type_renumbered]
          exact e.type.indexers_unnumbered ctx.env.classes
        have takesText (params : List Ty) :
            Ty.sameAll (params.map Ty.unnumbered) [.string] = Ty.sameAll params [.string] :=
          Ty.sameAll_congr (by simp [Ty.unnumbered_unnumbered]) rfl
        simp only [Option.map_some, Option.bind_some, indexers, List.find?_map, Option.map_map,
          Function.comp_def, Indexer.unnumbered, takesText]
        rfl

theorem namedMember_renumbered :
    (ctx.unnumbered.namedMember (receiver.renumbered number) name position).toOption
      = (ctx.namedMember receiver name position).toOption.map (Expr.renumbered number) := by
  have isBag : ((receiver.renumbered number).value?.filter fun e => e.type == .dynamic)
      = (receiver.value?.filter fun e => e.type == .dynamic).map (Expr.renumbered number) := by
    cases receiver with
    | type t => rfl
    | value e =>
        simp only [Receiver.renumbered, Receiver.value?, Option.filter, Expr.type_renumbered,
          Ty.unnumbered_beq_left]
        split <;> rfl
  have found : (ctx.unnumbered.declaredMember? (receiver.renumbered number) name
        <|> ctx.unnumbered.indexedMember? (receiver.renumbered number) name)
      = (ctx.declaredMember? receiver name <|> ctx.indexedMember? receiver name).map
          (Expr.renumbered number) := by
    simp only [declaredMember?_renumbered, indexedMember?_renumbered, Option.orElse_eq_orElse,
      Option.orElse_eq_or, Option.map_or]
  simp only [namedMember, enumMember?_renumbered, isBag, found]
  cases enumMember? receiver name with
  | some e => rfl
  | none =>
      simp only [Option.map_none]
      cases receiver.value?.filter fun e => e.type == .dynamic with
      | some e => rfl
      | none =>
          simp only [Option.map_none]
          cases ctx.declaredMember? receiver name <|> ctx.indexedMember? receiver name <;> rfl

theorem sequenceOperation?_renumbered :
    ctx.unnumbered.sequenceOperation? (receiver.renumbered number) name
      = (ctx.sequenceOperation? receiver name).map fun found =>
          (found.1.renumbered number, found.2.1, found.2.2.unnumbered) := by
  cases receiver with
  | type t => rfl
  | value e =>
      have element : (e.renumbered number).type.element? ctx.unnumbered.env.classes
          = (e.type.element? ctx.env.classes).map Ty.unnumbered := by
        rw [Expr.type_renumbered]
        exact e.type.element?_unnumbered ctx.env.classes
      have hasMethod : (e.renumbered number).type.hasMethod ctx.unnumbered.env.classes name
          = e.type.hasMethod ctx.env.classes name := by
        rw [Expr.type_renumbered]
        exact Ty.hasMethod_unnumbered ctx.env.classes e.type name
      simp only [sequenceOperation?, Receiver.renumbered, Receiver.value?, Option.bind_some,
        Expr.type_renumbered, Ty.isString_unnumbered] at element hasMethod ⊢
      rw [element, hasMethod]
      split
      · rfl
      · cases Aggregate.ofName? name with
        | none => rfl
        | some operation => cases e.type.element? ctx.env.classes <;> rfl

theorem sameElement_renumbered (distinct : Function.Injective number) (p? it : Option Parameter) :
    ((p?.map (·.renumbered number)).bind fun p => (it.map (·.renumbered number)).filter (· == p))
      = (p?.bind fun p => it.filter (· == p)).map (·.renumbered number) := by
  have same (p q : Parameter) : (p.renumbered number == q.renumbered number) = (p == q) :=
    decide_eq_decide.mpr distinct.eq_iff
  cases p? with
  | none => rfl
  | some p =>
      cases it with
      | none => rfl
      | some it =>
          simp only [Option.map_some, Option.bind_some, Option.filter, same]
          split <;> rfl

/-- A parameter is the current element whatever the numbers are, if they tell apart as before. -/
theorem elementReceiver?_renumbered (distinct : Function.Injective number) (frame : ScopeFrame) :
    elementReceiver? (receiver.renumbered number) (frame.renumbered number)
      = (elementReceiver? receiver frame).map (·.renumbered number) := by
  cases receiver with
  | type t => rfl
  | value e =>
      have same := sameElement_renumbered distinct e.parameter? frame.it
      rw [← e.parameter?_renumbered] at same
      exact same

theorem arrowElement?_renumbered (distinct : Function.Injective number) (frame : ScopeFrame)
    (e : Expr) :
    arrowElement? (frame.renumbered number) (e.renumbered number)
      = (arrowElement? frame e).map (·.renumbered number) := by
  have same := sameElement_renumbered distinct e.parameter? frame.it
  rw [← e.parameter?_renumbered] at same
  exact same

theorem elementHasMember_renumbered (frame : ScopeFrame) :
    ctx.unnumbered.elementHasMember (frame.renumbered number) name
      = ctx.elementHasMember frame name := by
  obtain ⟨it, parent, root⟩ := frame
  cases it with
  | none => rfl
  | some it =>
      have members : it.type.unnumbered.members ctx.unnumbered.env.classes
          = (it.type.members ctx.env.classes).map Member.unnumbered :=
        it.type.members_unnumbered ctx.env.classes
      simp only [elementHasMember, ScopeFrame.renumbered, Option.map_some, Option.any_some,
        Parameter.renumbered, members, List.any_map]
      rfl

theorem indexer_renumbered (type : Ty) (e : Expr) (args : List Expr) :
    (match type.unnumbered.resolveIndexer ctx.unnumbered.env.classes
        (args.map (Expr.renumbered number)) with
      | .found indexer args => .ok (.index indexer.type (e.renumbered number) args)
      | .notFound => .error ⟨position, .noApplicableIndexer type.unnumbered⟩
      | .ambiguous _ => .error ⟨position, .ambiguousIndexer type.unnumbered⟩ :
        Except CompileError Expr).toOption
    = (match type.resolveIndexer ctx.env.classes args with
      | .found indexer args => .ok (.index indexer.type e args)
      | .notFound => .error ⟨position, .noApplicableIndexer type⟩
      | .ambiguous _ => .error ⟨position, .ambiguousIndexer type⟩ :
        Except CompileError Expr).toOption.map (Expr.renumbered number) := by
  have chosen : type.unnumbered.resolveIndexer ctx.unnumbered.env.classes
        (args.map (Expr.renumbered number))
      = (type.resolveIndexer ctx.env.classes args).renumbered number Indexer.unnumbered :=
    Ty.resolveIndexer_renumbered ..
  rw [chosen]
  cases type.resolveIndexer ctx.env.classes args with
  | found indexer args =>
      simp [Resolution.renumbered, Except.toOption, Expr.renumbered, Indexer.unnumbered]
  | notFound | ambiguous _ => rfl

theorem indexAccess_renumbered (e : Expr) (args : List Expr) :
    (ctx.unnumbered.indexAccess position (e.renumbered number)
        (args.map (Expr.renumbered number))).toOption
      = (ctx.indexAccess position e args).toOption.map (Expr.renumbered number) := by
  have byIndexer (type : Ty) := @indexer_renumbered number ctx position type e args
  simp only [indexAccess, Expr.type_renumbered]
  cases e.type with
  | array element =>
      obtain _ | ⟨arg, _ | ⟨_, _⟩⟩ := args
      case cons.nil =>
          have promoted : (arg.renumbered number).promote? ctx.unnumbered.env.classes .exactly .int32
              = (arg.promote? ctx.env.classes .exactly .int32).map (Expr.renumbered number) :=
            Expr.promote?_renumbered ctx.env.classes .exactly .int32 arg
          simp only [Ty.unnumbered, List.map_cons, List.map_nil, promoted]
          cases arg.promote? ctx.env.classes .exactly .int32 with
          | none => rfl
          | some arg => simp [Except.toOption, Expr.renumbered]
      all_goals rfl
  | atom a => exact byIndexer (.atom a)
  | nullable inner => exact byIndexer (.nullable inner)
  | list element => exact byIndexer (.list element)
  | sequence element => exact byIndexer (.sequence element)
  | grouping key element => exact byIndexer (.grouping key element)
  | lambda params result => exact byIndexer (.lambda params result)
  | enum e => exact byIndexer (.enum e)
  | cls c => exact byIndexer (.cls c)
  | record id names types => exact byIndexer (.record id names types)

end CompileContext

/-! ## Operations on sequences -/

namespace Aggregate

@[simp] theorem averageType_unnumbered (type : Ty) :
    averageType type.unnumbered = (averageType type).unnumbered := by
  simp only [averageType, Ty.core_unnumbered, Ty.isNullable_unnumbered]
  cases type.core with
  | atom a =>
      cases a with
      | integral kind => cases kind <;> split <;> rfl
      | _ => split <;> rfl
  | _ => split <;> rfl

theorem typing?_unnumbered (table : ClassTable) (operation : Aggregate) (element : Ty)
    (bodies : List Ty) :
    operation.typing? table.unnumbered element.unnumbered (bodies.map Ty.unnumbered)
      = (operation.typing? table element bodies).map
          (Prod.map Ty.unnumbered (List.map Ty.unnumbered)) := by
  have body (other : Ty) : (bodies.map Ty.unnumbered).head?.getD other.unnumbered
      = (bodies.head?.getD other).unnumbered := by
    cases bodies <;> rfl
  have next : (bodies.map Ty.unnumbered)[1]?.getD element.unnumbered
      = (bodies[1]?.getD element).unnumbered := by
    rw [List.getElem?_map]
    cases bodies[1]? <;> rfl
  cases operation with
  | min | max | select => simp [typing?, Ty.unnumbered]
  | sum =>
      simp only [typing?, body, Ty.isNumeric_unnumbered]
      split <;> rfl
  | average =>
      simp only [typing?, body, Ty.isNumeric_unnumbered, averageType_unnumbered]
      split <;> rfl
  | selectMany =>
      cases bodies with
      | nil => rfl
      | cons first rest =>
          simp only [typing?, List.map_cons, List.head?_cons, Option.bind_some,
            Ty.element?_unnumbered, Option.map_map]
          rfl
  | groupBy =>
      have key : (bodies.map Ty.unnumbered).head?.getD .object
          = (bodies.head?.getD .object).unnumbered := body .object
      simp only [typing?, key, next]
      rfl
  | _ => rfl

theorem argumentScope_renumbered (operation : Aggregate) (outer : ScopeFrame)
    (element : Parameter) :
    operation.argumentScope (outer.renumbered number) (element.renumbered number)
      = (operation.argumentScope outer element).renumbered number := by
  unfold argumentScope
  split <;> rfl

theorem bindElement_renumbered (operation : Aggregate) (element : Parameter) (args : List Expr) :
    operation.bindElement (element.renumbered number) (args.map (Expr.renumbered number))
      = (operation.bindElement element args).map (Expr.renumbered number) := by
  unfold bindElement
  split
  · rfl
  · simp [Expr.renumbered]

end Aggregate

/-! ## Constructions -/

namespace NewItem

/-- A part of a construction with other numbers. -/
def renumbered (number : Nat → Nat) (item : NewItem) : NewItem :=
  { item with value := item.value.renumbered number }

@[simp] theorem inferredName?_renumbered (e : Expr) :
    inferredName? (e.renumbered number) = inferredName? e := by
  cases e with
  | index type target args =>
      match args with
      | [arg] => exact arg.text?_renumbered
      | [] | _ :: _ :: _ => rfl
  | _ => rfl

theorem duplicate?_renumbered (options : Options) (seen : List String) (items : List NewItem) :
    duplicate? options seen (items.map (renumbered number))
      = (duplicate? options seen items).map (Prod.map (renumbered number) id) := by
  induction items generalizing seen with
  | nil => rfl
  | cons item rest ih =>
      obtain ⟨name, value, position⟩ := item
      cases name with
      | none => exact ih seen
      | some name =>
          simp only [List.map_cons, duplicate?, renumbered, ih]
          split <;> rfl

theorem named_renumbered (items : List NewItem) :
    named (items.map (renumbered number))
      = (named items).map fun member => (member.1, member.2.renumbered number) := by
  simp only [named, List.filterMap_map, List.map_filterMap]
  refine congrArg (List.filterMap · items) (funext fun item => ?_)
  obtain ⟨name, value, position⟩ := item
  cases name <;> rfl

end NewItem

namespace CompileContext

variable (ctx : CompileContext) (position : Nat)

theorem arrayItems_renumbered (element : Ty) (es : List Expr) :
    (ctx.unnumbered.arrayItems element.unnumbered position (es.map (Expr.renumbered number))).toOption
      = (ctx.arrayItems element position es).toOption.map (·.map (Expr.renumbered number)) := by
  induction es with
  | nil => rfl
  | cons e rest ih =>
      have promoted : (e.renumbered number).promote? ctx.unnumbered.env.classes .assignment
            element.unnumbered
          = (e.promote? ctx.env.classes .assignment element).map (Expr.renumbered number) :=
        Expr.promote?_renumbered ..
      simp only [List.map_cons, arrayItems, promoted]
      cases e.promote? ctx.env.classes .assignment element with
      | none => rfl
      | some item =>
          simp only [Option.map_some, toOption_map, ih, Option.map_map]
          rfl

theorem newArray_renumbered (element? : Option Ty) (items : List Expr) :
    (ctx.unnumbered.newArray (element?.map Ty.unnumbered) position
        (items.map (Expr.renumbered number))).toOption
      = (ctx.newArray element? position items).toOption.map (Expr.renumbered number) := by
  cases element? with
  | some element =>
      simp only [newArray, Option.map_some, toOption_map, arrayItems_renumbered, Option.map_map]
      refine congrArg (Option.map · _) (funext fun converted => ?_)
      simp [Expr.renumbered, Ty.unnumbered]
  | none =>
      have shared : ((items.map (Expr.renumbered number)).head?.map (·.type)).filter
            (fun t => (items.map (Expr.renumbered number)).all (·.type == t))
          = ((items.head?.map (·.type)).filter fun t => items.all (·.type == t)).map
              Ty.unnumbered := by
        cases items with
        | nil => rfl
        | cons first rest =>
            have all : ((first :: rest).map (Expr.renumbered number)).all
                  (·.type == first.type.unnumbered)
                = (first :: rest).all (·.type == first.type) := by
              simp only [List.all_map, Function.comp_def, Expr.type_renumbered,
                Ty.unnumbered_beq_left, Ty.unnumbered_beq_right]
            rw [List.head?_map, List.head?_cons, Option.map_some, Option.map_some,
              Option.map_some, Expr.type_renumbered, Option.filter_some, Option.filter_some, all]
            split <;> rfl
      simp only [newArray, Option.map_none, shared]
      cases (items.head?.map (·.type)).filter fun t => items.all (·.type == t) with
      | some element => simp [Except.toOption, Expr.renumbered, Ty.unnumbered]
      | none =>
          simp only [Option.map_none, Except.toOption, Option.map_some, Expr.renumbered,
            Expr.renumberedAll_eq_map, List.map_map, Ty.unnumbered]
          refine congrArg (some <| Expr.newArray (.array .object) ·)
            (List.map_congr_left fun e _ => ?_)
          simp only [Function.comp_apply, Expr.type_renumbered, Ty.unnumbered_beq_left]
          split <;> rfl

theorem bindings_renumbered (type : Ty) (items : List NewItem) :
    (ctx.unnumbered.bindings type.unnumbered (items.map (NewItem.renumbered number))).toOption
      = (ctx.bindings type items).toOption.map
          (·.map fun member => (member.1, member.2.renumbered number)) := by
  induction items with
  | nil => rfl
  | cons item rest ih =>
      have members : type.unnumbered.members ctx.unnumbered.env.classes
          = (type.members ctx.env.classes).map Member.unnumbered :=
        type.members_unnumbered ctx.env.classes
      have matching : (fun m : Member => !m.isStatic
            && ctx.unnumbered.env.options.sameName m.name (item.name.getD "")) ∘ Member.unnumbered
          = fun m => !m.isStatic && ctx.env.options.sameName m.name (item.name.getD "") := rfl
      simp only [List.map_cons, bindings, NewItem.renumbered, members, List.find?_map, matching]
      cases (type.members ctx.env.classes).find? fun m =>
          !m.isStatic && ctx.env.options.sameName m.name (item.name.getD "") with
      | none => rfl
      | some m =>
          have promoted : (item.value.renumbered number).promote? ctx.unnumbered.env.classes
                .assignment m.type.unnumbered
              = (item.value.promote? ctx.env.classes .assignment m.type).map
                  (Expr.renumbered number) :=
            Expr.promote?_renumbered ..
          simp only [Option.map_some, Member.unnumbered, promoted]
          cases item.value.promote? ctx.env.classes .assignment m.type with
          | none => rfl
          | some value =>
              simp only [Option.map_some, toOption_bind, ih]
              cases (ctx.bindings type rest).toOption <;> rfl

theorem newOfType_renumbered (type : Ty) (items : List NewItem) :
    (ctx.unnumbered.newOfType type.unnumbered position
        (items.map (NewItem.renumbered number))).toOption
      = (ctx.newOfType type position items).toOption.map (Expr.renumbered number) := by
  have values : (items.map (NewItem.renumbered number)).map (·.value)
      = (items.map (·.value)).map (Expr.renumbered number) := by
    simp [NewItem.renumbered, Function.comp_def]
  have unnamed : (fun item : NewItem => item.name.isNone) ∘ NewItem.renumbered number
      = fun item => item.name.isNone := rfl
  simp only [newOfType, values, List.all_map, List.find?_map, unnamed]
  split
  · exact Expr.constructOf_renumbered ..
  · cases items.find? (·.name.isNone) with
    | some item => rfl
    | none =>
        simp only [Option.map_none, toOption_map, bindings_renumbered, Option.map_map]
        refine congrArg (Option.map · _) (funext fun members => ?_)
        simp [Expr.renumbered]

end CompileContext

end QueryTree
