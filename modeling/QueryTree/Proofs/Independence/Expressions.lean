import QueryTree.Overload.Callable
import QueryTree.Overload.Signature
import QueryTree.Proofs.Independence.Types

/-!
# Expressions with other numbers

The number of a parameter only tells it from others, and that of a record type nothing at all.  The
promotion of expressions and the choice of candidates go alike for expressions that differ in no
more than such numbers.
-/

namespace QueryTree

variable (number : Nat → Nat)

/-- A parameter with another number, whose type has lost the numbers of record types. -/
def Parameter.renumbered (p : Parameter) : Parameter := ⟨number p.id, p.name, p.type.unnumbered⟩

theorem Method.unnumbered_unnumbered (m : Method) : m.unnumbered.unnumbered = m.unnumbered := by
  obtain ⟨name, declaringType, params, result, isStatic⟩ := m
  cases result <;> simp [Method.unnumbered, Ty.unnumbered_unnumbered]

theorem Parameter.renumbered_renumbered (number again : Nat → Nat) (p : Parameter) :
    (p.renumbered number).renumbered again = p.renumbered (again ∘ number) := by
  simp [Parameter.renumbered, Ty.unnumbered_unnumbered]

namespace Expr

mutual

/-- An expression with other numbers for its parameters, in which the record types have lost
theirs. -/
def renumbered : Expr → Expr
  | constant type value literal => constant type.unnumbered value literal
  | parameter p => parameter (p.renumbered number)
  | staticMember type name => staticMember type.unnumbered name
  | member type target name => member type.unnumbered target.renumbered name
  | index type target args => index type.unnumbered target.renumbered (renumberedAll args)
  | staticCall type method args =>
    staticCall type.unnumbered method.unnumbered (renumberedAll args)
  | methodCall type method target args =>
    methodCall type.unnumbered method.unnumbered target.renumbered (renumberedAll args)
  | aggregate type operation source typeArgs args =>
    aggregate type.unnumbered operation source.renumbered (typeArgs.map Ty.unnumbered)
      (renumberedAll args)
  | invoke type target args => invoke type.unnumbered target.renumbered (renumberedAll args)
  | binary type op left right method =>
    binary type.unnumbered op left.renumbered right.renumbered method
  | convert type operand => convert type.unnumbered operand.renumbered
  | negate type operand => negate type.unnumbered operand.renumbered
  | not type operand => not type.unnumbered operand.renumbered
  | conditional test ifTrue ifFalse =>
    conditional test.renumbered ifTrue.renumbered ifFalse.renumbered
  | coalesce type left right => coalesce type.unnumbered left.renumbered right.renumbered
  | lambda params body => lambda (params.map (·.renumbered number)) body.renumbered
  | construct type args => construct type.unnumbered (renumberedAll args)
  | record type form members => record type.unnumbered form (renumberedMembers members)
  | newArray type items => newArray type.unnumbered (renumberedAll items)
  | typeTest type target wanted test =>
    typeTest type.unnumbered target.renumbered wanted.unnumbered test

/-- Expressions with other numbers. -/
def renumberedAll : List Expr → List Expr
  | [] => []
  | e :: rest => e.renumbered :: renumberedAll rest

/-- Named expressions with other numbers. -/
def renumberedMembers : List (String × Expr) → List (String × Expr)
  | [] => []
  | (name, e) :: rest => (name, e.renumbered) :: renumberedMembers rest

end

variable {number}

@[simp] theorem renumberedAll_eq_map (es : List Expr) :
    renumberedAll number es = es.map (renumbered number) := by
  induction es with
  | nil => rfl
  | cons e rest ih => rw [renumberedAll, ih, List.map_cons]

@[simp] theorem renumberedMembers_eq_map (members : List (String × Expr)) :
    renumberedMembers number members
      = members.map fun member => (member.1, member.2.renumbered number) := by
  induction members with
  | nil => rfl
  | cons member rest ih => rw [renumberedMembers, ih, List.map_cons]

section Composition

variable (number again : Nat → Nat)

mutual

/-- Numbers that are changed twice are changed once by both changes. -/
theorem renumbered_renumbered : ∀ e : Expr,
    (e.renumbered number).renumbered again = e.renumbered (again ∘ number)
  | constant type _ _ | staticMember type _ => by simp [renumbered, Ty.unnumbered_unnumbered]
  | parameter p => congrArg parameter (p.renumbered_renumbered number again)
  | member type target _ | convert type target | negate type target | not type target
  | typeTest type target _ _ => by
    simp [renumbered, Ty.unnumbered_unnumbered, renumbered_renumbered target]
  | index type target args | invoke type target args => by
    simp [renumbered, Ty.unnumbered_unnumbered, renumbered_renumbered target,
      renumberedAll_renumberedAll args, -renumberedAll_eq_map]
  | staticCall type method args => by
    simp [renumbered, Ty.unnumbered_unnumbered, Method.unnumbered_unnumbered,
      renumberedAll_renumberedAll args, -renumberedAll_eq_map]
  | methodCall type method target args => by
    simp [renumbered, Ty.unnumbered_unnumbered, Method.unnumbered_unnumbered,
      renumbered_renumbered target, renumberedAll_renumberedAll args, -renumberedAll_eq_map]
  | aggregate type operation source typeArgs args => by
    simp [renumbered, Ty.unnumbered_unnumbered, renumbered_renumbered source,
      renumberedAll_renumberedAll args, -renumberedAll_eq_map]
  | binary type _ left right _ | coalesce type left right => by
    simp [renumbered, Ty.unnumbered_unnumbered, renumbered_renumbered left,
      renumbered_renumbered right]
  | conditional test ifTrue ifFalse => by
    simp [renumbered, renumbered_renumbered test, renumbered_renumbered ifTrue,
      renumbered_renumbered ifFalse]
  | lambda params body => by
    simp [renumbered, Parameter.renumbered_renumbered, renumbered_renumbered body]
  | construct type args | newArray type args => by
    simp [renumbered, Ty.unnumbered_unnumbered, renumberedAll_renumberedAll args,
      -renumberedAll_eq_map]
  | record type form members => by
    simp [renumbered, Ty.unnumbered_unnumbered, renumberedMembers_renumberedMembers members,
      -renumberedMembers_eq_map]

theorem renumberedAll_renumberedAll : ∀ es : List Expr,
    renumberedAll again (renumberedAll number es) = renumberedAll (again ∘ number) es
  | [] => rfl
  | e :: rest => by
    simp [renumberedAll, renumbered_renumbered e, renumberedAll_renumberedAll rest,
      -renumberedAll_eq_map]

theorem renumberedMembers_renumberedMembers : ∀ members : List (String × Expr),
    renumberedMembers again (renumberedMembers number members)
      = renumberedMembers (again ∘ number) members
  | [] => rfl
  | (_, e) :: rest => by
    simp [renumberedMembers, renumbered_renumbered e, renumberedMembers_renumberedMembers rest,
      -renumberedMembers_eq_map]

end

end Composition

section Parts

variable (e : Expr)

@[simp] theorem type_renumbered : (e.renumbered number).type = e.type.unnumbered := by
  fun_induction type e with
  | _ => simp_all [renumbered, type, Parameter.renumbered, Ty.unnumbered]

@[simp] theorem value?_renumbered : (e.renumbered number).value? = e.value? := by cases e <;> rfl

@[simp] theorem isConstant_renumbered : (e.renumbered number).isConstant = e.isConstant := by
  simp [isConstant]

@[simp] theorem text?_renumbered : (e.renumbered number).text? = e.text? := by simp [text?]

@[simp] theorem isNullLiteral_renumbered :
    (e.renumbered number).isNullLiteral = e.isNullLiteral := by
  cases e with
  | constant type value literal => cases value <;> cases literal <;> rfl
  | _ => rfl

@[simp] theorem isUntypedNull_renumbered :
    (e.renumbered number).isUntypedNull = e.isUntypedNull := by
  simp [isUntypedNull]

@[simp] theorem parameter?_renumbered :
    (e.renumbered number).parameter? = e.parameter?.map (·.renumbered number) := by
  cases e <;> rfl

@[simp] theorem receiver?_renumbered :
    (e.renumbered number).receiver? = e.receiver?.map (renumbered number) := by
  cases e <;> rfl

@[simp] theorem isCall_renumbered : (e.renumbered number).isCall = e.isCall := by cases e <;> rfl

end Parts

@[simp] theorem ofValue_renumbered (type : Ty) (value : Value) :
    (ofValue type value).renumbered number = ofValue type.unnumbered value := rfl

@[simp] theorem nullOf_renumbered (type : Ty) :
    (nullOf type).renumbered number = nullOf type.unnumbered := rfl

/-! ## Promotion -/

section Promotion

variable (table : ClassTable) (mode : Promotion) (target : Ty) (e : Expr)

@[simp] theorem number?_unnumbered (text : String) :
    Literal.number? text target.unnumbered = Literal.number? text target := by
  cases target <;> rfl

@[simp] theorem member?_unnumbered (text : String) :
    Literal.member? text target.unnumbered = Literal.member? text target := by
  cases target <;> rfl

@[simp] theorem reread?_unnumbered (source : Ty) (text : String) :
    reread? source.unnumbered text target.unnumbered = reread? source text target := by
  have number := number?_unnumbered target text
  have member := member?_unnumbered target text
  cases source with
  | atom a =>
      cases a with
      | integral kind => cases kind <;> first | rfl | exact number
      | double => cases target with
        | atom a => rfl
        | _ => rfl
      | string => exact member
      | _ => rfl
  | _ => rfl

@[simp] theorem promoteConstant?_renumbered :
    promoteConstant? target.unnumbered (e.renumbered number)
      = (promoteConstant? target e).map (renumbered number) := by
  cases e with
  | constant source value literal =>
      cases value <;> cases literal <;>
        simp [renumbered, promoteConstant?, apply_ite (Option.map (renumbered number)),
          Function.comp_def]
  | _ => rfl

@[simp] theorem promoteByType?_renumbered :
    promoteByType? table.unnumbered mode target.unnumbered (e.renumbered number)
      = (promoteByType? table mode target e).map (renumbered number) := by
  simp only [promoteByType?, type_renumbered, Ty.isCompatible_unnumbered, Ty.isValue_unnumbered]
  split <;> try split
  all_goals rfl

@[simp] theorem promote?_renumbered :
    promote? table.unnumbered mode target.unnumbered (e.renumbered number)
      = (promote? table mode target e).map (renumbered number) := by
  simp only [promote?, type_renumbered, Ty.unnumbered_beq_left, Ty.unnumbered_beq_right,
    promoteConstant?_renumbered, promoteByType?_renumbered]
  split
  next => rfl
  next => simp only [Option.orElse_eq_orElse, Option.orElse_eq_or, Option.map_or]

@[simp] theorem promoteAll?_renumbered (targets : List Ty) (es : List Expr) :
    promoteAll? table.unnumbered mode (targets.map Ty.unnumbered) (es.map (renumbered number))
      = (promoteAll? table mode targets es).map (·.map (renumbered number)) := by
  induction targets generalizing es with
  | nil => cases es <;> rfl
  | cons target targets ih =>
      cases es with
      | nil => rfl
      | cons e es =>
          simp only [List.map_cons, promoteAll?, promote?_renumbered, ih]
          cases promote? table mode target e <;> cases promoteAll? table mode targets es <;> rfl

end Promotion

end Expr

end QueryTree

/-!
## Choices under other numbers

The choice of a candidate by its parameter types does not depend on the numbers of record types: the
same candidate is found, and the promoted arguments differ in no more than the numbers.
-/

namespace QueryTree

variable {number : Nat → Nat} (table : ClassTable) (mode : Promotion) (args : List Expr)

@[simp] theorem compareConversions_unnumbered (source first second : Ty) :
    compareConversions table.unnumbered source.unnumbered first.unnumbered second.unnumbered
      = compareConversions table source first second := by
  simp [compareConversions]

namespace Resolution

variable {α : Type} {change : α → α}

/-- An outcome with another candidate and other numbers in the arguments. -/
def renumbered (number : Nat → Nat) (change : α → α) : Resolution α → Resolution α
  | found candidate args => found (change candidate) (args.map (Expr.renumbered number))
  | notFound => notFound
  | ambiguous count => ambiguous count

@[simp] theorem conversionOrders_unnumbered (first second : List Ty) :
    conversionOrders table.unnumbered (args.map (Expr.renumbered number))
        (first.map Ty.unnumbered) (second.map Ty.unnumbered)
      = conversionOrders table args first second := by
  induction args generalizing first second with
  | nil => rfl
  | cons arg args ih =>
      cases first <;> cases second <;> simp [conversionOrders, ih]

@[simp] theorem isBetter_unnumbered (first second : List Ty) :
    isBetter table.unnumbered (args.map (Expr.renumbered number))
        (first.map Ty.unnumbered) (second.map Ty.unnumbered)
      = isBetter table args first second := by
  simp [isBetter]

/-- An applicable candidate changed, with other numbers in its types and arguments. -/
def Applicable.renumbered (number : Nat → Nat) (change : α → α) (a : Applicable α) :
    Applicable α :=
  ⟨a.place, change a.candidate, a.params.map Ty.unnumbered, a.args.map (Expr.renumbered number)⟩

/-- Candidates changed, with types that have lost the numbers of record types. -/
def unnumberedCandidates (change : α → α) (candidates : List (α × List Ty)) :
    List (α × List Ty) :=
  candidates.map fun candidate => (change candidate.1, candidate.2.map Ty.unnumbered)

variable (candidates : List (α × List Ty))

theorem applicable_renumbered :
    applicable table.unnumbered mode (args.map (Expr.renumbered number))
        (unnumberedCandidates change candidates)
      = (applicable table mode args candidates).map (Applicable.renumbered number change) := by
  simp only [applicable, unnumberedCandidates, List.zipIdx_map, List.filterMap_map,
    List.map_filterMap]
  refine congrArg (List.filterMap · _) (funext fun entry => ?_)
  simp only [Function.comp_apply, Prod.map_fst, Prod.map_snd, id_eq,
    Expr.promoteAll?_renumbered, Option.map_map]
  rfl

theorem isBest_renumbered (all : List (Applicable α)) (a : Applicable α) :
    isBest table.unnumbered (args.map (Expr.renumbered number))
        (all.map (Applicable.renumbered number change)) (a.renumbered number change)
      = isBest table args all a := by
  simp [isBest, Applicable.renumbered, Function.comp_def]

theorem pairsNullableGuid_renumbered :
    pairsNullableGuid (args.map (Expr.renumbered number)) = pairsNullableGuid args := by
  simp [pairsNullableGuid, Function.comp_def]

/-- The same candidate is chosen whatever the numbers are. -/
theorem choose_renumbered :
    choose table.unnumbered mode (args.map (Expr.renumbered number))
        (unnumberedCandidates change candidates)
      = (choose table mode args candidates).renumbered number change := by
  simp only [choose, applicable_renumbered, pairsNullableGuid_renumbered]
  match applicable table mode args candidates with
  | [] => rfl
  | [a] => rfl
  | a :: b :: others =>
      have best : ((a :: b :: others).map (Applicable.renumbered number change)).filter
            (isBest table.unnumbered (args.map (Expr.renumbered number))
              ((a :: b :: others).map (Applicable.renumbered number change)))
          = ((a :: b :: others).filter (isBest table args (a :: b :: others))).map
              (Applicable.renumbered number change) := by
        rw [List.filter_map]
        simp only [Function.comp_def, isBest_renumbered]
      simp only [List.map_cons] at best ⊢
      rw [best]
      match (a :: b :: others).filter (isBest table args (a :: b :: others)) with
      | [] | _ :: _ :: _ =>
          simp only [List.map_cons, List.map_nil, List.length_cons, List.length_map]
          split <;> rfl
      | [_] => rfl

end Resolution

/-! ### Declared members -/

namespace Ty

variable (type : Ty) (name : String)

@[simp] theorem hasMethod_unnumbered :
    type.unnumbered.hasMethod table.unnumbered name = type.hasMethod table name := by
  simp only [hasMethod, methods_unnumbered, List.any_map]
  rfl

theorem resolveMethod_renumbered (isStatic : Bool) :
    type.unnumbered.resolveMethod table.unnumbered name isStatic
        (args.map (Expr.renumbered number))
      = (type.resolveMethod table name isStatic args).renumbered number Method.unnumbered := by
  rw [resolveMethod, resolveMethod, ← Resolution.choose_renumbered]
  simp only [methods_unnumbered, List.filter_map, List.map_map, Resolution.unnumberedCandidates]
  rfl

theorem resolveIndexer_renumbered :
    type.unnumbered.resolveIndexer table.unnumbered (args.map (Expr.renumbered number))
      = (type.resolveIndexer table args).renumbered number Indexer.unnumbered := by
  rw [resolveIndexer, resolveIndexer, ← Resolution.choose_renumbered]
  simp only [indexers_unnumbered, List.map_map, Resolution.unnumberedCandidates]
  rfl

theorem resolveConstructor_renumbered :
    type.unnumbered.resolveConstructor table.unnumbered (args.map (Expr.renumbered number))
      = (type.resolveConstructor table args).renumbered number (·.map Ty.unnumbered) := by
  rw [resolveConstructor, resolveConstructor, ← Resolution.choose_renumbered]
  simp only [constructors_unnumbered, List.map_map, Resolution.unnumberedCandidates]
  rfl

end Ty

/-! ### Operators and operations on sequences -/

namespace OperatorGroup

variable (group : OperatorGroup)

theorem signatures_unnumbered :
    Resolution.unnumberedCandidates id (group.signatures.map fun types => (types, types))
      = group.signatures.map fun types => (types, types) := by
  cases group <;> rfl

theorem resolve_renumbered :
    group.resolve table.unnumbered (args.map (Expr.renumbered number))
      = (group.resolve table args).renumbered number id := by
  rw [resolve, resolve, ← Resolution.choose_renumbered, signatures_unnumbered]

theorem operands_renumbered (symbol : String) (position : Nat) (left right : Expr) :
    (group.operands table.unnumbered symbol position (left.renumbered number)
        (right.renumbered number)).toOption
      = (group.operands table symbol position left right).toOption.map
          (Prod.map (Expr.renumbered number) (Expr.renumbered number)) := by
  have chosen := @resolve_renumbered number table [left, right] group
  simp only [List.map_cons, List.map_nil] at chosen
  rw [operands, operands, chosen]
  match group.resolve table [left, right] with
  | .found _ [_, _] => rfl
  | .found _ [] | .found _ [_] | .found _ (_ :: _ :: _ :: _) | .notFound | .ambiguous _ => rfl

theorem operand_renumbered (symbol : String) (position : Nat) (e : Expr) :
    (group.operand table.unnumbered symbol position (e.renumbered number)).toOption
      = (group.operand table symbol position e).toOption.map (Expr.renumbered number) := by
  have chosen := @resolve_renumbered number table [e] group
  simp only [List.map_cons, List.map_nil] at chosen
  rw [operand, operand, chosen]
  match group.resolve table [e] with
  | .found _ [_] => rfl
  | .found _ [] | .found _ (_ :: _ :: _) | .notFound | .ambiguous _ => rfl

end OperatorGroup

namespace Aggregate

theorem signature_unnumbered {entry : Aggregate × List Ty} (isEntry : entry ∈ signatures) :
    entry.2.map Ty.unnumbered = entry.2 := by
  have all : signatures.map (·.2.map Ty.unnumbered) = signatures.map (·.2) := rfl
  exact List.map_inj_left.mp all entry isEntry

theorem resolve_renumbered (name : String) :
    resolve table.unnumbered name (args.map (Expr.renumbered number))
      = (resolve table name args).renumbered number id := by
  rw [resolve, resolve, ← Resolution.choose_renumbered]
  refine congrArg (Resolution.choose _ _ _) ?_
  rw [Resolution.unnumberedCandidates, List.map_map]
  refine List.map_congr_left fun entry isEntry => ?_
  exact congrArg (entry, ·) (signature_unnumbered (List.mem_filter.mp isEntry).1).symm

end Aggregate

end QueryTree
