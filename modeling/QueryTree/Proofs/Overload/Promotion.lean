import Mathlib.Data.List.Nodup
import Mathlib.Data.List.Forall2
import QueryTree.Overload.Callable
import QueryTree.Overload.Signature
import QueryTree.Proofs.Expr.Everywhere
import QueryTree.Proofs.Type.Equality

/-!
# Promoted expressions

The type that a promotion gives to an expression.  In an exact promotion it is the type asked for;
an argument may keep a type whose values are values of the parameter's type as they are.
-/

/-!
## Chosen candidates

What overload resolution finds is one of the candidates, and the arguments are promoted to its
parameters.
-/

namespace QueryTree

namespace Resolution

variable {α : Type} {table : ClassTable} {mode : Promotion} {args promoted : List Expr}

theorem of_mem_applicable {candidates : List (α × List Ty)} {a : Applicable α}
    (isApplicable : a ∈ applicable table mode args candidates) :
    (a.candidate, a.params) ∈ candidates ∧
      Expr.promoteAll? table mode a.params args = some a.args := by
  obtain ⟨⟨⟨candidate, params⟩, place⟩, member, accepts⟩ := List.mem_filterMap.mp isApplicable
  obtain ⟨promoted, fits, rfl⟩ := Option.map_eq_some_iff.mp accepts
  exact ⟨List.fst_mem_of_mem_zipIdx member, fits⟩

/-- A chosen candidate is one of the candidates, and the arguments fit its parameters. -/
theorem choose_found {candidates : List (α × List Ty)} {candidate : α}
    (found : choose table mode args candidates = .found candidate promoted) :
    ∃ params, (candidate, params) ∈ candidates ∧
      Expr.promoteAll? table mode params args = some promoted := by
  have of_applicable (a : Applicable α) (isApplicable : a ∈ applicable table mode args candidates)
      (same : Resolution.found a.candidate a.args = .found candidate promoted) :
      ∃ params, (candidate, params) ∈ candidates ∧
        Expr.promoteAll? table mode params args = some promoted := by
    obtain ⟨rfl, rfl⟩ := Resolution.found.inj same
    exact ⟨a.params, of_mem_applicable isApplicable⟩
  rw [choose] at found
  split at found
  next => cases found
  next a single => exact of_applicable a (by simp [single]) found
  next a others _ several =>
    split at found
    next best isBest =>
      have chosen : best ∈ (a :: others).filter (Resolution.isBest table args (a :: others)) := by
        rw [isBest]
        exact List.mem_singleton_self best
      exact of_applicable best (several ▸ (List.mem_filter.mp chosen).1) found
    next =>
      split at found
      next => exact of_applicable a (by simp [several]) found
      next => cases found

end Resolution

namespace Ty

variable {table : ClassTable} {type : Ty} {args promoted : List Expr}

theorem resolveMethod_found {name : String} {isStatic : Bool} {method : Method}
    (found : type.resolveMethod table name isStatic args = .found method promoted) :
    method ∈ type.methods table ∧ method.isStatic = isStatic ∧ answersTo method name = true ∧
      Expr.promoteAll? table .argument method.params args = some promoted := by
  obtain ⟨params, member, fits⟩ := Resolution.choose_found found
  obtain ⟨candidate, isCandidate, same⟩ := List.mem_map.mp member
  obtain ⟨rfl, rfl⟩ := Prod.mk.inj same
  obtain ⟨isMethod, suits⟩ := List.mem_filter.mp isCandidate
  obtain ⟨kind, named⟩ := (Bool.and_eq_true _ _).mp suits
  exact ⟨isMethod, beq_iff_eq.mp kind, named, fits⟩

theorem resolveIndexer_found {indexer : Indexer}
    (found : type.resolveIndexer table args = .found indexer promoted) :
    indexer ∈ type.indexers table ∧
      Expr.promoteAll? table .argument indexer.params args = some promoted := by
  obtain ⟨params, member, fits⟩ := Resolution.choose_found found
  obtain ⟨candidate, isCandidate, same⟩ := List.mem_map.mp member
  obtain ⟨rfl, rfl⟩ := Prod.mk.inj same
  exact ⟨isCandidate, fits⟩

theorem resolveConstructor_found {params : List Ty}
    (found : type.resolveConstructor table args = .found params promoted) :
    params ∈ type.constructors table ∧
      Expr.promoteAll? table .argument params args = some promoted := by
  obtain ⟨types, member, fits⟩ := Resolution.choose_found found
  obtain ⟨candidate, isCandidate, same⟩ := List.mem_map.mp member
  obtain ⟨rfl, rfl⟩ := Prod.mk.inj same
  exact ⟨isCandidate, fits⟩

end Ty

namespace Aggregate

/-- The operations, each once. -/
def vocabulary : List Aggregate :=
  [filter, any, all, count, longCount, first, firstOrDefault, last, lastOrDefault, single,
    singleOrDefault, min, max, sum, average, select, selectMany, orderBy, orderByDescending, thenBy,
    thenByDescending, groupBy, skip, take, skipWhile, takeWhile, distinct, reverse, toArray, toList,
    defaultIfEmpty, contains, ofType, cast]

theorem mem_vocabulary (operation : Aggregate) : operation ∈ vocabulary := by
  cases operation <;> decide

/-- No two operations have names that differ only in the case of letters. -/
theorem name_injective {left right : Aggregate}
    (same : Text.foldAscii left.name = Text.foldAscii right.name) : left = right := by
  have distinct : (vocabulary.map fun operation => Text.foldAscii operation.name).Nodup := by
    decide +kernel
  exact List.inj_on_of_nodup_map distinct (mem_vocabulary left) (mem_vocabulary right) same

/-- The operation that is called is the one in whose scope the arguments are compiled. -/
theorem resolve_operation {table : ClassTable} {name : String} {args promoted : List Expr}
    {operation resolved : Aggregate} {params : List Ty} (named : ofName? name = some operation)
    (found : resolve table name args = .found (resolved, params) promoted) :
    resolved = operation := by
  obtain ⟨entry, isEntry, rfl⟩ := Option.map_eq_some_iff.mp named
  obtain ⟨_, member, -⟩ := Resolution.choose_found found
  obtain ⟨candidate, isCandidate, same⟩ := List.mem_map.mp member
  obtain ⟨rfl, rfl⟩ := Prod.mk.inj same
  have entry_name := List.find?_some isEntry
  have candidate_name := (List.mem_filter.mp isCandidate).2
  simp only [Text.sameIgnoringAsciiCase, beq_iff_eq] at entry_name candidate_name
  exact name_injective (candidate_name.trans entry_name.symm)

/-- An overload of the operation with a name is one of this operation. -/
theorem resolve_eq {table : ClassTable} {name : String} {args : List Expr} {operation : Aggregate}
    (named : ofName? name = some operation) :
    resolve table name args = Resolution.choose table .element args
      ((signatures.filter (·.1 = operation)).map fun entry => (entry, entry.2)) := by
  obtain ⟨entry, isEntry, rfl⟩ := Option.map_eq_some_iff.mp named
  have entry_name := List.find?_some isEntry
  have sameName (other : Aggregate × List Ty) :
      Text.sameIgnoringAsciiCase other.1.name name = decide (other.1 = entry.1) := by
    rw [Text.sameIgnoringAsciiCase, beq_iff_eq] at entry_name
    rw [Text.sameIgnoringAsciiCase, ← entry_name, Bool.eq_iff_iff, beq_iff_eq, decide_eq_true_eq]
    exact ⟨name_injective, fun same => by rw [same]⟩
  simp only [resolve, sameName]

end Aggregate

end QueryTree

namespace QueryTree

/-- No class declares a conversion. -/
def ClassTable.DeclaresNoConversion (table : ClassTable) : Prop :=
  ∀ c, ∀ m ∈ (table.body c).operators, m.name ≠ "op_Implicit" ∧ m.name ≠ "op_Explicit"

namespace Ty

theorem mem_inherited {α : Type} {table : ClassTable} {part : ClassBody → List α} {c : ClassRef}
    {a : α} (isInherited : a ∈ table.inherited part c) : ∃ owner, a ∈ part (table.body owner) := by
  obtain own | inherited := List.mem_append.mp isInherited
  · exact ⟨c, own⟩
  · obtain ⟨base, -, isPart⟩ := List.mem_flatMap.mp inherited
    split at isPart
    next owner _ => exact ⟨owner, isPart⟩
    next => simp at isPart

theorem operators_name {table : ClassTable} (plain : table.DeclaresNoConversion) {t : Ty}
    {m : Method} (isOperator : m ∈ t.operators table) :
    m.name ≠ "op_Implicit" ∧ m.name ≠ "op_Explicit" := by
  rw [operators] at isOperator
  split at isOperator
  next c _ =>
    obtain ⟨owner, own⟩ := mem_inherited isOperator
    exact plain owner m own
  next => simp at isOperator

theorem hasDeclaredConversion_eq_false {table : ClassTable} (plain : table.DeclaresNoConversion)
    (source target : Ty) (explicit : Bool) :
    hasDeclaredConversion table source target explicit = false := by
  refine List.any_eq_false.mpr fun m isOperator => ?_
  have unnamed : m.name ≠ "op_Implicit" ∧ m.name ≠ "op_Explicit" := by
    obtain own | own := List.mem_append.mp isOperator
    · exact operators_name plain own
    · exact operators_name plain own
  simp [unnamed.1, unnamed.2]

/-- Whether a type has no parts besides a mark for null. -/
def isSimple : Ty → Bool
  | atom _ | nullable (atom _) => true
  | _ => false

theorem eq_atom_of_same {t : Ty} {a : Atom} (same : Ty.same t (atom a) = true) : t = atom a := by
  cases t <;> simp_all [Ty.same]

/-- A simple type is the same only as itself. -/
theorem eq_of_same {t u : Ty} (simple : u.isSimple = true) (same : (t == u) = true) : t = u := by
  change Ty.same t u = true at same
  cases u with
  | atom b => exact eq_atom_of_same same
  | nullable inner =>
      cases inner with
      | atom b =>
          cases t with
          | nullable inner =>
              simp only [Ty.same] at same
              rw [eq_atom_of_same same]
          | _ => simp [Ty.same] at same
      | _ => cases simple
  | _ => cases simple

variable {table : ClassTable} {s t : Ty}

/-- What an element can be for a sequence to be taken for one of other elements: the same type, or a
reference type whose values are values of the other one as they are. -/
def Covers (table : ClassTable) (wanted element : Ty) : Prop :=
  (element == wanted) = true ∨ (element.isValue = false ∧ isAssignable table wanted element = true)

/-- The reasons why values of one type are values of another one as they are. -/
inductive Assigns (table : ClassTable) : Ty → Ty → Prop where
  | same {target source : Ty} (same : (target == source) = true) : Assigns table target source
  | object (source : Ty) : Assigns table object source
  | ancestor {b c : ClassRef} {base : Ty} (isAncestor : base ∈ table.ancestors c)
      (same : (base == cls b) = true) : Assigns table (cls b) (cls c)
  | dynamic (id : Nat) (names : List String) (types : List Ty) :
      Assigns table dynamic (record id names types)
  | sequence {wanted element source : Ty} (elements : source.element? table = some element)
      (covers : Covers table wanted element) : Assigns table (sequence wanted) source

theorem isAssignable_iff : isAssignable table t s = true ↔ Assigns table t s := by
  constructor
  · intro assignable
    unfold isAssignable at assignable
    split at assignable
    next either =>
      obtain same | isObject := (Bool.or_eq_true _ _).mp either
      · exact .same same
      · obtain rfl := eq_of_same rfl isObject
        exact .object s
    next =>
      split at assignable
      next =>
        split at assignable
        next =>
          obtain ⟨base, isAncestor, same⟩ := List.any_eq_true.mp assignable
          exact .ancestor isAncestor same
        next => cases assignable
      next =>
        split at assignable
        next => exact .dynamic ..
        next => cases assignable
      next =>
        split at assignable
        next elements =>
          refine .sequence elements ?_
          simpa only [Covers, Bool.or_eq_true, Bool.and_eq_true, Bool.not_eq_true'] using assignable
        next => cases assignable
      next => cases assignable
  · intro assigns
    unfold isAssignable
    cases assigns with
    | same same => simp [same]
    | object => simp
    | ancestor isAncestor same =>
        split
        next => rfl
        next => exact List.any_eq_true.mpr ⟨_, isAncestor, same⟩
    | dynamic => split <;> rfl
    | sequence elements covers =>
        split
        next => rfl
        next =>
          simpa only [Covers, elements, Bool.or_eq_true, Bool.and_eq_true, Bool.not_eq_true']
            using covers

/-- Whether a value of `source` converts implicitly to `target` by a conversion that no class
declares. -/
def convertsUndeclared (table : ClassTable) (source target : Ty) : Bool :=
  source == target ||
    if target.isValue then
      !(source.isNullable && !target.isNullable) && source.core.widensTo target.core
    else isAssignable table target source

/-- A type converts undeclared to itself, to the reference types that its values are values of, and
to the value types that it widens to and that admit null if it does. -/
theorem convertsUndeclared_iff :
    s.convertsUndeclared table t = true ↔
      (s == t) = true ∨ (t.isValue = false ∧ isAssignable table t s = true) ∨
        (t.isValue = true ∧ (s.isNullable = true → t.isNullable = true) ∧
          s.core.widensTo t.core = true) := by
  simp only [convertsUndeclared]
  cases s == t <;> cases t.isValue <;> cases s.isNullable <;> cases t.isNullable <;> simp

theorem isCompatible_of_undeclared
    (undeclared : hasDeclaredConversion table s t false = false) :
    isCompatible table s t = s.convertsUndeclared table t := by
  simp only [isCompatible, convertsUndeclared, undeclared, Bool.or_false]
  cases s == t <;> cases t.isValue <;> cases s.isNullable && !t.isNullable <;> rfl

theorem isCompatible_iff_of_undeclared
    (undeclared : hasDeclaredConversion table s t false = false) :
    isCompatible table s t = true ↔
      (s == t) = true ∨ (t.isValue = false ∧ isAssignable table t s = true) ∨
        (t.isValue = true ∧ (s.isNullable = true → t.isNullable = true) ∧
          s.core.widensTo t.core = true) := by
  rw [isCompatible_of_undeclared undeclared, convertsUndeclared_iff]

end Ty

namespace Expr

variable {table : ClassTable} {mode : Promotion} {target : Ty} {e promoted : Expr}

/-- An argument fits a parameter: it has the parameter's type, or its values are values of that
type as they are. -/
def Fits (table : ClassTable) (param : Ty) (arg : Expr) : Prop :=
  (arg.type == param) = true ∨ param.isAssignable table arg.type = true

/-- What a literal is read again as: its text as a number if it is one, or the member of an
enumeration that the text names. -/
inductive Reread (source : Ty) (text : String) (target : Ty) : Value → Prop where
  | integer {kind : IntKind} {value : Value} (isInteger : source = .integral kind)
      (read : Literal.number? text target = some value) : Reread source text target value
  | real {value : Value} (isReal : source = .double)
      (isTarget : target = .double ∨ target = .decimal)
      (read : Literal.number? text target = some value) : Reread source text target value
  | member {enum : EnumType} {n : Int} (isText : source = .string) (isTarget : target = .enum enum)
      (isNamed : enum.valueOf? text = some n) : Reread source text target (.enum enum n)

theorem reread {source : Ty} {text : String} {value : Value}
    (read : reread? source text target = some value) : Reread source text target value := by
  unfold reread? at read
  split at read
  iterate 4 next => exact .integer rfl read
  next =>
    split at read
    next => exact .real rfl (.inl rfl) read
    next => exact .real rfl (.inr rfl) read
    next => cases read
  next =>
    unfold Literal.member? at read
    split at read
    next =>
      obtain ⟨n, isNamed, rfl⟩ := Option.map_eq_some_iff.mp read
      exact .member rfl rfl isNamed
    next => cases read
  next => cases read

/-- What constants are promoted to by what they were written as: null stays null where the type
admits it, and a literal is read again as a value of the type. -/
inductive PromotedConstant (target : Ty) : Expr → Expr → Prop where
  | null {source : Ty} {literal? : Option String} (admits : target.admitsNull = true) :
      PromotedConstant target (.constant source .null literal?) (.nullOf target)
  | reread {source : Ty} {value again : Value} {text : String} (notNull : value ≠ .null)
      (read : reread? source text target.core = some again) :
      PromotedConstant target (.constant source value (some text))
        (.constant target again (some text))

theorem promotedConstant (outcome : promoteConstant? target e = some promoted) :
    PromotedConstant target e promoted := by
  unfold promoteConstant? at outcome
  split at outcome
  next =>
    split at outcome
    next admits => exact Option.some.inj outcome ▸ .null admits
    next => cases outcome
  next notNull =>
    obtain ⟨again, read, rfl⟩ := Option.map_eq_some_iff.mp outcome
    exact .reread notNull read
  next => cases outcome

theorem promoteConstant?_eq_some (outcome : promoteConstant? target e = some promoted) :
    ∃ value literal?, promoted = constant target value literal? := by
  cases promotedConstant outcome with
  | null | reread => exact ⟨_, _, rfl⟩

/-- A promoted expression is the expression itself, a constant of the type asked for, a conversion
to it, or the expression itself in place of one of a reference type. -/
theorem promote?_cases (outcome : promote? table mode target e = some promoted) :
    (promoted = e ∧ (e.type == target) = true) ∨
      (∃ value literal?, promoteConstant? target e = some promoted ∧
        promoted = constant target value literal?) ∨
      (promoted = convert target e ∧ e.type.isCompatible table target = true) ∨
      (promoted = e ∧ target.isValue = false ∧ mode.exact = false ∧
        e.type.isCompatible table target = true) := by
  rw [promote?] at outcome
  split at outcome
  next same => exact .inl ⟨(Option.some.inj outcome).symm, same⟩
  next =>
    cases constant : promoteConstant? target e with
    | some reread =>
        obtain rfl : reread = promoted := by simpa [constant] using outcome
        obtain ⟨value, literal?, shape⟩ := promoteConstant?_eq_some constant
        exact .inr (.inl ⟨value, literal?, rfl, shape⟩)
    | none =>
        have byType : promoteByType? table mode target e = some promoted := by
          simpa [constant] using outcome
        rw [promoteByType?] at byType
        split at byType
        next compatible =>
          split at byType
          next => exact .inr (.inr (.inl ⟨(Option.some.inj byType).symm, compatible⟩))
          next keeps =>
            simp only [Bool.or_eq_true, not_or, Bool.not_eq_true] at keeps
            refine .inr (.inr (.inr ⟨(Option.some.inj byType).symm, ?_, ?_, compatible⟩))
            · exact keeps.1.1
            · exact keeps.1.2
        next => cases byType

/-- For the argument of a sequence operation every value is one of the type of all values. -/
theorem promoteByType?_object : promoteByType? table .element .object e = some e := by
  have compatible : e.type.isCompatible table .object = true := by
    simp [Ty.isCompatible, Ty.isAssignable, Ty.isValue, Atom.isValue]
  rw [promoteByType?, if_pos compatible]
  exact if_neg (by simp [Promotion.element, Ty.isValue, Atom.isValue])

theorem promote?_object_of_value? (noConstant : e.value? = none) :
    promote? table .element .object e = some e := by
  have unwritten : promoteConstant? .object e = none := by
    cases e with
    | constant => cases noConstant
    | _ => rfl
  rw [promote?, unwritten, promoteByType?_object]
  split <;> rfl

theorem promote?_recast (outcome : promote? table mode target e = some promoted) :
    Recast e promoted := by
  obtain ⟨rfl, -⟩ | ⟨_, _, -, rfl⟩ | ⟨rfl, -⟩ | ⟨rfl, -⟩ := promote?_cases outcome
  · exact .same
  · exact .constant
  · exact .convert .same
  · exact .same

/-- What is promoted exactly, or to a type whose values are never references, has the type asked
for. -/
theorem promote?_type (strict : mode.exact = true ∨ target.isValue = true)
    (outcome : promote? table mode target e = some promoted) :
    (promoted.type == target) = true := by
  obtain ⟨rfl, same⟩ | ⟨_, _, -, rfl⟩ | ⟨rfl, -⟩ | ⟨rfl, isReference, loose, -⟩ :=
    promote?_cases outcome
  · exact same
  · exact BEq.rfl
  · exact BEq.rfl
  · simp [isReference, loose] at strict

theorem promote?_fits (plain : table.DeclaresNoConversion)
    (outcome : promote? table mode target e = some promoted) : Fits table target promoted := by
  obtain ⟨rfl, same⟩ | ⟨_, _, -, rfl⟩ | ⟨rfl, -⟩ | ⟨rfl, isReference, -, compatible⟩ :=
    promote?_cases outcome
  · exact .inl same
  · exact .inl BEq.rfl
  · exact .inl BEq.rfl
  · simp only [Ty.isCompatible, isReference, Bool.not_false, if_true,
      Ty.hasDeclaredConversion_eq_false plain, Bool.or_false] at compatible
    split at compatible
    next same => exact .inl same
    next => exact .inr compatible

theorem promoteAll?_nil {targets : List Ty} {all : List Expr}
    (outcome : promoteAll? table mode targets [] = some all) : targets = [] ∧ all = [] := by
  cases targets with
  | nil => exact ⟨rfl, (Option.some.inj outcome).symm⟩
  | cons => cases outcome

theorem promoteAll?_cons {targets : List Ty} {es all : List Expr}
    (outcome : promoteAll? table mode targets (e :: es) = some all) :
    ∃ target rest promoted others, targets = target :: rest ∧ all = promoted :: others ∧
      promote? table mode target e = some promoted ∧
      promoteAll? table mode rest es = some others := by
  cases targets with
  | nil => cases outcome
  | cons target rest =>
      obtain ⟨promoted, head, tail⟩ := Option.bind_eq_some_iff.mp outcome
      obtain ⟨others, others_eq, same⟩ := Option.bind_eq_some_iff.mp tail
      exact ⟨target, rest, promoted, others, rfl, (Option.some.inj same).symm, head, others_eq⟩

theorem promoteAll?_forall₂ {related : Expr → Expr → Prop} {accepts : Ty → Expr → Prop}
    (each : ∀ target e promoted, promote? table mode target e = some promoted →
      related e promoted ∧ accepts target promoted)
    {targets : List Ty} {es all : List Expr}
    (outcome : promoteAll? table mode targets es = some all) :
    List.Forall₂ related es all ∧ List.Forall₂ accepts targets all := by
  induction es generalizing targets all with
  | nil =>
      obtain ⟨rfl, rfl⟩ := promoteAll?_nil outcome
      exact ⟨.nil, .nil⟩
  | cons e es ih =>
      obtain ⟨target, rest, promoted, others, rfl, rfl, head, tail⟩ := promoteAll?_cons outcome
      obtain ⟨related_head, accepts_head⟩ := each target e promoted head
      obtain ⟨related_tail, accepts_tail⟩ := ih tail
      exact ⟨.cons related_head related_tail, .cons accepts_head accepts_tail⟩

theorem promoteAll?_fits {targets : List Ty} {es all : List Expr}
    (plain : table.DeclaresNoConversion)
    (outcome : promoteAll? table mode targets es = some all) :
    List.Forall₂ (Fits table) targets all := by
  have each (target : Ty) (e promoted : Expr)
      (outcome : promote? table mode target e = some promoted) :
      True ∧ Fits table target promoted := ⟨trivial, promote?_fits plain outcome⟩
  exact (promoteAll?_forall₂ each outcome).2

end Expr

end QueryTree
