import QueryTree.Proofs.Overload.Best

/-!
# Operands of the built-in operators

Promoted operands have the types of one signature of the operator.  These types are simple, so that
the operands have exactly these types.
-/

namespace QueryTree

namespace Expr

variable {table : ClassTable} {mode : Promotion} {e promoted : Expr}

/-- Only a text is promoted to a text, unless a class declares a conversion. -/
theorem promote?_string
    (undeclared : Ty.hasDeclaredConversion table e.type .string false = false)
    (outcome : promote? table mode .string e = some promoted) : promoted.type = .string := by
  refine Ty.eq_of_same rfl ?_
  obtain ⟨rfl, same⟩ | ⟨_, _, -, rfl⟩ | ⟨rfl, -⟩ | ⟨rfl, -, -, compatible⟩ :=
    promote?_cases outcome
  · exact same
  · rfl
  · rfl
  · have assignable : Ty.isAssignable table .string promoted.type = true := by
      obtain same | ⟨-, assignable⟩ | ⟨isValue, -⟩ :=
        (Ty.isCompatible_iff_of_undeclared undeclared).mp compatible
      · rw [Ty.eq_of_same rfl same]
        rfl
      · exact assignable
      · cases isValue
    cases Ty.isAssignable_iff.mp assignable with
    | same same => exact BEq.symm same

end Expr

namespace OperatorGroup

/-- Whether something holds of the two operand types of each signature of a group. -/
def allPairs (group : OperatorGroup) (holds : Ty → Ty → Bool) : Bool :=
  group.signatures.all fun signature =>
    match signature with
    | [t, u] => holds t u
    | _ => false

/-- A type that an operator can take: a simple type that is a value type or that of texts. -/
def isOperandType (t : Ty) : Bool := t.isSimple && (t.isValue || t.isString)

theorem isOperandType_of_mem (group : OperatorGroup) {signature : List Ty} {t : Ty}
    (isSignature : signature ∈ group.signatures) (member : t ∈ signature) :
    isOperandType t = true := by
  have all : (group.signatures.all fun signature => signature.all isOperandType) = true := by
    cases group <;> rfl
  exact List.all_eq_true.mp (List.all_eq_true.mp all signature isSignature) t member

variable {table : ClassTable} {group : OperatorGroup} {symbol : String} {position : Nat}

/-- An operand promoted to a type that an operator can take has this very type. -/
theorem type_of_promote? {t : Ty} {e promoted : Expr} (operand : isOperandType t = true)
    (undeclared : Ty.hasDeclaredConversion table e.type .string false = false)
    (outcome : e.promote? table .argument t = some promoted) : promoted.type = t := by
  obtain ⟨simple, kind⟩ := (Bool.and_eq_true _ _).mp operand
  obtain isValue | isString := (Bool.or_eq_true _ _).mp kind
  · exact Ty.eq_of_same simple (Expr.promote?_type (.inr isValue) outcome)
  · cases t with
    | atom a =>
        cases a with
        | string => exact Expr.promote?_string undeclared outcome
        | _ => cases isString
    | _ => cases isString

/-- Promoted operands are promoted to the types of one signature. -/
theorem operands_eq_ok {left right left' right' : Expr}
    (outcome : group.operands table symbol position left right = .ok (left', right')) :
    ∃ t u, [t, u] ∈ group.signatures ∧ left.promote? table .argument t = some left' ∧
      right.promote? table .argument u = some right' := by
  unfold operands at outcome
  split at outcome
  next signature left right found =>
    obtain ⟨rfl, rfl⟩ := Prod.mk.inj (Except.ok.inj outcome)
    obtain ⟨params, member, fits⟩ := Resolution.choose_found found
    obtain ⟨types, isSignature, same⟩ := List.mem_map.mp member
    obtain ⟨rfl, rfl⟩ := Prod.mk.inj same
    obtain ⟨t, rest, l, others, rfl, same, left_eq, tail⟩ := Expr.promoteAll?_cons fits
    obtain ⟨rfl, rfl⟩ := List.cons.inj same
    obtain ⟨u, rest, r, others, rfl, same, right_eq, tail⟩ := Expr.promoteAll?_cons tail
    obtain ⟨rfl, rfl⟩ := List.cons.inj same
    obtain ⟨rfl, -⟩ := Expr.promoteAll?_nil tail
    exact ⟨t, u, isSignature, left_eq, right_eq⟩
  next => cases outcome

/-- A promoted operand is promoted to the type of one signature. -/
theorem operand_eq_ok {e e' : Expr}
    (outcome : group.operand table symbol position e = .ok e') :
    ∃ t, [t] ∈ group.signatures ∧ e.promote? table .argument t = some e' := by
  unfold operand at outcome
  split at outcome
  next signature e found =>
    cases outcome
    obtain ⟨params, member, fits⟩ := Resolution.choose_found found
    obtain ⟨types, isSignature, same⟩ := List.mem_map.mp member
    obtain ⟨rfl, rfl⟩ := Prod.mk.inj same
    obtain ⟨t, rest, promoted, others, rfl, same, promoted_eq, tail⟩ := Expr.promoteAll?_cons fits
    obtain ⟨rfl, rfl⟩ := List.cons.inj same
    obtain ⟨rfl, -⟩ := Expr.promoteAll?_nil tail
    exact ⟨t, isSignature, promoted_eq⟩
  next => cases outcome

/-- No two signatures of a group are the same. -/
theorem pairwise_signatures (group : OperatorGroup) :
    group.signatures.Pairwise fun s t => Ty.sameAll s t = false := by
  cases group <;> decide

/-- All signatures but one are different from it. -/
theorem exists_other_signatures {types : List Ty} (isSignature : types ∈ group.signatures) :
    ∃ others, group.signatures.Perm (types :: others) ∧
      ∀ other ∈ others, other ∈ group.signatures ∧ Ty.sameAll types other = false := by
  obtain ⟨before, after, split⟩ := List.append_of_mem isSignature
  have middle : group.signatures.Perm (types :: (before ++ after)) :=
    split ▸ List.perm_middle
  have apart_symm {s t : List Ty} (apart : Ty.sameAll s t = false) : Ty.sameAll t s = false := by
    by_contra same
    rw [Bool.not_eq_false] at same
    simp [Ty.sameAll_symm same] at apart
  have apart := (List.pairwise_cons.mp
    ((middle.pairwise_iff apart_symm).mp (pairwise_signatures group))).1
  exact ⟨_, middle, fun other isOther =>
    ⟨middle.mem_iff.mpr (List.mem_cons_of_mem _ isOther), apart other isOther⟩⟩

/-- A signature that accepts the operands and is better than all others that do is chosen. -/
theorem resolve_best {es promoted : List Expr} {types : List Ty}
    (isSignature : types ∈ group.signatures)
    (fits : Expr.promoteAll? table .argument types es = some promoted)
    (better : ∀ other ∈ group.signatures, Ty.sameAll types other = false →
      Resolution.accepts table .argument es other = true →
      Resolution.isBetter table es types other = true) :
    group.resolve table es = .found types promoted := by
  obtain ⟨others, rearranged, apart⟩ := exists_other_signatures isSignature
  have isBest : Resolution.Best table .argument es
      (group.signatures.map fun types => (types, types)) (types, types) := by
    refine ⟨Resolution.accepts_iff.mpr ⟨promoted, fits⟩, _, rearranged.map _,
      fun other isOther accepted => ?_⟩
    obtain ⟨types', member, rfl⟩ := List.mem_map.mp isOther
    exact better types' (apart types' member).1 (apart types' member).2 accepted
  exact isBest.found (Resolution.promoteAll?_eq_some_iff.mp fits)

/-- The signature of the very types of the operands is the best one. -/
theorem resolve_exact {es : List Expr} {types : List Ty} (isSignature : types ∈ group.signatures)
    (exact : Resolution.Exact es types) : group.resolve table es = .found types es := by
  refine resolve_best isSignature (Resolution.promoteAll?_eq_some_iff.mpr exact.promoted) ?_
  intro other _ differs accepted
  exact exact.isBetter (beq_iff_eq.mp ((Bool.and_eq_true _ _).mp accepted).1) differs

theorem operands_exact {left right : Expr} {t u : Ty} (isSignature : [t, u] ∈ group.signatures)
    (left_type : (left.type == t) = true) (right_type : (right.type == u) = true) :
    group.operands table symbol position left right = .ok (left, right) := by
  have exact : Resolution.Exact [left, right] [t, u] := .cons left_type (.cons right_type .nil)
  rw [operands, resolve_exact isSignature exact]

theorem operand_exact {e : Expr} {t : Ty} (isSignature : [t] ∈ group.signatures)
    (type : (e.type == t) = true) : group.operand table symbol position e = .ok e := by
  have exact : Resolution.Exact [e] [t] := .cons type .nil
  rw [operand, resolve_exact isSignature exact]

end OperatorGroup

end QueryTree
