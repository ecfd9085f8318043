import QueryTree.Proofs.Overload.Promotion

/-!
# Arguments and their parameters

What the arguments of a chosen candidate are passed as.  An argument that only a declared conversion
makes suit its parameter is converted where the parameter holds values, or where the promotion
converts to reference types; in place of a reference it is passed as it is, and then it does not fit
the parameter.
-/

namespace QueryTree

/-- Whether an expression of a type takes the place of one of another type without a node for the
conversion. -/
def Promotion.keeps (mode : Promotion) (source target : Ty) : Bool :=
  !(target.isValue || mode.exact || (source.isValue && mode.boxes))

namespace Expr

variable {table : ClassTable} {mode : Promotion} {param : Ty} {arg promoted : Expr}

/-- An argument that suits a parameter only by a conversion that a class declares. -/
structure SuitsByDeclaration (table : ClassTable) (param : Ty) (arg : Expr) : Prop where
  /-- It is no constant that is read as one of the parameter's type. -/
  unwritten : promoteConstant? param arg = none
  /-- No other conversion leads to the parameter's type. -/
  otherwise : arg.type.convertsUndeclared table param = false
  declared : Ty.hasDeclaredConversion table arg.type param false = true

theorem SuitsByDeclaration.differs (byDeclaration : SuitsByDeclaration table param arg) :
    (arg.type == param) = false :=
  (Bool.or_eq_false_iff.mp byDeclaration.otherwise).1

/-- What a parameter receives of an argument that only a declared conversion makes suit it. -/
theorem SuitsByDeclaration.promoted_eq (byDeclaration : SuitsByDeclaration table param arg)
    (outcome : promote? table mode param arg = some promoted) :
    promoted = if mode.keeps arg.type param then arg else convert param arg := by
  have byType : promoteByType? table mode param arg = some promoted := by
    simpa [promote?, byDeclaration.differs, byDeclaration.unwritten] using outcome
  rw [promoteByType?] at byType
  split at byType
  next =>
    split at byType
    next converts => simp [Promotion.keeps, converts, ← Option.some.inj byType]
    next keeps => simp [Promotion.keeps, keeps, ← Option.some.inj byType]
  next => cases byType

/-- An argument that is passed as it is in place of a reference does not fit. -/
theorem SuitsByDeclaration.not_fits (byDeclaration : SuitsByDeclaration table param arg)
    (keeps : mode.keeps arg.type param = true) : ¬Fits table param arg := by
  have isReference : param.isValue = false := by
    simp only [Promotion.keeps, Bool.not_eq_true', Bool.or_eq_false_iff] at keeps
    exact keeps.1.1
  have otherwise := byDeclaration.otherwise
  simp only [Ty.convertsUndeclared, isReference, Bool.false_eq_true, if_false,
    Bool.or_eq_false_iff] at otherwise
  rintro (same | assignable)
  · simp [otherwise.1] at same
  · simp [otherwise.2] at assignable

/-- What is passed as it is without fitting suits its parameter only by a declared conversion. -/
theorem byDeclaration_of_not_fits (outcome : promote? table mode param arg = some promoted)
    (unfit : ¬Fits table param promoted) :
    SuitsByDeclaration table param arg ∧ mode.keeps arg.type param = true := by
  have differs : (arg.type == param) = false := by
    refine Bool.eq_false_iff.mpr fun same => unfit (.inl ?_)
    rw [promote?, if_pos same] at outcome
    exact Option.some.inj outcome ▸ same
  have unwritten : promoteConstant? param arg = none := by
    cases constant : promoteConstant? param arg with
    | none => rfl
    | some reread =>
        obtain rfl : reread = promoted := by simpa [promote?, differs, constant] using outcome
        obtain ⟨_, _, rfl⟩ := promoteConstant?_eq_some constant
        exact absurd (.inl BEq.rfl) unfit
  have byType : promoteByType? table mode param arg = some promoted := by
    simpa [promote?, differs, unwritten] using outcome
  rw [promoteByType?] at byType
  split at byType
  next compatible =>
    split at byType
    next =>
      obtain rfl := Option.some.inj byType
      exact absurd (.inl BEq.rfl) unfit
    next keeps =>
      obtain rfl := Option.some.inj byType
      rw [Bool.not_eq_true] at keeps
      have isReference : param.isValue = false := by
        simp only [Bool.or_eq_false_iff] at keeps
        exact keeps.1.1
      have unassignable : param.isAssignable table arg.type = false :=
        Bool.eq_false_iff.mpr fun assignable => unfit (.inr assignable)
      refine ⟨⟨unwritten, ?_, ?_⟩, by rw [Promotion.keeps, keeps]; rfl⟩
      · simp [Ty.convertsUndeclared, differs, isReference, unassignable]
      · simpa [Ty.isCompatible, differs, isReference, unassignable] using compatible
  next => cases byType

/-- What a parameter receives of an argument. -/
structure PassedAs (table : ClassTable) (mode : Promotion) (param : Ty) (arg promoted : Expr) :
    Prop where
  /-- It fits, unless a declared conversion is left out in place of a reference. -/
  fits_iff : Fits table param promoted ↔
    ¬(SuitsByDeclaration table param arg ∧ mode.keeps arg.type param = true)
  /-- Elsewhere a declared conversion is a node of the tree. -/
  converted : SuitsByDeclaration table param arg → mode.keeps arg.type param = false →
    promoted = convert param arg
  /-- Where it is left out, the argument is passed as it is. -/
  kept : SuitsByDeclaration table param arg → mode.keeps arg.type param = true → promoted = arg

theorem promote?_passedAs (outcome : promote? table mode param arg = some promoted) :
    PassedAs table mode param arg promoted := by
  refine ⟨⟨?_, fun fitting => ?_⟩, fun byDeclaration converts => ?_, fun byDeclaration keeps => ?_⟩
  · rintro fits ⟨byDeclaration, keeps⟩
    have kept := byDeclaration.promoted_eq outcome
    rw [if_pos keeps] at kept
    exact byDeclaration.not_fits keeps (kept ▸ fits)
  · by_contra unfit
    exact fitting (byDeclaration_of_not_fits outcome unfit)
  · simpa [converts] using byDeclaration.promoted_eq outcome
  · simpa [keeps] using byDeclaration.promoted_eq outcome

theorem promoteAll?_passedAs {params : List Ty} {args all : List Expr}
    (outcome : promoteAll? table mode params args = some all) :
    params.length = all.length ∧ args.length = all.length ∧
      ∀ (i : Nat) param arg promoted, params[i]? = some param → args[i]? = some arg →
        all[i]? = some promoted → PassedAs table mode param arg promoted := by
  induction args generalizing params all with
  | nil =>
      obtain ⟨rfl, rfl⟩ := promoteAll?_nil outcome
      exact ⟨rfl, rfl, by simp⟩
  | cons arg args ih =>
      obtain ⟨param, params, promoted, others, rfl, rfl, head, tail⟩ := promoteAll?_cons outcome
      obtain ⟨arity, length, each⟩ := ih tail
      refine ⟨congrArg (· + 1) arity, congrArg (· + 1) length, fun i _ _ _ atParam atArg atAll => ?_⟩
      cases i with
      | zero =>
          obtain rfl := Option.some.inj atParam
          obtain rfl := Option.some.inj atArg
          obtain rfl := Option.some.inj atAll
          exact promote?_passedAs head
      | succ i => exact each i _ _ _ atParam atArg atAll

end Expr

namespace Resolution

/-- The arguments of a chosen candidate are as many as its parameters.  Each one has the type of its
parameter, or one whose values are values of that type without a conversion that a class declares,
and it is converted to the type of its parameter if only such a conversion makes it suit.  The
exception is an argument that is passed as it is in place of a reference: it does not fit if only a
declared conversion makes it suit. -/
theorem found_passes {α : Type} {table : ClassTable} {mode : Promotion}
    {candidates : List (α × List Ty)} {args promoted : List Expr} {candidate : α}
    (found : choose table mode args candidates = .found candidate promoted) :
    ∃ params, (candidate, params) ∈ candidates ∧ params.length = promoted.length ∧
      args.length = promoted.length ∧
      ∀ (i : Nat) param arg passed, params[i]? = some param → args[i]? = some arg →
        promoted[i]? = some passed → Expr.PassedAs table mode param arg passed := by
  obtain ⟨params, member, fits⟩ := choose_found found
  exact ⟨params, member, Expr.promoteAll?_passedAs fits⟩

section Example

/-- A class of lengths whose values are references. -/
def metres : ClassRef := ⟨"Metres", none, false, 1⟩

/-- A class of lengths whose values are no references. -/
def feet : ClassRef := ⟨"Feet", none, true, 2⟩

/-- A class of distances. -/
def journey : ClassRef := ⟨"Journey", none, false, 3⟩

/-- The implicit conversion of a class to another one, which the first one declares. -/
def conversionTo (source target : ClassRef) : Method :=
  .staticMethod source.name "op_Implicit" [.cls source] (.cls target)

/-- The bodies of these classes.  A length in metres converts to both of the others. -/
def lengths : ClassTable :=
  #[some mathBody,
    some { ClassBody.empty with
      operators := [conversionTo metres feet, conversionTo metres journey] },
    some .empty, some .empty]

/-- Of two lengths in metres the one for a length in feet is converted, the one for a journey is
not. -/
theorem found_passes_lengths :
    let m := Expr.parameter ⟨0, "m", .cls metres⟩
    let candidates := [("far", [Ty.cls feet, .cls journey])]
    choose lengths .argument [m, m] candidates =
        .found "far" [.convert (.cls feet) m, m] ∧
      Expr.PassedAs lengths .argument (.cls feet) m (.convert (.cls feet) m) ∧
      Expr.PassedAs lengths .argument (.cls journey) m m := by
  intro m candidates
  have found : choose lengths .argument [m, m] candidates =
      .found "far" [.convert (.cls feet) m, m] := by rfl
  obtain ⟨params, member, -, -, each⟩ := found_passes found
  obtain rfl : params = [.cls feet, .cls journey] := by simpa [candidates] using member
  exact ⟨found, each 0 _ _ _ rfl rfl rfl, each 1 _ _ _ rfl rfl rfl⟩

/-- The length that is passed for a journey is not converted, though only a declared conversion
leads there. -/
theorem declared_conversion_left_out :
    let m := Expr.parameter ⟨0, "m", .cls metres⟩
    choose lengths .argument [m] [("far", [.cls journey])] = .found "far" [m] ∧
      Expr.SuitsByDeclaration lengths (.cls journey) m ∧ ¬Expr.Fits lengths (.cls journey) m := by
  intro m
  have byDeclaration : Expr.SuitsByDeclaration lengths (.cls journey) m :=
    ⟨by decide +kernel, by decide +kernel, by decide +kernel⟩
  have keeps : Promotion.argument.keeps m.type (.cls journey) = true := by decide
  exact ⟨by rfl, byDeclaration, byDeclaration.not_fits keeps⟩

end Example

end Resolution

end QueryTree
