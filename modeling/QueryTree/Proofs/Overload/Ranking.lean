import QueryTree.Proofs.Overload.Arrangement
import QueryTree.Proofs.Overload.Fitting
import QueryTree.Proofs.Type.Preorder

/-!
# The order of conversions

When a better conversion than a better one is better, no chain of better conversions or of better
candidates is closed, and a candidate that is worse than another one does not count: among types
that the model ranks, if those that are numbers agree in whether they admit null.
-/

namespace QueryTree

/-! ## Conversions of numbers

A number type widens along the table of number types, and to a type that admits null; the signs and
the sizes of two integral types tell whether one widens to the other.
-/

theorem IntKind.widensTo_iff {kind wider : IntKind} :
    (Atom.integral kind).widensTo (.integral wider) = true ↔
      if kind.isSigned = wider.isSigned then kind.card ≤ wider.card
      else kind.isSigned = false ∧ kind.card < wider.card := by
  cases kind <;> cases wider <;> decide

theorem Atom.integral_of_widensTo {a : Atom} {wider : IntKind}
    (widens : a.widensTo (.integral wider) = true) : ∃ kind, a = .integral kind := by
  cases a with
  | integral kind => exact ⟨kind, rfl⟩
  | _ => cases widens

namespace Ty

variable {table : ClassTable} {s t u v : Ty} {kind other : IntKind}

theorem core_of_intKind? (isKind : t.intKind? = some kind) : t.core = .integral kind := by
  rw [intKind?] at isKind
  split at isKind
  next isIntegral => rw [isIntegral, Option.some.inj isKind]
  next => cases isKind

theorem isSignedIntegral_iff :
    t.isSignedIntegral = true ↔ ∃ kind, t.intKind? = some kind ∧ kind.isSigned = true := by
  rw [isSignedIntegral, Option.any_eq_true]

theorem isUnsignedIntegral_iff :
    t.isUnsignedIntegral = true ↔ ∃ kind, t.intKind? = some kind ∧ kind.isSigned = false := by
  simp [isUnsignedIntegral, Option.any_eq_true]

theorem isValue_of_core {a : Atom} (core : t.core = .atom a) (isValue : a.isValue = true) :
    t.isValue = true := by
  cases t with
  | atom => exact (atom.inj core).symm ▸ isValue
  | nullable => rfl
  | _ => cases core

theorem isNumeric_of_core {a : Atom} (core : t.core = .atom a) : t.isNumeric = a.isNumeric := by
  rw [isNumeric, core]

/-- Two number types of which exactly one admits null. -/
def Crosses (t u : Ty) : Prop :=
  t.isNumeric = true ∧ u.isNumeric = true ∧ t.isNullable ≠ u.isNullable

theorem crosses_or_aligned (t_number : t.isNumeric = true) (u_number : u.isNumeric = true) :
    t.Crosses u ∨ t.isNullable = u.isNullable :=
  (em (t.isNullable = u.isNullable)).symm.imp (⟨t_number, u_number, ·⟩) id

/-- A number type converts to the types that it widens to, if null is not lost. -/
theorem convertsUndeclared_of_widens {a b : Atom} (t_core : t.core = .atom a)
    (u_core : u.core = .atom b) (isNumber : b.isNumeric = true) (widens : a.widensTo b = true)
    (lifts : t.isNullable = true → u.isNullable = true) : t.convertsUndeclared table u = true := by
  refine convertsUndeclared_iff.mpr (.inr (.inr ⟨?_, lifts, ?_⟩))
  · exact isValue_of_core u_core (Atom.isValue_of_isNumeric isNumber)
  · rw [t_core, u_core]
    exact widens

/-- An integral type converts to the top type and to number types that it widens to. -/
theorem converts_of_integral (isKind : t.intKind? = some kind)
    (converts : t.convertsUndeclared table u = true) :
    u = .object ∨ ∃ b, u.core = .atom b ∧ b.isNumeric = true ∧
      (Atom.integral kind).widensTo b = true ∧ (t.isNullable = true → u.isNullable = true) := by
  have t_core := core_of_intKind? isKind
  obtain same | ⟨isReference, assignable⟩ | ⟨-, lifts, widens⟩ :=
    convertsUndeclared_iff.mp converts
  · have u_core : u.core = .atom (.integral kind) := by
      have cores := core_same same
      rw [t_core] at cores
      exact eq_atom_of_beq cores
    exact .inr ⟨.integral kind, u_core, rfl, Atom.widensTo_refl _, isNullable_same same ▸ id⟩
  · have t_value := isValue_of_core t_core rfl
    obtain isObject | ⟨c, rfl⟩ := eq_cls_of_isAssignable t_value isReference assignable
    · exact .inl isObject
    · cases isKind
  · rw [t_core] at widens
    obtain same | ⟨a, b, isAtom, u_core, widens⟩ := widensTo_iff.mp widens
    · exact .inr ⟨.integral kind, eq_atom_of_beq same, rfl, Atom.widensTo_refl _, lifts⟩
    · obtain rfl := atom.inj isAtom
      obtain rfl | ⟨-, isNumber⟩ := Atom.widensTo_isNumeric widens
      · exact .inr ⟨_, u_core, rfl, widens, lifts⟩
      · exact .inr ⟨b, u_core, isNumber, widens, lifts⟩

/-- Only integral types convert to an integral type. -/
theorem converts_to_integral (isKind : u.intKind? = some kind)
    (converts : t.convertsUndeclared table u = true) :
    ∃ other, t.intKind? = some other ∧ (Atom.integral other).widensTo (.integral kind) = true ∧
      (t.isNullable = true → u.isNullable = true) := by
  have u_core := core_of_intKind? isKind
  have ofCore {a : Atom} (t_core : t.core = .atom a) (widens : a.widensTo (.integral kind) = true)
      (lifts : t.isNullable = true → u.isNullable = true) :
      ∃ other, t.intKind? = some other ∧
        (Atom.integral other).widensTo (.integral kind) = true ∧
          (t.isNullable = true → u.isNullable = true) := by
    obtain ⟨other, rfl⟩ := Atom.integral_of_widensTo widens
    exact ⟨other, by rw [intKind?, t_core], widens, lifts⟩
  obtain same | ⟨isReference, -⟩ | ⟨-, lifts, widens⟩ := convertsUndeclared_iff.mp converts
  · have t_core : t.core = .atom (.integral kind) := by
      have cores := core_same (BEq.symm same)
      rw [u_core] at cores
      exact eq_atom_of_beq cores
    exact ofCore t_core (Atom.widensTo_refl _) (isNullable_same same ▸ id)
  · rw [isValue_of_core u_core rfl] at isReference
    cases isReference
  · rw [u_core] at widens
    obtain same | ⟨a, b, t_core, isAtom, widens⟩ := widensTo_iff.mp widens
    · exact ofCore (eq_atom_of_beq (BEq.symm same)) (Atom.widensTo_refl _) lifts
    · obtain rfl := atom.inj isAtom
      exact ofCore t_core widens lifts

theorem converts_integral_iff (t_kind : t.intKind? = some kind) (u_kind : u.intKind? = some other) :
    t.convertsUndeclared table u = true ↔
      (Atom.integral kind).widensTo (.integral other) = true ∧
        (t.isNullable = true → u.isNullable = true) := by
  constructor
  · intro converts
    obtain ⟨kind', isKind, widens, lifts⟩ := converts_to_integral u_kind converts
    obtain rfl := Option.some.inj (t_kind.symm.trans isKind)
    exact ⟨widens, lifts⟩
  · rintro ⟨widens, lifts⟩
    exact convertsUndeclared_of_widens (core_of_intKind? t_kind) (core_of_intKind? u_kind) rfl
      widens lifts

theorem not_widens_of_apart (t_kind : t.intKind? = some kind) (u_kind : u.intKind? = some other)
    (lifts : t.isNullable = true → u.isNullable = true)
    (apart : t.convertsUndeclared table u = false) :
    ¬ (Atom.integral kind).widensTo (.integral other) = true := by
  intro widens
  rw [(converts_integral_iff t_kind u_kind).mpr ⟨widens, lifts⟩] at apart
  cases apart

/-- What an unsigned type converts to that does not convert to some signed type is unsigned, or the
signed type converts to it as well, unless the two differ in null. -/
theorem signed_converts (isSigned : t.isSignedIntegral = true)
    (isUnsigned : u.isUnsignedIntegral = true) (apart : u.convertsUndeclared table t = false)
    (converts : u.convertsUndeclared table v = true) :
    v.isUnsignedIntegral = true ∨ t.convertsUndeclared table v = true ∨ t.Crosses v := by
  obtain ⟨k, t_kind, k_signed⟩ := isSignedIntegral_iff.mp isSigned
  obtain ⟨l, u_kind, l_unsigned⟩ := isUnsignedIntegral_iff.mp isUnsigned
  have t_core := core_of_intKind? t_kind
  obtain rfl | ⟨b, v_core, v_number, widens, lifts⟩ := converts_of_integral u_kind converts
  · exact .inr (.inl (convertsUndeclared_iff.mpr (.inr (.inl ⟨rfl,
      isAssignable_iff.mpr (.object t)⟩))))
  · have t_number : t.isNumeric = true := isNumeric_of_core t_core
    obtain crosses | aligned :=
      crosses_or_aligned t_number ((isNumeric_of_core v_core).trans v_number)
    · exact .inr (.inr crosses)
    have t_lifts : t.isNullable = true → v.isNullable = true := aligned ▸ id
    cases b with
    | integral m =>
        have v_kind : v.intKind? = some m := by rw [intKind?, v_core]
        cases m_sign : m.isSigned with
        | false => exact .inl (isUnsignedIntegral_iff.mpr ⟨m, v_kind, m_sign⟩)
        | true =>
            refine .inr (.inl ((converts_integral_iff t_kind v_kind).mpr ⟨?_, t_lifts⟩))
            -- what keeps the unsigned type from the signed one is its size, and not null
            have wide := not_widens_of_apart u_kind t_kind (aligned ▸ lifts) apart
            simp only [IntKind.widensTo_iff, k_signed, l_unsigned, m_sign, Bool.false_eq_true,
              if_false, if_true, true_and] at wide widens ⊢
            omega
    | single | double | decimal =>
        refine .inr (.inl (convertsUndeclared_of_widens t_core v_core rfl ?_ t_lifts))
        cases k <;> rfl
    | _ => cases v_number

/-- A type that converts to a signed type to which some unsigned type does not convert is signed, or
it converts to the unsigned type as well, unless the two differ in null. -/
theorem converts_unsigned (isSigned : u.isSignedIntegral = true)
    (isUnsigned : v.isUnsignedIntegral = true) (apart : v.convertsUndeclared table u = false)
    (converts : t.convertsUndeclared table u = true) :
    t.isSignedIntegral = true ∨ t.convertsUndeclared table v = true ∨ t.Crosses v := by
  obtain ⟨k, u_kind, k_signed⟩ := isSignedIntegral_iff.mp isSigned
  obtain ⟨m, v_kind, m_unsigned⟩ := isUnsignedIntegral_iff.mp isUnsigned
  obtain ⟨l, t_kind, widens, lifts⟩ := converts_to_integral u_kind converts
  cases l_sign : l.isSigned with
  | true => exact .inl (isSignedIntegral_iff.mpr ⟨l, t_kind, l_sign⟩)
  | false =>
      obtain crosses | aligned := crosses_or_aligned (isNumeric_of_core (core_of_intKind? t_kind))
        (isNumeric_of_core (core_of_intKind? v_kind))
      · exact .inr (.inr crosses)
      refine .inr (.inl ((converts_integral_iff t_kind v_kind).mpr ⟨?_, aligned ▸ id⟩))
      have wide := not_widens_of_apart v_kind u_kind (aligned ▸ lifts) apart
      simp only [IntKind.widensTo_iff, k_signed, l_sign, m_unsigned, Bool.false_eq_true,
        if_false, if_true, true_and] at wide widens ⊢
      omega

end Ty

/-! ## Better conversions

Which of two conversions is better is decided by three rules.  The one to the type of the value
itself is; then the one to a type that converts to the other type, but not back; and then the one to
a signed type, of a signed and an unsigned one that do not convert to each other.
-/

/-- The conversion of a value of `source` to one type is better than the one to another type. -/
def Better (table : ClassTable) (source first second : Ty) : Prop :=
  compareConversions table source first second = .lt

namespace Ty

variable {table : ClassTable} {s t u v : Ty}

/-- A type comes before another one, whatever is converted to them. -/
def Outranks (table : ClassTable) (t u : Ty) : Prop :=
  isCompatible table u t = false ∧
    (isCompatible table t u = true ∨
      (t.isSignedIntegral = true ∧ u.isUnsignedIntegral = true))

theorem isCompatible_of_same (same : (t == u) = true) : isCompatible table t u = true := by
  simp [isCompatible, same]

/-- A signed type never converts to an unsigned one. -/
theorem isCompatible_unsigned (isSigned : t.isSignedIntegral = true)
    (isUnsigned : u.isUnsignedIntegral = true) : isCompatible table t u = false := by
  obtain ⟨k, t_kind, k_signed⟩ := isSignedIntegral_iff.mp isSigned
  obtain ⟨l, u_kind, l_unsigned⟩ := isUnsignedIntegral_iff.mp isUnsigned
  have undeclared : hasDeclaredConversion table t u false = false := by
    simp [hasDeclaredConversion, operators, core_of_intKind? t_kind, core_of_intKind? u_kind]
  rw [isCompatible_of_undeclared undeclared, Bool.eq_false_iff]
  intro converts
  have widens := ((converts_integral_iff t_kind u_kind).mp converts).1
  simp [IntKind.widensTo_iff, k_signed, l_unsigned] at widens

theorem intKind?_same (same : (t == u) = true) : t.intKind? = u.intKind? := by
  have cores : Ty.same t.core u.core = true := core_same same
  unfold intKind?
  cases t_core : t.core <;> cases u_core : u.core <;> simp_all [Ty.same]

end Ty

namespace Better

open Ty

variable {table : ClassTable} {s t u v : Ty}

theorem iff_outranks :
    Better table s t u ↔
      (s == u) = false ∧ ((s == t) = true ∨ Outranks table t u) := by
  have same_forth := @isCompatible_of_same table t u
  have same_back : (t == u) = true → isCompatible table u t = true :=
    fun same => isCompatible_of_same (BEq.symm same)
  have signs := @isCompatible_unsigned table t u
  have signs_back := @isCompatible_unsigned table u t
  have t_sign := @isUnsignedIntegral_eq_false t
  have through : (s == t) = true → (t == u) = true → (s == u) = true := BEq.trans
  have meet : (s == t) = true → (s == u) = true → (t == u) = true :=
    fun toFirst toSecond => BEq.trans (BEq.symm toFirst) toSecond
  simp only [Better, compareConversions, Outranks]
  grind

end Better

/-- Types that a model ranks: they are made of its classes, and none of these declares a conversion
from one of the types to another. -/
structure ClassTable.Ranks (table : ClassTable) (isDeclared : ClassRef → Prop)
    (targets : Ty → Prop) : Prop where
  known : ∀ t, targets t → t.Over isDeclared
  undeclared : ∀ t u, targets t → targets u → Ty.hasDeclaredConversion table t u false = false

/-- Classes pass on their elements, if there is a sequence among the types. -/
def ClassTable.PassesAmong (table : ClassTable) (isDeclared : ClassRef → Prop)
    (targets : Ty → Prop) : Prop :=
  ∀ wanted, targets (.sequence wanted) → table.PassesElements isDeclared

/-- No two of the types are numbers of which exactly one admits null. -/
def Ty.Aligned (targets : Ty → Prop) : Prop :=
  ∀ t u, targets t → targets u → ¬ t.Crosses u

theorem Ty.Aligned.mono {targets others : Ty → Prop} (aligned : Ty.Aligned targets)
    (among : ∀ t, others t → targets t) : Ty.Aligned others :=
  fun t u t_target u_target => aligned t u (among t t_target) (among u u_target)

namespace ClassTable.Ranks

open Ty

variable {table : ClassTable} {isDeclared : ClassRef → Prop} {targets : Ty → Prop}
  {s t t' u u' v : Ty} (model : table.Describes isDeclared)
  (ranks : table.Ranks isDeclared targets)

include ranks

theorem mono {others : Ty → Prop} (among : ∀ t, others t → targets t) :
    table.Ranks isDeclared others where
  known t isOther := ranks.known t (among t isOther)
  undeclared t u t_other u_other := ranks.undeclared t u (among t t_other) (among u u_other)

theorem compatible_eq (t_target : targets t) (u_target : targets u) :
    isCompatible table t u = t.convertsUndeclared table u :=
  isCompatible_of_undeclared (ranks.undeclared t u t_target u_target)

include model

section Transitivity

variable (passes : table.PassesAmong isDeclared targets)

include passes

theorem compatible_trans (t_target : targets t) (u_target : targets u) (v_target : targets v)
    (first : isCompatible table t u = true) (second : isCompatible table u v = true) :
    isCompatible table t v = true := by
  rw [ranks.compatible_eq t_target u_target] at first
  rw [ranks.compatible_eq u_target v_target] at second
  rw [ranks.compatible_eq t_target v_target]
  refine convertsUndeclared_trans model ?_ (ranks.known t t_target) (ranks.known u u_target)
    (ranks.known v v_target) first second
  rintro ⟨wanted, rfl⟩
  exact passes wanted v_target

/-- Nothing converts back over two ranks. -/
theorem not_compatible_back (t_target : targets t) (u_target : targets u) (v_target : targets v)
    (first : Outranks table t u) (second : Outranks table u v) :
    isCompatible table v t = false := by
  rw [Bool.eq_false_iff]
  intro back
  obtain ⟨apart, forth | ⟨-, u_unsigned⟩⟩ := first
  · have closes := ranks.compatible_trans model passes v_target t_target u_target back forth
    cases second.1.symm.trans closes
  · obtain ⟨-, forth | ⟨u_signed, -⟩⟩ := second
    · have closes := ranks.compatible_trans model passes u_target v_target t_target forth back
      cases apart.symm.trans closes
    · cases (isUnsignedIntegral_eq_false u_signed).symm.trans u_unsigned

/-- Two ranks make one, unless the two types are numbers of which one admits null. -/
theorem outranks_or_crosses (t_target : targets t) (u_target : targets u) (v_target : targets v)
    (first : Outranks table t u) (second : Outranks table u v) :
    Outranks table t v ∨ t.Crosses v := by
  have apart := ranks.not_compatible_back model passes t_target u_target v_target first second
  have t_u := ranks.compatible_eq t_target u_target
  have u_t := ranks.compatible_eq u_target t_target
  have t_v := ranks.compatible_eq t_target v_target
  have u_v := ranks.compatible_eq u_target v_target
  have v_u := ranks.compatible_eq v_target u_target
  obtain ⟨u_apart, forth | ⟨t_signed, u_unsigned⟩⟩ := first
  · obtain ⟨v_apart, forth' | ⟨u_signed, v_unsigned⟩⟩ := second
    · have through := ranks.compatible_trans model passes t_target u_target v_target forth forth'
      exact .inl ⟨apart, .inl through⟩
    · obtain t_signed | converts | crosses :=
        converts_unsigned u_signed v_unsigned (v_u ▸ v_apart) (t_u ▸ forth)
      · exact .inl ⟨apart, .inr ⟨t_signed, v_unsigned⟩⟩
      · exact .inl ⟨apart, .inl (t_v.trans converts)⟩
      · exact .inr crosses
  · obtain ⟨-, forth' | ⟨u_signed, -⟩⟩ := second
    · obtain v_unsigned | converts | crosses :=
        signed_converts t_signed u_unsigned (u_t ▸ u_apart) (u_v ▸ forth')
      · exact .inl ⟨apart, .inr ⟨t_signed, v_unsigned⟩⟩
      · exact .inl ⟨apart, .inl (t_v.trans converts)⟩
      · exact .inr crosses
    · cases (isUnsignedIntegral_eq_false u_signed).symm.trans u_unsigned

/-- Two ranks never lead down to where they start. -/
theorem not_outranks_back (t_target : targets t) (u_target : targets u) (v_target : targets v)
    (first : Outranks table t u) (second : Outranks table u v) : ¬ Outranks table v t := by
  have apart := ranks.not_compatible_back model passes t_target u_target v_target first second
  rintro ⟨apart', back | ⟨v_signed, t_unsigned⟩⟩
  · cases apart.symm.trans back
  · obtain ⟨-, forth | ⟨t_signed, -⟩⟩ := first
    · obtain ⟨-, forth' | ⟨-, v_unsigned⟩⟩ := second
      · have through := ranks.compatible_trans model passes t_target u_target v_target forth forth'
        cases apart'.symm.trans through
      · cases (isUnsignedIntegral_eq_false v_signed).symm.trans v_unsigned
    · cases (isUnsignedIntegral_eq_false t_signed).symm.trans t_unsigned

/-- A better conversion than a better one is better, or neither of the two is the better one and
they lead to numbers of which one admits null. -/
theorem better_or_crosses (t_target : targets t) (u_target : targets u) (v_target : targets v)
    (first : Better table s t u) (second : Better table s u v) :
    Better table s t v ∨ (compareConversions table s t v = .eq ∧ t.Crosses v) := by
  have backward : compareConversions table s t v = .gt → Better table s v t := by
    intro isWorse
    rw [Better, ← compareConversions_swap, isWorse]
    rfl
  obtain ⟨s_u, reason⟩ := Better.iff_outranks.mp first
  obtain ⟨s_v, same | lower⟩ := Better.iff_outranks.mp second
  · cases s_u.symm.trans same
  obtain same | upper := reason
  · exact .inl (Better.iff_outranks.mpr ⟨s_v, .inl same⟩)
  obtain outranks | crosses :=
    ranks.outranks_or_crosses model passes t_target u_target v_target upper lower
  · exact .inl (Better.iff_outranks.mpr ⟨s_v, .inr outranks⟩)
  · cases order : compareConversions table s t v with
    | lt => exact .inl order
    | eq => exact .inr ⟨rfl, crosses⟩
    | gt =>
        obtain ⟨-, same | back⟩ := Better.iff_outranks.mp (backward order)
        · cases s_v.symm.trans same
        · exact absurd back
            (ranks.not_outranks_back model passes t_target u_target v_target upper lower)

end Transitivity

/-- A better conversion stays better between the same types. -/
theorem better_congr (t_target : targets t) (t_target' : targets t') (u_target : targets u)
    (u_target' : targets u') (t_same : (t' == t) = true) (u_same : (u == u') = true)
    (better : Better table s t u) : Better table s t' u' := by
  have t_known := ranks.known t t_target
  have t_known' := ranks.known t' t_target'
  have u_known := ranks.known u u_target
  have u_known' := ranks.known u' u_target'
  obtain ⟨s_u, reason⟩ := Better.iff_outranks.mp better
  refine Better.iff_outranks.mpr ⟨Bool.eq_false_iff.mpr fun same => ?_, ?_⟩
  · cases s_u.symm.trans (BEq.trans same (BEq.symm u_same))
  obtain same | ⟨apart, reason⟩ := reason
  · exact .inl (BEq.trans same (BEq.symm t_same))
  refine .inr ⟨Bool.eq_false_iff.mpr fun back => ?_, reason.imp (fun forth => ?_) fun signs => ?_⟩
  · rw [ranks.compatible_eq u_target' t_target'] at back
    rw [ranks.compatible_eq u_target t_target,
      convertsUndeclared_congr model u_known' u_known u_same t_same back] at apart
    cases apart
  · rw [ranks.compatible_eq t_target u_target] at forth
    rw [ranks.compatible_eq t_target' u_target']
    exact convertsUndeclared_congr model t_known t_known' t_same u_same forth
  · rw [isSignedIntegral, isUnsignedIntegral, intKind?_same t_same, ← intKind?_same u_same]
    exact signs

end ClassTable.Ranks

/-! ### Cycles of conversions

A closed chain of better conversions is one of ranks, as none of its types is the type of the value.
It either passes no sequence, and ranks are transitive on the way, or it passes sequences only.
-/

/-- Behind a conversion that is better than one to another type no conversion is the identity. -/
theorem Better.outranks_of_chain {table : ClassTable} {targets : Ty → Prop} {s t u : Ty}
    (apart : (s == t) = false)
    (chain : Relation.TransGen (fun t u => targets t ∧ targets u ∧ Better table s t u) t u) :
    Relation.TransGen (fun t u => targets t ∧ targets u ∧ Ty.Outranks table t u) t u ∧
      (s == u) = false := by
  have outranks {t u : Ty} (apart : (s == t) = false) (better : Better table s t u) :
      Ty.Outranks table t u ∧ (s == u) = false := by
    obtain ⟨apart', same | outranks⟩ := Better.iff_outranks.mp better
    · cases apart.symm.trans same
    · exact ⟨outranks, apart'⟩
  induction chain with
  | single step =>
      obtain ⟨t_target, u_target, better⟩ := step
      obtain ⟨isOutranked, apart'⟩ := outranks apart better
      exact ⟨.single ⟨t_target, u_target, isOutranked⟩, apart'⟩
  | tail _ step ih =>
      obtain ⟨u_target, v_target, better⟩ := step
      obtain ⟨isOutranked, apart'⟩ := outranks ih.2 better
      exact ⟨.tail ih.1 ⟨u_target, v_target, isOutranked⟩, apart'⟩

namespace ClassTable.Ranks

open Ty

variable {table : ClassTable} {isDeclared : ClassRef → Prop} {targets : Ty → Prop} {s t u : Ty}
  (model : table.Describes isDeclared) (ranks : table.Ranks isDeclared targets)

include ranks

theorem covers_of_compatible (t_target : targets t) (u_target : targets u)
    (isReference : t.isValue = false) (compatible : isCompatible table t u = true) :
    Covers table u t := by
  rw [ranks.compatible_eq t_target u_target] at compatible
  exact covers_of_convertsUndeclared (ranks.known u u_target) isReference compatible

theorem keepsSequences_outranks :
    KeepsSequences fun t u => targets t ∧ targets u ∧ Outranks table t u where
  sequence := by
    rintro a u ⟨a_target, u_target, -, forth | ⟨isSigned, -⟩⟩
    · exact eq_of_covers_sequence (ranks.covers_of_compatible a_target u_target rfl forth)
    · cases isSigned
  object := by
    rintro u ⟨object_target, u_target, apart, forth | ⟨isSigned, -⟩⟩
    · obtain rfl := eq_of_covers_object
        (ranks.covers_of_compatible object_target u_target rfl forth)
      cases apart.symm.trans (isCompatible_of_same BEq.rfl)
    · cases isSigned

/-- A sequence that comes before another one is one of elements below the elements of the other. -/
theorem below_of_outranks {a b : Ty} (a_target : targets (.sequence a))
    (b_target : targets (.sequence b)) (outranks : Outranks table (.sequence a) (.sequence b)) :
    Below table a b := by
  have converts_iff {a b : Ty} (a_target : targets (.sequence a))
      (b_target : targets (.sequence b)) :
      isCompatible table (.sequence a) (.sequence b) = true ↔ Covers table b a := by
    rw [ranks.compatible_eq a_target b_target, convertsUndeclared_iff, ← covers_sequence_iff]
    simp [Covers, isValue]
  obtain ⟨apart, forth | ⟨isSigned, -⟩⟩ := outranks
  · refine ⟨(converts_iff a_target b_target).mp forth, fun back => ?_⟩
    cases apart.symm.trans ((converts_iff b_target a_target).mpr back)
  · cases isSigned

variable (aligned : Ty.Aligned targets)

include model aligned

/-- Among aligned types that are no sequences a chain of ranks makes one. -/
theorem outranks_of_others (chain : Relation.TransGen
      (BesidesSequences fun t u => targets t ∧ targets u ∧ Outranks table t u) t u) :
    Outranks table t u := by
  let others (t : Ty) : Prop := targets t ∧ ∀ e, t ≠ .sequence e
  have among : ∀ t, others t → targets t := fun t isOther => isOther.1
  have passes : table.PassesAmong isDeclared others :=
    fun wanted isOther => absurd rfl (isOther.2 wanted)
  have through : others t ∧ others u ∧ Outranks table t u := by
    induction chain with
    | single step =>
        obtain ⟨t_other, u_other, t_target, u_target, outranks⟩ := step
        exact ⟨⟨t_target, t_other⟩, ⟨u_target, u_other⟩, outranks⟩
    | tail _ step ih =>
        obtain ⟨isOther, isOther', outranks⟩ := ih
        obtain ⟨-, v_other, -, v_target, outranks'⟩ := step
        refine ⟨isOther, ⟨v_target, v_other⟩, ?_⟩
        exact ((ranks.mono among).outranks_or_crosses model passes isOther isOther'
          ⟨v_target, v_other⟩ outranks outranks').resolve_right
            (aligned _ _ isOther.1 v_target)
  exact through.2.2

/-- Among aligned types no chain of better conversions is closed. -/
theorem no_cycle (t : Ty) :
    ¬ Relation.TransGen (fun t u => targets t ∧ targets u ∧ Better table s t u) t t := by
  intro cycle
  obtain ⟨_, -, -, -, better⟩ := Relation.TransGen.tail'_iff.mp cycle
  have apart : (s == t) = false := (Better.iff_outranks.mp better).1
  obtain ⟨a, rfl, inner⟩ | others :=
    ranks.keepsSequences_outranks.cycle (Better.outranks_of_chain apart cycle).1
  · refine no_cycle_below model a (Relation.TransGen.mono ?_ a a inner)
    rintro a b ⟨a_target, b_target, outranks⟩
    exact ⟨ranks.known (.sequence a) a_target, ranks.known (.sequence b) b_target,
      ranks.below_of_outranks a_target b_target outranks⟩
  · have outranks := ranks.outranks_of_others model aligned others
    cases outranks.1.symm.trans (isCompatible_of_same BEq.rfl)

end ClassTable.Ranks

/-! ### Better or the same -/

/-- A conversion is better than another one, or it is one to the same type. -/
def BetterOrSame (table : ClassTable) (source first second : Ty) : Prop :=
  (first == second) = true ∨ Better table source first second

namespace ClassTable.Ranks

open Ty

variable {table : ClassTable} {isDeclared : ClassRef → Prop} {targets : Ty → Prop}
  {s t u v : Ty} (model : table.Describes isDeclared)
  (ranks : table.Ranks isDeclared targets)

include model ranks

/-- A chain of better conversions goes on with one that is better or the same. -/
theorem chain_betterOrSame
    (chain : Relation.TransGen (fun t u => targets t ∧ targets u ∧ Better table s t u) t u)
    (v_target : targets v) (last : BetterOrSame table s u v) :
    Relation.TransGen (fun t u => targets t ∧ targets u ∧ Better table s t u) t v := by
  obtain same | better := last
  · obtain ⟨w, before, w_target, u_target, better⟩ := Relation.TransGen.tail'_iff.mp chain
    exact .tail' before ⟨w_target, v_target,
      ranks.better_congr model w_target w_target u_target v_target BEq.rfl same better⟩
  · obtain ⟨w, -, -, u_target, -⟩ := Relation.TransGen.tail'_iff.mp chain
    exact .tail chain ⟨u_target, v_target, better⟩

theorem betterOrSame_trans (passes : table.PassesAmong isDeclared targets)
    (aligned : Ty.Aligned targets) (t_target : targets t) (u_target : targets u)
    (v_target : targets v) (first : BetterOrSame table s t u) (second : BetterOrSame table s u v) :
    BetterOrSame table s t v ∧ (Better table s t u → Better table s t v) := by
  obtain same | better := first
  · refine ⟨?_, fun better => ?_⟩
    · obtain same' | better' := second
      · exact .inl (BEq.trans same same')
      · exact .inr
          (ranks.better_congr model u_target t_target v_target v_target same BEq.rfl better')
    · simp [Better, compareConversions, same] at better
  · have through : Better table s t v := by
      obtain same' | better' := second
      · exact ranks.better_congr model t_target t_target u_target v_target BEq.rfl same' better
      · exact (ranks.better_or_crosses model passes t_target u_target v_target better
          better').resolve_right fun crosses => aligned t v t_target v_target crosses.2
    exact ⟨.inr through, fun _ => through⟩

end ClassTable.Ranks

/-! ## Better candidates

One candidate is better than another if it is so at one place and nowhere worse.  At several places
this is no order, even among types that are ranked, as types of which neither is better may stand
at one place: candidates have to be ranked at every place.
-/

namespace Resolution

variable {α : Type} {table : ClassTable} {mode : Promotion} {args : List Expr}
  {firsts seconds thirds : List Ty}

/-- An argument in its place, with the types of the parameters of two candidates there. -/
def Meets (args : List Expr) (firsts seconds : List Ty) (i : Nat) (arg : Expr) (t u : Ty) : Prop :=
  args[i]? = some arg ∧ firsts[i]? = some t ∧ seconds[i]? = some u

theorem mem_conversionOrders_iff {order : Ordering} :
    order ∈ conversionOrders table args firsts seconds ↔
      ∃ i arg t u, Meets args firsts seconds i arg t u ∧
        compareConversions table arg.type t u = order := by
  induction args generalizing firsts seconds with
  | nil => simp [conversionOrders, Meets]
  | cons arg args ih =>
      cases firsts with
      | nil => simp [conversionOrders, Meets]
      | cons t firsts =>
          cases seconds with
          | nil => simp [conversionOrders, Meets]
          | cons u seconds =>
              rw [conversionOrders, List.mem_cons, ih]
              constructor
              · rintro (rfl | ⟨i, arg', t', u', places, order_eq⟩)
                · exact ⟨0, arg, t, u, ⟨rfl, rfl, rfl⟩, rfl⟩
                · exact ⟨i + 1, arg', t', u', places, order_eq⟩
              · rintro ⟨_ | i, arg', t', u', places, order_eq⟩
                · simp only [Meets, List.getElem?_cons_zero, Option.some.injEq] at places
                  obtain ⟨rfl, rfl, rfl⟩ := places
                  exact .inl order_eq.symm
                · exact .inr ⟨i, arg', t', u', places, order_eq⟩

theorem isBetter_iff :
    isBetter table args firsts seconds = true ↔
      (∀ i arg t u, Meets args firsts seconds i arg t u →
        compareConversions table arg.type t u ≠ .gt) ∧
      ∃ i arg t u, Meets args firsts seconds i arg t u ∧ Better table arg.type t u := by
  simp only [isBetter, Bool.and_eq_true, List.all_eq_true, List.any_eq_true, bne_iff_ne, ne_eq,
    beq_iff_eq, mem_conversionOrders_iff, Better]
  constructor
  · rintro ⟨noLoss, order, ⟨i, arg, t, u, meets, rfl⟩, wins⟩
    exact ⟨fun i arg t u meets => noLoss _ ⟨i, arg, t, u, meets, rfl⟩, i, arg, t, u, meets, wins⟩
  · rintro ⟨noLoss, i, arg, t, u, meets, wins⟩
    refine ⟨?_, _, ⟨i, arg, t, u, meets, rfl⟩, wins⟩
    rintro order ⟨i, arg, t, u, meets, rfl⟩
    exact noLoss i arg t u meets

/-- The type of the parameter that some candidate has at a place. -/
def ParameterAt (candidates : List (α × List Ty)) (i : Nat) (t : Ty) : Prop :=
  ∃ candidate ∈ candidates, candidate.2[i]? = some t

/-- Candidates that are ranked: they have as many parameters as there are arguments, at every place
the model ranks the types of their parameters, these are aligned, and where there are several
places, two of these types are the same if the conversions to them are equally good. -/
structure Ranked (table : ClassTable) (isDeclared : ClassRef → Prop) (args : List Expr)
    (candidates : List (α × List Ty)) : Prop where
  arity : ∀ candidate ∈ candidates, candidate.2.length = args.length
  ranks : ∀ i, table.Ranks isDeclared (ParameterAt candidates i)
  aligned : ∀ i, Ty.Aligned (ParameterAt candidates i)
  decided : args.length ≠ 1 → ∀ (i : Nat) arg t u, args[i]? = some arg →
    ParameterAt candidates i t → ParameterAt candidates i u →
      compareConversions table arg.type t u = .eq → (t == u) = true

section Ranked

variable {isDeclared : ClassRef → Prop} {candidates all : List (α × List Ty)}
  {first second third worse other : α × List Ty}

theorem Ranked.place (ranked : Ranked table isDeclared args all) {i : Nat} {arg : Expr}
    (isArg : args[i]? = some arg) (member : first ∈ all) : ∃ t, first.2[i]? = some t := by
  have bound := (List.getElem?_eq_some_iff.mp isArg).1
  exact ⟨_, List.getElem?_eq_getElem (ranked.arity first member ▸ bound)⟩

/-- A better candidate of ranked ones has at each place the better type or the same one. -/
theorem Ranked.betterOrSame (ranked : Ranked table isDeclared args all) (first_mem : first ∈ all)
    (second_mem : second ∈ all) (better : isBetter table args first.2 second.2 = true)
    {i : Nat} {arg : Expr} {t u : Ty} (meets : Meets args first.2 second.2 i arg t u) :
    BetterOrSame table arg.type t u := by
  obtain ⟨noLoss, j, arg', t', u', meets', wins⟩ := isBetter_iff.mp better
  cases order : compareConversions table arg.type t u with
  | lt => exact .inr order
  | gt => exact absurd order (noLoss i arg t u meets)
  | eq =>
      obtain ⟨isArg, isFirst, isSecond⟩ := meets
      by_cases single : args.length = 1
      · -- the only place is the one where the candidate is better
        have atZero {k : Nat} {a : Expr} (isArg : args[k]? = some a) : k = 0 := by
          have bound := (List.getElem?_eq_some_iff.mp isArg).1
          omega
        obtain rfl := (atZero isArg).trans (atZero meets'.1).symm
        obtain rfl := Option.some.inj (isArg.symm.trans meets'.1)
        obtain rfl := Option.some.inj (isFirst.symm.trans meets'.2.1)
        obtain rfl := Option.some.inj (isSecond.symm.trans meets'.2.2)
        exact .inr wins
      · exact .inl (ranked.decided single i arg t u isArg ⟨first, first_mem, isFirst⟩
          ⟨second, second_mem, isSecond⟩ order)

/-- Among ranked candidates, one that is better than a better one is better. -/
theorem Ranked.isBetter_trans (model : table.Describes isDeclared)
    (ranked : Ranked table isDeclared args all)
    (passes : ∀ i, table.PassesAmong isDeclared (ParameterAt all i)) (first_mem : first ∈ all)
    (second_mem : second ∈ all) (third_mem : third ∈ all)
    (better : isBetter table args first.2 second.2 = true)
    (better' : isBetter table args second.2 third.2 = true) :
    isBetter table args first.2 third.2 = true := by
  have through {i : Nat} {arg : Expr} {t u v : Ty} (isArg : args[i]? = some arg)
      (isFirst : first.2[i]? = some t) (isSecond : second.2[i]? = some u)
      (isThird : third.2[i]? = some v) :=
    (ranked.ranks i).betterOrSame_trans model (passes i) (ranked.aligned i)
      ⟨first, first_mem, isFirst⟩ ⟨second, second_mem, isSecond⟩ ⟨third, third_mem, isThird⟩
      (ranked.betterOrSame first_mem second_mem better ⟨isArg, isFirst, isSecond⟩)
      (ranked.betterOrSame second_mem third_mem better' ⟨isArg, isSecond, isThird⟩)
  refine isBetter_iff.mpr ⟨fun i arg t v ⟨isArg, isFirst, isThird⟩ => ?_, ?_⟩
  · obtain ⟨u, isSecond⟩ := ranked.place isArg second_mem
    obtain ⟨same | wins, -⟩ := through isArg isFirst isSecond isThird
    · simp [compareConversions, same]
    · rw [show compareConversions table arg.type t v = .lt from wins]
      decide
  · obtain ⟨-, i, arg, t, u, ⟨isArg, isFirst, isSecond⟩, wins⟩ := isBetter_iff.mp better
    obtain ⟨v, isThird⟩ := ranked.place isArg third_mem
    exact ⟨i, arg, t, v, ⟨isArg, isFirst, isThird⟩,
      (through isArg isFirst isSecond isThird).2 wins⟩

/-- Some candidate is better than another one of the same list. -/
def BetterAmong (table : ClassTable) (args : List Expr) (candidates : List (α × List Ty))
    (first second : α × List Ty) : Prop :=
  first ∈ candidates ∧ second ∈ candidates ∧ isBetter table args first.2 second.2 = true

/-- A chain of better candidates that starts with a better conversion at some place is one of better
conversions there. -/
theorem Ranked.conversions_of_chain (model : table.Describes isDeclared)
    (ranked : Ranked table isDeclared args all) {i : Nat} {arg : Expr} {t u : Ty}
    (isArg : args[i]? = some arg) (isFirst : first.2[i]? = some t)
    (isSecond : second.2[i]? = some u) (first_mem : first ∈ all) (second_mem : second ∈ all)
    (wins : Better table arg.type t u)
    (chain : Relation.ReflTransGen (BetterAmong table args all) second third) :
    ∃ v, third.2[i]? = some v ∧ Relation.TransGen (fun t u =>
      ParameterAt all i t ∧ ParameterAt all i u ∧ Better table arg.type t u) t v := by
  induction chain with
  | refl =>
      exact ⟨u, isSecond, .single ⟨⟨first, first_mem, isFirst⟩, ⟨second, second_mem, isSecond⟩,
        wins⟩⟩
  | tail _ step ih =>
      obtain ⟨before_mem, after_mem, better⟩ := step
      obtain ⟨v, isBefore, conversions⟩ := ih
      obtain ⟨w, isAfter⟩ := ranked.place isArg after_mem
      exact ⟨w, isAfter, (ranked.ranks i).chain_betterOrSame model conversions
        ⟨_, after_mem, isAfter⟩
        (ranked.betterOrSame before_mem after_mem better ⟨isArg, isBefore, isAfter⟩)⟩

/-- Among ranked candidates no chain of better ones is closed. -/
theorem Ranked.no_cycle (model : table.Describes isDeclared)
    (ranked : Ranked table isDeclared args all) (candidate : α × List Ty) :
    ¬ Relation.TransGen (BetterAmong table args all) candidate candidate := by
  intro cycle
  obtain ⟨next, ⟨first_mem, second_mem, better⟩, chain⟩ := Relation.TransGen.head'_iff.mp cycle
  obtain ⟨-, i, arg, t, u, ⟨isArg, isFirst, isSecond⟩, wins⟩ := isBetter_iff.mp better
  obtain ⟨v, isLast, conversions⟩ := ranked.conversions_of_chain model isArg isFirst isSecond
    first_mem second_mem wins chain
  obtain rfl := Option.some.inj (isFirst.symm.trans isLast)
  exact (ranked.ranks i).no_cycle model (ranked.aligned i) t conversions

/-- The candidates that accept the arguments. -/
def accepting (table : ClassTable) (mode : Promotion) (args : List Expr)
    (candidates : List (α × List Ty)) : List (α × List Ty) :=
  candidates.filter fun candidate => accepts table mode args candidate.2

/-- A candidate that is worse than one that accepts the arguments changes no choice, if those that
accept the arguments are ranked. -/
theorem choose_add_worse (model : table.Describes isDeclared)
    (ranked : Ranked table isDeclared args (accepting table mode args all))
    (passes : ∀ i, table.PassesAmong isDeclared (ParameterAt (accepting table mode args all) i))
    (rearranged : all.Perm (worse :: candidates)) (member : other ∈ candidates)
    (accepted : accepts table mode args other.2 = true)
    (isWorse : isBetter table args other.2 worse.2 = true) {chosen : α} {promoted : List Expr}
    (regular : pairsNullableGuid args = false)
    (found : choose table mode args candidates = .found chosen promoted) :
    choose table mode args all = .found chosen promoted := by
  obtain ⟨params, ⟨best_accepted, others, split, beats⟩, fits⟩ :=
    (choose_eq_found_iff regular).mp found
  have among {candidate : α × List Ty} (isMember : candidate ∈ worse :: candidates)
      (accepted : accepts table mode args candidate.2 = true) :
      candidate ∈ accepting table mode args all :=
    List.mem_filter.mpr ⟨rearranged.mem_iff.mpr isMember, accepted⟩
  refine (choose_eq_found_iff regular).mpr
    ⟨params, ⟨best_accepted, worse :: others, ?_, ?_⟩, fits⟩
  · exact rearranged.trans ((split.cons worse).trans (.swap _ _ _))
  · refine List.forall_mem_cons.mpr ⟨fun worse_accepted => ?_, beats⟩
    obtain rfl | isOther := List.mem_cons.mp (split.mem_iff.mp member)
    · exact isWorse
    · have best_mem := List.mem_cons_of_mem worse (split.mem_iff.mpr List.mem_cons_self)
      exact ranked.isBetter_trans model passes (among best_mem best_accepted)
        (among (List.mem_cons_of_mem _ member) accepted)
        (among List.mem_cons_self worse_accepted) (beats other isOther accepted) isWorse

end Ranked

/-- Of two conversions each is compared to the other in the same way.  Among types that a model
ranks a better conversion than a better one is better, unless both lead to numbers of which exactly
one admits null: then neither is better.  This takes classes that pass on their elements if there is
a sequence among the types, as does the last statement.  No chain of better conversions among
aligned types is closed, and none of better candidates that are ranked.  And a candidate that is
worse than one that accepts the arguments changes no choice, if those that accept the arguments are
ranked. -/
theorem compareConversions_order (table : ClassTable) :
    (∀ s t u, (compareConversions table s t u).swap = compareConversions table s u t) ∧
      ∀ isDeclared, table.Describes isDeclared →
        (∀ s targets, table.Ranks isDeclared targets →
          (table.PassesAmong isDeclared targets → ∀ t u v, targets t → targets u → targets v →
            Better table s t u → Better table s u v →
              Better table s t v ∨ (compareConversions table s t v = .eq ∧ t.Crosses v)) ∧
          (Ty.Aligned targets → ∀ t,
            ¬ Relation.TransGen (fun t u => targets t ∧ targets u ∧ Better table s t u) t t)) ∧
        (∀ (α : Type) args (candidates : List (α × List Ty)),
          Ranked table isDeclared args candidates → ∀ candidate,
            ¬ Relation.TransGen (BetterAmong table args candidates) candidate candidate) ∧
        ∀ (α : Type) mode args (candidates all : List (α × List Ty)) worse other chosen promoted,
          Ranked table isDeclared args (accepting table mode args all) →
          (∀ i, table.PassesAmong isDeclared (ParameterAt (accepting table mode args all) i)) →
          all.Perm (worse :: candidates) → other ∈ candidates →
          accepts table mode args other.2 = true → isBetter table args other.2 worse.2 = true →
          choose table mode args candidates = .found chosen promoted →
            (∀ count, choose table mode args all ≠ .ambiguous count) ∧
            (pairsNullableGuid args = false →
              choose table mode args all = .found chosen promoted) := by
  refine ⟨compareConversions_swap, fun isDeclared model =>
    ⟨fun s targets ranks => ⟨?_, ranks.no_cycle model⟩, ?_, ?_⟩⟩
  · intro passes t u v t_target u_target v_target
    exact ranks.better_or_crosses model passes t_target u_target v_target
  · intro α args candidates ranked
    exact ranked.no_cycle model
  · intro α mode args candidates all worse other chosen promoted ranked passes rearranged member
      accepted isWorse found
    have added (regular : pairsNullableGuid args = false) :=
      choose_add_worse model ranked passes rearranged member accepted isWorse regular found
    refine ⟨fun count ambiguous => ?_, added⟩
    cases regular : pairsNullableGuid args with
    | false => cases (added regular).symm.trans ambiguous
    | true =>
        obtain ⟨_, _, found⟩ | ⟨notFound, -⟩ := @choose_of_pairs _ table mode _ all regular
        · cases ambiguous.symm.trans found
        · cases ambiguous.symm.trans notFound

section Example

/-- A class of animals. -/
def animal : ClassRef := ⟨"Animal", none, false, 1⟩

/-- A class that extends the one of animals. -/
def dog : ClassRef := ⟨"Dog", none, false, 2⟩

/-- A class of counts. -/
def tally : ClassRef := ⟨"Tally", none, false, 3⟩

/-- The bodies of these classes.  A count converts to an integer, and an unsigned integer to a
count. -/
def kennel : ClassTable :=
  #[some mathBody, some .empty, some { ClassBody.empty with base := some (.cls animal) },
    some { ClassBody.empty with
      operators := [.staticMethod "Tally" "op_Implicit" [.cls tally] .int32,
        .staticMethod "Tally" "op_Implicit" [.integral .uint32] (.cls tally)] }]

theorem kennel_body (c : ClassRef) :
    (c.index = 2 ∧ kennel.body c = { ClassBody.empty with base := some (.cls animal) }) ∨
      ((kennel.body c).base = none ∧ (kennel.body c).element = none) := by
  unfold ClassTable.body
  match c.index with
  | 0 | 1 | 3 => exact .inr ⟨rfl, rfl⟩
  | 2 => exact .inl ⟨rfl, rfl⟩
  | n + 4 => exact .inr ⟨rfl, rfl⟩

theorem kennel_describes : kennel.Describes (· ∈ [animal, dog, tally]) where
  named := by
    simp only [List.mem_cons, List.not_mem_nil, or_false]
    rintro c d (rfl | rfl | rfl) (rfl | rfl | rfl) <;> decide
  base := by
    intro c t _ base
    obtain ⟨-, body⟩ | ⟨none, -⟩ := kennel_body c
    · rw [body] at base
      cases base
      exact List.mem_cons_self
    · cases none.symm.trans base
  element := by
    intro c t _ element
    obtain ⟨-, body⟩ | ⟨-, none⟩ := kennel_body c
    · rw [body] at element
      cases element
    · cases none.symm.trans element

/-- Targets of conversions, for a byte each better than the next. -/
def kennelTargets : List Ty :=
  [.integral .uint16, .int32, .integral .uint32, .int64, .object, .cls dog, .cls animal]

theorem kennel_ranks : kennel.Ranks (· ∈ [animal, dog, tally]) (· ∈ kennelTargets) where
  known := by simp [kennelTargets, Ty.Over]
  undeclared := by
    have each : ∀ t ∈ kennelTargets, ∀ u ∈ kennelTargets,
        Ty.hasDeclaredConversion kennel t u false = false := by decide +kernel
    exact fun t u t_target u_target => each t t_target u u_target

theorem kennelTargets_passes :
    kennel.PassesAmong (· ∈ [animal, dog, tally]) (· ∈ kennelTargets) := by
  simp [ClassTable.PassesAmong, kennelTargets]

theorem kennelTargets_aligned : Ty.Aligned (· ∈ kennelTargets) := by
  have plain : ∀ t ∈ kennelTargets, t.isNullable = false := by decide
  rintro t u t_target u_target ⟨-, -, differ⟩
  exact differ ((plain t t_target).trans (plain u u_target).symm)

/-- A byte is passed as a signed integer rather than as an unsigned one of the same size, also after
a form for longer integers is added. -/
theorem compareConversions_order_kennel :
    let n := Expr.parameter ⟨0, "n", .integral .byte⟩
    kennel.Describes (· ∈ [animal, dog, tally]) ∧
      kennel.Ranks (· ∈ [animal, dog, tally]) (· ∈ kennelTargets) ∧
      Ty.Aligned (· ∈ kennelTargets) ∧
      Better kennel (.integral .byte) (.integral .uint16) (.integral .uint32) ∧
      choose kennel .argument [n]
          [("long", [.int64]), ("unsigned", [.integral .uint32]), ("signed", [.int32])] =
        .found "signed" [.convert .int32 n] := by
  intro n
  obtain ⟨-, ordered⟩ := compareConversions_order kennel
  obtain ⟨ranked, -, added⟩ := ordered _ kennel_describes
  obtain ⟨chained, -⟩ := ranked (.integral .byte) _ kennel_ranks
  let forms := [("long", [Ty.int64]), ("unsigned", [.integral .uint32]), ("signed", [.int32])]
  have among (i : Nat) (t : Ty) (isParameter : ParameterAt
      (accepting kennel .argument [n] forms) i t) : t ∈ kennelTargets := by
    obtain ⟨form, isForm, isParameter⟩ := isParameter
    have each : ∀ form ∈ forms, ∀ t ∈ form.2, t ∈ kennelTargets := by
      simp [forms, kennelTargets]
    exact each form (List.mem_filter.mp isForm).1 t (List.mem_of_getElem? isParameter)
  have forms_ranked :
      Ranked kennel (· ∈ [animal, dog, tally]) [n] (accepting kennel .argument [n] forms) :=
    { arity := by
        have each : ∀ form ∈ forms, form.2.length = 1 := by simp [forms]
        exact fun form isForm => each form (List.mem_filter.mp isForm).1
      ranks := fun i => kennel_ranks.mono (among i)
      aligned := fun i => kennelTargets_aligned.mono (among i)
      decided := fun several => absurd rfl several }
  refine ⟨kennel_describes, kennel_ranks, kennelTargets_aligned, ?_, ?_⟩
  · refine (chained kennelTargets_passes (.integral .uint16) .int32 (.integral .uint32) ?_ ?_ ?_ rfl
      rfl).resolve_right fun crosses => ?_
    · simp [kennelTargets]
    · simp [kennelTargets]
    · simp [kennelTargets]
    · exact crosses.2.2.2 rfl
  · exact (added String .argument [n] forms.tail forms ("long", [.int64])
      ("unsigned", [.integral .uint32]) "signed" _ forms_ranked
      (fun i wanted isParameter => kennelTargets_passes wanted (among i _ isParameter)) (.refl _)
      (by simp [forms]) rfl rfl rfl).2 rfl

/-- Three classes, each of which extends a class with the name of the next but without a base. -/
def homonyms : ClassTable :=
  #[some { ClassBody.empty with base := some (.cls ⟨"Cat", none, false, 3⟩) },
    some { ClassBody.empty with base := some (.cls ⟨"Cow", none, false, 4⟩) },
    some { ClassBody.empty with base := some (.cls ⟨"Ape", none, false, 5⟩) },
    some .empty, some .empty, some .empty]

/-- Numbers that are enumerable by their own declaration and extend a class that is so by its base
only. -/
def ownNumbersTable : ClassTable :=
  Ty.numbersTable.push (some { ClassBody.empty with
    base := some (.cls Ty.moreNumbersClass), element := some .int32 })

/-- Conversions are not ordered in general.
The ones of a byte to four types of integers, two of which admit null, are each better than the next
and the last better than the first; so are the ones to an integer and to a class where the class
declares conversions, and the ones to classes of which several have one name; and so are three
candidates with three parameters.
A class that extends an enumerable class is better than it, and this one better than the sequence of
its elements, but the class is not better than the sequence.
A form that is worse than another one makes a call of two forms ambiguous: if there are numbers that
admit null, if there are several parameters, if a class does not pass on its elements, or if the
other form does not accept the argument. -/
theorem conversions_unordered :
    let ape : Ty := .cls ⟨"Ape", none, false, 0⟩
    let cat : Ty := .cls ⟨"Cat", none, false, 1⟩
    let cow : Ty := .cls ⟨"Cow", none, false, 2⟩
    let n := Expr.parameter ⟨0, "n", .integral .byte⟩
    let m := Expr.parameter ⟨0, "m", .integral .uint32⟩
    let numbers := Expr.parameter ⟨0, "numbers", .cls ⟨"OwnNumbers", none, false, 2⟩⟩
    (Better .initial (.integral .byte) .int64 (.nullable (.integral .uint16)) ∧
      Better .initial (.integral .byte) (.nullable (.integral .uint16)) (.nullable .int32) ∧
      Better .initial (.integral .byte) (.nullable .int32) (.integral .uint32) ∧
      Better .initial (.integral .byte) (.integral .uint32) .int64) ∧
    (Better kennel (.integral .byte) (.cls tally) .int32 ∧
      Better kennel (.integral .byte) .int32 (.integral .uint32) ∧
      Better kennel (.integral .byte) (.integral .uint32) (.cls tally)) ∧
    (Better homonyms (.integral .byte) ape cat ∧ Better homonyms (.integral .byte) cat cow ∧
      Better homonyms (.integral .byte) cow ape) ∧
    (isBetter .initial [n, n, n] [.single, .double, .decimal] [.double, .decimal, .single] = true ∧
      isBetter .initial [n, n, n] [.double, .decimal, .single] [.decimal, .single, .double] = true ∧
      isBetter .initial [n, n, n] [.decimal, .single, .double] [.single, .double, .decimal] =
        true) ∧
    (Better ownNumbersTable (.integral .byte) (.cls Ty.moreNumbersClass) (.cls Ty.numbersClass) ∧
      Better ownNumbersTable (.integral .byte) (.cls Ty.numbersClass) (.sequence .int32) ∧
      ¬ Better ownNumbersTable (.integral .byte) (.cls Ty.moreNumbersClass) (.sequence .int32)) ∧
    (isBetter .initial [n] [.nullable .int32] [.integral .uint32] = true ∧
      choose .initial .argument [n]
        [("short", [.nullable (.integral .uint16)]), ("signed", [.nullable .int32])] =
          .found "short" [.convert (.nullable (.integral .uint16)) n] ∧
      choose .initial .argument [n]
        [("short", [.nullable (.integral .uint16)]), ("signed", [.nullable .int32]),
          ("unsigned", [.integral .uint32])] = .ambiguous 3) ∧
    (isBetter .initial [n, n] [.decimal, .int64] [.single, .decimal] = true ∧
      choose .initial .argument [n, n]
        [("double", [.double, .int32]), ("decimal", [.decimal, .int64])] =
          .found "double" [.convert .double n, .convert .int32 n] ∧
      choose .initial .argument [n, n]
        [("double", [.double, .int32]), ("decimal", [.decimal, .int64]),
          ("single", [.single, .decimal])] = .ambiguous 3) ∧
    (isBetter ownNumbersTable [numbers] [.cls Ty.numbersClass] [.sequence .int32] = true ∧
      choose ownNumbersTable .argument [numbers]
        [("more", [.cls Ty.moreNumbersClass]), ("numbers", [.cls Ty.numbersClass])] =
          .found "more" [numbers] ∧
      choose ownNumbersTable .argument [numbers]
        [("more", [.cls Ty.moreNumbersClass]), ("numbers", [.cls Ty.numbersClass]),
          ("sequence", [.sequence .int32])] = .ambiguous 3) ∧
    (isBetter .initial [m] [.int32] [.double] = true ∧
      choose .initial .argument [m] [("decimal", [.decimal]), ("signed", [.int32])] =
          .found "decimal" [.convert .decimal m] ∧
      choose .initial .argument [m]
        [("decimal", [.decimal]), ("signed", [.int32]), ("double", [.double])] =
          .ambiguous 2) := by
  refine ⟨⟨rfl, rfl, rfl, rfl⟩, ?_, ?_, ⟨rfl, rfl, rfl⟩, ?_, ⟨rfl, rfl, rfl⟩, ⟨rfl, rfl, rfl⟩,
    ⟨rfl, rfl, rfl⟩, ⟨rfl, rfl, rfl⟩⟩
  all_goals
    simp only [Better]
    decide +kernel

end Example

end Resolution

end QueryTree
