import QueryTree.Proofs.Model.Loading

/-!
# Values of enumerations

A definition of an enumeration gives its members values that count up from the ones written down.
It is loaded with these values, whether or not they fit the underlying type and whether or not that
type is nullable, as long as each of them has a successor in 64 bits.
-/

namespace QueryTree

/-! ## Counting up -/

namespace Schema.VariantDef

/-- Members that are named in order and have the values that are given; one without a value has one
more than the member before it, and the first one has `next`. -/
structure CountsFrom (next : Int) (variants : List VariantDef) (members : List (String × Int)) :
    Prop where
  names : members.map (·.1) = variants.map (·.name)
  given : ∀ (i : Nat) (variant : VariantDef) (value : Int), variants[i]? = some variant →
    variant.value = some value → members[i]? = some (variant.name, value)
  first : ∀ variant : VariantDef, variants[0]? = some variant → variant.value = none →
    members[0]? = some (variant.name, next)
  counted : ∀ (i : Nat) (variant : VariantDef) (before : String × Int),
    variants[i + 1]? = some variant → variant.value = none → members[i]? = some before →
      members[i + 1]? = some (variant.name, before.2 + 1)

/-- The members that count from a value on. -/
def countedFrom : Int → List VariantDef → List (String × Int)
  | _, [] => []
  | next, variant :: rest =>
    (variant.name, variant.value.getD next) :: countedFrom (variant.value.getD next + 1) rest

variable {next : Int} {variant : VariantDef} {variants : List VariantDef} {member : String × Int}
  {members : List (String × Int)}

theorem countsFrom_cons_iff : CountsFrom next (variant :: variants) (member :: members) ↔
    member = (variant.name, variant.value.getD next) ∧
      CountsFrom (variant.value.getD next + 1) variants members := by
  constructor
  · rintro ⟨names, given, first, counted⟩
    have isFirst : member = (variant.name, variant.value.getD next) := by
      cases value : variant.value with
      | none => exact Option.some.inj (first variant rfl value)
      | some n => exact Option.some.inj (given 0 variant n rfl value)
    refine ⟨isFirst, (List.cons.inj names).2, fun i => given (i + 1), ?_,
      fun i => counted (i + 1)⟩
    intro variant' second notGiven
    rw [← counted 0 variant' _ second notGiven (congrArg some isFirst)]
    rfl
  · rintro ⟨rfl, names, given, first, counted⟩
    refine ⟨?_, ?_, ?_, ?_⟩
    · rw [List.map_cons, List.map_cons, names]
    · rintro (_ | i) variant' value isVariant isGiven
      · obtain rfl := Option.some.inj isVariant
        rw [isGiven]
        rfl
      · exact given i variant' value isVariant isGiven
    · intro variant' isVariant notGiven
      obtain rfl := Option.some.inj isVariant
      rw [notGiven]
      rfl
    · rintro (_ | i) variant' before isVariant notGiven isBefore
      · obtain rfl := Option.some.inj isBefore
        exact first variant' isVariant notGiven
      · exact counted i variant' before isVariant notGiven isBefore

/-- There is one way to count. -/
theorem countsFrom_iff : CountsFrom next variants members ↔
    members = countedFrom next variants := by
  induction variants generalizing next members with
  | nil =>
      refine ⟨fun counts => List.map_eq_nil_iff.mp counts.names, ?_⟩
      rintro rfl
      constructor <;> simp [countedFrom]
  | cons variant variants ih =>
      cases members with
      | nil =>
          refine iff_of_false (fun counts => ?_) (by simp [countedFrom])
          simpa using counts.names
      | cons member members => rw [countsFrom_cons_iff, ih, countedFrom, List.cons.injEq]

end Schema.VariantDef

open Schema.VariantDef (CountsFrom countedFrom countsFrom_iff)

/-! ## What is loaded -/

/-- The type that is written for the values of an enumeration. -/
def Schema.EnumDef.underlyingType (d : EnumDef) : Except SchemaFault Ty :=
  match d.underlying with
  | some text => NamedTypes.read [] text
  | none => .ok .int32

/-- An enumeration as it is defined: its underlying type is integral and not nullable, its members
count up, and all their values fit. -/
structure EnumType.IsExact (e : EnumType) (d : Schema.EnumDef) : Prop where
  named : e.name = d.name ∧ e.qualifier = d.qualifier
  underlying : d.underlyingType = .ok (.integral e.underlying)
  notNullable : e.lifted = false
  counts : CountsFrom 0 d.variants e.variants
  fits : ∀ member ∈ e.variants, e.underlying.min ≤ member.2 ∧ member.2 ≤ e.underlying.max

namespace Declarations

variable {enumName : String} {next : Int} {variants : List Schema.VariantDef}

/-- Counting stops with a fault where a value has no successor in 64 bits. -/
theorem countUp_eq : countUp enumName next variants =
    if ∀ member ∈ countedFrom next variants, member.2 < IntKind.int64.max
    then .ok (countedFrom next variants) else .error (.enumExhausted enumName) := by
  induction variants generalizing next with
  | nil => rfl
  | cons variant variants ih =>
      rw [countUp, countedFrom, ih]
      simp only [List.forall_mem_cons]
      by_cases exhausted : IntKind.int64.max < variant.value.getD next + 1
      · rw [if_pos exhausted, if_neg fun below => by omega]
      · have below : variant.value.getD next < IntKind.int64.max := by omega
        rw [if_neg exhausted]
        simp only [below, true_and]
        split <;> rfl

end Declarations

theorem NamedTypes.readFrom_ne_exhausted {types : NamedTypes} {fuel : Nat} {cs : List Char}
    {enumName : String} : readFrom types fuel cs ≠ .error (.enumExhausted enumName) := by
  induction fuel generalizing cs with
  | zero => simp [readFrom]
  | succ fuel ih =>
      intro failed
      simp only [readFrom] at failed
      split at failed
      next inner _ =>
        obtain failed | ⟨type, -, failed⟩ := bind_eq_error_iff.mp failed
        · exact ih failed
        · unfold widened at failed
          split at failed <;> cases failed
      next =>
        split at failed
        next inner _ =>
          cases read : readFrom types fuel inner with
          | error fault =>
              rw [read] at failed
              cases failed
              exact ih read
          | ok type =>
              rw [read] at failed
              cases failed
        next =>
          split at failed
          next =>
            unfold named at failed
            split at failed <;> cases failed
          next outer rest _ =>
            split at failed
            next => cases failed
            next inner _ =>
              obtain failed | ⟨element, -, failed⟩ := bind_eq_error_iff.mp failed
              · exact ih failed
              · unfold generic at failed
                split at failed
                next => cases failed
                next => split at failed <;> cases failed

namespace Declarations

theorem underlyingType_ne_exhausted {d : Schema.EnumDef} {enumName : String} :
    d.underlyingType ≠ .error (.enumExhausted enumName) := by
  unfold Schema.EnumDef.underlyingType
  split
  next text _ => exact NamedTypes.readFrom_ne_exhausted
  next => simp

/-- The enumeration over the type that is written for its values. -/
def enumOver (d : Schema.EnumDef) (underlying : Ty) : Except SchemaFault Ty :=
  match underlying.intKind? with
  | none => .error (.underlyingType d.name underlying)
  | some kind => do
    let members ← countUp d.name 0 d.variants
    return .enum ⟨d.name, d.qualifier, kind, underlying.isNullable, members⟩

variable {d : Schema.EnumDef} {type underlying : Ty} {fault : SchemaFault}

theorem enumOf_eq : enumOf d = d.underlyingType >>= enumOver d := by
  obtain ⟨name, qualifier, _ | text, variants⟩ := d <;> rfl

theorem enumOver_eq_ok : enumOver d underlying = .ok type ↔
    ∃ kind, underlying.intKind? = some kind ∧
      (∀ member ∈ countedFrom 0 d.variants, member.2 < IntKind.int64.max) ∧
        type = .enum ⟨d.name, d.qualifier, kind, underlying.isNullable,
          countedFrom 0 d.variants⟩ := by
  unfold enumOver
  split
  next other => simp [other]
  next kind integral =>
    rw [countUp_eq]
    split
    next below =>
      refine ⟨fun built => ?_, ?_⟩
      · cases built
        exact ⟨kind, integral, below, rfl⟩
      · rintro ⟨kind', integral', -, rfl⟩
        cases integral.symm.trans integral'
        rfl
    next exhausted =>
      refine iff_of_false (fun built => by cases built) ?_
      rintro ⟨_, -, below, -⟩
      exact exhausted below

theorem enumOver_eq_error : enumOver d underlying = .error fault ↔
    underlying.intKind? = none ∧ fault = .underlyingType d.name underlying ∨
      underlying.intKind?.isSome ∧
        (∃ member ∈ countedFrom 0 d.variants, IntKind.int64.max ≤ member.2) ∧
          fault = .enumExhausted d.name := by
  unfold enumOver
  split
  next other => simp [other, eq_comm]
  next kind integral =>
    rw [countUp_eq, integral]
    split
    next below =>
      refine iff_of_false (fun failed => by cases failed) ?_
      rintro (⟨isNone, -⟩ | ⟨-, ⟨member, listed, least⟩, -⟩)
      · cases isNone
      · exact absurd (below member listed) (by omega)
    next exhausted =>
      simp only [not_forall, Int.not_lt] at exhausted
      obtain ⟨member, listed, least⟩ := exhausted
      refine ⟨fun failed => ?_, ?_⟩
      · cases failed
        exact .inr ⟨rfl, ⟨member, listed, least⟩, rfl⟩
      · rintro (⟨isNone, -⟩ | ⟨-, -, rfl⟩)
        · cases isNone
        · rfl

/-- A definition is either rejected for its underlying type or loaded as it stands. -/
def LoadsExactly (d : Schema.EnumDef) : Prop :=
  (∃ e, enumOf d = .ok (.enum e) ∧ e.IsExact d) ∨
    ∃ fault, enumOf d = .error fault ∧ fault ≠ .enumExhausted d.name

/-- A definition is loaded as it stands or rejected for its underlying type if and only if an
integral type is not written as nullable and holds all the values, of which each has a successor. -/
theorem loadsExactly_iff : LoadsExactly d ↔ ∀ underlying kind,
    d.underlyingType = .ok underlying → underlying.intKind? = some kind →
      underlying = .integral kind ∧ ∀ member ∈ countedFrom 0 d.variants,
        kind.min ≤ member.2 ∧ member.2 ≤ kind.max ∧ member.2 < IntKind.int64.max := by
  rw [LoadsExactly, enumOf_eq]
  cases read : d.underlyingType with
  | error fault =>
      refine iff_of_true (.inr ⟨fault, rfl, ?_⟩) (fun _ _ isOk => by cases isOk)
      rintro rfl
      exact underlyingType_ne_exhausted read
  | ok underlying =>
      constructor
      · rintro (⟨e, built, isExact⟩ | ⟨fault, failed, other⟩) _ kind ⟨⟩ integral
        · obtain ⟨kind', integral', below, same⟩ := enumOver_eq_ok.mp built
          cases integral.symm.trans integral'
          cases same
          refine ⟨Except.ok.inj (read.symm.trans isExact.underlying), fun member listed => ?_⟩
          obtain ⟨least, greatest⟩ := isExact.fits member listed
          exact ⟨least, greatest, below member listed⟩
        · obtain ⟨isNone, -⟩ | ⟨-, -, rfl⟩ := enumOver_eq_error.mp failed
          · cases integral.symm.trans isNone
          · exact absurd rfl other
      · intro exactly
        cases integral : underlying.intKind? with
        | none =>
            exact .inr ⟨_, enumOver_eq_error.mpr (.inl ⟨integral, rfl⟩), by simp⟩
        | some kind =>
            obtain ⟨rfl, fits⟩ := exactly underlying kind rfl integral
            have loaded : enumOver d (.integral kind) = .ok _ := enumOver_eq_ok.mpr
              ⟨kind, rfl, fun member listed => (fits member listed).2.2, rfl⟩
            refine .inl ⟨_, loaded, ?_⟩
            exact
              { named := ⟨rfl, rfl⟩
                underlying := read
                notNullable := rfl
                counts := countsFrom_iff.mpr rfl
                fits := fun member listed =>
                  ⟨(fits member listed).1, (fits member listed).2.1⟩ }

/-- A definition with an integral underlying type, nullable or not, is loaded with the values that
count up if each has a successor in 64 bits, and runs out of them otherwise.  So it is loaded as it
stands only where the type is not nullable and all values fit it. -/
theorem enumOf_counts (d : Schema.EnumDef) :
    ∃ members, (∀ others, CountsFrom 0 d.variants others ↔ others = members) ∧
      (∀ type, enumOf d = .ok type ↔ ∃ underlying kind, d.underlyingType = .ok underlying ∧
        underlying.intKind? = some kind ∧ (∀ member ∈ members, member.2 < IntKind.int64.max) ∧
          type = .enum ⟨d.name, d.qualifier, kind, underlying.isNullable, members⟩) ∧
      (∀ fault, enumOf d = .error fault ↔ d.underlyingType = .error fault ∨
        ∃ underlying, d.underlyingType = .ok underlying ∧
          (underlying.intKind? = none ∧ fault = .underlyingType d.name underlying ∨
            underlying.intKind?.isSome ∧ (∃ member ∈ members, IntKind.int64.max ≤ member.2) ∧
              fault = .enumExhausted d.name)) ∧
      (LoadsExactly d ↔ ∀ underlying kind, d.underlyingType = .ok underlying →
        underlying.intKind? = some kind → underlying = .integral kind ∧
          ∀ member ∈ members, kind.min ≤ member.2 ∧ member.2 ≤ kind.max ∧
            member.2 < IntKind.int64.max) := by
  refine ⟨countedFrom 0 d.variants, fun others => countsFrom_iff, fun type => ?_,
    fun fault => ?_, loadsExactly_iff⟩
  · simp only [enumOf_eq, bind_eq_ok_iff, enumOver_eq_ok, ← exists_and_left]
  · simp only [enumOf_eq, bind_eq_error_iff, enumOver_eq_error]

/-- A nullable underlying type and a value that does not fit are loaded, and the greatest 64-bit
integer is no value of the last member. -/
theorem enumOf_inexact :
    enumOf ⟨"E", none, some "Int32?", [⟨"A", none⟩]⟩ =
        .ok (.enum ⟨"E", none, .int32, true, [("A", 0)]⟩) ∧
      enumOf ⟨"E", none, some "Byte", [⟨"A", some 300⟩]⟩ =
        .ok (.enum ⟨"E", none, .byte, false, [("A", 300)]⟩) ∧
      enumOf ⟨"E", none, some "Int64", [⟨"A", some 9223372036854775807⟩]⟩ =
        .error (.enumExhausted "E") :=
  ⟨rfl, rfl, rfl⟩

end Declarations

end QueryTree
