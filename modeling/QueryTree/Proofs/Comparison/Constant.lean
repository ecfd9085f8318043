import QueryTree.Proofs.Compile.Text
import QueryTree.Proofs.Config.Keyword
import QueryTree.Proofs.Membership.Widening
import QueryTree.Proofs.Model.Conformance

/-!
# Constants of texts

A constant that a text compiles to holds what its type has, if the values and expressions that its
names stand for do.
-/

namespace QueryTree

/-- The members of an enumeration type are integers of 64 bits. -/
def Ty.MembersFit (type : Ty) : Prop :=
  ∀ enum, type.enum? = some enum → ∀ variant ∈ enum.variants, Value.fitsInt64 variant.2 = true

theorem EnumType.mem_variants_of_valueOf? {enum : EnumType} {name : String} {n : Int}
    (named : enum.valueOf? name = some n) : ∃ variant ∈ enum.variants, variant.2 = n := by
  obtain ⟨variant, found, isValue⟩ := Option.map_eq_some_iff.mp named
  exact ⟨variant, List.mem_of_find?_eq_some found, isValue⟩

theorem Ty.enum?_of_core {type : Ty} {enum : EnumType} (core : type.core = .enum enum) :
    type.enum? = some enum := by
  rw [enum?, core]

namespace Expr

variable {table : ClassTable} {mode : Promotion} {e promoted : Expr} {target : Ty} {value : Value}
  {text : String}

/-- A constant holds what its type has: texts are of the type of texts, and members of an
enumeration are integers of 64 bits, or null where the type has it. -/
structure Proper (e : Expr) : Prop where
  text : ∀ text, e.text? = some text → e.type = .string
  member : ∀ v, e.value? = some v → e.type.isEnum = true →
    (v = .null ∧ e.type.admitsNull = true) ∨ ∃ enum n, v = .enum enum n ∧ Value.fitsInt64 n = true

namespace Proper

theorem of_variable (isVariable : e.isConstant = false) : e.Proper := by
  have noValue : e.value? = none :=
    Option.isNone_iff_eq_none.mp (Option.isSome_eq_false_iff.mp isVariable)
  refine ⟨fun text isText => ?_, fun v isValue => ?_⟩
  · rw [text?, noValue] at isText
    cases isText
  · rw [noValue] at isValue
    cases isValue

theorem nullOf {type : Ty} (admits : type.admitsNull = true) : (nullOf type).Proper :=
  ⟨nofun, fun _ isValue _ => .inl ⟨(Option.some.inj isValue).symm, admits⟩⟩

/-- A constant of the natural type of its value. -/
theorem natural {literal? : Option String}
    (fits : ∀ enum n, value = .enum enum n → Value.fitsInt64 n = true) :
    (constant value.naturalType value literal?).Proper := by
  refine ⟨fun text isText => ?_, fun v isValue isMember => ?_⟩
  · cases value with
    | string => rfl
    | _ => cases isText
  · obtain rfl : value = v := Option.some.inj isValue
    cases value with
    | enum enum n => exact .inr ⟨enum, n, rfl, fits enum n rfl⟩
    | array items =>
        exfalso
        change (Value.array items).naturalType.isEnum = true at isMember
        rw [Value.naturalType] at isMember
        split at isMember <;> cases isMember
    | _ => cases isMember

/-- A constant of a member, or of no enumeration type and no text. -/
theorem of_noText {literal? : Option String} (noText : value.string? = none)
    (member : ∀ enum, target.core = .enum enum →
      ∃ n, value = .enum enum n ∧ Value.fitsInt64 n = true) :
    (constant target value literal?).Proper := by
  refine ⟨fun text isText => ?_, fun v isValue isMember => ?_⟩
  · exact absurd isText (by simp [text?, value?, noText])
  · obtain rfl : value = v := Option.some.inj isValue
    obtain ⟨enum, core⟩ := Ty.exists_core_eq isMember
    obtain ⟨n, isValue, fits⟩ := member enum core
    exact .inr ⟨enum, n, isValue, fits⟩

end Proper

/-- A literal that is read again as a member of an enumeration is a number of 64 bits or names a
member. -/
theorem fits_or_named_of_reread? {source : Ty} {enum : EnumType}
    (read : reread? source text (.enum enum) = some value) :
    ∃ n, value = .enum enum n ∧
      (Value.fitsInt64 n = true ∨ ∃ variant ∈ enum.variants, variant.2 = n) := by
  obtain ⟨own, n, rfl⟩ := Value.eq_enum_of_hasKind (reread?_kind read)
  obtain ⟨same, ⟨-, named⟩ | ⟨-, -, -, fits⟩⟩ := reread?_member read
  all_goals
    obtain rfl : enum = own := Ty.enum.inj same
    refine ⟨n, rfl, ?_⟩
  · exact .inr (EnumType.mem_variants_of_valueOf? named)
  · exact .inl fits

/-- A promoted constant is proper if the members of its type are. -/
theorem Proper.promote? (outcome : e.promote? table mode target = some promoted)
    (proper : e.type.MembersFit → e.Proper) (fit : promoted.type.MembersFit) :
    promoted.Proper := by
  obtain ⟨rfl, -⟩ | ⟨_, _, constant, -⟩ | ⟨rfl, -⟩ | ⟨rfl, -⟩ := promote?_cases outcome
  · exact proper fit
  · cases promotedConstant constant with
    | null admits => exact .nullOf admits
    | reread _ read =>
        refine .of_noText (string?_of_reread? read) fun enum core => ?_
        rw [core] at read
        obtain ⟨n, isValue, fits | ⟨variant, isVariant, rfl⟩⟩ := fits_or_named_of_reread? read
        · exact ⟨n, isValue, fits⟩
        · exact ⟨_, isValue, fit enum (Ty.enum?_of_core core) variant isVariant⟩
  · exact .of_variable rfl
  · exact proper fit

/-- No text is read as a text or as a member of an enumeration. -/
theorem proper_of_readText? {position : Nat} {read : Expr}
    (outcome : e.readText? target position = .ok (some read)) : read.Proper := by
  obtain ⟨text, value, -, reads, rfl⟩ := readText?_eq_ok outcome
  obtain ⟨a, core, notString, kind⟩ := Value.ofText_kind reads
  refine .of_noText ?_ fun enum isEnum => ?_
  · cases value with
    | string => exact absurd (Ty.atom.inj (Ty.eq_atom_of_beq kind.2)) notString
    | _ => rfl
  · cases core.symm.trans isEnum

theorem Proper.convertTo {position : Nat} {operand : Expr}
    (outcome : convertTo table target position operand = .ok e)
    (proper : operand.type.MembersFit → operand.Proper) (fit : e.type.MembersFit) : e.Proper := by
  unfold Expr.convertTo at outcome
  simp only at outcome
  split at outcome
  next =>
    obtain rfl := pure_eq_ok_iff.mp outcome
    exact proper fit
  next =>
    split at outcome
    next isNull =>
      exact pure_eq_ok_iff.mp outcome ▸ .nullOf ((Bool.and_eq_true _ _).mp isNull).2
    next =>
      split at outcome
      next => exact pure_eq_ok_iff.mp outcome ▸ .of_variable rfl
      next =>
        split at outcome
        next => exact pure_eq_ok_iff.mp outcome ▸ .of_variable rfl
        next =>
          obtain ⟨read, read_eq, outcome⟩ := bind_eq_ok_iff.mp outcome
          split at outcome
          next converted =>
            obtain rfl := pure_eq_ok_iff.mp outcome
            exact proper_of_readText? read_eq
          next =>
            split at outcome
            next => exact pure_eq_ok_iff.mp outcome ▸ .of_variable rfl
            next => cases outcome

end Expr

namespace CompileContext

variable {ctx : CompileContext} {tokens : List Token}

/-- What texts refer to is proper: the supplied expressions, and the members of enumerations among
the values. -/
structure SuppliesProper (ctx : CompileContext) : Prop where
  exprs : ∀ key e, (key, Symbol.expr e) ∈ ctx.symbols → e.Proper
  values : ∀ enum n, ctx.NamesValue (.enum enum n) → Value.fitsInt64 n = true

/-- A keyword stands for no member of an enumeration. -/
theorem keyword?_noMember {options : Options} {registry : TypeRegistry} {classes : ClassTable}
    {enum : EnumType} {n : Int} (name : String) :
    (Environment.of options registry classes).keyword? name ≠ some (.constant (.enum enum n)) := by
  have words : ∀ entry ∈ KeywordTable.words, entry.2 ≠ .constant (.enum enum n) := by
    simp [KeywordTable.words]
  have types : ∀ entry ∈ KeywordTable.typeNames, entry.2 ≠ .constant (.enum enum n) := by
    intro entry isEntry
    obtain ⟨_, -, rfl⟩ := List.mem_map.mp isEntry
    nofun
  intro isKeyword
  simp only [Environment.keyword?, Environment.of, KeywordTable.lookup_ofTypes,
    Option.or_eq_some_iff, KeywordTable.reserved?, Option.map_eq_some_iff] at isKeyword
  obtain ⟨entry, found, isConstant⟩ | ⟨-, _, -, isConstant⟩ := isKeyword
  · exact (List.mem_append.mp (List.mem_of_find?_eq_some found)).elim (words entry) (types entry)
      isConstant
  · cases isConstant

/-- Without arguments a text refers to no expressions and to no members of enumerations. -/
theorem SuppliesProper.of_noArguments {options : Options} {registry : TypeRegistry}
    {classes : ClassTable} {params : List Parameter}
    (context : CompileContext.of (.of options registry classes) params [] = .ok ctx) :
    ctx.SuppliesProper := by
  obtain ⟨symbols, folded, same⟩ := bind_eq_ok_iff.mp context
  obtain rfl := pure_eq_ok_iff.mp same
  have isParameter {key : String} {symbol : Symbol} (isSymbol : (key, symbol) ∈ symbols) :
      ∃ p, symbol = .parameter p := by
    obtain before | ⟨name, isEntry, -⟩ := foldSymbols_mem folded isSymbol
    · cases before
    · obtain isParam | isArgument := List.mem_append.mp isEntry
      · obtain ⟨p, -, same⟩ := List.mem_map.mp isParam
        exact ⟨p, (Prod.mk.inj same).2.symm⟩
      · cases isArgument
  refine ⟨fun key e isSymbol => ?_, fun enum n named => ?_⟩
  · obtain ⟨p, same⟩ := isParameter isSymbol
    cases same
  · obtain ⟨names, key, found⟩ | ⟨name, isKeyword⟩ := named
    · cases own : symbols.lookup key with
      | some symbol =>
          obtain ⟨p, rfl⟩ := isParameter (mem_of_lookup own)
          simp [symbol?, own] at found
      | none =>
          cases element : names.lookup key <;>
            simp [symbol?, own, externalValues, element] at found
    · exact absurd isKeyword (keyword?_noMember name)

/-- What a text compiles to is proper if the members of its type are integers of 64 bits. -/
theorem Built.proper (supplies : ctx.SuppliesProper) {visible : Parameter → Prop} {e : Expr}
    (built : ctx.Built tokens Expr.Proper visible e) : e.type.MembersFit → e.Proper := by
  -- few steps make constants, and all other trees are proper
  induction built with
  | literal read =>
      obtain ⟨value, text, rfl, isLiteral⟩ := read.isLiteral
      refine fun _ => .natural ?_
      rintro enum n rfl
      cases isLiteral
  | value named =>
      refine fun _ => .natural ?_
      rintro enum n rfl
      exact supplies.values enum n named
  | null => exact fun _ => .nullOf rfl
  | type => exact fun _ => .of_noText rfl nofun
  | granted isGranted => exact fun _ => isGranted
  | parameter | invoke | eitherItem | typeTest | aggregate | typedAggregate | projection | lambda =>
      exact fun _ => .of_variable rfl
  | sign _ outcome =>
      obtain ⟨_, _, rfl | rfl⟩ := Expr.sign_cases outcome <;> exact fun _ => .of_variable rfl
  | product _ _ _ outcome | shift _ _ _ outcome | logical _ _ _ outcome =>
      obtain ⟨_, _, rfl, -⟩ := Expr.ofGroup_cases outcome
      exact fun _ => .of_variable rfl
  | sum _ _ outcome =>
      obtain ⟨_, rfl, -⟩ | ⟨_, _, rfl, -⟩ := Expr.sum_cases outcome <;>
        exact fun _ => .of_variable rfl
  | difference _ _ outcome =>
      obtain ⟨_, _, rfl, -⟩ := Expr.difference_cases outcome
      exact fun _ => .of_variable rfl
  | comparison _ _ _ outcome =>
      obtain ⟨_, _, _, rfl, -⟩ := Expr.comparison_cases outcome
      exact fun _ => .of_variable rfl
  | bitConjunction _ _ outcome =>
      obtain ⟨_, _, -, -, ⟨_, rfl, -⟩ | ⟨_, _, rfl, -⟩⟩ := Expr.conjunction_cases outcome <;>
        exact fun _ => .of_variable rfl
  | bitDisjunction _ _ outcome =>
      obtain ⟨_, _, rfl, -⟩ := Expr.disjunction_cases ctx.env.classes outcome
      exact fun _ => .of_variable rfl
  | isItem _ _ outcome =>
      obtain ⟨_, _, rfl, -⟩ := Expr.isItem_cases outcome
      exact fun _ => .of_variable rfl
  | isContained _ _ outcome =>
      obtain ⟨_, _, _, _, rfl⟩ := Expr.isContained_cases outcome
      exact fun _ => .of_variable rfl
  | choose _ _ _ outcome =>
      obtain ⟨_, _, rfl, -⟩ := Expr.choose_cases outcome
      exact fun _ => .of_variable rfl
  | orElseValue _ _ outcome =>
      obtain ⟨_, _, _, rfl, -⟩ := Expr.orElseValue_cases outcome
      exact fun _ => .of_variable rfl
  | propagateNull _ _ outcome chain =>
      obtain rfl | ⟨_, _, -, outcome⟩ := Expr.propagateNull_cases outcome
      · exact chain
      · obtain ⟨_, _, rfl, -⟩ := Expr.choose_cases outcome
        exact fun _ => .of_variable rfl
  | convertTo _ outcome inner => exact .convertTo outcome inner
  | constructOf _ outcome each =>
      obtain ⟨arg, rfl, converted⟩ | ⟨_, _, -, rfl⟩ := Expr.constructOf_eq_ok outcome
      · exact .convertTo converted (each arg (List.mem_singleton_self arg))
      · exact fun _ => .of_variable rfl
  | @methodCall _ receiver _ _ _ _ _ _ outcome =>
      obtain ⟨_, _, _, rfl, -⟩ := methodCall_cases outcome
      cases receiver <;> exact fun _ => .of_variable rfl
  | @namedMember _ receiver _ _ _ _ _ _ _ outcome =>
      obtain ⟨type, enum, n, isEnum, named, rfl⟩ | ⟨_, -, -, rfl⟩ | ⟨_, _, -, -, -, rfl⟩ :=
        namedMember_cases outcome
      · intro fit
        obtain ⟨variant, isVariant, rfl⟩ := EnumType.mem_variants_of_valueOf? named
        refine .of_noText rfl fun own core => ?_
        obtain rfl : own = enum := Option.some.inj ((Ty.enum?_of_core core).symm.trans isEnum)
        exact ⟨_, rfl, fit own isEnum variant isVariant⟩
      · cases receiver <;> exact fun _ => .of_variable rfl
      · exact fun _ => .of_variable rfl
  | indexAccess _ _ outcome =>
      obtain ⟨_, _, rfl, -⟩ := indexAccess_cases outcome
      exact fun _ => .of_variable rfl
  | newArray _ outcome =>
      obtain ⟨_, _, rfl, -⟩ := newArray_cases outcome
      exact fun _ => .of_variable rfl
  | newOfType _ outcome each =>
      obtain constructed | ⟨_, rfl, -⟩ := newOfType_cases outcome
      · obtain ⟨arg, single, converted⟩ | ⟨_, _, -, rfl⟩ := Expr.constructOf_eq_ok constructed
        · obtain ⟨item, isItem, rfl⟩ := List.mem_map.mp (single ▸ List.mem_singleton_self arg)
          exact .convertTo converted (each item isItem)
        · exact fun _ => .of_variable rfl
      · exact fun _ => .of_variable rfl
  | promoted _ outcome inner => exact .promote? outcome inner

end CompileContext

end QueryTree
