import QueryTree.Proofs.Literal.Kept
import QueryTree.Proofs.Model.Conformance

/-!
# Members of enumerations

Which constants a compile makes members of enumerations of.  A text is read as the member that it
names and a literal as an integer of the underlying type, but a comparison and the test of an item
take any other constant for a member by its integral value.
-/

namespace QueryTree

namespace Expr

variable {table : ClassTable} {enum : EnumType} {n : Int} {e x : Expr}

/-- A constant stands for a member of an enumeration: it is a text that names it, an integer of the
underlying type, or the member itself. -/
inductive StandsFor (enum : EnumType) (n : Int) (e : Expr) : Prop where
  | named {name} (isText : e.text? = some name) (isMember : enum.valueOf? name = some n)
  | integer {i} (isValue : e.value? = some (.integral i)) (val : i.val = n)
      (inRange : enum.underlying.holds n = true)
  | same (isValue : e.value? = some (.enum enum n))

/-- A constant that stands for no member of an enumeration has an integral value all the same: it
is an integer out of range, a character, or a member of another enumeration. -/
inductive Reinterprets (enum : EnumType) (n : Int) (e : Expr) : Prop where
  | outOfRange {i} (isValue : e.value? = some (.integral i)) (val : i.val = n)
      (outOfRange : enum.underlying.holds n = false)
  | char {c} (isValue : e.value? = some (.char c)) (code : (c.toNat : Int) = n)
  | other {other} (isValue : e.value? = some (.enum other n)) (differ : other ≠ enum)

namespace Reinterprets

/-- Such a constant is no text and has an integral value. -/
theorem integral (reinterprets : Reinterprets enum n e) :
    ∃ value, e.value? = some value ∧ value.string? = none ∧ value.toInt? = some n := by
  cases reinterprets with
  | outOfRange isValue val => exact ⟨_, isValue, rfl, congrArg some val⟩
  | char isValue code => exact ⟨_, isValue, rfl, congrArg some code⟩
  | other isValue => exact ⟨_, isValue, rfl, rfl⟩

theorem isConstant (reinterprets : Reinterprets enum n e) : e.isConstant = true := by
  obtain ⟨value, isValue, -⟩ := reinterprets.integral
  rw [Expr.isConstant, isValue]
  rfl

theorem not_standsFor (reinterprets : Reinterprets enum n e) : ¬ StandsFor enum n e := by
  intro standsFor
  cases standsFor with
  | named isText _ =>
      obtain ⟨value, isValue, noText, -⟩ := reinterprets.integral
      rw [text?, isValue] at isText
      cases noText.symm.trans isText
  | integer isInteger val inRange =>
      cases reinterprets with
      | outOfRange _ _ outOfRange => cases inRange.symm.trans outOfRange
      | char isValue | other isValue => cases isInteger.symm.trans isValue
  | same isMember =>
      cases reinterprets with
      | outOfRange isValue | char isValue => cases isMember.symm.trans isValue
      | other isValue differ =>
          obtain ⟨same, -⟩ := Value.enum.inj (Option.some.inj (isMember.symm.trans isValue))
          exact differ same.symm

end Reinterprets

/-- The constants that are taken for a member are those that stand for it, and those of its
integral value, if this has 64 bits. -/
theorem standsFor_or_reinterprets (taken : e.memberOf? enum = some n) :
    StandsFor enum n e ∨ Reinterprets enum n e ∧ Value.fitsInt64 n = true := by
  unfold memberOf? at taken
  split at taken
  next name isValue => exact .inl (.named (by rw [text?, isValue]; rfl) taken)
  next value _ isValue =>
    obtain ⟨integral, fits⟩ := Option.filter_eq_some_iff.mp taken
    cases value with
    | integral i =>
        obtain rfl : i.val = n := Option.some.inj integral
        cases inRange : enum.underlying.holds i.val with
        | true => exact .inl (.integer isValue rfl inRange)
        | false => exact .inr ⟨.outOfRange isValue rfl inRange, fits⟩
    | char c => exact .inr ⟨.char isValue (Option.some.inj integral), fits⟩
    | enum other m =>
        obtain rfl : m = n := Option.some.inj integral
        by_cases same : other = enum
        · exact .inl (.same (same ▸ isValue))
        · exact .inr ⟨.other isValue same, fits⟩
    | _ => cases integral
  next => cases taken

theorem enumConstant_cases {type : Ty} {position : Nat} {member : Expr}
    (outcome : enumConstant type position e = .ok member) :
    ∃ enum n, type.enum? = some enum ∧ e.memberOf? enum = some n ∧
      member = .ofValue type (.enum enum n) := by
  cases isEnum : type.enum? with
  | none =>
      rw [enumConstant, isEnum] at outcome
      cases outcome
  | some own =>
      rw [enumConstant_eq isEnum] at outcome
      split at outcome
      next m isMember => exact ⟨own, m, rfl, isMember, (Except.ok.inj outcome).symm⟩
      next => cases outcome

theorem memberOf?_of_reinterprets (reinterprets : Reinterprets enum n e)
    (fits : Value.fitsInt64 n = true) : e.memberOf? enum = some n := by
  obtain ⟨value, isValue, noText, integral⟩ := reinterprets.integral
  rw [memberOf?, isValue]
  cases value with
  | string => cases noText
  | _ => simp [integral, fits]

/-- The test of an item takes such a constant for a member of the enumeration of the value, as far
as it has 64 bits, and so does the test of equality if there is no implicit conversion. -/
theorem reinterprets_taken (isEnum : x.type.enum? = some enum)
    (reinterprets : Reinterprets enum n e) (fits : Value.fitsInt64 n = true)
    (differ : (x.type == e.type) = false) (op : Token) :
    isItem table op x e = .ok (test .equal x (.ofValue x.type (.enum enum n))) ∧
      (x.promote? table .exactly e.type = none → e.promote? table .exactly x.type = none →
        comparison table .equal op x e =
          .ok (test .equal x (.ofValue x.type (.enum enum n)))) := by
  have isMember : x.type.isEnum = true := by rw [Ty.isEnum, isEnum]; rfl
  have taken : enumConstant x.type op.position e = .ok (.ofValue x.type (.enum enum n)) := by
    rw [enumConstant_eq isEnum, memberOf?_of_reinterprets reinterprets fits]
  refine ⟨?_, fun x_kept e_kept => ?_⟩
  · rw [isItem_of_member differ isMember, if_pos reinterprets.isConstant, taken]
    rfl
  · rw [comparison_of_members (comparesReferences_of_isEnum (.inl isMember)) (by simp [isMember]),
      alignEnums, differ, e_kept, x_kept]
    simp only [isMember, reinterprets.isConstant, taken]
    rfl

/-- A constant that is read again as a member of an enumeration stands for the member, if the text
that it keeps spells its value. -/
theorem standsFor_of_reread? {source target : Ty} {value : Value} {text : String}
    (kind : value.HasKind source.core) (spelled : SpelledBy value text)
    (read : reread? source text target = some (.enum enum n)) :
    StandsFor enum n (constant source value (some text)) := by
  obtain ⟨-, ⟨rfl, named⟩ | ⟨⟨width, rfl⟩, isText, inRange, -⟩⟩ := reread?_member read
  · obtain ⟨s, rfl⟩ := Value.eq_string_of_hasKind kind
    obtain rfl := spelled.1 s rfl
    exact .named rfl named
  · obtain ⟨i, rfl⟩ : ∃ i, value = .integral i := kind.ofAtom
    exact .integer rfl (spelled.2 i n rfl isText).symm (IntKind.holds_iff.mpr inRange)

end Expr

namespace CompileContext

open QueryTree.Expr (Reinterprets StandsFor TakenBeside)

variable {ctx : CompileContext} {tokens : List Token} {supplied : Expr → Prop} {enum : EnumType}
  {n : Int}

/-- Where the constant of a member of an enumeration comes from: from what was supplied, from a
member that is written as one, from a constant that stands for the member, or from one that is
reinterpreted beside a value of the enumeration type. -/
inductive MemberOrigin (ctx : CompileContext) (tokens : List Token) (supplied : Expr → Prop)
    (enum : EnumType) (n : Int) (node : Expr) : Prop where
  | supplied (isSupplied : supplied node)
  | value (named : ctx.NamesValue (.enum enum n))
  | written {token} (met : Token.Met tokens token)
      (isMember : enum.valueOf? (Parse.unescapedName token.text) = some n)
  /-- A constant that keeps a text, which is read again. -/
  | reread {source value text target}
      (origin : ctx.Origin tokens supplied (.constant source value (some text)))
      (isNode : node = .constant target (.enum enum n) (some text))
      (standsFor : StandsFor enum n (.constant source value (some text)))
  /-- A constant that was supplied with a text, which names the member or spells its value. -/
  | kept {source value text target}
      (isSupplied : supplied (.constant source value (some text)))
      (isNode : node = .constant target (.enum enum n) (some text))
      (spells : enum.valueOf? text = some n ∨
        Numeral.int? text = some n ∧ enum.underlying.holds n = true)
  | taken {x e} (origin : ctx.Origin tokens supplied e)
      (taken : TakenBeside ctx.env.classes x e node) (standsFor : StandsFor enum n e)
  | reinterpreted {x e} (origin : ctx.Origin tokens supplied e)
      (taken : TakenBeside ctx.env.classes x e node) (reinterprets : Reinterprets enum n e)
      (fits : Value.fitsInt64 n = true)

/-- Only what was supplied, a literal that is read again, and a comparison or the test of an item
give members of enumerations. -/
theorem Origin.memberOrigin {type : Ty} {literal? : Option String}
    (origin : ctx.Origin tokens supplied (.constant type (.enum enum n) literal?)) :
    ctx.MemberOrigin tokens supplied enum n (.constant type (.enum enum n) literal?) := by
  generalize isNode : Expr.constant type (.enum enum n) literal? = node at origin
  cases origin with
  | supplied isSupplied => exact .supplied isSupplied
  | @value v named =>
      obtain ⟨-, rfl, -⟩ := Expr.constant.inj isNode
      exact .value named
  | literal read =>
      obtain ⟨value, text, same, isLiteral⟩ := read.isLiteral
      obtain ⟨-, rfl, -⟩ := Expr.constant.inj (isNode.trans same)
      cases isLiteral
  | member met isEnum named =>
      obtain ⟨-, same, -⟩ := Expr.constant.inj isNode
      obtain ⟨rfl, rfl⟩ := Value.enum.inj same
      exact .written met named
  | @reread source value text target again before isValue outcome =>
      obtain ⟨-, rfl, rfl⟩ := Expr.constant.inj isNode
      -- what keeps a text that was not read from a literal need not have the value it spells
      obtain isSupplied | ⟨kind, spelled⟩ := before.spelled isValue
      · refine .kept isSupplied rfl ?_
        obtain ⟨-, ⟨-, named⟩ | ⟨-, spells, inRange, -⟩⟩ := Expr.reread?_member outcome
        · exact .inl named
        · exact .inr ⟨spells, IntKind.holds_iff.mpr inRange⟩
      · exact .reread before rfl (Expr.standsFor_of_reread? kind spelled outcome)
  | @read e text target value before isText outcome =>
      obtain ⟨-, rfl, -⟩ := Expr.constant.inj isNode
      obtain ⟨a, -, -, kind⟩ := Value.ofText_kind outcome
      cases Ty.eq_atom_of_beq (BEq.symm kind.2)
  | integer _ outcome =>
      obtain ⟨-, rfl, -⟩ := Expr.constant.inj isNode
      obtain ⟨text, -, spelled⟩ := Option.bind_eq_some_iff.mp outcome
      obtain ⟨m, -, made⟩ := Option.bind_eq_some_iff.mp spelled
      obtain ⟨i, -, same⟩ := Option.map_eq_some_iff.mp made
      cases same
  | @taken x e member before taken =>
      have isTaken := taken
      obtain ⟨op, outcome, -⟩ := isTaken
      obtain ⟨own, m, -, isMember, rfl⟩ := Expr.enumConstant_cases outcome
      obtain ⟨rfl, same, rfl⟩ := Expr.constant.inj isNode
      obtain ⟨rfl, rfl⟩ := Value.enum.inj same
      obtain standsFor | ⟨reinterprets, fits⟩ := Expr.standsFor_or_reinterprets isMember
      · exact .taken before taken standsFor
      · exact .reinterpreted before taken reinterprets fits
  | null | type | name => cases isNode

/-- A constant of an enumeration type holds null or a member of this enumeration. -/
theorem Origin.holdsMember {type : Ty} {value : Value} {literal? : Option String}
    (origin : ctx.Origin tokens supplied (.constant type value literal?))
    (isEnum : type.enum? = some enum) :
    supplied (.constant type value literal?) ∨ value = .null ∨ ∃ n, value = .enum enum n := by
  have core : type.core = .enum enum := Ty.core_of_enum? isEnum
  generalize isNode : Expr.constant type value literal? = node at origin
  cases origin with
  | supplied isSupplied => exact .inl isSupplied
  | @value v named =>
      obtain ⟨rfl, rfl, -⟩ := Expr.constant.inj isNode
      cases value with
      | enum own n =>
          obtain rfl : own = enum := Option.some.inj isEnum
          exact .inr (.inr ⟨n, rfl⟩)
      | array items =>
          obtain ⟨element, isArray⟩ := Value.naturalType_array items
          rw [isArray] at isEnum
          cases isEnum
      | _ => cases isEnum
  | literal read =>
      obtain ⟨value', text, same, isLiteral⟩ := read.isLiteral
      obtain ⟨rfl, rfl, -⟩ := Expr.constant.inj (isNode.trans same)
      cases value with
      | char | string | integral | single | double | decimal => cases isEnum
      | _ => cases isLiteral
  | null =>
      obtain ⟨-, rfl, -⟩ := Expr.constant.inj isNode
      exact .inr (.inl rfl)
  | @member type' own token n met isOwn named =>
      obtain ⟨rfl, rfl, -⟩ := Expr.constant.inj isNode
      obtain rfl := Option.some.inj (isOwn.symm.trans isEnum)
      exact .inr (.inr ⟨n, rfl⟩)
  | type | name | integer =>
      obtain ⟨rfl, -, -⟩ := Expr.constant.inj isNode
      cases isEnum
  | @reread source _ text target again before isValue outcome =>
      obtain ⟨rfl, rfl, -⟩ := Expr.constant.inj isNode
      rw [core] at outcome
      obtain ⟨own, n, rfl⟩ := Value.eq_enum_of_hasKind (Expr.reread?_kind outcome)
      obtain ⟨same, -⟩ := Expr.reread?_member outcome
      obtain rfl : enum = own := Ty.enum.inj same
      exact .inr (.inr ⟨n, rfl⟩)
  | read _ _ outcome =>
      obtain ⟨rfl, rfl, -⟩ := Expr.constant.inj isNode
      obtain ⟨a, isAtom, -⟩ := Value.ofText_kind outcome
      cases core.symm.trans isAtom
  | taken before taken =>
      obtain ⟨op, outcome, -⟩ := taken
      obtain ⟨own, n, isOwn, -, rfl⟩ := Expr.enumConstant_cases outcome
      obtain ⟨rfl, rfl, -⟩ := Expr.constant.inj isNode
      obtain rfl := Option.some.inj (isOwn.symm.trans isEnum)
      exact .inr (.inr ⟨n, rfl⟩)

/-- What the constants of a tree have to do with enumerations: those of an enumeration type hold
null or one of its members, unless they were supplied, and those of a member come from it. -/
structure EnumsOriginate (ctx : CompileContext) (tokens : List Token) (supplied : Expr → Prop)
    (node : Expr) : Prop where
  holdsMember : ∀ type value literal? enum, node = .constant type value literal? →
    type.enum? = some enum → supplied node ∨ value = .null ∨ ∃ n, value = .enum enum n
  member : ∀ type enum n literal?, node = .constant type (.enum enum n) literal? →
    ctx.MemberOrigin tokens supplied enum n node

theorem EnumsOriginate.of_originates {node : Expr}
    (originates : ctx.Originates tokens supplied node) :
    ctx.EnumsOriginate tokens supplied node where
  holdsMember := by
    rintro type value literal? enum rfl isEnum
    exact (originates rfl).holdsMember isEnum
  member := by
    rintro type enum n literal? rfl
    exact (originates rfl).memberOrigin

end CompileContext

/-- In every tree that a text compiles to, a constant of an enumeration type stands for a member of
the enumeration as it is written, unless a comparison or the test of an item reinterprets a
constant; and these two reinterpret every constant with an integral value of 64 bits beside a value
of an enumeration type. -/
theorem Environment.enums_originate (env : Environment) :
    (∀ params text args e, env.Returns params text args e →
      ∃ ctx, CompileContext.of env params args = .ok ctx ∧
        e.Everywhere (ctx.EnumsOriginate (Scan.ofText text env.options.decimalSeparator).tokens
          (Argument.Supplies args))) ∧
      ∀ (enum : EnumType) (n : Int) (x e : Expr) (op : Token), x.type.enum? = some enum →
        e.Reinterprets enum n → Value.fitsInt64 n = true → (x.type == e.type) = false →
          ¬ e.StandsFor enum n ∧
            Expr.isItem env.classes op x e =
              .ok (.test .equal x (.ofValue x.type (.enum enum n))) ∧
            (x.promote? env.classes .exactly e.type = none →
              e.promote? env.classes .exactly x.type = none →
                Expr.comparison env.classes .equal op x e =
                  .ok (.test .equal x (.ofValue x.type (.enum enum n)))) := by
  refine ⟨fun params text args e returns => ?_, ?_⟩
  · obtain ⟨ctx, context⟩ := returns.exists_context
    exact ⟨ctx, context, (returns.originates context).imp fun node => .of_originates⟩
  · intro enum n x e op isEnum reinterprets fits differ
    exact ⟨reinterprets.not_standsFor, Expr.reinterprets_taken isEnum reinterprets fits differ op⟩

section Example

/-- An enumeration of bytes. -/
def narrow : EnumType := ⟨"E", none, .byte, false, [("A", 0)]⟩

/-- An enumeration of integers of 32 bits. -/
def otherNarrow : EnumType := ⟨"F", none, .int32, false, [("B", 0)]⟩

/-- An environment with these two enumerations. -/
def overNarrow : Environment :=
  .of .initial (.ofCustom [.enum narrow, .enum otherNarrow]) #[some mathBody]

/-- A member of the enumeration of bytes. -/
def narrowMember : Parameter := ⟨0, "x", .enum narrow⟩

/-- Whether a function compares a parameter with the constant of a member. -/
def comparesMember (enum : EnumType) (n : Int) : Expr → Bool
  | .lambda _ (.binary _ .equal (.parameter _) (.constant _ (.enum own m) none) none) =>
    own = enum && m = n
  | _ => false

/-- In `x == 1000` the integer is made a member of an enumeration of bytes. -/
theorem enums_originate_outOfRange : ∃ e ctx,
    (compileFunction overNarrow [narrowMember] none "x == 1000" [] ⟨.empty, 1⟩).1 = .ok e ∧
      comparesMember narrow 1000 e = true ∧
      CompileContext.of overNarrow [narrowMember] [] = .ok ctx ∧
      e.Everywhere (ctx.EnumsOriginate (Scan.ofText "x == 1000" '.').tokens
        (Argument.Supplies [])) ∧
      ¬ (Literal.constant (.int32 1000) "1000").StandsFor narrow 1000 ∧
      Expr.comparison overNarrow.classes .equal ⟨.doubleEqual, "==", 2⟩ (.parameter narrowMember)
          (Literal.constant (.int32 1000) "1000") =
        .ok (.test .equal (.parameter narrowMember)
          (.ofValue (.enum narrow) (.enum narrow 1000))) := by
  obtain ⟨e, outcome, compares⟩ := exists_ok_of_any
    (show (compileFunction overNarrow [narrowMember] none "x == 1000" [] ⟨.empty, 1⟩).1.toOption.any
      (comparesMember narrow 1000) = true by decide +kernel)
  obtain ⟨originate, reinterpreted⟩ := Environment.enums_originate overNarrow
  obtain ⟨ctx, context, everywhere⟩ := originate _ _ _ e (.function outcome)
  obtain ⟨noMember, -, compared⟩ := reinterpreted narrow 1000 (.parameter narrowMember)
    (Literal.constant (.int32 1000) "1000") ⟨.doubleEqual, "==", 2⟩ rfl
    (.outOfRange rfl rfl rfl) rfl rfl
  exact ⟨e, ctx, outcome, compares, context, everywhere, noMember, compared rfl rfl⟩

/-- A character and a member of another enumeration are made members of it, too. -/
theorem members_reinterpreted :
    (∃ e, (compileFunction overNarrow [narrowMember] none "x == 'a'" [] ⟨.empty, 1⟩).1 = .ok e ∧
      comparesMember narrow 97 e = true) ∧
    ∃ e, (compileFunction overNarrow [narrowMember] none "x == F.B" [] ⟨.empty, 1⟩).1 = .ok e ∧
      comparesMember narrow 0 e = true :=
  ⟨exists_ok_of_any (by decide +kernel), exists_ok_of_any (by decide +kernel)⟩

end Example

end QueryTree
