import QueryTree.Model.Document
import QueryTree.Proofs.Comparison.Operand
import QueryTree.Proofs.Naming.Escape
import QueryTree.Proofs.Safety.Conversion

/-!
# Members of enumerations by their texts

The text of a member of an enumeration is the name of the first member with its value.  Whatever
reads a text as a member takes the first one with that name, without regard to the case of ASCII
letters.  So a value is read back from its text unless a member before it has the same name but for
case.
-/

namespace QueryTree

open QueryTree.Expr (comparison)

namespace EnumType

variable {e : EnumType} {name text : String} {n v : Int}

/-- The members before the first one with a value. -/
def membersBefore (e : EnumType) (v : Int) : List (String × Int) :=
  e.variants.takeWhile fun member => member.2 != v

/-- Whether a member before the first one with a value has the name of that one but for the case of
ASCII letters. -/
def Shadowed (e : EnumType) (v : Int) : Prop :=
  ∃ name, e.nameOf? v = some name ∧
    ∃ other ∈ e.membersBefore v, Text.sameIgnoringAsciiCase other.1 name = true

theorem ne_of_mem_membersBefore {other : String × Int} (isBefore : other ∈ e.membersBefore v) :
    other.2 ≠ v := by
  simpa using List.mem_takeWhile_imp isBefore

theorem variants_eq (isVariant : (name, v) ∈ e.variants) :
    ∃ first after, e.variants = e.membersBefore v ++ (first, v) :: after := by
  have whole : e.membersBefore v ++ e.variants.dropWhile (fun member => member.2 != v) =
      e.variants := List.takeWhile_append_dropWhile
  cases rest : e.variants.dropWhile fun member => member.2 != v with
  | nil =>
      have differs := List.dropWhile_eq_nil_iff.mp rest _ isVariant
      simp at differs
  | cons member after =>
      obtain ⟨first, value⟩ := member
      obtain rfl : value = v := by
        have isFirst := List.head?_dropWhile_not (fun member : String × Int => member.2 != v)
          e.variants
        simpa [rest] using isFirst
      exact ⟨first, after, by rw [← rest, whole]⟩

theorem nameOf?_eq {first : String} {after : List (String × Int)}
    (variants : e.variants = e.membersBefore v ++ (first, v) :: after) :
    e.nameOf? v = some first := by
  have noneBefore : (e.membersBefore v).find? (fun member => member.2 == v) = none := by
    refine List.find?_eq_none.mpr fun other isBefore => ?_
    simpa using ne_of_mem_membersBefore isBefore
  rw [nameOf?, variants, List.find?_append, noneBefore]
  simp

/-- The name of a member is the name of some value, which is its own unless it is shadowed. -/
theorem exists_valueOf?_nameOf? (isVariant : (name, v) ∈ e.variants) :
    ∃ first n, e.nameOf? v = some first ∧ e.valueOf? first = some n ∧
      (n = v ↔ ¬ e.Shadowed v) := by
  obtain ⟨first, after, variants⟩ := variants_eq isVariant
  have named := nameOf?_eq variants
  cases found : (e.membersBefore v).find? fun other =>
      Text.sameIgnoringAsciiCase other.1 first with
  | none =>
      refine ⟨first, v, named, ?_, iff_of_true rfl ?_⟩
      · rw [valueOf?, variants, List.find?_append, found]
        simp [Text.sameIgnoringAsciiCase]
      · rintro ⟨name, named', other, isBefore, same⟩
        cases named.symm.trans named'
        exact List.find?_eq_none.mp found other isBefore same
  | some other =>
      have isBefore := List.mem_of_find?_eq_some found
      refine ⟨first, other.2, named, ?_, iff_of_false (ne_of_mem_membersBefore isBefore) ?_⟩
      · rw [valueOf?, variants, List.find?_append, found]
        rfl
      · have same : Text.sameIgnoringAsciiCase other.1 first = true := by
          simpa using List.find?_some found
        exact not_not_intro ⟨first, named, other, isBefore, same⟩

end EnumType

theorem Ty.isEnum_of_enum? {type : Ty} {e : EnumType} (isEnum : type.enum? = some e) :
    type.isEnum = true := Option.isSome_iff_exists.mpr ⟨e, isEnum⟩

/-! ## Comparisons with a text -/

namespace Expr

variable {table : ClassTable} {operator : BinaryOp} {op : Token} {x y x' y' : Expr} {e : EnumType}
  {text : String} {n : Int}

/-- The constant for a text literal. -/
def ofLiteral (text : String) : Expr := constant .string (.string text) (some text)

theorem comparison_of_aligned (isMember : x.type.isEnum = true ∨ y.type.isEnum = true)
    (aligned : alignEnums table op x y = .ok (x', y')) :
    comparison table operator op x y =
      .ok (if operator.isEquality then binary .boolean operator x' y' none
        else binary .boolean operator x'.toUnderlying y'.toUnderlying none) := by
  have values := comparesReferences_of_isEnum isMember
  have isMember : (x.type.isEnum || y.type.isEnum) = true := by simpa using isMember
  unfold comparesReferences at values
  simp only [comparison, compared, values, Bool.and_false, Bool.false_eq_true, if_false, isMember,
    if_true, aligned]
  cases operator.isEquality <;> rfl

/-- The type of texts is no enumeration. -/
theorem type_ofLiteral_differs {type : Ty} (isEnum : type.enum? = some e) :
    (type == (ofLiteral text).type) = false ∧ ((ofLiteral text).type == type) = false := by
  have noMember : (ofLiteral text).type.isEnum = false := rfl
  have isMember := Ty.isEnum_of_enum? isEnum
  exact ⟨Ty.beq_false_of_isEnum (by simp [isMember, noMember]),
    Ty.beq_false_of_isEnum (by simp [isMember, noMember])⟩

theorem promote?_ofLiteral {target : Ty} (isEnum : target.enum? = some e)
    (named : e.valueOf? text = some n) :
    (ofLiteral text).promote? table .exactly target =
      some (constant target (.enum e n) (some text)) := by
  have reread : promoteConstant? target (ofLiteral text) =
      some (constant target (.enum e n) (some text)) := by
    simp [ofLiteral, promoteConstant?, Ty.core_of_enum? isEnum, reread?, Ty.string,
      Literal.member?, named]
  rw [promote?, (type_ofLiteral_differs isEnum).2, reread]
  rfl

/-- A text behind a value of an enumeration is compared as the member that it names. -/
theorem comparison_ofLiteral (isEnum : x.type.enum? = some e) (named : e.valueOf? text = some n) :
    comparison table operator op x (ofLiteral text) =
      comparison table operator op x (constant x.type (.enum e n) (some text)) := by
  have isMember : x.type.isEnum = true := Ty.isEnum_of_enum? isEnum
  obtain ⟨differ, differ'⟩ := @type_ofLiteral_differs e text x.type isEnum
  have aligned : alignEnums table op x (ofLiteral text) =
      .ok (x, constant x.type (.enum e n) (some text)) := by
    rw [alignEnums, differ, promote?_ofLiteral isEnum named]
    rfl
  rw [comparison_of_aligned (.inl isMember) aligned,
    comparison_of_aligned (.inl isMember) (alignEnums_of_same (by simp [type]))]

/-- A text before a value of an enumeration is compared as the member that it names, unless null is
written for the value. -/
theorem ofLiteral_comparison (isEnum : x.type.enum? = some e) (notNull : x.isNullConstant = false)
    (named : e.valueOf? text = some n) :
    comparison table operator op (ofLiteral text) x =
      comparison table operator op (constant x.type (.enum e n) (some text)) x := by
  have isMember : x.type.isEnum = true := Ty.isEnum_of_enum? isEnum
  obtain ⟨differ, differ'⟩ := @type_ofLiteral_differs e text x.type isEnum
  have kept : x.promote? table .exactly (ofLiteral text).type = none := by
    refine Option.eq_none_iff_forall_ne_some.mpr fun promoted outcome => ?_
    have plain : x.type.DeclaresNothing table := by
      rw [Ty.DeclaresNothing, Ty.operators, Ty.core_of_enum? isEnum]
    have plain' : (ofLiteral text).type.DeclaresNothing table := rfl
    cases promotedBeside plain plain' (.inl isMember) differ outcome with
    | null isNull => cases notNull.symm.trans isNull
    | boxed _ isObject => cases isObject
    | lifted _ _ _ admits => cases admits
    | literal noMember => cases isMember.symm.trans noMember
  have aligned : alignEnums table op (ofLiteral text) x =
      .ok (constant x.type (.enum e n) (some text), x) := by
    rw [alignEnums, differ', kept, promote?_ofLiteral isEnum named]
    rfl
  rw [comparison_of_aligned (.inr isMember) aligned,
    comparison_of_aligned (.inr isMember) (alignEnums_of_same (by simp [type]))]

end Expr

/-! ## A member behind its type -/

namespace CompileContext

open Parse (bind_eq position_eq check_eq advance_eq)

/-- Behind its type the name of a member is the member, if no argument list follows. -/
theorem typeAccess_member {ctx : CompileContext} {expression : Parse Expr}
    {session : Session} {type : Ty} {token next : Token} {more : List Token} {e : EnumType}
    {n : Int} (isEnum : type.enum? = some e) (isDot : session.current.kind = .dot)
    (behind : session.rest = token :: next :: more) (isName : token.kind = .identifier)
    (named : e.valueOf? (Parse.unescapedName token.text) = some n)
    (noCall : next.kind ≠ .openParen) :
    ctx.typeAccess expression type session =
      .ok (.ofValue type (.enum e n)) (session.moveTo next more) := by
  have noMark : nullableMark type session = .ok type session := by
    rw [nullableMark, bind_eq (check_eq .question session), isDot]
    rfl
  have isMember : enumMember? (.type type) (Parse.unescapedName token.text) =
      some (.ofValue type (.enum e n)) := by
    simp [enumMember?, isEnum, named]
  have isName' : (session.moveTo token (next :: more)).current.kind = .identifier := isName
  rw [typeAccess, bind_eq (position_eq session), bind_eq noMark,
    bind_eq (check_eq .stringLiteral session), isDot]
  change (Parse.check .openParen >>= _) session = _
  rw [bind_eq (check_eq .openParen session), isDot]
  change (Parse.check .dot >>= _) session = _
  rw [bind_eq (check_eq .dot session), isDot]
  change (Parse.advance >>= _) session = _
  rw [bind_eq (advance_eq behind), memberAccess_eq_accessNamed isName' rfl,
    accessNamed_eq_namedMember (.inr rfl) noCall, Session.moveTo_current, namedMember, isMember]
  rfl

end CompileContext

/-! ## Reading a member back -/

namespace EnumType

variable {e : EnumType} {name text : String} {n v : Int}

/-- A text is taken for a member with a certain value: as a name, as a document, beside a value of
the enumeration that it is compared with, and behind the type. -/
structure ReadsAs (e : EnumType) (text : String) (n : Int) : Prop where
  value : e.valueOf? text = some n
  document : ∀ table type, type.enum? = some e →
    Value.ofJson table type (.string text) = .ok (.enum e n)
  behind : ∀ table operator op (x : Expr), x.type.enum? = some e →
    comparison table operator op x (.ofLiteral text) =
      comparison table operator op x (.constant x.type (.enum e n) (some text))
  before : ∀ table operator op (x : Expr), x.type.enum? = some e → x.isNullConstant = false →
    comparison table operator op (.ofLiteral text) x =
      comparison table operator op (.constant x.type (.enum e n) (some text)) x
  access : ∀ (ctx : CompileContext) (expression : Parse Expr) (session : Session) (type : Ty)
    (token next : Token) (more : List Token), type.enum? = some e → session.current.kind = .dot →
      session.rest = token :: next :: more → token.kind = .identifier →
      Parse.unescapedName token.text = text → next.kind ≠ .openParen →
        ctx.typeAccess expression type session =
          .ok (.ofValue type (.enum e n)) (session.moveTo next more)

theorem readsAs_iff : e.ReadsAs text n ↔ e.valueOf? text = some n := by
  refine ⟨fun reads => reads.value, fun named => ?_⟩
  exact
    { value := named
      document := fun table type isEnum => by
        simp only [Value.ofJson, Value.ofString, isEnum, named]
      behind := fun _ _ _ _ isEnum => Expr.comparison_ofLiteral isEnum named
      before := fun _ _ _ _ isEnum notNull => Expr.ofLiteral_comparison isEnum notNull named
      access := fun _ _ _ _ _ _ _ isEnum isDot behind isName same noCall =>
        CompileContext.typeAccess_member isEnum isDot behind isName (same ▸ named) noCall }

/-- Whatever reads the text of a member gives one and the same value, which is its own unless it is
shadowed.  So a member is the same again as a document if and only if it is not. -/
theorem text_readsAs (isVariant : (name, v) ∈ e.variants) :
    ∃ n, e.ReadsAs (Value.enum e v).text n ∧ (n = v ↔ ¬ e.Shadowed v) ∧
      ∀ table type, type.enum? = some e →
        (Value.ofJson table type (Value.enum e v).toJson = .ok (.enum e v) ↔ ¬ e.Shadowed v) := by
  obtain ⟨first, n, named, found, same⟩ := exists_valueOf?_nameOf? isVariant
  have text : (Value.enum e v).text = first := by simp only [Value.text, named]
  have reads : e.ReadsAs (Value.enum e v).text n := readsAs_iff.mpr (text ▸ found)
  refine ⟨n, reads, same, fun table type isEnum => ?_⟩
  have document : (Value.enum e v).toJson = .string (Value.enum e v).text := by
    simp only [Value.toJson]
  rw [document, reads.document table type isEnum, ← same, Except.ok.injEq, Value.enum.injEq]
  exact and_iff_right rfl

/-- Where no two names are the same but for the case of ASCII letters, no member is shadowed. -/
theorem not_shadowed (apart : e.variants.Pairwise fun a b =>
    Text.sameIgnoringAsciiCase a.1 b.1 = false) : ¬ e.Shadowed v := by
  rintro ⟨name, named, other, isBefore, same⟩
  obtain ⟨⟨first, value⟩, found, rfl⟩ := Option.map_eq_some_iff.mp named
  obtain rfl : value = v := by simpa using List.find?_some found
  obtain ⟨first', after, variants⟩ := variants_eq (List.mem_of_find?_eq_some found)
  obtain rfl : first' = first := Option.some.inj ((nameOf?_eq variants).symm.trans named)
  rw [variants] at apart
  rw [(List.pairwise_append.mp apart).2.2 other isBefore _ (.head _)] at same
  cases same

section Example

/-- An enumeration of which a value has two names. -/
def lights : EnumType := ⟨"Light", none, .int32, false, [("Red", 0), ("Green", 1), ("Lime", 1)]⟩

theorem text_readsAs_lime : ("Lime", 1) ∈ lights.variants ∧ lights.ReadsAs "Green" 1 ∧
    Value.ofJson .initial (.enum lights) (Value.enum lights 1).toJson = .ok (.enum lights 1) := by
  have isVariant : ("Lime", 1) ∈ lights.variants := by decide
  obtain ⟨n, reads, same, document⟩ := text_readsAs isVariant
  have kept : ¬ lights.Shadowed 1 := not_shadowed (by decide)
  obtain rfl := same.mpr kept
  exact ⟨isVariant, reads, (document .initial (.enum lights) rfl).mpr kept⟩

/-- An enumeration of two names that differ in case only. -/
def twins : EnumType := ⟨"E", none, .int32, false, [("a", 0), ("A", 1)]⟩

/-- The name of the second one of two members is read as the first one. -/
theorem twins_shadowed : (Value.enum twins 1).text = "A" ∧ twins.valueOf? "A" = some 0 ∧
    Value.ofJson .initial (.enum twins) (Value.enum twins 1).toJson = .ok (.enum twins 0) :=
  ⟨rfl, rfl, rfl⟩

end Example

end EnumType

end QueryTree
