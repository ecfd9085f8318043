import QueryTree.Proofs.Conversion.Implicit
import QueryTree.Proofs.Evaluate.Outcome
import QueryTree.Proofs.Literal.Rereading
import QueryTree.Proofs.Sequence.Reading

/-!
# Tests whether a sequence contains an item

The test with the word for membership and the call of the operation go through the same items.  The
test promotes its item to the type of the elements first, and the call takes its argument as it is.
-/

/-!
## Items that are looked for

What becomes of an item that is promoted to the type of the elements of a sequence.  A number may be
widened, and a literal is read again; where the number stays the same, the items that are equal to
it stay the same, too.
-/

namespace QueryTree

namespace Value

variable {t u : Ty} {v v' w : Value}

/-- A value becomes one of a type, and if it is a number it stays the same one. -/
inductive Becomes : Ty → Value → Value → Prop where
  | same {t : Ty} {v : Value} : Becomes t v v
  | integer {t : Ty} {n : Integer} {v : Value} (isInteger : v.IsInteger n.val t) :
      Becomes t (.integral n) v
  | double {n : Integer} : Becomes .double (.integral n) (.double (doubleOfInt n.val))
  | single {x : Float32} : Becomes .double (.single x) (.double x.toFloat)

/-- A value that is compared as a real number equals the same real numbers as this number does. -/
theorem equal_of_compareReals? {x y : Float} (compares : compare? (double y) v = compareReals? y x)
    (other : (double y == v) = false) : (double y).equal v = (double y).equal (double x) := by
  have compares' : compare? (double y) (double x) = compareReals? y x := rfl
  unfold equal
  rw [compares, compares']
  cases order : compareReals? y x with
  | some order => rfl
  | none =>
      have differ : (y == x) = false := by
        unfold compareReals? at order
        split at order
        next => cases order
        next =>
          split at order
          next => cases order
          next differ => exact Bool.eq_false_iff.mpr differ
      exact other.trans differ.symm

/-- A value of a type of numbers is null or a number of this type. -/
theorem eq_null_or_hasKind (conforms : w.conformsTo t = true)
    (isNumber : t.core.isNumberLike = true) : w = null ∨ w.HasKind t.core := by
  cases isNull : w.isNull with
  | true =>
      cases w with
      | null => exact .inl rfl
      | _ => cases isNull
  | false =>
      obtain isObject | hasKind := kind_of_conformsTo conforms isNull
      · rw [Ty.isNumberLike_same isObject] at isNumber
        cases isNumber
      · exact .inr hasKind

theorem Becomes.eq_or_isNumberLike (becomes : v.Becomes t v') :
    v' = v ∨ t.isNumberLike = true := by
  cases becomes with
  | same => exact .inl rfl
  | integer isInteger => cases isInteger <;> exact .inr rfl
  | double | single => exact .inr rfl

/-- The values of a type are equal to a value if they are equal to what it becomes in this type. -/
theorem Becomes.equal_eq (becomes : v.Becomes t.core v')
    (conforms : t.core.isNumberLike = true → w.conformsTo t = true) : w.equal v = w.equal v' := by
  obtain rfl | isNumber := becomes.eq_or_isNumberLike
  · rfl
  have kind := eq_null_or_hasKind (conforms isNumber) isNumber
  generalize t.core = core at becomes kind
  obtain rfl | hasKind := kind
  · cases becomes with
    | integer isInteger => cases isInteger <;> rfl
    | _ => rfl
  · cases becomes with
    | same => rfl
    | @integer _ n _ isInteger =>
        cases isInteger with
        | integral =>
            obtain ⟨m, rfl⟩ := hasKind.ofAtom
            exact equal_of_sameInteger (.integral rfl) (.integral rfl)
        | decimal =>
            obtain ⟨d, rfl⟩ := hasKind.ofAtom
            simp [equal, compare?, compareNumbers?, isDecimal, toDecimal?, toInt?, n.toDecimal_eq]
        | enum =>
            obtain ⟨f, m, rfl⟩ := eq_enum_of_hasKind hasKind
            rfl
    | double | single =>
        obtain ⟨y, rfl⟩ := hasKind.ofAtom
        exact equal_of_compareReals? rfl rfl

theorem Becomes.any_equal_eq {items : List Value} (becomes : v.Becomes t.core v')
    (conform : t.core.isNumberLike = true → ∀ w ∈ items, w.conformsTo t = true) :
    items.any (equal · v) = items.any (equal · v') := by
  rw [Bool.eq_iff_iff, List.any_eq_true, List.any_eq_true]
  refine exists_congr fun w => and_congr_right fun isItem => ?_
  rw [becomes.equal_eq fun isNumber => conform isNumber w isItem]

/-- No member of an enumeration equals a text. -/
theorem equal_string {enum : EnumType} (isEnum : t.enum? = some enum)
    (conforms : w.conformsTo t = true) (s : String) : w.equal (string s) = false := by
  have core := Ty.core_of_enum? isEnum
  obtain rfl | hasKind := eq_null_or_hasKind conforms (by rw [core]; rfl)
  · rfl
  · rw [core] at hasKind
    obtain ⟨f, n, rfl⟩ := eq_enum_of_hasKind hasKind
    rfl

/-- A number that is widened without rounding stays the same. -/
theorem becomes_of_toNumeric? {a b : Atom} (hasKind : v.HasKind (.atom a))
    (widens : a.widensTo b = true) (differ : a ≠ b) (unrounded : b ≠ .single)
    (made : v.toNumeric? (.atom b) = some w) : v.Becomes (.atom b) w := by
  have shape := hasKind.ofAtom
  have number := ((Atom.widensTo_isNumeric widens).resolve_left differ).2
  cases a with
  | integral =>
      obtain ⟨n, rfl⟩ := shape
      cases b with
      | integral wider =>
          obtain ⟨m, fits, rfl⟩ := Option.map_eq_some_iff.mp made
          obtain ⟨inRange, rfl⟩ := Integer.ofInt?_eq_some fits
          exact .integer (.integral inRange)
      | double => exact Option.some.inj made ▸ .double
      | decimal =>
          obtain ⟨d, ofInt, rfl⟩ := Option.map_eq_some_iff.mp made
          obtain rfl := Option.some.inj (n.toDecimal_eq.symm.trans ofInt)
          exact .integer .decimal
      | single => exact absurd rfl unrounded
      | _ => cases number
  | single =>
      obtain ⟨x, rfl⟩ := shape
      cases b with
      | double => exact Option.some.inj made ▸ .single
      | single => exact absurd rfl unrounded
      | _ => cases widens
  | _ => exact absurd (beq_iff_eq.mp widens) differ

/-- A value stays the same in a type of numbers that its type widens to without rounding. -/
theorem convertTo_becomes (conforms : v.conformsTo t = true) (isNumber : t.core.isNumberLike = true)
    (widens : t.core.widensTo u.core = true) (unrounded : u.core = .single → t.core = .single) :
    ∃ w, v.convertTo u = .ok w ∧ v.Becomes u.core w := by
  obtain ⟨w, outcome⟩ := convertTo_widens (fun _ => conforms) widens
  refine ⟨w, outcome, ?_⟩
  obtain rfl | ⟨notNull, other, made⟩ := convertTo_eq_ok outcome
  · exact .same
  · obtain rfl | hasKind := eq_null_or_hasKind conforms isNumber
    · exact absurd notNull (by decide)
    obtain same | ⟨a, b, t_core, u_core, widens⟩ := Ty.widensTo_iff.mp widens
    · rw [BEq.trans hasKind.2 same] at other
      cases other
    · rw [t_core, u_core] at unrounded
      rw [t_core] at hasKind
      rw [u_core] at other made ⊢
      have differ : a ≠ b := by
        rintro rfl
        rw [hasKind.2] at other
        cases other
      refine becomes_of_toNumeric? hasKind widens differ ?_ made
      rintro rfl
      exact differ (Ty.atom.inj (unrounded rfl))

end Value

/-- Without a declared conversion a type is compatible with a type of numbers only if it widens to
it. -/
theorem Ty.widensTo_of_isNumberLike {table : ClassTable} {t u : Ty}
    (undeclared : t.Undeclared table)
    (isNumber : u.core.isNumberLike = true) (compatible : t.isCompatible table u = true) :
    t.core.widensTo u.core = true := by
  have noClass : u.core.class? = none := by
    cases core : u.core with
    | cls =>
        rw [core] at isNumber
        cases isNumber
    | _ => rfl
  have isValue : u.isValue = true := by
    cases u with
    | atom a => cases a <;> first | rfl | cases isNumber
    | enum | nullable => rfl
    | _ => cases isNumber
  have unconverted : hasDeclaredConversion table t u false = false :=
    hasDeclaredConversion_of_undeclared undeclared (undeclared_of_class? noClass)
  obtain same | ⟨isReference, -⟩ | ⟨-, -, widens⟩ :=
    (isCompatible_iff_of_undeclared unconverted).mp compatible
  · exact widensTo_iff.mpr (.inl (core_same same))
  · rw [isValue] at isReference
    cases isReference
  · exact widens

namespace Expr

variable {table : ClassTable} {x promoted : Expr} {element : Ty} {ctx : EvalContext} {v : Value}

/-- The promotion of an item to the type of the elements of a sequence leaves its value as it is,
but for a number that takes a wider type: no class declares a conversion to a number, nothing is
rounded, and what is read again of a literal is the number of the literal. -/
inductive EntersUnchanged (table : ClassTable) (x : Expr) (element : Ty) : Prop where
  /-- An item of the type of the elements. -/
  | same (same : (x.type == element) = true)
  /-- An item of another type. -/
  | promoted (undeclared : element.core.isNumberLike = true → x.type.Undeclared table)
      (unrounded : element.core = .single → x.type.core = .single)
      (reread : ∀ source value text value', x = .constant source value (some text) →
        reread? source text element.core = some value' → value.Becomes element.core value')

namespace EntersUnchanged

/-- An item that enters a sequence unchanged has a value for it whenever it has one. -/
theorem exists_becomes (enters : x.EntersUnchanged table element)
    (outcome : x.promote? table .exactly element = some promoted) (hasValue : x.HasValue ctx v) :
    ∃ v', promoted.evaluate ctx = .ok v' ∧ v.Becomes element.core v' := by
  cases enters with
  | same same =>
      rw [promote?, if_pos same] at outcome
      obtain rfl := Option.some.inj outcome
      exact ⟨v, hasValue.1, .same⟩
  | promoted undeclared unrounded reread =>
      obtain ⟨rfl, -⟩ | ⟨_, _, constant, -⟩ | ⟨rfl, compatible⟩ | ⟨-, -, inexact, -⟩ :=
        promote?_cases outcome
      · exact ⟨v, hasValue.1, .same⟩
      · cases promotedConstant constant with
        | null =>
            obtain rfl := hasValue.of_value? rfl
            exact ⟨.null, evaluate_promote?_null outcome hasValue.1, .same⟩
        | reread _ read =>
            obtain rfl := hasValue.of_value? rfl
            exact ⟨_, rfl, reread _ _ _ _ rfl read⟩
      · cases isNumber : element.core.isNumberLike with
        | true =>
            have widens := Ty.widensTo_of_isNumberLike (undeclared isNumber) isNumber compatible
            have x_number : x.type.core.isNumberLike = true := by
              obtain same | ⟨x_number, -⟩ := Ty.widensTo_cases widens
              · rw [Ty.isNumberLike_same same, isNumber]
              · exact x_number
            obtain ⟨v', converted, becomes⟩ := Value.convertTo_becomes (hasValue.2 x_number)
              x_number widens unrounded
            exact ⟨v', hasValue.convert converted, becomes⟩
        | false =>
            have kept : v.convertTo element = .ok v := by
              rw [Value.convertTo_eq, isNumber, if_pos (by simp)]
            exact ⟨v, hasValue.convert kept, .same⟩
      · cases inexact

end EntersUnchanged

/-- A text that names a member of an enumeration is promoted to this member. -/
theorem promote?_member {s text : String} {enum : EnumType} {n : Int}
    (isEnum : element.enum? = some enum) (isName : enum.valueOf? text = some n) (mode : Promotion) :
    (constant .string (.string s) (some text)).promote? table mode element =
      some (constant element (.enum enum n) (some text)) := by
  have other : (Ty.string == element) = false := by
    apply Ty.beq_false_of_isEnum
    rw [Ty.isEnum, Ty.isEnum, isEnum]
    exact Bool.false_ne_true
  have read : reread? .string text element.core = some (.enum enum n) := by
    rw [Ty.core_of_enum? isEnum, reread?, Literal.member?, isName]
    rfl
  rw [promote?, if_neg (by rw [type, other]; decide), promoteConstant?, read]
  · rfl
  · intro isEmpty
    cases isEmpty

/-- Where every value is accepted, an expression is as it is. -/
theorem promote?_object (table : ClassTable) (e : Expr) :
    ∃ accepted, e.promote? table .element .object = some accepted ∧
      ∀ ctx, accepted.evaluate ctx = e.evaluate ctx := by
  rw [promote?]
  split
  next => exact ⟨e, rfl, fun _ => rfl⟩
  next =>
    rw [promoteByType?_object]
    unfold promoteConstant?
    split
    next => exact ⟨_, rfl, fun _ => rfl⟩
    next source _ text _ _ =>
      have unread : reread? source text Ty.object.core = none := by
        unfold reread?
        split <;> rfl
      rw [unread]
      exact ⟨_, rfl, fun _ => rfl⟩
    next => exact ⟨_, rfl, fun _ => rfl⟩

end Expr

end QueryTree

/-!
## Tests and calls

What the test and the call do with an item, in trees and in whole texts.
-/

namespace QueryTree

open Parse

namespace Aggregate

variable {table : ClassTable} {name : String}

/-- Every expression is an argument of the operation that looks for an item. -/
theorem resolve_contains (named : ofName? name = some contains) (e : Expr) :
    ∃ accepted, resolve table name [e] = .found (contains, [.object]) [accepted] ∧
      ∀ ctx, accepted.evaluate ctx = e.evaluate ctx := by
  obtain ⟨accepted, promoted, same⟩ := Expr.promote?_object table e
  refine ⟨accepted, ?_, same⟩
  have overloads : signatures.filter (·.1 = contains) = [(contains, [.object])] := rfl
  have applies : Expr.promoteAll? table .element [.object] [e] = some [accepted] := by
    rw [Expr.promoteAll?, promoted]
    rfl
  rw [resolve_eq named, overloads]
  simp [Resolution.choose, Resolution.applicable, applies]

end Aggregate

namespace Expr

variable {table : ClassTable} {op : Token} {x y c accepted : Expr} {element : Ty} {types : List Ty}
  {values : EvalContext} {v w : Value}

/-- Whether a value is equal to one of the items of a sequence. -/
def holdsItem (sequence : Expr) (v : Value) (values : EvalContext) : Evaluation Value :=
  (sequence.itemsFor .contains values).map fun items => .boolean (items.any (Value.equal · v))

/-- The operation that looks for an item compares all items with its value. -/
theorem evaluate_contains {item : Expr} {type : Ty} (value : item.evaluate values = .ok v) :
    (aggregate type .contains c types [item]).evaluate values = c.holdsItem v values := by
  have outcome : (aggregate type .contains c types [item]).evaluate values =
      c.itemsFor .contains values >>= fun items => do
        return .boolean (items.any (Value.equal · (← item.evaluate values))) := by
    refine evaluate_aggregate fun v items _ isSequence => ?_
    rw [Aggregate.evaluate, isSequence]
    rfl
  rw [outcome, value, holdsItem]
  cases c.itemsFor .contains values <;> rfl

theorem holdsItem_congr (same : ∀ items, c.itemsFor .contains values = .ok items →
    items.any (Value.equal · v) = items.any (Value.equal · w)) :
    c.holdsItem v values = c.holdsItem w values := by
  rw [holdsItem, holdsItem]
  cases isItems : c.itemsFor .contains values with
  | error error => rfl
  | ok items => exact congrArg (fun holds => Except.ok (Value.boolean holds)) (same items isItems)

section Test

variable {item : Expr} (isSequence : c.type.element? table = some element)

include isSequence

theorem isContained_of_promoted (promoted : x.promote? table .exactly element = some item) :
    isContained table op x c = .ok (aggregate .boolean .contains c [element] [item]) := by
  simp only [isContained, isSequence, promoted]

theorem isContained_of_none (refused : x.promote? table .exactly element = none) :
    isContained table op x c =
      .error ⟨op.position, .noApplicableAggregate Aggregate.contains.name⟩ := by
  simp only [isContained, isSequence, refused]

end Test

/-- What a test whether a sequence contains an item makes of it, beside the call of the operation
with what the item is read as among its arguments. -/
structure ContainedAlike (table : ClassTable) (x y c : Expr) (element : Ty) (tested called : Expr) :
    Prop where
  /-- The test looks for the promoted item, and the call for its argument as it is. -/
  looks : ∃ item, x.promote? table .exactly element = some item ∧ ∀ values v,
    (item.evaluate values = .ok v → tested.evaluate values = c.holdsItem v values) ∧
      (y.evaluate values = .ok v → called.evaluate values = c.holdsItem v values)
  /-- An item that enters the sequence unchanged is in it for both or for none of them. -/
  unchanged {values : EvalContext} {v : Value} (enters : x.EntersUnchanged table element)
    (x_value : x.HasValue values v) (y_value : y.evaluate values = .ok v)
    (conform : element.core.isNumberLike = true → ∀ items, c.itemsFor .contains values = .ok items →
      ∀ w ∈ items, w.conformsTo element = true) :
    tested.evaluate values = called.evaluate values ∧
      ∀ items, c.itemsFor .contains values = .ok items →
        ∃ holds, tested.evaluate values = .ok (.boolean holds)
  /-- A text that names a member of an enumeration is this member for the test, and no member for
  the call. -/
  named {values : EvalContext} {s text : String} {enum : EnumType} {n : Int} {items : List Value}
    (isText : x = .constant .string (.string s) (some text)) (isEnum : element.enum? = some enum)
    (isName : enum.valueOf? text = some n) (y_value : y.evaluate values = .ok (.string s))
    (isItems : c.itemsFor .contains values = .ok items)
    (conform : ∀ w ∈ items, w.conformsTo element = true) :
    tested.evaluate values = .ok (.boolean (items.any (Value.equal · (.enum enum n)))) ∧
      called.evaluate values = .ok (.boolean false)

theorem containedAlike {tested : Expr} (isSequence : c.type.element? table = some element)
    (made : isContained table op x c = .ok tested)
    (same : ∀ values, accepted.evaluate values = y.evaluate values) :
    ContainedAlike table x y c element tested
      (aggregate .boolean .contains c types [accepted]) := by
  obtain ⟨item, promoted, rfl⟩ : ∃ item, x.promote? table .exactly element = some item ∧
      tested = aggregate .boolean .contains c [element] [item] := by
    cases promoted : x.promote? table .exactly element with
    | some item =>
        have isTest := made.symm.trans (isContained_of_promoted isSequence promoted)
        exact ⟨item, rfl, Except.ok.inj isTest⟩
    | none => cases made.symm.trans (isContained_of_none isSequence promoted)
  have called {values : EvalContext} {v : Value} (y_value : y.evaluate values = .ok v) :
      (aggregate .boolean .contains c types [accepted]).evaluate values = c.holdsItem v values :=
    evaluate_contains ((same values).trans y_value)
  refine ⟨⟨item, promoted, fun values v => ⟨evaluate_contains, called⟩⟩, ?unchanged, ?named⟩
  case unchanged =>
    intro values v enters x_value y_value conform
    obtain ⟨v', item_value, becomes⟩ := enters.exists_becomes promoted x_value
    rw [called y_value, evaluate_contains item_value]
    refine ⟨holdsItem_congr fun items isItems => ?_, fun items isItems => ?_⟩
    · exact (becomes.any_equal_eq fun isNumber => conform isNumber items isItems).symm
    · rw [holdsItem, isItems]
      exact ⟨_, rfl⟩
  case named =>
    intro values s text enum n items isText isEnum isName y_value isItems conform
    rw [isText, promote?_member isEnum isName] at promoted
    obtain rfl := Option.some.inj promoted
    have none : items.any (Value.equal · (.string s)) = false := by
      refine List.any_eq_false.mpr fun w isItem => ?_
      rw [Value.equal_string isEnum (conform w isItem)]
      decide
    rw [called y_value, evaluate_contains rfl, holdsItem, holdsItem, isItems]
    exact ⟨rfl, congrArg (fun holds => Except.ok (Value.boolean holds)) none⟩

end Expr

namespace CompileContext

open Aggregate (insideCall)

variable {ctx : CompileContext} {expression : Parse Expr} {start stop opening : Session}
  {op next : Token} {rest : List Token} {x y c : Expr} {element : Ty}

/-- The text of a test whether a sequence contains an item is read: the item, the word for
membership, and the sequence, which starts with a name. -/
inductive ReadsContained (ctx : CompileContext) (expression : Parse Expr) (start : Session)
    (op : Token) (x c : Expr) (stop : Session) : Prop where
  | intro {word : Session} {token : Token} {rest : List Token}
      (value : ctx.bits expression start = .ok x word) (isOp : word.current = op)
      (isMembership : op.isWord "in" = true) (behind : word.rest = token :: rest)
      (isName : token.kind = .identifier)
      (sequence : ctx.primary expression (word.moveTo token rest) = .ok c stop)

/-- A test whether a sequence contains an item is compiled as one of what is read. -/
theorem ReadsContained.disjunction_eq (reads : ctx.ReadsContained expression start op x c stop)
    (ends : Ends 1 stop.current) :
    ctx.disjunction expression start =
      Parse.lift (Expr.isContained ctx.env.classes op x c) stop := by
  obtain @⟨word, token, rest, value, rfl, isMembership, behind, isName, sequence⟩ := reads
  have noList : Parse.check .openParen (word.moveTo token rest) =
      .ok false (word.moveTo token rest) := by
    rw [check_eq, Session.moveTo_current, isName]
    rfl
  have named : Parse.check .identifier (word.moveTo token rest) =
      .ok true (word.moveTo token rest) := by
    rw [check_eq, Session.moveTo_current, isName]
    rfl
  have membership_eq : ctx.membership expression start =
      Parse.lift (Expr.isContained ctx.env.classes word.current x c) stop := by
    rw [membership, bind_eq value, bind_eq (tokensLeft_eq word), membershipFrom,
      bind_eq (current_eq word), isMembership]
    simp only [if_true]
    rw [bind_eq (advance_eq behind), bind_eq noList]
    simp only [Bool.false_eq_true, if_false]
    rw [bind_eq named]
    simp only [if_true]
    rw [bind_eq sequence]
    cases made : Expr.isContained ctx.env.classes word.current x c with
    | ok tested => rw [bind_eq (lift_eq rfl stop), membershipFrom_end (ends.1 (by decide))]; rfl
    | error error => rw [bind_error (lift_error rfl stop)]; rfl
  exact (disjunction_eq_membership (.of_lift membership_eq ends)).trans membership_eq

/-- A call that looks for an item is compiled whatever its argument is. -/
theorem ReadsCall.contains_eq (call : ctx.ReadsCall expression start c .contains element opening)
    (argument : ReadsArgument expression (insideCall .contains opening element) y next rest)
    (noSuffix : next.kind.opensSuffix = false) (ends : Ends 1 next) :
    ∃ types accepted stop, ctx.disjunction expression start =
        .ok (.aggregate .boolean .contains c types [accepted]) stop ∧
      ∀ values, accepted.evaluate values = y.evaluate values := by
  obtain ⟨name, position, named, found, -⟩ := call.disjunction_eq
  obtain ⟨accepted, resolved, same⟩ := @Aggregate.resolve_contains ctx.env.classes name named y
  obtain ⟨close, read⟩ := argument.argumentList_eq call.opens
  let stop := Aggregate.behindCall (close.moveTo next rest)
  have parsed : Aggregate.contains.parseCall ctx expression c element name position opening =
      .ok _ stop := Aggregate.parseCall_found read resolved (by decide) rfl
  have passes : stop.rest.length ≤ opening.rest.length := Nat.le_of_lt argument.length_lt
  exact ⟨_, accepted, stop, found _ stop parsed passes noSuffix ends, same⟩

/-- A sequence is asked for an item by the word for membership or by a call of the operation.  The
call always compiles, and the test does if and only if its item can be promoted to the type of the
elements.  The test looks for the promoted item and the call for its argument, so that they agree on
an item that the promotion leaves unchanged, but not on a text that names a member. -/
theorem membership_means_contains {expression' : Parse Expr} {start' : Session}
    (test : ctx.ReadsContained expression start op x c stop) (ends : Ends 1 stop.current)
    (call : ctx.ReadsCall expression' start' c .contains element opening)
    (argument : ReadsArgument expression' (insideCall .contains opening element) y next rest)
    (noSuffix : next.kind.opensSuffix = false) (ends' : Ends 1 next) :
    ctx.Compiles expression' start' ∧
      (ctx.Compiles expression start ↔
        (x.promote? ctx.env.classes .exactly element).isSome = true) ∧
      ∀ tested after called after', ctx.disjunction expression start = .ok tested after →
        ctx.disjunction expression' start' = .ok called after' →
          Expr.ContainedAlike ctx.env.classes x y c element tested called := by
  have isSequence : c.type.element? ctx.env.classes = some element := by
    cases call with
    | intro _ _ _ _ _ isOperation => exact (sequenceOperation?_eq_some isOperation).2.2
  obtain ⟨types, accepted, last, compiles, same⟩ := call.contains_eq argument noSuffix ends'
  have isTest := test.disjunction_eq ends
  refine ⟨⟨_, _, compiles⟩, ?_, fun tested after called after' isTested isCalled => ?_⟩
  · cases promoted : x.promote? ctx.env.classes .exactly element with
    | some item =>
        have compiles := isTest.trans
          (lift_eq (Expr.isContained_of_promoted isSequence promoted) stop)
        exact iff_of_true ⟨_, _, compiles⟩ rfl
    | none =>
        have refused := isTest.trans
          (lift_error (Expr.isContained_of_none isSequence promoted) stop)
        refine iff_of_false ?_ (by simp)
        rintro ⟨tested, after, isTested⟩
        cases refused.symm.trans isTested
  · obtain ⟨rfl, -⟩ := EStateM.Result.ok.inj (compiles.symm.trans isCalled)
    cases made : Expr.isContained ctx.env.classes op x c with
    | ok result =>
        obtain ⟨rfl, -⟩ := EStateM.Result.ok.inj
          ((isTest.trans (lift_eq made stop)).symm.trans isTested)
        exact Expr.containedAlike isSequence made same
    | error error => cases (isTest.trans (lift_error made stop)).symm.trans isTested

section Words

variable {params : List Parameter} {p q : Parameter} {depth : Nat} {word : String}

/-- The name of a parameter is an argument. -/
theorem readsArgument_name (names : ctx.Names params) (isParam : p ∈ params)
    (begins : opening.Begins [.openParen, .name p.name, .closeParen] next rest) :
    ReadsArgument (ctx.expression (depth + 1)) opening (.parameter p) next rest := by
  refine @ReadsArgument.of_begins _ _ _ _ _ _ [] begins nofun ?_
  intro token rest' close rest'' inside closes
  obtain ⟨isName, behind⟩ := inside.single
  have loose : close.kind.grip ≤ 0 := closes ▸ Nat.le_refl 0
  exact expression_of_unary (levelAt_name_eq (n := 8) names isParam isName behind
    (TokenKind.opensSuffix_of_grip (Nat.le_trans loose (by decide))) (by decide) (by decide)
    .of_unary) loose

/-- A parameter is looked for in another one by their names. -/
theorem ReadsContained.of_names {sequence : Token} (names : ctx.Names params) (p_param : p ∈ params)
    (q_param : q ∈ params) (p_name : start.current.word = .name p.name)
    (isMembership : op.isWord "in" = true) (isOperand : op.kind.opensSuffix = false)
    (ends : Ends 3 op) (q_name : sequence.word = .name q.name)
    (behind : start.rest = op :: sequence :: next :: rest)
    (noSuffix : next.kind.opensSuffix = false) :
    ctx.ReadsContained expression start op (.parameter p) (.parameter q)
      (start.moveTo next rest) := by
  have value : ctx.bits expression start =
      .ok (.parameter p) (start.moveTo op (sequence :: next :: rest)) :=
    levelAt_name_eq (n := 3) names p_param p_name behind isOperand (by decide) (by decide) ends
  exact .intro value rfl isMembership rfl (congrArg Word.kind q_name)
    (primary_name_eq names q_param q_name rfl noSuffix)

end Words

section Example

/-- An integer of 32 bits and integers of 64 bits. -/
def longsParams : List Parameter := [⟨0, "n", .int32⟩, ⟨1, "xs", .array .int64⟩]

theorem plainEnvironment_canName_longs : plainEnvironment.CanName longsParams :=
  .of_isNone (by decide +kernel) (by decide +kernel) (by decide +kernel)

/-- The tokens of `n in xs` behind the first one. -/
def longsTest : List Token :=
  [⟨.identifier, "in", 2⟩, ⟨.identifier, "xs", 5⟩, ⟨.finish, "", 7⟩]

/-- The tokens of `xs.Contains(n)` behind the first one. -/
def longsCall : List Token :=
  [⟨.dot, ".", 2⟩, ⟨.identifier, "Contains", 3⟩, ⟨.openParen, "(", 11⟩, ⟨.identifier, "n", 12⟩,
    ⟨.closeParen, ")", 13⟩, ⟨.finish, "", 14⟩]

/-- An integer of 32 bits is widened for the test, and it is among integers of 64 bits for the test
if and only if it is for the call. -/
theorem membership_means_contains_longs :
    let n : Expr := .parameter ⟨0, "n", .int32⟩
    let xs : Expr := .parameter ⟨1, "xs", .array .int64⟩
    ∃ ctx test call,
      CompileContext.of plainEnvironment longsParams [] = .ok ctx ∧
        Session.start (Scan.ofText "n in xs" '.') longsParams .initial = .ok test ∧
        Session.start (Scan.ofText "xs.Contains(n)" '.') longsParams .initial = .ok call ∧
        ∃ tested after called after', ctx.disjunction (ctx.expression 1) test = .ok tested after ∧
          ctx.disjunction (ctx.expression 1) call = .ok called after' ∧
            ∀ values v items, n.HasValue values v → xs.itemsFor .contains values = .ok items →
              (∀ w ∈ items, w.conformsTo .int64 = true) →
                ∃ holds, tested.evaluate values = .ok (.boolean holds) ∧
                  called.evaluate values = .ok (.boolean holds) := by
  intro n xs
  obtain ⟨ctx, context, isPlain, names⟩ := plainEnvironment_canName_longs.exists_context
  have n_param : ⟨0, "n", .int32⟩ ∈ longsParams := by simp [longsParams]
  have xs_param : ⟨1, "xs", .array .int64⟩ ∈ longsParams := by simp [longsParams]
  have ends {position : Nat} : Ends 1 ⟨.finish, "", position⟩ :=
    .of_grip (Nat.le_refl 1) (Nat.zero_le 1)
  have test : ctx.ReadsContained (ctx.expression 1) (namedSession "n" longsTest)
      ⟨.identifier, "in", 2⟩ n xs ((namedSession "n" longsTest).moveTo ⟨.finish, "", 7⟩ []) :=
    .of_names names n_param xs_param rfl (by decide) rfl
      ⟨fun low => absurd low (by decide), by decide⟩ rfl rfl rfl
  have isOperation : ctx.sequenceOperation? (.value xs) "Contains" = some (xs, .contains, .int64) :=
    sequenceOperation?_eq rfl (isPlain ▸ by decide +kernel) (by decide +kernel) rfl
  let opening := (namedSession "xs" longsCall).moveTo ⟨.openParen, "(", 11⟩ (longsCall.drop 3)
  have call : ctx.ReadsCall (ctx.expression 1) (namedSession "xs" longsCall) xs .contains .int64
      opening := .of_names names xs_param rfl rfl rfl rfl rfl isOperation
  have argument : ReadsArgument (ctx.expression 1) (insideCall .contains opening .int64) n
      ⟨.finish, "", 14⟩ [] :=
    readsArgument_name names n_param
      ⟨[⟨.openParen, "(", 11⟩, ⟨.identifier, "n", 12⟩, ⟨.closeParen, ")", 13⟩], rfl, rfl⟩
  obtain ⟨⟨called, after', isCalled⟩, compiles, alike⟩ :=
    membership_means_contains test ends call argument rfl ends
  obtain ⟨tested, after, isTested⟩ := compiles.mpr rfl
  refine ⟨ctx, _, _, context, start_eq (by decide +kernel) (by decide +kernel) rfl,
    start_eq (by decide +kernel) (by decide +kernel) rfl, tested, after, called, after', isTested,
    isCalled, ?_⟩
  intro values v items n_value isItems conform
  have enters : n.EntersUnchanged ctx.env.classes .int64 :=
    .promoted (fun _ => Ty.undeclared_of_class? rfl) nofun nofun
  obtain ⟨same, isBoolean⟩ := (alike tested after called after' isTested isCalled).unchanged enters
    n_value n_value.1 fun _ items' isItems' => by
      obtain rfl := Except.ok.inj (isItems.symm.trans isItems')
      exact conform
  obtain ⟨holds, isHolds⟩ := isBoolean items isItems
  exact ⟨holds, isHolds, same ▸ isHolds⟩

end Example

end CompileContext

end QueryTree
