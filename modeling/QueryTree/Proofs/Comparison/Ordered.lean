import QueryTree.Proofs.Comparison.Text
import QueryTree.Proofs.Evaluate.Declared

/-!
# Orderings of unordered operands

Which operands the orderings in compiled trees have.  The built-in orderings are made for numbers,
characters, texts, moments and spans of time.
-/

namespace QueryTree

namespace Ty

/-- Whether the built-in orderings are made for a type, with or without null. -/
def isOrdered (t : Ty) : Bool :=
  t.isNumeric || t.core == .char || t.core == .string || t.core == .dateTime || t.core == .timeSpan

variable {t u : Ty}

theorem isOrdered_of_core (cores : (t.core == u.core) = true) : t.isOrdered = u.isOrdered := by
  have atom (a : Ty) : (t.core == a) = (u.core == a) := by
    refine Bool.eq_iff_iff.mpr ⟨fun same => ?_, fun same => ?_⟩
    · exact BEq.trans (BEq.symm cores) same
    · exact BEq.trans cores same
  rw [isOrdered, isOrdered, isNumeric_core cores, atom, atom, atom, atom]

theorem isOrdered_same (same : (t == u) = true) : t.isOrdered = u.isOrdered :=
  isOrdered_of_core (core_same same)

theorem SameKind.isOrdered_eq (same : t.SameKind u) : t.isOrdered = u.isOrdered := by
  obtain cores | ⟨t_number, u_number⟩ := same
  · exact isOrdered_of_core cores
  · simp [isOrdered, t_number, u_number]

theorem isOrdered_of_relational (member : [t, t] ∈ OperatorGroup.relational.signatures) :
    t.isOrdered = true :=
  List.all_eq_true.mp (show OperatorGroup.relational.allPairs (fun t _ => t.isOrdered) = true from
    rfl) _ member

theorem isOrdered_class {c : ClassRef} (isClass : t.core = .cls c) : t.isOrdered = false := by
  simp [isOrdered, isNumeric, isClass]
  exact ⟨⟨⟨rfl, rfl⟩, rfl⟩, rfl⟩

/-- The types that texts are read as, and that no ordering is made for. -/
theorem unordered_of_reads {text : String} {v : Value} (reads : Value.ofText t text = .read v)
    (unordered : t.isOrdered = false) : t.core = .boolean ∨ t.core = .guid := by
  unfold Value.ofText at reads
  split at reads
  next => cases reads
  next read isReader =>
    unfold Value.reader? at isReader
    split at isReader
    next core => exact .inl core
    next core => simp [isOrdered, core] at unordered
    next core => simp [isOrdered, isNumeric, core, Atom.isNumeric] at unordered
    next core => simp [isOrdered, isNumeric, core, Atom.isNumeric] at unordered
    next core => simp [isOrdered, isNumeric, core, Atom.isNumeric] at unordered
    next core => simp [isOrdered, isNumeric, core, Atom.isNumeric] at unordered
    next core => simp [isOrdered, core] at unordered
    next core => exact .inr core
    next => cases isReader

end Ty

namespace Expr

variable {table : ClassTable} {operator : BinaryOp} {op : Token} {x y left right : Expr}

/-- Two operands of an ordering that no ordering is made for, by how they came about. -/
inductive OrdersUnordered (table : ClassTable) : Expr → Expr → Prop where
  /-- A constant text that is read as a truth value or an identifier, beside another one. -/
  | textRight {left : Expr} {text value}
      (unordered : left.type.core = .boolean ∨ left.type.core = .guid)
      (reads : Value.ofText left.type text = .read value) :
      OrdersUnordered table left (.ofValue left.type value)
  | textLeft {right : Expr} {text value}
      (unordered : right.type.core = .boolean ∨ right.type.core = .guid)
      (reads : Value.ofText right.type text = .read value) :
      OrdersUnordered table (.ofValue right.type value) right
  /-- A member of an enumeration that is promoted to another type, beside a value of that type. -/
  | memberRight {left member right : Expr} (isMember : member.type.isEnum = true)
      (noMember : left.type.isEnum = false) (unordered : left.type.isOrdered = false)
      (promotes : member.promote? table .exactly left.type = some right) :
      OrdersUnordered table left right
  | memberLeft {left member right : Expr} (isMember : member.type.isEnum = true)
      (noMember : right.type.isEnum = false) (unordered : right.type.isOrdered = false)
      (promotes : member.promote? table .exactly right.type = some left) :
      OrdersUnordered table left right
  /-- An object that declares a conversion to texts, in place of a text. -/
  | objectLeft {left right : Expr}
      (converts : left.type.hasDeclaredConversion table .string false = true) :
      OrdersUnordered table left right
  | objectRight {left right : Expr}
      (converts : right.type.hasDeclaredConversion table .string false = true) :
      OrdersUnordered table left right

theorem unordered_of_core {t : Ty} (core : t.core = .boolean ∨ t.core = .guid) :
    t.isOrdered = false := by
  obtain core | core := core
  · simp [Ty.isOrdered, Ty.isNumeric, core, Atom.isNumeric]; decide
  · simp [Ty.isOrdered, Ty.isNumeric, core, Atom.isNumeric]; decide

/-- Only a class declares a conversion to texts. -/
theorem unordered_of_declared {t : Ty}
    (declared : t.hasDeclaredConversion table .string false = true) : t.isOrdered = false := by
  cases isClass : t.core.class? with
  | some c => exact Ty.isOrdered_class (Ty.eq_cls_of_class? isClass)
  | none =>
      rw [Ty.hasDeclaredConversion_of_undeclared (Ty.undeclared_of_class? isClass)
        (Ty.undeclared_of_class? rfl)] at declared
      cases declared

theorem OrdersUnordered.unordered (unordered : OrdersUnordered table left right) :
    left.type.isOrdered = false ∨ right.type.isOrdered = false := by
  cases unordered with
  | textRight unordered => exact .inl (unordered_of_core unordered)
  | textLeft unordered => exact .inr (unordered_of_core unordered)
  | memberRight _ _ unordered => exact .inl unordered
  | memberLeft _ _ unordered => exact .inr unordered
  | objectLeft converts => exact .inl (unordered_of_declared converts)
  | objectRight converts => exact .inr (unordered_of_declared converts)

/-- Two operands of which one is a member of an enumeration are both brought to an enumeration type,
or the member is promoted to the type of the other operand. -/
theorem alignEnums_eq_ok (isMember : x.type.isEnum = true ∨ y.type.isEnum = true)
    (outcome : alignEnums table op x y = .ok (left, right)) :
    (left.type.isEnum = true ∧ right.type.isEnum = true) ∨
      (y.type.isEnum = true ∧ left.type.isEnum = false ∧
        y.promote? table .exactly left.type = some right) ∨
      (x.type.isEnum = true ∧ right.type.isEnum = false ∧
        x.promote? table .exactly right.type = some left) := by
  cases enumsAligned outcome with
  | same same =>
      have alike := Ty.isEnum_same same
      refine .inl ?_
      obtain isMember | isMember := isMember
      · exact ⟨isMember, alike ▸ isMember⟩
      · exact ⟨alike ▸ isMember, isMember⟩
  | promotedRight promotes =>
      have alike := Ty.isEnum_same (promote?_type (.inl rfl) promotes)
      cases noMember : x.type.isEnum with
      | true => exact .inl ⟨rfl, by rw [alike, noMember]⟩
      | false => exact .inr (.inl ⟨by simpa [noMember] using isMember, rfl, promotes⟩)
  | promotedLeft promotes =>
      have alike := Ty.isEnum_same (promote?_type (.inl rfl) promotes)
      cases noMember : y.type.isEnum with
      | true => exact .inl ⟨by rw [alike, noMember], rfl⟩
      | false => exact .inr (.inr ⟨by simpa [noMember] using isMember, rfl, promotes⟩)
  | memberRight isEnum taken =>
      obtain ⟨enum, n, -, rfl⟩ := enumConstant_eq_ok taken
      exact .inl ⟨isEnum, isEnum⟩
  | memberLeft isEnum taken =>
      obtain ⟨enum, n, -, rfl⟩ := enumConstant_eq_ok taken
      exact .inl ⟨isEnum, isEnum⟩

/-- The number of a member of an enumeration is ordered. -/
theorem isOrdered_toUnderlying {e : Expr} (isMember : e.type.isEnum = true) :
    e.toUnderlying.type.isOrdered = true := by
  obtain ⟨enum, isEnum⟩ := Option.isSome_iff_exists.mp isMember
  have core : e.toUnderlying.type.core = .integral enum.underlying := by
    rw [toUnderlying, isEnum]
    change (if e.type.isNullable then enum.underlyingType.lift else enum.underlyingType).core = _
    split
    next => rw [Ty.core_lift, core_underlyingType]
    next => exact core_underlyingType enum
  simp [Ty.isOrdered, Ty.isNumeric, core, Atom.isNumeric]

/-- An operand of a built-in ordering has an ordered type, unless it is of a class that declares a
conversion to texts. -/
theorem ordered_of_promote? {t : Ty} {e promoted : Expr}
    (isSignature : [t, t] ∈ OperatorGroup.relational.signatures)
    (outcome : e.promote? table .argument t = some promoted) :
    promoted.type.isOrdered = true ∨
      promoted.type.hasDeclaredConversion table .string false = true := by
  have isOrdered := Ty.isOrdered_of_relational isSignature
  have operand := OperatorGroup.isOperandType_of_mem _ isSignature List.mem_cons_self
  cases declared : e.type.hasDeclaredConversion table .string false with
  | false => exact .inl (OperatorGroup.type_of_promote? operand declared outcome ▸ isOrdered)
  | true =>
      obtain ⟨rfl, same⟩ | ⟨_, _, -, rfl⟩ | ⟨rfl, -⟩ | ⟨rfl, -⟩ := promote?_cases outcome
      · exact .inl (Ty.isOrdered_same same ▸ isOrdered)
      · exact .inl isOrdered
      · exact .inl isOrdered
      · exact .inr declared

theorem aligned_ordered (isMember : x.type.isEnum = true ∨ y.type.isEnum = true)
    (aligned : alignEnums table op x y = .ok (left, right)) :
    (left.toUnderlying.type.isOrdered = true ∧ right.toUnderlying.type.isOrdered = true) ∨
      OrdersUnordered table left.toUnderlying right.toUnderlying := by
  obtain ⟨left_member, right_member⟩ | ⟨isMember, noMember, promotes⟩ |
    ⟨isMember, noMember, promotes⟩ := alignEnums_eq_ok isMember aligned
  · exact .inl ⟨isOrdered_toUnderlying left_member, isOrdered_toUnderlying right_member⟩
  · have same := promote?_type (.inl rfl) promotes
    rw [toUnderlying_of_noMember noMember,
      toUnderlying_of_noMember ((Ty.isEnum_same same).trans noMember)]
    cases isOrdered : left.type.isOrdered with
    | true => exact .inl ⟨rfl, (Ty.isOrdered_same same).trans isOrdered⟩
    | false => exact .inr (.memberRight isMember noMember isOrdered promotes)
  · have same := promote?_type (.inl rfl) promotes
    rw [toUnderlying_of_noMember noMember,
      toUnderlying_of_noMember ((Ty.isEnum_same same).trans noMember)]
    cases isOrdered : right.type.isOrdered with
    | true => exact .inl ⟨(Ty.isOrdered_same same).trans isOrdered, rfl⟩
    | false => exact .inr (.memberLeft isMember noMember isOrdered promotes)

/-- A text that is read as a value of a type, beside a value of this type. -/
theorem read_ordered {position : Nat} {type : Ty} {e read : Expr}
    (outcome : e.readText? type position = .ok (some read)) :
    (type.isOrdered = true ∧ read.type.isOrdered = true) ∨
      ∃ text value, (type.core = .boolean ∨ type.core = .guid) ∧
        Value.ofText type text = .read value ∧ read = .ofValue type value := by
  obtain ⟨text, value, -, reads, rfl⟩ := readText?_eq_ok outcome
  cases isOrdered : type.isOrdered with
  | true => exact .inl ⟨rfl, isOrdered⟩
  | false => exact .inr ⟨text, value, Ty.unordered_of_reads reads isOrdered, reads, rfl⟩

theorem compareValues_ordered {c : Compared} (isOrdering : operator.isEquality = false)
    (outcome : compareValues table operator op x y = .ok c) (calls : c.method = none) :
    (c.left.type.isOrdered = true ∧ c.right.type.isOrdered = true) ∨
      OrdersUnordered table c.left c.right := by
  cases valuesCompared outcome with
  | textRight read =>
      obtain ordered | ⟨text, value, unordered, reads, rfl⟩ := read_ordered read
      · exact .inl ordered
      · exact .inr (.textRight unordered reads)
  | textLeft read =>
      obtain ordered | ⟨text, value, unordered, reads, rfl⟩ := read_ordered read
      · exact .inl ordered.symm
      · exact .inr (.textLeft unordered reads)
  | declared => cases calls
  | builtIn operands =>
      rw [isOrdering] at operands
      obtain ⟨t, u, isSignature, left_eq, right_eq⟩ := OperatorGroup.operands_eq_ok operands
      obtain ⟨_, alike⟩ := OperatorGroup.pair_of_signature rfl isSignature
      obtain ⟨rfl, alike⟩ := List.cons.inj alike
      obtain ⟨rfl, -⟩ := List.cons.inj alike
      obtain left_ordered | converts := ordered_of_promote? isSignature left_eq
      · obtain right_ordered | converts := ordered_of_promote? isSignature right_eq
        · exact .inl ⟨left_ordered, right_ordered⟩
        · exact .inr (.objectRight converts)
      · exact .inr (.objectLeft converts)

/-- The operands of an ordering that calls no method are ordered, or they came about otherwise. -/
theorem compared_ordered {c : Compared} (isOrdering : operator.isEquality = false)
    (outcome : compared table operator op x y = .ok c) (calls : c.method = none) :
    (c.left.type.isOrdered = true ∧ c.right.type.isOrdered = true) ∨
      OrdersUnordered table c.left c.right := by
  cases operandsCompared outcome with
  | references isEquality | members isEquality =>
      exact absurd isEquality (by simp [isOrdering])
  | integers _ isMember aligned => exact aligned_ordered isMember aligned
  | values outcome => exact compareValues_ordered isOrdering outcome calls

section Text

/-- Types that texts are read as are simple types of values. -/
theorem exists_atom_of_reads {t : Ty} {text : String} {v : Value}
    (reads : Value.ofText t text = .read v) :
    ∃ a : Atom, a.isValue = true ∧ (t = .atom a ∨ t = .nullable (.atom a)) := by
  have core : ∃ a : Atom, a.isValue = true ∧ t.core = .atom a := by
    unfold Value.ofText at reads
    split at reads
    next => cases reads
    next read isReader =>
      unfold Value.reader? at isReader
      split at isReader
      any_goals exact ⟨_, rfl, ‹_›⟩
      cases isReader
  obtain ⟨a, isValue, core⟩ := core
  refine ⟨a, isValue, ?_⟩
  cases t with
  | atom => exact .inl core
  | nullable inner => exact .inr (congrArg Ty.nullable core)
  | _ => cases core

theorem isOperand_of_atom {t : Ty} {a : Atom} (isValue : a.isValue = true)
    (isAtom : t = .atom a ∨ t = .nullable (.atom a)) : t.isOperand = true := by
  obtain rfl | rfl := isAtom
  · cases a <;> first | rfl | cases isValue
  · exact isValue

/-- The ordered types of values are the operand types of an ordering and the narrow types. -/
theorem relational_or_narrow {t : Ty} {a : Atom} (isValue : a.isValue = true)
    (isAtom : t = .atom a ∨ t = .nullable (.atom a)) (isOrdered : t.isOrdered = true) :
    [t, t] ∈ OperatorGroup.relational.signatures ∨ t ∈ Ty.narrowTypes := by
  cases a with
  | object | string | type | dynamic => cases isValue
  | boolean | guid => obtain rfl | rfl := isAtom <;> exact absurd isOrdered (by decide)
  | integral kind =>
      obtain rfl | rfl := isAtom <;> cases kind <;>
        simp [OperatorGroup.signatures, OperatorGroup.pairs, OperatorGroup.withNullable,
          OperatorGroup.arithmeticTypes, Ty.narrowTypes, Ty.lift, Ty.isNullable, Ty.isValue,
          Atom.isValue]
  | _ =>
      obtain rfl | rfl := isAtom <;>
        simp [OperatorGroup.signatures, OperatorGroup.pairs, OperatorGroup.withNullable,
          OperatorGroup.arithmeticTypes, Ty.lift, Ty.isNullable, Ty.isValue, Atom.isValue]

/-- A constant text is read as a value of the type beside it, whatever the operator. -/
theorem comparison_text {text : String} {value : Value} (isText : y.type = .string)
    (text_eq : y.text? = some text) (reads : Value.ofText x.type text = .read value) :
    comparison table operator op x y =
      .ok (binary .boolean operator x (ofValue x.type value) none) := by
  obtain ⟨a, isValue, isAtom⟩ := exists_atom_of_reads reads
  have x_value : x.type.isValue = true := by
    obtain same | same := isAtom <;> rw [same]
    · exact isValue
    · rfl
  have x_noMember : x.type.isEnum = false := by obtain same | same := isAtom <;> rw [same] <;> rfl
  have noGuid : (y.type == .guid) = false := isText ▸ rfl
  have noMember : (x.type.isEnum || y.type.isEnum) = false := by rw [x_noMember, isText]; rfl
  have read : y.readText? x.type op.position = .ok (some (ofValue x.type value)) := by
    rw [readText?, text_eq]
    simp only [reads]
  simp only [comparison, compared, compareValues, x_value, noGuid, noMember, read, Bool.not_true,
    Bool.false_and, Bool.and_false, Bool.or_self, Bool.false_eq_true, if_false]
  rfl

theorem operands_of_one_type {group : OperatorGroup}
    (compares : group = .equality ∨ group = .relational) {symbol : String} {position : Nat}
    (known : [x.type, x.type] ∈ group.signatures ∨ x.type ∈ Ty.narrowTypes)
    (same : y.type = x.type) (isWritten : y.isNullConstant = false) :
    ∃ pair, group.operands table symbol position x y = .ok pair := by
  obtain isSignature | narrow := known
  · exact ⟨_, OperatorGroup.operands_exact isSignature BEq.rfl (same ▸ BEq.rfl)⟩
  · obtain ⟨left, right, accepted, -⟩ := OperatorGroup.operands_narrow compares table symbol
      position narrow same (.inr isWritten)
    exact ⟨_, accepted⟩

theorem isOrdered_of_operands {symbol : String} {position : Nat} {pair : Expr × Expr}
    (isWritten : y.isNullConstant = false) (undeclared : y.type.Undeclared table)
    (accepted : OperatorGroup.relational.operands table symbol position x y = .ok pair) :
    y.type.isOrdered = true := by
  obtain ⟨t, u, isSignature, -, right_eq⟩ := OperatorGroup.operands_eq_ok accepted
  obtain ⟨_, alike⟩ := OperatorGroup.pair_of_signature rfl isSignature
  obtain ⟨rfl, alike⟩ := List.cons.inj alike
  obtain ⟨rfl, -⟩ := List.cons.inj alike
  have isOperand := OperatorGroup.isOperandType_of_mem _ isSignature List.mem_cons_self
  rw [(sameKind_of_promote? isWritten undeclared isOperand right_eq).isOrdered_eq]
  exact Ty.isOrdered_of_relational isSignature

/-- Values of one simple type are compared if the operator accepts their type. -/
theorem exists_comparison_values {group : OperatorGroup}
    (isGroup : (if operator.isEquality then OperatorGroup.equality else .relational) = group)
    (simple : x.type.isSimple = true) (isValue : x.type.isValue = true) (same : y.type = x.type)
    (x_noText : x.text? = none) (y_noText : y.text? = none)
    (noGuid : (operator.isEquality && x.type == .guid) = false) :
    (∃ e, comparison table operator op x y = .ok e) ↔
      ∃ pair, group.operands table op.text op.position x y = .ok pair := by
  have noMember : x.type.isEnum = false := Ty.isEnum_of_isSimple simple
  have noOperator : hasOperator table x.type operator = false := by
    unfold hasOperator
    generalize x.type = t at simple
    cases t with
    | atom => rfl
    | nullable inner => cases inner <;> first | rfl | cases simple
    | _ => cases simple
  have values : compared table operator op x y = compareValues table operator op x y := by
    simp only [compared, same, isValue, noMember, Bool.not_true, Bool.and_self, Bool.false_or,
      noGuid, Bool.or_self, Bool.false_eq_true, if_false]
  rw [comparison, values, compareValues_unread isGroup (unreadable_of_text? x_noText)
    (unreadable_of_text? y_noText), noOperator, Bool.and_false, if_neg Bool.false_ne_true]
  cases group.operands table op.text op.position x y with
  | error error =>
      refine iff_of_false ?_ ?_
      · rintro ⟨e, ⟨⟩⟩
      · rintro ⟨pair, ⟨⟩⟩
  | ok pair => exact iff_of_true ⟨_, rfl⟩ ⟨_, rfl⟩

/-- Two values of a type that texts are read as are always tested for equality, but they are
ordered only if the type is. -/
theorem comparison_variable {text : String} {value : Value} (noText : x.text? = none)
    (isVariable : y.isConstant = false) (same : (y.type == x.type) = true)
    (reads : Value.ofText x.type text = .read value) :
    (∃ e, comparison table operator op x y = .ok e) ↔
      operator.isEquality = true ∨ x.type.isOrdered = true := by
  obtain ⟨a, isValue, isAtom⟩ := exists_atom_of_reads reads
  have simple : x.type.isSimple = true := by obtain same | same := isAtom <;> rw [same] <;> rfl
  have isOperand : x.type.isOperand = true := isOperand_of_atom isValue isAtom
  have x_value : x.type.isValue = true := by
    obtain same | same := isAtom <;> rw [same]
    · exact isValue
    · rfl
  have type_eq : y.type = x.type := Ty.eq_of_same simple same
  have noConstant : y.value? = none := by simpa [isConstant] using isVariable
  have y_noText : y.text? = none := by rw [text?, noConstant]; rfl
  have isWritten : y.isNullConstant = false := by rw [isNullConstant, noConstant]; rfl
  cases isEquality : operator.isEquality with
  | true =>
      refine iff_of_true ?_ (.inl rfl)
      cases isGuid : x.type == .guid with
      | true =>
          simp only [comparison, compared, isEquality, type_eq, isGuid, Bool.and_self, Bool.or_true,
            if_true, compareReferences_of_same (BEq.symm same)]
          exact ⟨_, rfl⟩
      | false =>
          have known := signature_or_narrow isOperand x_value (Ty.isEnum_of_isSimple simple)
          exact (exists_comparison_values (by rw [isEquality]; rfl) simple x_value type_eq noText
            y_noText (by rw [isGuid, Bool.and_false])).mpr
              (operands_of_one_type (.inl rfl) known type_eq isWritten)
  | false =>
      have isGroup : (if operator.isEquality then OperatorGroup.equality else .relational) =
          .relational := by rw [isEquality]; rfl
      rw [exists_comparison_values isGroup simple x_value type_eq noText y_noText
        (by rw [isEquality, Bool.false_and])]
      refine ⟨?_, fun isOrdered => ?_⟩
      · rintro ⟨pair, accepted⟩
        refine .inr ?_
        rw [← type_eq]
        refine isOrdered_of_operands isWritten (Ty.undeclared_of_class? ?_) accepted
        obtain same | same := isAtom <;> simp [type_eq, same, Ty.core, Ty.class?]
      · have known := relational_or_narrow isValue isAtom (by simpa using isOrdered)
        exact operands_of_one_type (.inr rfl) known type_eq isWritten

end Text

/-- Both operands of an ordering that calls no method are ordered, except where the operands of an
unordered type came about otherwise. -/
def OrdersOrdered (table : ClassTable) (node : Expr) : Prop :=
  ∀ type op left right, node = .binary type op left right none → op.isComparison = true →
    op.isEquality = false →
      (left.type.isOrdered = true ∧ right.type.isOrdered = true ↔
        ¬ OrdersUnordered table left right)

end Expr

theorem nodesKeep_ordersOrdered (ctx : CompileContext) (tokens : List Token) :
    ctx.NodesKeep tokens (Expr.OrdersOrdered ctx.env.classes) := by
  apply CompileContext.NodesKeep.of_operations
  case other =>
    rintro node isOther type op left right rfl
    cases isOther
  case operation =>
    rintro type op left right noOrdering _ _ _ _ ⟨⟩ isComparison isOrdering
    rw [noOrdering isComparison] at isOrdering
    cases isOrdering
  case comparison =>
    rintro token op left right e isOperator outcome type op' l r rfl - isOrdering
    obtain ⟨c, compared, same⟩ := bind_eq_ok_iff.mp outcome
    obtain ⟨rfl, rfl, rfl, rfl, calls⟩ := Expr.binary.inj (pure_eq_ok_iff.mp same)
    obtain ordered | unordered := Expr.compared_ordered isOrdering compared calls
    · refine iff_of_true ordered fun unordered => ?_
      obtain isUnordered | isUnordered := unordered.unordered
      · simp [ordered.1] at isUnordered
      · simp [ordered.2] at isUnordered
    · refine iff_of_false (fun ordered => ?_) (not_not.mpr unordered)
      obtain isUnordered | isUnordered := unordered.unordered
      · simp [ordered.1] at isUnordered
      · simp [ordered.2] at isUnordered
  case call =>
    rintro (type | receiver) _ _ _ _ _ _ _ _ _ ⟨⟩

/-- In every compiled tree the built-in orderings have ordered operands, with these exceptions; and
a constant text is ordered beside every value of a type that it is read as, even where two values
of this type are not. -/
theorem Environment.orderings_compiled (env : Environment) :
    (∀ e, env.Compiles e → e.Everywhere (Expr.OrdersOrdered env.classes)) ∧
      ∀ (operator : BinaryOp) (op : Token) (x y z : Expr) (text : String) (value : Value),
        x.text? = none → y.type = .string → y.text? = some text → z.isConstant = false →
          (z.type == x.type) = true → Value.ofText x.type text = .read value →
            (∃ e, Expr.comparison env.classes operator op x y = .ok e) ∧
              ((∃ e, Expr.comparison env.classes operator op x z = .ok e) ↔
                operator.isEquality = true ∨ x.type.isOrdered = true) := by
  refine ⟨fun e compiles => ?_, ?_⟩
  · exact compiles.everywhere fun ctx tokens isEnv => isEnv ▸ nodesKeep_ordersOrdered ctx tokens
  · intro operator op x y z text value noText isText text_eq isVariable same reads
    exact ⟨⟨_, Expr.comparison_text isText text_eq reads⟩,
      Expr.comparison_variable noText isVariable same reads⟩

section Example

/-- Whether a function orders a truth value and a constant. -/
def ordersTruths : Expr → Bool
  | .lambda _ (.binary _ .lessThan left right none) => left.type == .boolean && right.isConstant
  | _ => false

/-- A truth value. -/
def truth : Parameter := ⟨0, "b", .boolean⟩

/-- Another truth value. -/
def otherTruth : Parameter := ⟨1, "c", .boolean⟩

/-- The ordering in `b < "true"`, and that of two truth values. -/
theorem orderings_compiled_truths : ∃ e,
    plainEnvironment.Compiles e ∧ ordersTruths e = true ∧
      e.Everywhere (Expr.OrdersOrdered plainEnvironment.classes) ∧
      (∃ test, Expr.comparison plainEnvironment.classes .lessThan ⟨.lessThan, "<", 2⟩
        (.parameter truth) (.constant .string (.string "true") (some "true")) = .ok test) ∧
      ¬ ∃ test, Expr.comparison plainEnvironment.classes .lessThan ⟨.lessThan, "<", 2⟩
        (.parameter truth) (.parameter otherTruth) = .ok test := by
  obtain ⟨orderings, texts⟩ := Environment.orderings_compiled plainEnvironment
  obtain ⟨e, outcome, orders⟩ := exists_ok_of_any
    (show (compileFunction plainEnvironment [truth] none "b < \"true\"" [] .initial).1.toOption.any
      ordersTruths = true by decide +kernel)
  have compiles : plainEnvironment.Compiles e := .function (by simp) outcome
  obtain ⟨compared, ordered⟩ := texts .lessThan ⟨.lessThan, "<", 2⟩ (.parameter truth)
    (.constant .string (.string "true") (some "true")) (.parameter otherTruth) "true"
    (.boolean true) rfl rfl rfl rfl rfl rfl
  exact ⟨e, compiles, orders, orderings e compiles, compared, fun accepted =>
    absurd (ordered.mp accepted) (by decide)⟩

/-- `b < "true"` compiles, and `b < c` does not. -/
theorem truths_ordered_beside_text :
    (∃ e, (compileFunction plainEnvironment [truth] none "b < \"true\"" [] .initial).1 = .ok e ∧
      ordersTruths e = true) ∧
      ∃ error, (compileFunction plainEnvironment [truth, otherTruth] none "b < c" [] .initial).1 =
        .error error :=
  ⟨exists_ok_of_any (by decide +kernel), exists_error_of_isNone (by decide +kernel)⟩

end Example

end QueryTree
