import QueryTree.Proofs.Conversion.Implicit
import QueryTree.Proofs.Integral.Arithmetic
import QueryTree.Proofs.Integral.Shift
import QueryTree.Proofs.Print.RoundTrip

/-!
# Bits of integers

Two integers whose bits are joined are converted before to the first of their widths in a fixed
order.  The bits are joined as those of the integers without bound, but the conversion is an
overflow for an integer that the width has no room for, such as a negative one beside an integer of
as many bits without a sign.
-/

namespace QueryTree

namespace IntKind

/-- The type of the integers of a width, with null or without it. -/
def type (kind : IntKind) (withNull : Bool) : Ty :=
  if withNull then .nullable (.integral kind) else .integral kind

/-- The width that integers of two widths are converted to. -/
def common (j k : IntKind) : IntKind :=
  (Expr.widestFirst.find? fun kind => kind == j || kind == k).getD j

theorem find?_common (j k : IntKind) :
    Expr.widestFirst.find? (fun kind => kind == j || kind == k) = some (j.common k) := by
  cases j <;> cases k <;> rfl

theorem common_self (kind : IntKind) : kind.common kind = kind := by
  cases kind <;> rfl

theorem core_type (kind : IntKind) (withNull : Bool) :
    (kind.type withNull).core = .integral kind := by
  cases withNull <;> rfl

theorem isSimple_type (kind : IntKind) (withNull : Bool) :
    (kind.type withNull).isSimple = true := by
  cases withNull <;> rfl

theorem type_inj {j k : IntKind} {withNull withNull' : Bool}
    (same : j.type withNull = k.type withNull') : j = k ∧ withNull = withNull' := by
  cases withNull <;> cases withNull' <;> cases same <;> exact ⟨rfl, rfl⟩

theorem commonIntegral?_type (j k : IntKind) (leftNull rightNull : Bool) :
    Expr.commonIntegral? (j.type leftNull) (k.type rightNull) =
      some ((j.common k).type (leftNull || rightNull)) := by
  cases leftNull <;> cases rightNull <;>
    simp [Expr.commonIntegral?, type, Ty.intKind?, Ty.core, find?_common, Ty.isNullable]

/-- The common width has room for the integers of two widths if and only if both widen to it. -/
theorem common_hasRoom_iff (j k : IntKind) :
    ((j.common k).min ≤ j.min ∧ j.max ≤ (j.common k).max) ∧
        ((j.common k).min ≤ k.min ∧ k.max ≤ (j.common k).max) ↔
      (Atom.integral j).widensTo (.integral (j.common k)) = true ∧
        (Atom.integral k).widensTo (.integral (j.common k)) = true := by
  cases j <;> cases k <;> decide

end IntKind

namespace Value

/-- Whether a width has room for a value if it is an integer. -/
def fits (kind : IntKind) (v : Value) : Bool :=
  v.toInt?.all fun n => kind.min ≤ n && n ≤ kind.max

/-- The bits of two integers without bound, joined by an operator. -/
def exactBits (op : BinaryOp) (m n : Int) : Int := if op = .and then m.land n else m.lor n

/-- The bits of two integers joined and truncated to a width, or null if there is none. -/
def joinedBits (op : BinaryOp) (kind : IntKind) (v w : Value) : Value :=
  match v.toInt?, w.toInt? with
  | some m, some n => integral (Integer.wrap kind (exactBits op m n))
  | _, _ => null

variable {v w : Value} {j kind : IntKind} {withNull : Bool} {op : BinaryOp}

/-- Null, or an integer of a width. -/
inductive OfWidth (kind : IntKind) : Value → Prop where
  | null : OfWidth kind null
  | integral {n : Integer} (isKind : n.kind = kind) : OfWidth kind (integral n)

theorem ofWidth_of_conformsTo (conforms : v.conformsTo (kind.type withNull) = true) :
    v.OfWidth kind := by
  cases isNull : v.isNull with
  | true =>
      cases v with
      | null => exact .null
      | _ => cases isNull
  | false =>
      obtain isObject | hasKind := kind_of_conformsTo conforms isNull
      · rw [IntKind.core_type] at isObject
        cases isObject
      · rw [IntKind.core_type] at hasKind
        obtain ⟨n, rfl⟩ := hasKind.ofAtom
        exact .integral (Atom.integral.inj (Ty.atom.inj (Ty.eq_of_same rfl hasKind.2)))

theorem wrapInt_bitsOp (kind : IntKind) (op : BinaryOp) (m n : Int) :
    kind.wrapInt (bitsOp op m n) = kind.wrapInt (exactBits op m n) := by
  unfold bitsOp exactBits
  split
  next => simp only [← BitVec.ofInt_land, kind.wrapInt_toInt_ofInt (Nat.le_refl 64)]
  next => simp only [← BitVec.ofInt_lor, kind.wrapInt_toInt_ofInt (Nat.le_refl 64)]

/-- The bits of two integers of one width, or null. -/
theorem applyBinary_bits (isBits : op = .and ∨ op = .or) (left : v.OfWidth kind)
    (right : w.OfWidth kind) :
    applyBinary op (kind.type withNull) v w = .ok (joinedBits op kind v w) := by
  have isOther : op.isComparison = false := by
    obtain rfl | rfl := isBits <;> rfl
  cases left with
  | null => exact applyBinary_null isOther (.inl rfl)
  | @integral m =>
      cases right with
      | null => exact applyBinary_null isOther (.inr rfl)
      | @integral n =>
          have outcome : applyBinary op (kind.type withNull) (.integral m) (.integral n) =
              bitwise op (kind.type withNull).core (.integral m) (.integral n) := by
            obtain rfl | rfl := isBits <;> rfl
          have joined : Integer.wrap kind (bitsOp op m.val n.val) =
              Integer.wrap kind (exactBits op m.val n.val) :=
            Integer.ext rfl (wrapInt_bitsOp kind op m.val n.val)
          calc applyBinary op (kind.type withNull) (.integral m) (.integral n)
              = bitwise op (.integral kind) (.integral m) (.integral n) := by
                rw [outcome, IntKind.core_type]
            _ = .ok (.integral (Integer.wrap kind (bitsOp op m.val n.val))) := rfl
            _ = .ok (joinedBits op kind (.integral m) (.integral n)) := by
                rw [joined]
                rfl

theorem conformsTo_type (n : Integer) (withNull : Bool) :
    (integral n).conformsTo (n.kind.type withNull) = true :=
  HasKind.conformsTo (by rw [IntKind.core_type]; exact ⟨rfl, BEq.rfl⟩)

theorem convertTo_type (n : Integer) (kind : IntKind) (withNull : Bool) :
    (integral n).convertTo (kind.type withNull) =
      Evaluation.require (.overflow ("conversion to " ++ (kind.type withNull).display))
        (ofInt? (.integral kind) n.val) := by
  by_cases same : n.kind = kind
  · subst same
    rw [convertTo_of_conformsTo (conformsTo_type n withNull), ofInt?_of_inRange n.inRange]
    rfl
  · have other : ((integral n).naturalType == .integral kind) = false :=
      Bool.eq_false_iff.mpr fun isKind =>
        same (Atom.integral.inj (Ty.atom.inj (Ty.eq_of_same rfl isKind)))
    rw [convertTo_eq, IntKind.core_type, other]
    rfl

theorem fits_iff {n : Integer} :
    (integral n).fits kind = true ↔ kind.min ≤ n.val ∧ n.val ≤ kind.max := by
  simp [fits, toInt?]

/-- A width has room for all integers of another one if and only if it has room for the least and
the greatest. -/
theorem forall_fits_iff :
    (∀ n : Integer, n.kind = j → (integral n).fits kind = true) ↔
      kind.min ≤ j.min ∧ j.max ≤ kind.max := by
  have nonempty : j.min ≤ j.max := by cases j <;> decide
  constructor
  · intro all
    have least := fits_iff.mp (all ⟨j, j.min, Int.le_refl _, nonempty⟩ rfl)
    have greatest := fits_iff.mp (all ⟨j, j.max, nonempty, Int.le_refl _⟩ rfl)
    exact ⟨least.1, greatest.2⟩
  · rintro ⟨low, high⟩ n rfl
    exact fits_iff.mpr ⟨Int.le_trans low n.inRange.1, Int.le_trans n.inRange.2 high⟩

theorem OfWidth.fits (ofWidth : v.OfWidth j)
    (hasRoom : ∀ n : Integer, n.kind = j → (Value.integral n).fits kind = true) :
    v.fits kind = true := by
  cases ofWidth with
  | null => rfl
  | integral isKind => exact hasRoom _ isKind

/-- An integer is converted to a width that has room for it, and stays the same number. -/
theorem convertTo_of_fits (withNull : Bool) (ofWidth : v.OfWidth j)
    (hasRoom : v.fits kind = true) :
    ∃ w, v.convertTo (kind.type withNull) = .ok w ∧ w.OfWidth kind ∧ w.toInt? = v.toInt? := by
  cases ofWidth with
  | null => exact ⟨null, rfl, .null, rfl⟩
  | @integral n =>
      refine ⟨.integral ⟨kind, n.val, fits_iff.mp hasRoom⟩, ?_, .integral rfl, rfl⟩
      rw [convertTo_type, ofInt?_of_inRange (fits_iff.mp hasRoom)]
      rfl

/-- No other integer is converted. -/
theorem convertTo_of_not_fits (ofWidth : v.OfWidth j) (noRoom : v.fits kind = false) :
    v.convertTo (kind.type withNull) =
      .error (.overflow ("conversion to " ++ (kind.type withNull).display)) := by
  cases ofWidth with
  | null => cases noRoom
  | @integral n =>
      have outside : ¬ (kind.min ≤ n.val ∧ n.val ≤ kind.max) := by
        rw [← fits_iff, noRoom]
        exact Bool.false_ne_true
      rw [convertTo_type, ofInt?_of_outside outside]
      rfl

end Value

namespace Expr

variable {p q : Parameter} {j k : IntKind} {leftNull rightNull : Bool} {op : BinaryOp}

/-- An expression converted to a type unless it has this type. -/
def convertedTo (target : Ty) (e : Expr) : Expr := if e.type == target then e else convert target e

theorem evaluate_convertedTo {e : Expr} {target : Ty} {ctx : EvalContext} {v : Value}
    (evaluates : e.evaluate ctx = .ok v) (conforms : v.conformsTo e.type = true) :
    (e.convertedTo target).evaluate ctx = v.convertTo target := by
  unfold convertedTo
  split
  next same =>
    rw [evaluates, Value.convertTo_of_conformsTo (Value.conformsTo_same same ▸ conforms)]
  next =>
    rw [evaluate, evaluates]
    rfl

theorem widen_type {left right : Expr} (left_type : left.type = j.type leftNull)
    (right_type : right.type = k.type rightNull) :
    widen left right =
      (left.convertedTo ((j.common k).type (leftNull || rightNull)),
        right.convertedTo ((j.common k).type (leftNull || rightNull))) := by
  unfold widen
  split
  next same =>
    rw [left_type, right_type] at same
    obtain ⟨rfl, rfl⟩ := IntKind.type_inj (Ty.eq_of_same (k.isSimple_type rightNull) same)
    rw [IntKind.common_self, Bool.or_self]
    simp [convertedTo, left_type, right_type]
  next =>
    rw [left_type, right_type, IntKind.commonIntegral?_type]
    simp [convertedTo, left_type, right_type]

theorem type_convertedTo {e : Expr} {target : Ty} (simple : target.isSimple = true) :
    (e.convertedTo target).type = target := by
  unfold convertedTo
  split
  next same => exact Ty.eq_of_same simple same
  next => rfl

theorem toUnderlying_of_type {e : Expr} (e_type : e.type = j.type leftNull) :
    e.toUnderlying = e := by
  rw [toUnderlying, e_type]
  cases leftNull <;> rfl

theorem bitwise_type {token : Token} {left right : Expr} (left_type : left.type = j.type leftNull)
    (right_type : right.type = k.type rightNull) :
    let common := (j.common k).type (leftNull || rightNull)
    bitwise op token left right =
      .ok (binary common op (left.convertedTo common) (right.convertedTo common) none) := by
  intro common
  have simple : common.isSimple = true := IntKind.isSimple_type ..
  have isIntegral : common.isIntegral = true := by
    rw [Ty.isIntegral, Ty.intKind?, IntKind.core_type]
    rfl
  simp only [bitwise, widen_type left_type right_type]
  rw [type_convertedTo simple, type_convertedTo simple, isIntegral, BEq.rfl]
  rfl

/-- The bits of two parameters joined in a type, to which they are converted if need be. -/
def bitsNode (op : BinaryOp) (common : Ty) (p q : Parameter) : Expr :=
  binary common op (convertedTo common (.parameter p)) (convertedTo common (.parameter q)) none

/-- Two parameters of integral types are joined in the common width. -/
theorem joinAt_bits {table : ClassTable} {token : Token} (isBits : op = .and ∨ op = .or)
    (left_type : p.type = j.type leftNull) (right_type : q.type = k.type rightNull) :
    CompileContext.joinAt table op.level op token (.parameter p) (.parameter q) =
      .ok (bitsNode op ((j.common k).type (leftNull || rightNull)) p q) := by
  have left : (parameter p).toUnderlying = .parameter p := toUnderlying_of_type left_type
  have right : (parameter q).toUnderlying = .parameter q := toUnderlying_of_type right_type
  obtain rfl | rfl := isBits
  · have noText : joinsText (.parameter p) (.parameter q) = false := by
      change (p.type.isString || q.type.isString) = false
      rw [left_type, right_type]
      cases leftNull <;> cases rightNull <;> rfl
    change conjunction table token (.parameter p) (.parameter q) = _
    rw [conjunction, left, right]
    -- Neither parameter is a constant text that holds an integer.
    change (if joinsText (.parameter p) (.parameter q) = true then _ else _) = _
    rw [noText]
    exact bitwise_type left_type right_type
  · change disjunction token (.parameter p) (.parameter q) = _
    rw [disjunction, left, right]
    exact bitwise_type left_type right_type

variable {common : Ty} {v w : Value} {now : DateTime}

theorem call_bitsNode (isBits : op = .and ∨ op = .or) (distinct : p.id ≠ q.id)
    (left_conforms : v.conformsTo p.type = true) (right_conforms : w.conformsTo q.type = true) :
    (lambda [p, q] (bitsNode op common p q)).call now [v, w] = (do
      let v ← v.convertTo common
      let w ← w.convertTo common
      Value.applyBinary op common v w) := by
  let ctx := ((EvalContext.initial now).bind p v).bind q w
  have left : (Expr.parameter p).evaluate ctx = .ok v := by
    have other : (p.id == q.id) = false := beq_eq_false_iff_ne.mpr distinct
    change ctx.lookup p = _
    simp [ctx, EvalContext.lookup, EvalContext.bind, List.lookup_cons, other, Evaluation.require]
  have right : (Expr.parameter q).evaluate ctx = .ok w := by
    change ctx.lookup q = _
    simp [ctx, EvalContext.lookup, EvalContext.bind, Evaluation.require]
  have isStrict : op ≠ .andAlso ∧ op ≠ .orElse := by
    obtain rfl | rfl := isBits <;> decide
  change (bitsNode op common p q).evaluate ctx = _
  rw [bitsNode, evaluate_strict isStrict, evaluate_convertedTo left left_conforms,
    evaluate_convertedTo right right_conforms]

/-- The bits of two integers are joined if the width has room for both. -/
theorem call_bitsNode_of_fits {kind : IntKind} {withNull : Bool} (isBits : op = .and ∨ op = .or)
    (distinct : p.id ≠ q.id) (left_type : p.type = j.type leftNull)
    (right_type : q.type = k.type rightNull) (left_conforms : v.conformsTo p.type = true)
    (right_conforms : w.conformsTo q.type = true) :
    (lambda [p, q] (bitsNode op (kind.type withNull) p q)).call now [v, w] =
      if v.fits kind && w.fits kind then .ok (v.joinedBits op kind w)
      else .error (.overflow ("conversion to " ++ (kind.type withNull).display)) := by
  have left := Value.ofWidth_of_conformsTo (left_type ▸ left_conforms)
  have right := Value.ofWidth_of_conformsTo (right_type ▸ right_conforms)
  rw [call_bitsNode isBits distinct left_conforms right_conforms]
  cases left_room : v.fits kind with
  | false =>
      rw [Value.convertTo_of_not_fits left left_room]
      rfl
  | true =>
      obtain ⟨v', left_eq, left_ofWidth, left_number⟩ :=
        Value.convertTo_of_fits withNull left left_room
      rw [left_eq]
      cases right_room : w.fits kind with
      | false =>
          rw [Value.convertTo_of_not_fits right right_room]
          rfl
      | true =>
          obtain ⟨w', right_eq, right_ofWidth, right_number⟩ :=
            Value.convertTo_of_fits withNull right right_room
          have same : Value.joinedBits op kind v' w' = Value.joinedBits op kind v w := by
            rw [Value.joinedBits, left_number, right_number]
            rfl
          rw [right_eq, ← same]
          exact Value.applyBinary_bits isBits left_ofWidth right_ofWidth

/-- The bits of all integers of two widths are joined if and only if the width has room for them. -/
theorem call_bitsNode_total_iff {kind : IntKind} {withNull : Bool} (isBits : op = .and ∨ op = .or)
    (distinct : p.id ≠ q.id) (left_type : p.type = j.type leftNull)
    (right_type : q.type = k.type rightNull) :
    (∀ now v w, v.conformsTo p.type = true → w.conformsTo q.type = true →
        ∃ result, (lambda [p, q] (bitsNode op (kind.type withNull) p q)).call now [v, w] =
          .ok result) ↔
      (kind.min ≤ j.min ∧ j.max ≤ kind.max) ∧ (kind.min ≤ k.min ∧ k.max ≤ kind.max) := by
  rw [← Value.forall_fits_iff, ← Value.forall_fits_iff]
  constructor
  · intro total
    have both (m n : Integer) (left_kind : m.kind = j) (right_kind : n.kind = k) :
        (Value.integral m).fits kind = true ∧ (Value.integral n).fits kind = true := by
      have left_conforms : (Value.integral m).conformsTo p.type = true := by
        rw [left_type, ← left_kind]
        exact Value.conformsTo_type m leftNull
      have right_conforms : (Value.integral n).conformsTo q.type = true := by
        rw [right_type, ← right_kind]
        exact Value.conformsTo_type n rightNull
      obtain ⟨result, outcome⟩ := total DateTime.minValue _ _ left_conforms right_conforms
      rw [call_bitsNode_of_fits isBits distinct left_type right_type left_conforms
        right_conforms] at outcome
      split at outcome
      next hasRoom => exact (Bool.and_eq_true _ _).mp hasRoom
      next => cases outcome
    exact ⟨fun m left_kind => (both m (Integer.wrap k 0) left_kind rfl).1,
      fun n right_kind => (both (Integer.wrap j 0) n rfl right_kind).2⟩
  · rintro ⟨left_room, right_room⟩ now v w left_conforms right_conforms
    have left := Value.ofWidth_of_conformsTo (left_type ▸ left_conforms)
    have right := Value.ofWidth_of_conformsTo (right_type ▸ right_conforms)
    rw [call_bitsNode_of_fits isBits distinct left_type right_type left_conforms right_conforms,
      left.fits left_room, right.fits right_room]
    exact ⟨_, rfl⟩

end Expr

/-- A conjunction or disjunction of the bits of two parameters of integral types compiles, in every
environment in which the parameters can be named.  If the common width has room for the integers
among the values, it is evaluated to null for null, and otherwise to the joined bits of the two
integers truncated to the common width; if it has no room, the evaluation is an overflow.  It
succeeds for all values if and only if both types widen to the common one. -/
theorem compileFunction_bits {env : Environment} {p q : Parameter} {op : BinaryOp} {j k : IntKind}
    {leftNull rightNull : Bool} {text : String} (store : Store) (canName : env.CanName [p, q])
    (distinct : p.id ≠ q.id) (isBits : op = .and ∨ op = .or) (left_type : p.type = j.type leftNull)
    (right_type : q.type = k.type rightNull)
    (spaced : Spaced [p.name, op.symbol, q.name] text.toList) :
    let common := (j.common k).type (leftNull || rightNull)
    let function := Expr.lambda [p, q] (Expr.bitsNode op common p q)
    compileFunction env [p, q] none text [] store = (.ok function, store) ∧
      (∀ now v w, v.conformsTo p.type = true → w.conformsTo q.type = true →
        function.call now [v, w] =
          if v.fits (j.common k) && w.fits (j.common k) then
            .ok (Value.joinedBits op (j.common k) v w)
          else .error (.overflow ("conversion to " ++ common.display))) ∧
      ((∀ now v w, v.conformsTo p.type = true → w.conformsTo q.type = true →
          ∃ result, function.call now [v, w] = .ok result) ↔
        (Atom.integral j).widensTo (.integral (j.common k)) = true ∧
          (Atom.integral k).widensTo (.integral (j.common k)) = true) := by
  intro common function
  refine ⟨?_, fun now v w left_conforms right_conforms => ?_, ?_⟩
  · exact compileFunction_operation store canName (by simp) (by simp)
      (fun token _ => Expr.joinAt_bits isBits left_type right_type) spaced
  · exact Expr.call_bitsNode_of_fits isBits distinct left_type right_type left_conforms
      right_conforms
  · rw [← IntKind.common_hasRoom_iff]
    exact Expr.call_bitsNode_total_iff isBits distinct left_type right_type

section Example

/-- An integer with a sign. -/
def signedParam : Parameter := ⟨0, "a", .int32⟩

/-- An integer without a sign. -/
def unsignedParam : Parameter := ⟨1, "b", .integral .uint32⟩

theorem plainEnvironment_canName_bits : plainEnvironment.CanName [signedParam, unsignedParam] :=
  .of_isNone (by decide +kernel) (by decide +kernel) (by decide +kernel)

/-- The bits of an integer with a sign and one without are joined if the first one is not negative,
and are an overflow otherwise. -/
theorem compileFunction_bits_negative :
    let function := Expr.lambda [signedParam, unsignedParam]
      (Expr.bitsNode .and (.integral .uint32) signedParam unsignedParam)
    compileFunction plainEnvironment [signedParam, unsignedParam] none "a & b" [] .initial =
        (.ok function, .initial) ∧
      ∀ now,
        function.call now [Value.int32 7, Value.ofInteger .uint32 5] =
            .ok (Value.ofInteger .uint32 5) ∧
          function.call now [Value.int32 (-1), Value.ofInteger .uint32 5] =
            .error (.overflow "conversion to UInt32") := by
  intro function
  have spaced : Spaced [signedParam.name, BinaryOp.and.symbol, unsignedParam.name]
      "a & b".toList := Spaced.intercalate _
  have left_type : signedParam.type = IntKind.int32.type false := rfl
  have right_type : unsignedParam.type = IntKind.uint32.type false := rfl
  obtain ⟨compiled, called, -⟩ := compileFunction_bits .initial plainEnvironment_canName_bits
    (by decide) (.inl rfl) left_type right_type spaced
  refine ⟨compiled, fun now => ⟨?_, ?_⟩⟩
  · exact called now (Value.int32 7) (Value.ofInteger .uint32 5) rfl rfl
  · exact called now (Value.int32 (-1)) (Value.ofInteger .uint32 5) rfl rfl

end Example

end QueryTree
