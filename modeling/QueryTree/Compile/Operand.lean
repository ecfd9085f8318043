import QueryTree.Compile.Error
import QueryTree.Overload.Callable
import QueryTree.Overload.Signature

/-!
# Conversions and operands

What becomes of the operands of a type that is applied to arguments and of those of an operator.
-/

/-!
## Explicit conversions and constructors

What a type applied to arguments means: a conversion of one argument, or a call of a constructor.
-/

namespace QueryTree.Expr

/-- Whether a value of one type is converted to another as a number, or by adding or dropping
null. -/
def convertsByValue (source target : Ty) : Bool :=
  let isNumber (t : Ty) : Bool := t.isNumeric || t.isEnum
  source.isValue && target.isValue
    && (((source.isNullable || target.isNullable) && source.core == target.core)
      || (isNumber source && isNumber target))

/-- A constant text read as a value of a type; nothing if it is no constant text or the type has no
text form. -/
def readText? (e : Expr) (target : Ty) (position : Nat) : Except CompileError (Option Expr) :=
  match e.text? with
  | none => .ok none
  | some text =>
    match Value.ofText target text with
    | .unreadable => .ok none
    | .read value => .ok (some (ofValue target value))
    | .invalid => .error ⟨position, .cannotConvert e.type target⟩

/-- The conversion that a type written before an expression asks for. -/
def convertTo (table : ClassTable) (target : Ty) (position : Nat) (e : Expr) :
    Except CompileError Expr := do
  let source := e.type
  if source == target then return e
  else if e.isNullLiteral && target.admitsNull then return nullOf target
  else if convertsByValue source target then return convert target e
  else if target.isAssignable table source || source.isAssignable table target then
    return convert target e
  else
    match ← e.readText? target position with
    | some converted => return converted
    | none =>
      if source.isConvertible table target then return convert target e
      else throw ⟨position, .cannotConvert source target⟩

/-- A type applied to arguments: a conversion of a single constant or of a single value to a value
type, and otherwise a call of a constructor.  A single argument that no constructor accepts is
converted. -/
def constructOf (table : ClassTable) (type : Ty) (position : Nat) (args : List Expr) :
    Except CompileError Expr :=
  let converted? : Option Expr :=
    match args with
    | [arg] => some arg
    | _ => none
  let convertsDirectly (arg : Expr) : Bool :=
    arg.isConstant || (type.isValue && arg.type.isValue)
  match converted?.filter convertsDirectly with
  | some arg => convertTo table type position arg
  | none =>
    match type.resolveConstructor table args with
    | .found _ args => .ok (construct type args)
    | .ambiguous _ => .error ⟨position, .ambiguousConstructor type⟩
    | .notFound =>
      match converted? with
      | some arg => convertTo table type position arg
      | none => .error ⟨position, .noMatchingConstructor type⟩

end QueryTree.Expr

/-!
## Operands

How the operands of each binary operator are brought to types that the operator accepts.
-/

namespace QueryTree.Expr

/-- An operand of an enumeration type as an integer. -/
def toUnderlying (e : Expr) : Expr :=
  match e.type.enum? with
  | none => e
  | some enum =>
    convert (if e.type.isNullable then enum.underlyingType.lift else enum.underlyingType) e

/-- The fault of an operator that does not accept its operands. -/
def incompatible (op : Token) (left right : Expr) : CompileError :=
  ⟨op.position, .incompatibleOperands op.text left.type right.type⟩

/-- An operation whose result has the type of its promoted left operand. -/
def ofGroup (table : ClassTable) (group : OperatorGroup) (operator : BinaryOp) (op : Token)
    (left right : Expr) : Except CompileError Expr := do
  let (left, right) ← group.operands table op.text op.position left right
  return binary left.type operator left right none

/-- The concatenation of two operands as texts. -/
def concat (table : ClassTable) (op : Token) (left right : Expr) : Except CompileError Expr :=
  match Ty.resolveMethod table .string "Concat" true [left, right] with
  | .found method args => .ok (staticCall .string method args)
  | _ => .error (incompatible op left right)

/-- Whether one of two operands is a text. -/
def joinsText (left right : Expr) : Bool := left.type.isString || right.type.isString

/-- A sum, or a concatenation if an operand is a text. -/
def sum (table : ClassTable) (op : Token) (left right : Expr) : Except CompileError Expr :=
  if joinsText left right then concat table op left right
  else ofGroup table .add .add op left right

/-- The type of the difference of two promoted operands. -/
def differenceType (left right : Ty) : Ty :=
  match left.core, right.core with
  | .dateTime, .dateTime =>
    if left.isNullable || right.isNullable then .nullable .timeSpan else .timeSpan
  | _, _ => left

/-- A difference. -/
def difference (table : ClassTable) (op : Token) (left right : Expr) :
    Except CompileError Expr := do
  let (left, right) ← OperatorGroup.operands table .subtract op.text op.position left right
  return binary (differenceType left.type right.type) .subtract left right none

/-- The integer of 32 bits that a constant text holds. -/
def integerText? (e : Expr) : Option Value :=
  e.text?.bind fun text =>
    (Numeral.int? (Text.trim text)).bind fun n => (Integer.ofInt? .int32 n).map .integral

/-- The integral widths, each before those that it is preferred to. -/
def widestFirst : List IntKind :=
  [.uint64, .int64, .uint32, .int32, .uint16, .int16, .byte, .sbyte]

/-- The type that two integral types are widened to. -/
def commonIntegral? (left right : Ty) : Option Ty := do
  let leftKind ← left.intKind?
  let rightKind ← right.intKind?
  let kind ← widestFirst.find? fun kind => kind == leftKind || kind == rightKind
  return if left.isNullable || right.isNullable then .nullable (.integral kind) else .integral kind

/-- Two integral operands widened to one type; others are left as they are. -/
def widen (left right : Expr) : Expr × Expr :=
  if left.type == right.type then (left, right)
  else
    match commonIntegral? left.type right.type with
    | none => (left, right)
    | some target =>
      let widened (e : Expr) : Expr := if e.type == target then e else convert target e
      (widened left, widened right)

/-- A bitwise operation on integers or truth values. -/
def bitwise (operator : BinaryOp) (op : Token) (left right : Expr) : Except CompileError Expr :=
  let (left, right) := widen left right
  if left.type == right.type && (left.type.isIntegral || left.type.core == .boolean) then
    .ok (binary left.type operator left right none)
  else .error (incompatible op left right)

/-- A text that holds an integer replaced by the integer where the other operand is a number. -/
def integerBeside (left right : Expr) : Expr × Expr :=
  match left.integerText?.filter fun _ => right.type.isNumeric with
  | some n => (ofValue .int32 n, right)
  | none =>
    match right.integerText?.filter fun _ => left.type.isNumeric with
    | some n => (left, ofValue .int32 n)
    | none => (left, right)

/-- A conjunction of bits, or a concatenation if an operand is a text. -/
def conjunction (table : ClassTable) (op : Token) (left right : Expr) :
    Except CompileError Expr :=
  let (left, right) := integerBeside left.toUnderlying right.toUnderlying
  if joinsText left right then concat table op left right else bitwise .and op left right

/-- A disjunction of bits. -/
def disjunction (op : Token) (left right : Expr) : Except CompileError Expr :=
  bitwise .or op left.toUnderlying right.toUnderlying

/-- A constant text or number as a member of an enumeration. -/
def enumConstant (type : Ty) (position : Nat) (e : Expr) : Except CompileError Expr :=
  match type.enum? with
  | none => .error ⟨position, .typeExpected type⟩
  | some enum =>
    let n? :=
      match e.value? with
      | some (.string name) => enum.valueOf? name
      | some other => other.toInt?.filter Value.fitsInt64
      | none => none
    match n? with
    | some n => .ok (ofValue type (.enum enum n))
    | none =>
      .error ⟨position, .enumValueNotDefined ((e.value?.map Value.text).getD "") enum.name⟩

/-- Two operands of a comparison, and the operator method to be called if there is one. -/
structure Compared where
  left : Expr
  right : Expr
  method : Option String

/-- Two references, or two identifiers, tested for equality: one is converted to the type of the
other. -/
def compareReferences (table : ClassTable) (op : Token) (left right : Expr) :
    Except CompileError (Expr × Expr) :=
  if left.type == right.type then .ok (left, right)
  else if right.isUntypedNull then .ok (left, nullOf left.type)
  else if left.isUntypedNull then .ok (nullOf right.type, right)
  else if left.type.isAssignable table right.type
      || right.type.hasDeclaredConversion table left.type false then
    .ok (left, convert left.type right)
  else if right.type.isAssignable table left.type
      || left.type.hasDeclaredConversion table right.type false then
    .ok (convert right.type left, right)
  else .error (incompatible op left right)

/-- Two operands of which one is of an enumeration type, brought to one type. -/
def alignEnums (table : ClassTable) (op : Token) (left right : Expr) :
    Except CompileError (Expr × Expr) :=
  if left.type == right.type then .ok (left, right)
  else
    match right.promote? table .exactly left.type with
    | some right => .ok (left, right)
    | none =>
      match left.promote? table .exactly right.type with
      | some left => .ok (left, right)
      | none =>
        if left.type.isEnum && right.isConstant then
          (enumConstant left.type op.position right).map fun right => (left, right)
        else if right.type.isEnum && left.isConstant then
          (enumConstant right.type op.position left).map fun left => (left, right)
        else .error (incompatible op left right)

/-- Whether a type has an operator method for an operator. -/
def hasOperator (table : ClassTable) (type : Ty) (operator : BinaryOp) : Bool :=
  (type.operators table).any (·.name == operator.methodName)

/-- Two operands of a comparison of values: a constant text is read as a value of the other type, an
operator method is called where the type has one, and otherwise a built-in comparison is chosen. -/
def compareValues (table : ClassTable) (operator : BinaryOp) (op : Token) (left right : Expr) :
    Except CompileError Compared := do
  match ← right.readText? left.type op.position with
  | some right => return ⟨left, right, none⟩
  | none =>
    match ← left.readText? right.type op.position with
    | some left => return ⟨left, right, none⟩
    | none =>
      if left.type == right.type && hasOperator table left.type operator then
        return ⟨left, right, some operator.methodName⟩
      else
        let group : OperatorGroup := if operator.isEquality then .equality else .relational
        let (left, right) ← group.operands table op.text op.position left right
        return ⟨left, right, none⟩

/-- The operands of a comparison. -/
def compared (table : ClassTable) (operator : BinaryOp) (op : Token) (left right : Expr) :
    Except CompileError Compared := do
  let bothReferences := !left.type.isValue && !right.type.isValue
  let bothGuids := left.type == .guid && right.type == .guid
  if operator.isEquality && (bothReferences || bothGuids) then
    let (left, right) ← compareReferences table op left right
    return ⟨left, right, none⟩
  else if left.type.isEnum || right.type.isEnum then
    let (left, right) ← alignEnums table op left right
    if operator.isEquality then return ⟨left, right, none⟩
    else return ⟨left.toUnderlying, right.toUnderlying, none⟩
  else compareValues table operator op left right

/-- A comparison. -/
def comparison (table : ClassTable) (operator : BinaryOp) (op : Token) (left right : Expr) :
    Except CompileError Expr := do
  let c ← compared table operator op left right
  return binary .boolean operator c.left c.right c.method

/-- The test whether a value is one item of a list. -/
def isItem (table : ClassTable) (op : Token) (left right : Expr) : Except CompileError Expr :=
  if left.type == right.type then .ok (test .equal left right)
  else if left.type.isEnum then
    if right.isConstant then
      (enumConstant left.type op.position right).map fun right => test .equal left right
    else .error ⟨op.position, .typeExpected left.type⟩
  else do
    let (left, right) ← OperatorGroup.operands table .equality "==" op.position left right
    return test .equal left right

/-- The test whether a sequence contains a value. -/
def isContained (table : ClassTable) (op : Token) (item sequence : Expr) :
    Except CompileError Expr :=
  match sequence.type.element? table with
  | none => .error ⟨op.position, .enumerableExpected⟩
  | some element =>
    match item.promote? table .exactly element with
    | some item => .ok (aggregate .boolean .contains sequence [element] [item])
    | none => .error ⟨op.position, .noApplicableAggregate Aggregate.contains.name⟩

end QueryTree.Expr
