import QueryTree.Compile.Expression
import QueryTree.Proofs.Overload.Signature
import QueryTree.Proofs.Print.Word

/-!
# Operator trees

Trees of operators over parameters, how they are written with as few parentheses as the levels of
the operators allow, and that operands of such trees are joined as they are.
-/

namespace QueryTree

namespace BinaryOp

/-- How tightly an operator binds its operands. -/
def level : BinaryOp → Nat
  | orElse => 1
  | andAlso => 2
  | and | or => 3
  | equal | notEqual | lessThan | greaterThan | lessThanOrEqual | greaterThanOrEqual => 4
  | leftShift | rightShift => 5
  | add | subtract => 6
  | multiply | divide | modulo => 7

theorem level_pos (op : BinaryOp) : 1 ≤ op.level := by
  cases op <;> decide

theorem level_le (op : BinaryOp) : op.level ≤ 7 := by
  cases op <;> decide

/-- The class of the token that an operator is written as. -/
def kind : BinaryOp → TokenKind
  | equal => .doubleEqual
  | notEqual => .exclamationEqual
  | lessThan => .lessThan
  | greaterThan => .greaterThan
  | lessThanOrEqual => .lessThanEqual
  | greaterThanOrEqual => .greaterThanEqual
  | add => .plus
  | subtract => .minus
  | multiply => .asterisk
  | divide => .slash
  | modulo => .percent
  | and => .ampersand
  | or => .bar
  | leftShift => .doubleLessThan
  | rightShift => .doubleGreaterThan
  | andAlso => .doubleAmpersand
  | orElse => .doubleBar

/-- The symbol of an operator as a word. -/
def word (op : BinaryOp) : Word := ⟨op.kind, op.symbol⟩

theorem word_scans (op : BinaryOp) : op.word.Scans := by
  cases op with
  | lessThan | greaterThan | add | subtract | multiply | divide | modulo | and | or =>
      exact Word.scans_symbol rfl rfl
  | _ => exact Word.scans_doubleSymbol rfl rfl rfl

/-- The type of an operation on two operands of a type, which are numbers or truth values. -/
def resultOn? : BinaryOp → Ty → Option Ty
  | equal, _ | notEqual, _ => some .boolean
  | lessThan, .int32 | greaterThan, .int32 | lessThanOrEqual, .int32
  | greaterThanOrEqual, .int32 => some .boolean
  | and, t | or, t => some t
  | andAlso, .boolean | orElse, .boolean => some .boolean
  | add, .int32 | subtract, .int32 | multiply, .int32 | divide, .int32 | modulo, .int32
  | leftShift, .int32 | rightShift, .int32 => some .int32
  | _, _ => none

end BinaryOp

namespace Word

/-- A minus sign. -/
def minus : Word := ⟨.minus, "-"⟩

/-- A negation. -/
def exclamation : Word := ⟨.exclamation, "!"⟩

/-- The word between a test and the first branch. -/
def question : Word := ⟨.question, "?"⟩

/-- The word between two branches. -/
def colon : Word := ⟨.colon, ":"⟩

/-- An opening parenthesis. -/
def openParen : Word := ⟨.openParen, "("⟩

/-- A closing parenthesis. -/
def closeParen : Word := ⟨.closeParen, ")"⟩

/-- A name. -/
def name (text : String) : Word := ⟨.identifier, text⟩

end Word

namespace Expr

/-- Trees of a type made of parameters that are numbers or truth values, signs, negations, binary
operators and conditionals.  The operands of an operator have one type, and nothing is converted. -/
inductive OperatorTree (params : List Parameter) : Ty → Expr → Prop where
  | parameter {p : Parameter} {t : Ty} (isParam : p ∈ params) (isType : p.type = t)
      (known : t = .int32 ∨ t = .boolean) : OperatorTree params t (parameter p)
  | negate {e : Expr} (operand : OperatorTree params .int32 e) :
      OperatorTree params .int32 (negate .int32 e)
  | not {e : Expr} (operand : OperatorTree params .boolean e) :
      OperatorTree params .boolean (not .boolean e)
  | binary {op : BinaryOp} {t result : Ty} {left right : Expr}
      (typed : op.resultOn? t = some result) (leftTree : OperatorTree params t left)
      (rightTree : OperatorTree params t right) :
      OperatorTree params result (binary result op left right none)
  | conditional {t : Ty} {test ifTrue ifFalse : Expr} (testTree : OperatorTree params .boolean test)
      (trueTree : OperatorTree params t ifTrue) (falseTree : OperatorTree params t ifFalse) :
      OperatorTree params t (conditional test ifTrue ifFalse)

/-- How tightly the outermost operator of a tree binds: conditionals bind least, signs and negations
most. -/
def level : Expr → Nat
  | conditional _ _ _ => 0
  | binary _ op _ _ _ => op.level
  | negate _ _ | not _ _ => 8
  | _ => 9

/-- Words in parentheses, if something of a level stands where a higher level is needed. -/
def enclosed (least level : Nat) (words : List Word) : List Word :=
  if level < least then .openParen :: (words ++ [.closeParen]) else words

/-- The words of a tree where an operand of at least some level is needed.  Binary operators
associate to the left and conditionals to the right. -/
def words : Nat → Expr → List Word
  | _, parameter p => [.name p.name]
  | least, negate _ e => enclosed least 8 (.minus :: words 8 e)
  | least, not _ e => enclosed least 8 (.exclamation :: words 8 e)
  | least, binary _ op left right _ =>
    enclosed least op.level (words op.level left ++ op.word :: words (op.level + 1) right)
  | least, conditional test ifTrue ifFalse =>
    enclosed least 0
      (words 1 test ++ .question :: (words 0 ifTrue ++ .colon :: words 0 ifFalse))
  | _, _ => []

/-- What is known of an operand besides its shape: its type, and that it is no constant. -/
structure IsOperand (t : Ty) (e : Expr) : Prop where
  type_eq : e.type = t
  known : t = .int32 ∨ t = .boolean
  noConstant : e.value? = none

theorem OperatorTree.isOperand {params : List Parameter} {t : Ty} {e : Expr}
    (tree : OperatorTree params t e) : e.IsOperand t := by
  induction tree with
  | parameter _ isType known => exact ⟨isType, known, rfl⟩
  | negate => exact ⟨rfl, .inl rfl, rfl⟩
  | not => exact ⟨rfl, .inr rfl, rfl⟩
  | @binary op t result _ _ typed _ _ left =>
      refine ⟨rfl, ?_, rfl⟩
      obtain rfl | rfl := left.known
      · cases op <;> cases typed <;> simp
      · cases op <;> cases typed <;> simp
  | conditional _ _ _ _ ifTrue => exact ⟨ifTrue.type_eq, ifTrue.known, rfl⟩

section Join

variable {table : ClassTable} {op : BinaryOp} {token : Token} {t : Ty} {left right : Expr}

theorem ofGroup_eq {group : OperatorGroup} (isSignature : [t, t] ∈ group.signatures)
    (leftOperand : left.IsOperand t) (rightOperand : right.IsOperand t) :
    ofGroup table group op token left right = .ok (binary t op left right none) := by
  have left_type : (left.type == t) = true := leftOperand.type_eq ▸ BEq.rfl
  have right_type : (right.type == t) = true := rightOperand.type_eq ▸ BEq.rfl
  rw [ofGroup, OperatorGroup.operands_exact isSignature left_type right_type]
  exact congrArg (fun t => Except.ok (binary t op left right none)) leftOperand.type_eq

theorem sum_eq (leftOperand : left.IsOperand .int32) (rightOperand : right.IsOperand .int32) :
    sum table token left right = .ok (binary .int32 .add left right none) := by
  have isSignature : [.int32, .int32] ∈ OperatorGroup.add.signatures := by
    simp [OperatorGroup.signatures, OperatorGroup.pairs, OperatorGroup.withNullable,
      OperatorGroup.arithmeticTypes]
  have noText : joinsText left right = false := by
    rw [joinsText, leftOperand.type_eq, rightOperand.type_eq]
    rfl
  rw [sum, noText]
  exact ofGroup_eq isSignature leftOperand rightOperand

theorem difference_eq (leftOperand : left.IsOperand .int32)
    (rightOperand : right.IsOperand .int32) :
    difference table token left right = .ok (binary .int32 .subtract left right none) := by
  have isSignature : [.int32, .int32] ∈ OperatorGroup.subtract.signatures := by
    simp [OperatorGroup.signatures, OperatorGroup.pairs, OperatorGroup.withNullable,
      OperatorGroup.arithmeticTypes]
  have left_type : (left.type == .int32) = true := leftOperand.type_eq ▸ BEq.rfl
  have right_type : (right.type == .int32) = true := rightOperand.type_eq ▸ BEq.rfl
  rw [difference, OperatorGroup.operands_exact isSignature left_type right_type]
  change Except.ok (binary (differenceType left.type right.type) .subtract left right none) = _
  rw [leftOperand.type_eq, rightOperand.type_eq]
  rfl

theorem IsOperand.text? {e : Expr} (operand : e.IsOperand t) : e.text? = none := by
  rw [Expr.text?, operand.noConstant, Option.bind_none]

theorem IsOperand.readText? {e : Expr} (operand : e.IsOperand t) (target : Ty) (position : Nat) :
    e.readText? target position = .ok none := by
  rw [Expr.readText?, operand.text?]

theorem IsOperand.toUnderlying {e : Expr} (operand : e.IsOperand t) : e.toUnderlying = e := by
  rw [Expr.toUnderlying, operand.type_eq]
  obtain rfl | rfl := operand.known
  · rfl
  · rfl

/-- Operands of a comparison of numbers or truth values stay as they are. -/
theorem compareValues_eq (typed : op.resultOn? t = some .boolean) (isComparison : op.level = 4)
    (leftOperand : left.IsOperand t) (rightOperand : right.IsOperand t) :
    compareValues table op token left right = .ok ⟨left, right, none⟩ := by
  have left_type : (left.type == t) = true := leftOperand.type_eq ▸ BEq.rfl
  have right_type : (right.type == t) = true := rightOperand.type_eq ▸ BEq.rfl
  have noMethod : hasOperator table left.type op = false := by
    rw [leftOperand.type_eq, hasOperator]
    obtain rfl | rfl := leftOperand.known
    · rfl
    · rfl
  have isSignature : [t, t] ∈
      (if op.isEquality then OperatorGroup.equality else .relational).signatures := by
    obtain rfl | rfl := leftOperand.known
    · cases op.isEquality <;> simp [OperatorGroup.signatures, OperatorGroup.pairs,
        OperatorGroup.withNullable, OperatorGroup.arithmeticTypes]
    · have isEquality : op.isEquality = true := by
        cases op <;> first | rfl | (cases isComparison; done) | cases typed
      simp [isEquality, OperatorGroup.signatures, OperatorGroup.pairs,
        OperatorGroup.withNullable]
  rw [compareValues, rightOperand.readText?, leftOperand.readText?, noMethod]
  simp only [Bool.and_false, Bool.false_eq_true, if_false]
  rw [OperatorGroup.operands_exact isSignature left_type right_type]
  rfl

theorem comparison_eq (typed : op.resultOn? t = some .boolean) (isComparison : op.level = 4)
    (leftOperand : left.IsOperand t) (rightOperand : right.IsOperand t) :
    comparison table op token left right = .ok (binary .boolean op left right none) := by
  have isValues : compared table op token left right =
      compareValues table op token left right := by
    have noReference : (!t.isValue && !t.isValue || t == .guid && t == .guid) = false := by
      obtain rfl | rfl := leftOperand.known
      · rfl
      · rfl
    have noEnum : (t.isEnum || t.isEnum) = false := by
      obtain rfl | rfl := leftOperand.known
      · rfl
      · rfl
    simp only [compared, leftOperand.type_eq, rightOperand.type_eq, noReference, noEnum,
      Bool.and_false, Bool.false_eq_true, if_false]
  rw [comparison, isValues, compareValues_eq typed isComparison leftOperand rightOperand]
  rfl

theorem bitwise_eq (leftOperand : left.IsOperand t) (rightOperand : right.IsOperand t) :
    bitwise op token left right = .ok (binary t op left right none) := by
  have same : (left.type == right.type) = true := by
    rw [leftOperand.type_eq, rightOperand.type_eq]
    exact BEq.rfl
  have unchanged : widen left right = (left, right) := by rw [widen, same, if_pos rfl]
  have kind : (t.isIntegral || t.core == .boolean) = true := by
    obtain rfl | rfl := leftOperand.known
    · rfl
    · rfl
  rw [← leftOperand.type_eq] at kind ⊢
  simp only [bitwise, unchanged, same, kind, Bool.and_self, if_true]

theorem conjunction_eq (leftOperand : left.IsOperand t) (rightOperand : right.IsOperand t) :
    conjunction table token left right = .ok (binary t .and left right none) := by
  have plain : integerBeside left right = (left, right) := by
    simp [integerBeside, integerText?, leftOperand.text?, rightOperand.text?]
  have noText : joinsText left right = false := by
    rw [joinsText, leftOperand.type_eq, rightOperand.type_eq]
    obtain rfl | rfl := leftOperand.known
    · rfl
    · rfl
  rw [conjunction, leftOperand.toUnderlying, rightOperand.toUnderlying, plain]
  simp only [noText, Bool.false_eq_true, if_false]
  exact bitwise_eq leftOperand rightOperand

theorem disjunction_eq (leftOperand : left.IsOperand t) (rightOperand : right.IsOperand t) :
    disjunction token left right = .ok (binary t .or left right none) := by
  rw [disjunction, leftOperand.toUnderlying, rightOperand.toUnderlying]
  exact bitwise_eq leftOperand rightOperand

theorem choose_eq {position : Nat} {test : Expr} (testOperand : test.IsOperand .boolean)
    (leftOperand : left.IsOperand t) (rightOperand : right.IsOperand t) :
    choose table position test left right = .ok (conditional test left right) := by
  have same : (left.type == right.type) = true := by
    rw [leftOperand.type_eq, rightOperand.type_eq]
    exact BEq.rfl
  have isTest : (test.type != .boolean) = false := by
    rw [testOperand.type_eq]
    rfl
  simp only [choose, isTest, same, Bool.false_eq_true, if_false, if_true]

end Join

end Expr

end QueryTree
