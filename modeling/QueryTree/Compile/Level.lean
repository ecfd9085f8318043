import QueryTree.Compile.Operand
import QueryTree.Compile.Primary

/-!
# Operator levels

The levels of the grammar between primary expressions and disjunctions, each of which joins
operands of the next one from the left.
-/

namespace QueryTree.CompileContext

/-- An operand followed by further ones, each joined to what is before it. -/
def chainFrom (operand : Parse Expr) (operator? : Token → Option BinaryOp)
    (join : BinaryOp → Token → Expr → Expr → Except CompileError Expr) :
    Nat → Expr → Parse Expr
  | 0, left => return left
  | fuel + 1, left => do
    let op ← Parse.current
    match operator? op with
    | none => return left
    | some operator =>
      Parse.advance
      let right ← operand
      let joined ← Parse.lift (join operator op left right)
      chainFrom operand operator? join fuel joined

/-- Operands of one level joined by its operators from the left. -/
def chain (operand : Parse Expr) (operator? : Token → Option BinaryOp)
    (join : BinaryOp → Token → Expr → Expr → Except CompileError Expr) : Parse Expr := do
  let first ← operand
  chainFrom operand operator? join ((← Parse.tokensLeft) + 1) first

/-- A sign or a negation before an operand. -/
def applySign (table : ClassTable) (op : Token) (operand : Expr) : Except CompileError Expr := do
  if op.kind = .minus then
    let operand ← OperatorGroup.operand table .negation op.text op.position operand
    return .negate operand.type operand
  else
    let operand ← OperatorGroup.operand table .not op.text op.position operand
    return .not operand.type operand

/-- Makes a minus sign before a number part of the number. -/
def mergeSign (op : Token) : Parse Unit :=
  modify fun session =>
    { session with
      current := { session.current with
        text := "-" ++ session.current.text, position := op.position } }

/-- An expression after signs and negations. -/
def unaryFrom (ctx : CompileContext) (expression : Parse Expr) : Nat → Parse Expr
  | 0 => ctx.primary expression
  | fuel + 1 => do
    let op ← Parse.current
    if op.kind = .minus || op.kind = .exclamation then
      Parse.advance
      let kind := (← Parse.current).kind
      if op.kind = .minus && (kind = .integerLiteral || kind = .realLiteral) then
        mergeSign op
        ctx.primary expression
      else
        let operand ← unaryFrom ctx expression fuel
        Parse.lift (applySign ctx.env.classes op operand)
    else ctx.primary expression

/-- An expression after signs and negations. -/
def unary (ctx : CompileContext) (expression : Parse Expr) : Parse Expr := do
  ctx.unaryFrom expression ((← Parse.tokensLeft) + 1)

/-- The operators of products. -/
def productOperator? (token : Token) : Option BinaryOp :=
  match token.kind with
  | .asterisk => some .multiply
  | .slash => some .divide
  | .percent => some .modulo
  | _ => none

/-- Products. -/
def product (ctx : CompileContext) (expression : Parse Expr) : Parse Expr :=
  chain (ctx.unary expression) productOperator?
    (Expr.ofGroup ctx.env.classes .arithmetic)

/-- The operators of sums. -/
def sumOperator? (token : Token) : Option BinaryOp :=
  match token.kind with
  | .plus => some .add
  | .minus => some .subtract
  | _ => none

/-- Sums. -/
def sum (ctx : CompileContext) (expression : Parse Expr) : Parse Expr :=
  chain (ctx.product expression) sumOperator? fun operator =>
    if operator = .add then Expr.sum ctx.env.classes else Expr.difference ctx.env.classes

/-- The operators of shifts. -/
def shiftOperator? (token : Token) : Option BinaryOp :=
  match token.kind with
  | .doubleLessThan => some .leftShift
  | .doubleGreaterThan => some .rightShift
  | _ => none

/-- Shifts. -/
def shift (ctx : CompileContext) (expression : Parse Expr) : Parse Expr :=
  chain (ctx.sum expression) shiftOperator? (Expr.ofGroup ctx.env.classes .shift)

/-- The operators of comparisons. -/
def comparisonOperator? (token : Token) : Option BinaryOp :=
  match token.kind with
  | .doubleEqual | .equal => some .equal
  | .exclamationEqual | .lessGreater => some .notEqual
  | .lessThan => some .lessThan
  | .greaterThan => some .greaterThan
  | .lessThanEqual => some .lessThanOrEqual
  | .greaterThanEqual => some .greaterThanOrEqual
  | _ => none

/-- Comparisons. -/
def comparison (ctx : CompileContext) (expression : Parse Expr) : Parse Expr :=
  chain (ctx.shift expression) comparisonOperator? (Expr.comparison ctx.env.classes)

/-- The operators of bits. -/
def bitOperator? (token : Token) : Option BinaryOp :=
  match token.kind with
  | .ampersand => some .and
  | .bar => some .or
  | _ => none

/-- Operations on bits. -/
def bits (ctx : CompileContext) (expression : Parse Expr) : Parse Expr :=
  chain (ctx.comparison expression) bitOperator? fun operator =>
    if operator = .and then Expr.conjunction ctx.env.classes else Expr.disjunction

/-- A test joined to the ones before it. -/
def joinTest (tested : Option Expr) (test : Expr) : Expr :=
  match tested with
  | none => test
  | some before => .test .orElse before test

/-- The items of a list in parentheses, each tested for being the value; the current token is the
parenthesis or the comma before an item.  The tests are joined from the left. -/
def itemTests (ctx : CompileContext) (expression : Parse Expr) (op : Token) (value : Expr) :
    Nat → Option Expr → Parse Expr
  | 0, _ => Parse.failAt op.position (.expected .expression)
  | fuel + 1, tested => do
    Parse.advance
    let item ← ctx.unary expression
    let test ← Parse.lift (Expr.isItem ctx.env.classes op value item)
    let tested := joinTest tested test
    if ← Parse.check .closeParen then
      Parse.advance
      return tested
    else if ← Parse.check .comma then itemTests ctx expression op value fuel (some tested)
    else Parse.failHere (.expected .closeParenOrComma)

/-- Tests whether a value is in a list or in a sequence.  Of several tests the last one counts. -/
def membershipFrom (ctx : CompileContext) (expression : Parse Expr) (value : Expr) :
    Nat → Expr → Parse Expr
  | 0, tested => return tested
  | fuel + 1, tested => do
    let op ← Parse.current
    if op.isWord "in" then
      Parse.advance
      if ← Parse.check .openParen then
        let test ← ctx.itemTests expression op value ((← Parse.tokensLeft) + 1) none
        membershipFrom ctx expression value fuel test
      else if ← Parse.check .identifier then
        let sequence ← ctx.primary expression
        let test ← Parse.lift (Expr.isContained ctx.env.classes op value sequence)
        membershipFrom ctx expression value fuel test
      else Parse.failHere (.expected .openParenOrIdentifier)
    else return tested

/-- Tests for membership. -/
def membership (ctx : CompileContext) (expression : Parse Expr) : Parse Expr := do
  let value ← ctx.bits expression
  ctx.membershipFrom expression value ((← Parse.tokensLeft) + 1) value

/-- The operator of conjunctions. -/
def andOperator? (token : Token) : Option BinaryOp :=
  if token.kind = .doubleAmpersand then some .andAlso else none

/-- Conjunctions. -/
def conjunction (ctx : CompileContext) (expression : Parse Expr) : Parse Expr :=
  chain (ctx.membership expression) andOperator? (Expr.ofGroup ctx.env.classes .logical)

/-- The operator of disjunctions. -/
def orOperator? (token : Token) : Option BinaryOp :=
  if token.kind = .doubleBar then some .orElse else none

/-- Disjunctions. -/
def disjunction (ctx : CompileContext) (expression : Parse Expr) : Parse Expr :=
  chain (ctx.conjunction expression) orOperator? (Expr.ofGroup ctx.env.classes .logical)

end QueryTree.CompileContext
