import QueryTree.Compile.Function

/-!
# Primary expressions

Literals, parentheses and names, with the members and indices that follow them.
-/

namespace QueryTree.CompileContext

/-- What a name that is no keyword stands for: a parameter or supplied value, or an element. -/
def symbol? (ctx : CompileContext) (internals : ElementNames) (key : String) : Option Symbol :=
  ctx.symbols.lookup key
    <|> (ctx.externals.lookup key).map .value
    <|> (internals.lookup key).map .parameter

/-- Whether a name is that of a positional value. -/
def isPositional (text : String) : Bool :=
  match text.toList with
  | '@' :: digits => !digits.isEmpty && digits.all Char.isDigit
  | _ => false

/-- What a symbol means; the token after it is current. -/
def symbolExpr (ctx : CompileContext) (expression : Parse Expr) : Symbol → Parse Expr
  | .parameter p => return .parameter p
  | .value (.type t) => ctx.typeAccess expression t
  | .value v => return .ofValue v.naturalType v
  | .expr e => do
    match e.type with
    | .lambda params result =>
      if ← Parse.check .openParen then ctx.functionCall expression e params result else return e
    | _ => return e

/-- Whether the current element has a member with a name. -/
def elementHasMember (ctx : CompileContext) (frame : ScopeFrame) (name : String) : Bool :=
  frame.it.any fun it =>
    (it.type.members ctx.env.classes).any fun m =>
      !m.isStatic && ctx.env.options.sameName m.name name

/-- The meaning of a name as a keyword, unless it is a type that a member of the current element
hides. -/
def visibleKeyword? (ctx : CompileContext) (frame : ScopeFrame) (text : String) :
    Option Keyword :=
  (ctx.env.keyword? text).filter fun keyword =>
    match keyword with
    | .type _ => !(ctx.env.options.membersBeforeTypes && ctx.elementHasMember frame text)
    | _ => true

/-- A name: a keyword, a symbol, or a member of the current element. -/
def name (ctx : CompileContext) (expression : Parse Expr) : Parse Expr := do
  let text := (← Parse.current).text
  let frame ← Parse.scope
  match ctx.visibleKeyword? frame text with
  | some keyword => ctx.keyword expression keyword
  | none =>
    match ctx.symbol? (← get).internals (ctx.env.options.fold text) with
    | some symbol =>
      Parse.advance
      ctx.symbolExpr expression symbol
    | none =>
      match frame.it.filter fun _ => !isPositional text with
      | some it => ctx.memberAccess expression (.value (.parameter it))
      | none => Parse.failHere (.unknownIdentifier text)

/-- A constant read from the current token. -/
def literalToken (read : Token → Except CompileError Expr) : Parse Expr := do
  let e ← Parse.lift (read (← Parse.current))
  Parse.advance
  return e

/-- A primary expression without what follows it. -/
def atom (ctx : CompileContext) (expression : Parse Expr) : Parse Expr := do
  match (← Parse.current).kind with
  | .identifier => ctx.name expression
  | .stringLiteral => literalToken Literal.quoted
  | .integerLiteral => literalToken fun token => Literal.integer token.text token.position
  | .realLiteral =>
    literalToken fun token =>
      Literal.real token.text ctx.env.options.decimalSeparator token.position
  | .openParen =>
    Parse.advance
    let e ← expression
    Parse.expect .closeParen (.expected .closeParenOrOperator)
    return e
  | _ => Parse.failHere (.expected .expression)

/-- The members and indices that follow an expression. -/
def suffixes (ctx : CompileContext) (expression : Parse Expr) : Nat → Expr → Parse Expr
  | 0, e => return e
  | fuel + 1, e => do
    match (← Parse.current).kind with
    | .dot =>
      Parse.advance
      suffixes ctx expression fuel (← ctx.memberAccess expression (.value e))
    | .openBracket => suffixes ctx expression fuel (← ctx.elementAccess expression e)
    | .nullPropagation => Parse.failHere .nullPropagationOperator
    | _ => return e

/-- A primary expression. -/
def primary (ctx : CompileContext) (expression : Parse Expr) : Parse Expr := do
  let e ← ctx.atom expression
  ctx.suffixes expression ((← Parse.tokensLeft) + 1) e

end QueryTree.CompileContext
