import QueryTree.Compile.Level

/-!
# Whole expressions

Conditionals, null coalescing and functions of the current element, the three outermost levels of
the grammar, and the compilation of whole texts.
-/

namespace QueryTree

namespace CompileContext

/-- Whether an expression before an arrow is the current element itself. -/
def arrowElement? (frame : ScopeFrame) (e : Expr) : Option Parameter := do
  let p ← e.parameter?
  frame.it.filter (· == p)

/-- A function of the current element, or a disjunction. -/
def arrow (ctx : CompileContext) (expression : Parse Expr) : Parse Expr := do
  let e ← ctx.disjunction expression
  let beforeArrow ← Parse.check .lambda
  match (arrowElement? (← Parse.scope) e).filter fun _ => beforeArrow with
  | none => return e
  | some it =>
    Parse.advance
    let kind := (← Parse.current).kind
    if kind = .identifier || kind = .openParen then
      let body ← expression
      return .lambda [it] body
    else Parse.failHere (.expected .openParen)

/-- Null coalescing. -/
def coalescing (ctx : CompileContext) (expression : Parse Expr) : Parse Expr := do
  let left ← ctx.arrow expression
  if ← Parse.check .nullCoalescing then
    let position ← Parse.position
    Parse.advance
    let right ← expression
    Parse.lift (Expr.orElseValue ctx.env.classes position left right)
  else return left

/-- A conditional. -/
def conditional (ctx : CompileContext) (expression : Parse Expr) : Parse Expr := do
  let position ← Parse.position
  let test ← ctx.coalescing expression
  if ← Parse.check .question then
    Parse.advance
    let ifTrue ← expression
    Parse.expect .colon (.expected .colon)
    let ifFalse ← expression
    Parse.lift (Expr.choose ctx.env.classes position test ifTrue ifFalse)
  else return test

/-- An expression nested at most so deep. -/
def expression (ctx : CompileContext) : Nat → Parse Expr
  | 0 => Parse.failHere (.expected .expression)
  | depth + 1 => ctx.conditional (expression ctx depth)

/-- An expression.  A nested expression has fewer tokens before it than the one around it, so that
the number of tokens bounds the depth. -/
def wholeExpression (ctx : CompileContext) : Parse Expr := do
  ctx.expression ((← Parse.tokensLeft) + 2)

/-- A whole text as one expression, which is promoted to a type if one is expected. -/
def body (ctx : CompileContext) (expected? : Option Ty) : Parse Expr := do
  let position ← Parse.position
  let e ← ctx.wholeExpression
  let e ←
    match expected? with
    | none => pure e
    | some expected =>
      match e.promote? ctx.env.classes .exactly expected with
      | some e => pure e
      | none => Parse.failAt position (.typeExpected expected)
  Parse.validate .finish .malformed
  return e

/-- The direction of a sort key, which is ascending unless a word says otherwise. -/
def direction : Parse Bool := do
  let word ← Parse.current
  if word.isWord "asc" || word.isWord "ascending" then
    Parse.advance
    return true
  else if word.isWord "desc" || word.isWord "descending" then
    Parse.advance
    return false
  else return true

/-- Sort keys separated by commas, of which the first one continues an ordering if asked to and the
others always do. -/
def sortKeys (ctx : CompileContext) : Nat → Bool → Parse (List SortKey)
  | 0, _ => return []
  | fuel + 1, continues => do
    let selector ← ctx.wholeExpression
    let ascending ← direction
    let key : SortKey := ⟨selector, ascending, continues⟩
    if ← Parse.check .comma then
      Parse.advance
      let rest ← sortKeys ctx fuel true
      return key :: rest
    else return [key]

/-- A whole text as sort keys. -/
def ordering (ctx : CompileContext) (continues : Bool) : Parse (List SortKey) := do
  let keys ← ctx.sortKeys ((← Parse.tokensLeft) + 1) continues
  Parse.validate .finish .malformed
  return keys

end CompileContext

/-- A value supplied beside an expression text. -/
inductive Argument where
  /-- A value that is named by its position. -/
  | value (v : Value)
  /-- An expression that is named by its position. -/
  | expr (e : Expr)
  /-- Values with names of their own, if they come last. -/
  | externals (members : List (String × Value))

namespace CompileContext

/-- The symbols of named parameters. -/
def parameterSymbols (params : List Parameter) : List (String × Symbol) :=
  (params.filter fun p => !p.name.isEmpty).map fun p => (p.name, .parameter p)

/-- The symbol of a positional argument.  Named values stand for themselves if they come last, and
otherwise are one value. -/
def argumentSymbol? (isLast : Bool) : Argument → Option Symbol
  | .value v => some (.value v)
  | .expr e => some (.expr e)
  | .externals members => if isLast then none else some (.value (Value.ofMembers members))

/-- The symbols of positional arguments, the first of which is at a place. -/
def argumentSymbols (place : Nat) : List Argument → List (String × Symbol)
  | [] => []
  | arg :: rest =>
    let later := argumentSymbols (place + 1) rest
    match argumentSymbol? rest.isEmpty arg with
    | some symbol => ("@" ++ toString place, symbol) :: later
    | none => later

/-- The values with names of their own among the arguments, the last one of a name first. -/
def externalValues (options : Options) (args : List Argument) : List (String × Value) :=
  match args.getLast? with
  | some (.externals members) =>
    members.reverse.map fun member => (options.fold member.1, member.2)
  | _ => []

/-- Symbols by their folded names, which have to be different. -/
def foldSymbols (options : Options) :
    List (String × Symbol) → List (String × Symbol) → Except CompileError (List (String × Symbol))
  | held, [] => .ok held
  | held, (name, symbol) :: rest =>
    let key := options.fold name
    if (held.lookup key).isSome then .error ⟨0, .duplicateIdentifier name⟩
    else foldSymbols options ((key, symbol) :: held) rest

/-- The context of a compile with parameters and arguments. -/
def of (env : Environment) (params : List Parameter) (args : List Argument) :
    Except CompileError CompileContext := do
  let symbols ←
    foldSymbols env.options [] (parameterSymbols params ++ argumentSymbols 0 args)
  return ⟨env, symbols, externalValues env.options args⟩

end CompileContext

namespace Session

/-- The parameter that is `it` from the start: a single one without a name. -/
def initialElement? : List Parameter → Option Parameter
  | [p] => if p.name.isEmpty then some p else none
  | _ => none

/-- The state before the first token of a scanned text is looked at. -/
def start (scan : Scan) (params : List Parameter) (store : Store) :
    Except CompileError Session :=
  let scopes := ScopeStack.of (.outermost (initialElement? params))
  match scan.tokens, scan.failure with
  | token :: rest, failure => .ok ⟨token, rest, failure, scopes, .empty, store⟩
  | [], some error => .error error
  | [], none => .ok ⟨⟨.finish, "", 0⟩, [], none, scopes, .empty, store⟩

end Session

/-- Compiles a text as a step of a session, and keeps what outlives it even if it fails. -/
def compileText {α : Type} (env : Environment) (params : List Parameter) (args : List Argument)
    (text : String) (step : CompileContext → Parse α) (store : Store) :
    Except CompileError α × Store :=
  match CompileContext.of env params args with
  | .error error => (.error error, store)
  | .ok ctx =>
    match Session.start (Scan.ofText text env.options.decimalSeparator) params store with
    | .error error => (.error error, store)
    | .ok session =>
      match step ctx session with
      | .ok a after => (.ok a, after.store)
      | .error error after => (.error error, after.store)

/-- Compiles a text as one expression over parameters. -/
def compileExpr (env : Environment) (params : List Parameter) (expected? : Option Ty)
    (text : String) (args : List Argument) (store : Store) : Except CompileError Expr × Store :=
  compileText env params args text (·.body expected?) store

/-- Compiles a text as the body of a function of parameters. -/
def compileFunction (env : Environment) (params : List Parameter) (expected? : Option Ty)
    (text : String) (args : List Argument) (store : Store) : Except CompileError Expr × Store :=
  let (body, store) := compileExpr env params expected? text args store
  (body.map (.lambda params), store)

/-- Compiles a text as sort keys over parameters. -/
def compileOrdering (env : Environment) (params : List Parameter) (continues : Bool)
    (text : String) (args : List Argument) (store : Store) :
    Except CompileError (List SortKey) × Store :=
  compileText env params args text (·.ordering continues) store

end QueryTree
