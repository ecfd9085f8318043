import QueryTree.Config.Keyword
import QueryTree.Config.Options
import QueryTree.Expr.Basic
import QueryTree.Token.Scan

/-!
# Sessions

The state of one compile, and the steps that every procedure of the grammar is put together from.
-/

/-!
## Scopes

The parameters that can be referred to without a name: the current element, the one around it and
the outermost one.
-/

namespace QueryTree

/-- The parameters of one scope. -/
structure ScopeFrame where
  it : Option Parameter
  parent : Option Parameter
  root : Option Parameter

namespace ScopeFrame

/-- The outermost scope. -/
def outermost (it : Option Parameter) : ScopeFrame := ⟨it, none, it⟩

/-- The scope of an element inside another scope. -/
def nested (frame : ScopeFrame) (element : Parameter) : ScopeFrame :=
  ⟨some element, frame.it, frame.root⟩

/-- The types of the parameters of a scope. -/
def types (frame : ScopeFrame) : List Ty :=
  [frame.it, frame.parent, frame.root].filterMap (·.map Parameter.type)

end ScopeFrame

/-- Scopes around each other; the outermost one is always there. -/
structure ScopeStack where
  outermost : ScopeFrame
  inner : List ScopeFrame

namespace ScopeStack

/-- The stack of a single scope. -/
def of (frame : ScopeFrame) : ScopeStack := ⟨frame, []⟩

/-- The innermost scope. -/
def current (stack : ScopeStack) : ScopeFrame := stack.inner.head?.getD stack.outermost

/-- Enters a scope. -/
def push (stack : ScopeStack) (frame : ScopeFrame) : ScopeStack :=
  { stack with inner := frame :: stack.inner }

/-- Leaves the innermost scope, unless it is the outermost one. -/
def pop (stack : ScopeStack) : ScopeStack := { stack with inner := stack.inner.tail }

/-- The number of scopes. -/
def depth (stack : ScopeStack) : Nat := stack.inner.length + 1

@[simp] theorem pop_push (stack : ScopeStack) (frame : ScopeFrame) :
    (stack.push frame).pop = stack := rfl

@[simp] theorem current_push (stack : ScopeStack) (frame : ScopeFrame) :
    (stack.push frame).current = frame := rfl

end ScopeStack

end QueryTree

/-!
## The state of a compile

The state of one compile: the token that is looked at, the tokens after it, the scopes around it,
the names that stand for an element, and what outlives the compile.
-/

namespace QueryTree

/-- What outlives a compile: the record types made so far and the number of the next parameter. -/
structure Store where
  records : RecordTypes
  nextParameter : Nat

namespace Store

/-- The store before the first compile. -/
def initial : Store := ⟨.empty, 0⟩

/-- A parameter that is different from all before. -/
def newParameter (store : Store) (name : String) (type : Ty) : Parameter × Store :=
  (⟨store.nextParameter, name, type⟩, { store with nextParameter := store.nextParameter + 1 })

end Store

/-- What a name of a parameter or of a supplied value stands for. -/
inductive Symbol where
  | parameter (p : Parameter)
  | value (v : Value)
  | expr (e : Expr)

/-- What a text is compiled with. -/
structure CompileContext where
  env : Environment
  /-- Parameters and positional values by their folded names. -/
  symbols : List (String × Symbol)
  /-- Named values by their folded names. -/
  externals : List (String × Value)

/-- What the folded names that stand for an element stand for. -/
def ElementNames := String → Option Parameter

namespace ElementNames

/-- No name stands for an element. -/
def empty : ElementNames := fun _ => none

/-- What a name stands for. -/
def lookup (names : ElementNames) (key : String) : Option Parameter := names key

/-- The names, of which one stands for something else, or for nothing any more. -/
def set (names : ElementNames) (key : String) (element? : Option Parameter) : ElementNames :=
  fun other => if other = key then element? else names other

end ElementNames

/-- The state of a compile. -/
structure Session where
  current : Token
  rest : List Token
  /-- What is wrong with the text after the last token. -/
  failure : Option CompileError
  scopes : ScopeStack
  /-- The names that stand for an element. -/
  internals : ElementNames
  store : Store

/-- A step of a compile.  The state is kept when a step fails. -/
abbrev Parse := EStateM CompileError Session

namespace Parse

/-- The outcome of something that does not look at the state. -/
def lift {α : Type} : Except CompileError α → Parse α
  | .ok a => pure a
  | .error e => throw e

/-- Fails at a position. -/
def failAt {α : Type} (position : Nat) (fault : CompileFault) : Parse α :=
  throw ⟨position, fault⟩

/-- The current token. -/
def current : Parse Token := return (← get).current

/-- The position of the current token. -/
def position : Parse Nat := return (← current).position

/-- Whether the current token is of a kind. -/
def check (kind : TokenKind) : Parse Bool := return (← current).kind == kind

/-- Whether the current token is a word. -/
def checkWord (word : String) : Parse Bool := return (← current).isWord word

/-- Fails at the current token. -/
def failHere {α : Type} (fault : CompileFault) : Parse α := do failAt (← position) fault

/-- Goes on to the next token.  The last token is never left. -/
def advance : Parse Unit := do
  let session ← get
  match session.rest with
  | token :: rest => set { session with current := token, rest := rest }
  | [] =>
    match session.failure with
    | some error => throw error
    | none => pure ()

/-- Fails unless the current token is of a kind. -/
def validate (kind : TokenKind) (fault : CompileFault) : Parse Unit := do
  if ← check kind then pure () else failHere fault

/-- Passes over a token of a kind. -/
def expect (kind : TokenKind) (fault : CompileFault) : Parse Unit := do
  validate kind fault
  advance

/-- The name that an identifier spells: an `@` at its front is not part of it. -/
def unescapedName (text : String) : String :=
  match text.toList with
  | '@' :: c :: rest => String.ofList (c :: rest)
  | _ => text

/-- The name that the current token spells. -/
def identifier : Parse String := do
  validate .identifier (.expected .identifier)
  return unescapedName (← current).text

/-- The number of tokens that are still to come, which bounds every loop over tokens. -/
def tokensLeft : Parse Nat := return (← get).rest.length

/-- The innermost scope. -/
def scope : Parse ScopeFrame := return (← get).scopes.current

/-- Runs a step inside a scope, which is left however the step ends. -/
def withScope {α : Type} (frame : ScopeFrame) (step : Parse α) : Parse α := fun session =>
  match step { session with scopes := session.scopes.push frame } with
  | .ok a after => .ok a { after with scopes := after.scopes.pop }
  | .error e after => .error e { after with scopes := after.scopes.pop }

/-- Runs a step in which a folded name stands for an element.  However the step ends, the name
stands for what it stood for before. -/
def withInternal {α : Type} (key : String) (element : Parameter) (step : Parse α) : Parse α :=
  fun session =>
    let before := session.internals.lookup key
    match step { session with internals := session.internals.set key (some element) } with
    | .ok a after => .ok a { after with internals := after.internals.set key before }
    | .error e after => .error e { after with internals := after.internals.set key before }

/-- A parameter that is different from all before. -/
def newParameter (name : String) (type : Ty) : Parse Parameter := do
  let session ← get
  let (p, store) := session.store.newParameter name type
  set { session with store := store }
  return p

/-- The record type of a projection. -/
def recordType (names : List String) (types : List Ty) : Parse Ty := do
  let session ← get
  let (type, records) := session.store.records.intern names types
  set { session with store := { session.store with records := records } }
  return type

/-- Runs `item` once and again after each comma. -/
def commaList {α : Type} (item : Parse α) : Parse (List α) := do
  let first ← item
  let rest ← go ((← tokensLeft) + 1)
  return first :: rest
where
  /-- The items after the first one. -/
  go : Nat → Parse (List α)
    | 0 => return []
    | fuel + 1 => do
      if ← check .comma then
        advance
        let next ← item
        let rest ← go fuel
        return next :: rest
      else return []

/-- Arguments in parentheses. -/
def argumentList (expression : Parse Expr) : Parse (List Expr) := do
  expect .openParen (.expected .openParen)
  let args ← if ← check .closeParen then pure [] else commaList expression
  expect .closeParen (.expected .closeParenOrComma)
  return args

end Parse

end QueryTree
