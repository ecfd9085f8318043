import QueryTree.Compile.Member

/-!
# Construction

What follows `new`: projections, constructor calls and member bindings of a named type, and arrays.
-/

namespace QueryTree

/-- One part of a construction, with its name if it has one. -/
structure NewItem where
  name : Option String
  value : Expr
  position : Nat

/-- How the parts of a construction get names. -/
inductive ItemNaming where
  /-- Items of an array have none. -/
  | unnamed
  /-- Arguments or bindings of a named type may have one. -/
  | optional
  /-- Members of a projection are named, or take the name of the member that they are. -/
  | inferred
deriving DecidableEq

namespace NewItem

/-- The name that an expression gives to a member of a projection. -/
def inferredName? : Expr → Option String
  | .staticMember _ name => some name
  | .member _ _ name => some name
  | .index _ _ [arg] => arg.text?
  | _ => none

/-- One part of a construction. -/
def parse (expression : Parse Expr) (naming : ItemNaming) : Parse NewItem := do
  let position ← Parse.position
  let value ← expression
  if naming = .unnamed then return ⟨none, value, position⟩
  else if ← Parse.checkWord "as" then
    Parse.advance
    let name ← Parse.identifier
    Parse.advance
    return ⟨some name, value, position⟩
  else if naming = .optional then return ⟨none, value, position⟩
  else
    match inferredName? value with
    | some name => return ⟨some name, value, position⟩
    | none => Parse.failAt position .missingName

/-- Whether the current token ends the parts of a construction. -/
def atEnd : Parse Bool := return (← Parse.check .closeParen) || (← Parse.check .closeCurly)

/-- The parts of a construction, of which the last may be followed by a comma. -/
def parseAll (expression : Parse Expr) (naming : ItemNaming) : Nat → Parse (List NewItem)
  | 0 => return []
  | fuel + 1 => do
    if ← atEnd then return []
    else
      let item ← parse expression naming
      if ← Parse.check .comma then
        Parse.advance
        let rest ← parseAll expression naming fuel
        return item :: rest
      else return [item]

/-- The first part whose name another part before it has, and that name. -/
def duplicate? (options : Options) : List String → List NewItem → Option (NewItem × String)
  | _, [] => none
  | seen, item :: rest =>
    match item.name with
    | none => duplicate? options seen rest
    | some name =>
      if seen.any (options.sameName · name) then some (item, name)
      else duplicate? options (name :: seen) rest

/-- The named parts. -/
def named (items : List NewItem) : List (String × Expr) :=
  items.filterMap fun item => item.name.map fun name => (name, item.value)

end NewItem

namespace CompileContext

/-- Items converted to the type that the items of an array have. -/
def arrayItems (ctx : CompileContext) (element : Ty) (position : Nat) :
    List Expr → Except CompileError (List Expr)
  | [] => .ok []
  | e :: rest =>
    match e.promote? ctx.env.classes .assignment element with
    | some item => (arrayItems ctx element position rest).map (item :: ·)
    | none => .error ⟨position, .cannotConvert e.type element⟩

/-- An array of items.  Without a named type it is the type that all items share, or else the top
type. -/
def newArray (ctx : CompileContext) (element? : Option Ty) (position : Nat) (items : List Expr) :
    Except CompileError Expr :=
  match element? with
  | some element => (ctx.arrayItems element position items).map (.newArray (.array element))
  | none =>
    match (items.head?.map (·.type)).filter fun t => items.all (·.type == t) with
    | some element => .ok (.newArray (.array element) items)
    | none =>
      .ok (.newArray (.array .object)
        (items.map fun e => if e.type == .object then e else .convert .object e))

/-- The bindings of members of a type. -/
def bindings (ctx : CompileContext) (type : Ty) :
    List NewItem → Except CompileError (List (String × Expr))
  | [] => .ok []
  | item :: rest => do
    let name := item.name.getD ""
    match (type.members ctx.env.classes).find? fun m =>
        !m.isStatic && ctx.env.options.sameName m.name name with
    | none => throw ⟨item.position, .unknownMember name type⟩
    | some member =>
      match item.value.promote? ctx.env.classes .assignment member.type with
      | none => throw ⟨item.position, .cannotConvert item.value.type member.type⟩
      | some value =>
        let rest ← bindings ctx type rest
        return (member.name, value) :: rest

/-- A constructor call or member bindings of a named type: either no part has a name or all have. -/
def newOfType (ctx : CompileContext) (type : Ty) (position : Nat) (items : List NewItem) :
    Except CompileError Expr :=
  if items.all (·.name.isNone) then
    Expr.constructOf ctx.env.classes type position (items.map (·.value))
  else
    match items.find? (·.name.isNone) with
    | some item => .error ⟨item.position, .missingName⟩
    | none => (ctx.bindings type items).map (.record type .bindings)

/-- A projection. -/
def projection (ctx : CompileContext) (items : List NewItem) : Parse Expr := do
  let members := NewItem.named items
  let type ←
    if ctx.env.options.dynamicRecords then pure .dynamic
    else Parse.recordType (members.map (·.1)) (members.map (·.2.type))
  return .record type .anonymous members

/-- The rest of a name that has parts joined by dots. -/
def qualifiedRest : Nat → String → Parse String
  | 0, name => return name
  | fuel + 1, name => do
    if ← Parse.check .dot then
      Parse.advance
      let part ← Parse.identifier
      Parse.advance
      qualifiedRest fuel (name ++ "." ++ part)
    else return name

/-- Whether a token can follow the type of a construction. -/
def opensParts (kind : TokenKind) : Bool := kind matches .openParen | .openBracket | .openCurly

/-- The type that is named after `new`, if one is. -/
def newType? (ctx : CompileContext) (position : Nat) : Parse (Option Ty) := do
  if ← Parse.check .identifier then
    let first := (← Parse.current).text
    Parse.advance
    let name ← qualifiedRest ((← Parse.tokensLeft) + 1) first
    match ctx.env.resolveType? name (← Parse.scope).types false with
    | none => Parse.failAt position (.typeNotFound name)
    | some type =>
      let next ← Parse.current
      if opensParts next.kind then return some type
      else Parse.failHere (.expected .openParen)
  else return none

/-- The brackets that mark an array, if they follow. -/
def arrayMark : Parse Bool := do
  if ← Parse.check .openBracket then
    Parse.advance
    Parse.expect .closeBracket (.expected .closeBracket)
    Parse.validate .openCurly (.expected .openCurly)
    return true
  else return false

/-- The meaning of the parts of a construction of a named type, of an array or of a projection. -/
def constructed (ctx : CompileContext) (type? : Option Ty) (isArray : Bool) (position : Nat)
    (items : List NewItem) : Parse Expr :=
  if isArray then Parse.lift (ctx.newArray type? position (items.map (·.value)))
  else
    match NewItem.duplicate? ctx.env.options [] items with
    | some (item, name) => Parse.failAt item.position (.duplicateMember name)
    | none =>
      match type? with
      | none => ctx.projection items
      | some type => Parse.lift (ctx.newOfType type position items)

/-- A construction from behind `new` on. -/
def constructionBody (ctx : CompileContext) (expression : Parse Expr) (position : Nat) :
    Parse Expr := do
  let type? ← ctx.newType? position
  let isArray ← arrayMark
  Parse.advance
  let naming : ItemNaming :=
    if isArray then .unnamed else if type?.isSome then .optional else .inferred
  let items ← NewItem.parseAll expression naming ((← Parse.tokensLeft) + 1)
  if ← NewItem.atEnd then
    Parse.advance
    ctx.constructed type? isArray position items
  else Parse.failHere (.expected .closeParenOrComma)

/-- Whether a token can follow `new`. -/
def opensConstruction (kind : TokenKind) : Bool :=
  kind matches .openParen | .openCurly | .openBracket | .identifier

/-- A construction; the current token is `new`. -/
def construction (ctx : CompileContext) (expression : Parse Expr) : Parse Expr := do
  Parse.advance
  let position ← Parse.position
  let next ← Parse.current
  if opensConstruction next.kind then ctx.constructionBody expression position
  else Parse.failHere (.expected .openParenOrIdentifier)

end CompileContext

end QueryTree
