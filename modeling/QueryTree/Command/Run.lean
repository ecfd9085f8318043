import QueryTree.Compile.Expression
import QueryTree.Evaluate.Expression
import QueryTree.Expr.Tree
import QueryTree.Model.Basic
import QueryTree.Model.Document

/-!
# Commands and command lines

The commands for an expression text and a schema, and the words by which they are given.
-/

namespace QueryTree

/-! ## Commands

What can be done with an expression text and a schema: show its tree, evaluate it for an input, or
show the sort keys that it lists.
-/

/-- What a command works on. -/
structure Request where
  text : String
  /-- The text of the schema. -/
  schema : String
  /-- The name of the type of `it`, if it is not that of the schema. -/
  it : Option String
  /-- The text of the input document. -/
  input : Option String

namespace Request

/-- What a compile yields, as the outcome of a command. -/
def ofCompile {α : Type} (compiled : Except CompileError α × Store) : Except Failure α :=
  match compiled.1 with
  | .ok a => .ok a
  | .error error => .error (.compile error)

/-- The type of a function's result. -/
def resultType : Expr → Ty
  | .lambda _ body => body.type
  | e => e.type

/-- The parameter `it` of a type, and the store after it was made. -/
def element (type : Ty) : Parameter × Store := Store.initial.newParameter "" type

/-- The compiled text as a function of `it`. -/
def compile (request : Request) (model : Model) (type : Ty) : Except Failure Expr :=
  let (it, store) := element type
  ofCompile (compileFunction model.environment [it] none request.text [] store)

/-- The tree of the text, and the type of its result. -/
def check (request : Request) : Except Failure String := do
  let model ← Model.ofText request.schema
  let type ← model.elementType request.it
  let function ← request.compile model type
  return function.tree ⟨true⟩ ++ "Result: " ++ (resultType function).display

/-- The input document. -/
def inputJson (request : Request) : Except Failure Json :=
  match request.input with
  | none => .error .noInput
  | some text =>
    match Json.ofText? text with
    | some json => .ok json.normalize
    | none => .error .document

/-- A value of a type from a document. -/
def inputValue (model : Model) (type : Ty) (json : Json) : Except Failure Value :=
  match Value.ofJson model.classes type json with
  | .ok value => .ok value
  | .error fault => .error (.input fault)

/-- The value of the text for the input, as a document. -/
def eval (request : Request) (now : DateTime) : Except Failure Json := do
  let model ← Model.ofText request.schema
  let type ← model.elementType request.it
  let function ← request.compile model type
  let input ← inputValue model type (← request.inputJson)
  match function.call now [input] with
  | .ok value => return value.toJson
  | .error error => throw (.evaluate error)

/-- The trees of the sort keys that the text lists. -/
def order (request : Request) : Except Failure String := do
  let model ← Model.ofText request.schema
  let type ← model.elementType request.it
  let (it, store) := element type
  let keys ← ofCompile (compileOrdering model.environment [it] false request.text [] store)
  return String.join (keys.map SortKey.tree)

end Request

/-! ## Command lines

The words of a command line: a command, an expression text, and options, each of which is followed
by its value.
-/

/-- What is done with an expression text. -/
inductive Command where
  | check | eval | order
deriving DecidableEq

/-- The command that a word names. -/
def Command.ofWord? : String → Option Command
  | "check" => some check
  | "eval" => some eval
  | "order" => some order
  | _ => none

/-- A command line; `schemaFile` is the name of the file that holds the schema. -/
structure CommandLine where
  command : Command
  text : String
  schemaFile : String
  it : Option String
  input : Option String

namespace CommandLine

/-- How a command line is written. -/
def usage : String :=
  "usage: (check | eval | order) EXPRESSION --schema FILE [--it TYPE] [--input JSON]"

/-- The options of a command line. -/
inductive Field where
  | schemaFile | it | input

/-- The option that a word names. -/
def Field.ofWord? : String → Option Field
  | "--schema" | "-s" => some schemaFile
  | "--it" => some it
  | "--input" | "-i" => some input
  | _ => none

/-- What has been read of a command line. -/
structure Words where
  text : Option String
  schemaFile : Option String
  it : Option String
  input : Option String

namespace Words

/-- The words with the value of an option. -/
def set (words : Words) (value : String) : Field → Words
  | .schemaFile => { words with schemaFile := some value }
  | .it => { words with it := some value }
  | .input => { words with input := some value }

/-- The words with the expression text, which can be given only once. -/
def setText? (words : Words) (text : String) : Option Words :=
  if words.text.isSome then none else some { words with text := some text }

/-- Reads the words after a command. -/
def read? (words : Words) : List String → Option Words
  | [] => some words
  | [word] => if (Field.ofWord? word).isSome then none else words.setText? word
  | word :: value :: rest =>
    match Field.ofWord? word with
    | some field => read? (words.set value field) rest
    | none => (words.setText? word).bind fun words => read? words (value :: rest)

end Words

/-- The command line that some words are. -/
def ofWords? : List String → Option CommandLine
  | [] => none
  | word :: rest => do
    let command ← Command.ofWord? word
    let words ← Words.read? ⟨none, none, none, none⟩ rest
    return ⟨command, ← words.text, ← words.schemaFile, words.it, words.input⟩

end CommandLine

/-- What a command prints. -/
def Request.run (request : Request) (command : Command) (now : DateTime) :
    Except Failure String :=
  match command with
  | .check => request.check.map (· ++ "\n")
  | .eval => (request.eval now).map fun json => json.text ++ "\n"
  | .order => request.order

end QueryTree
