import QueryTree.Expr.Basic
import QueryTree.Text.Quoted

/-!
# Printed trees

Expression trees as text, one node a line, with branches drawn in front.  A chain of members that
starts at a parameter or at a type is one line.
-/

namespace QueryTree

/-- Whether a line shows the type of its node. -/
structure TreeStyle where
  showsTypes : Bool

namespace Expr

/-- A chain of members that starts at a parameter or at a member of a type. -/
def path? : Expr → Option String
  | parameter p => some p.shownName
  | staticMember _ name => some name
  | member _ target name => (path? target).map fun path => path ++ "." ++ name
  | _ => none

/-- The text of a constant: texts and characters stand in quotes. -/
def constantText : Value → String
  | .string s => Text.quoteText s
  | .char c => Text.quoteChar c
  | other => other.text

/-- The kind of a node. -/
def kindName : Expr → String
  | constant _ _ _ => "Constant"
  | parameter _ => "Parameter"
  | staticMember _ _ | member _ _ _ => "MemberAccess"
  | index _ _ _ => "IndexAccess"
  | staticCall _ _ _ | methodCall _ _ _ _ | aggregate _ _ _ _ _ | invoke _ _ _ => "Call"
  | binary _ _ _ _ _ => "Binary"
  | convert _ _ => "Convert"
  | negate _ _ | not _ _ => "Unary"
  | conditional _ _ _ => "Conditional"
  | coalesce _ _ _ => "Coalesce"
  | lambda _ _ => "Lambda"
  | construct _ _ | record _ _ _ | newArray _ _ => "New"
  | typeTest _ _ _ _ => "TypeCheck"

/-- What a line says of a node besides its kind. -/
def detail : Expr → String
  | constant _ value _ => constantText value
  | parameter p => p.shownName
  | staticMember _ name => name
  | member type target name => ((member type target name).path?).getD ("." ++ name)
  | staticCall _ method _ => method.name
  | methodCall _ method _ _ => method.name
  | aggregate _ operation _ _ _ => operation.name
  | invoke _ _ _ => "Invoke"
  | binary _ op _ _ (some method) => op.name ++ " via " ++ method
  | binary _ op _ _ none => op.name
  | negate _ _ => "Negate"
  | not _ _ => "Not"
  | lambda params _ => ", ".intercalate (params.map (·.shownName)) ++ " =>"
  | construct _ _ => "Constructor"
  | record _ .bindings _ => "Bindings"
  | record _ .anonymous _ => "Anonymous"
  | newArray _ _ => "Array"
  | typeTest _ _ wanted test => test.word ++ " " ++ wanted.display
  | index _ _ _ | convert _ _ | conditional _ _ _ | coalesce _ _ _ => ""

/-- The line of a node, without branches. -/
def label (style : TreeStyle) (e : Expr) : String :=
  let detail := e.detail
  match detail.isEmpty, style.showsTypes with
  | true, true => e.kindName ++ "(" ++ e.type.display ++ ")"
  | true, false => e.kindName
  | false, true => e.kindName ++ "(" ++ detail ++ ": " ++ e.type.display ++ ")"
  | false, false => e.kindName ++ "(" ++ detail ++ ")"

/-- The branch in front of a node. -/
def branch (isLast : Bool) : String := if isLast then "└── " else "├── "

/-- What stands below a branch. -/
def belowBranch (isLast : Bool) : String := if isLast then "    " else "│   "

/-- The lines of one subtree, with `title` before the label of its root, from the lines below the
root after a given indentation. -/
def hang (style : TreeStyle) (indent : String) (isLast : Bool) (title : String) (e : Expr)
    (below : String → List String) : List String :=
  (indent ++ branch isLast ++ title ++ e.label style) :: below (indent ++ belowBranch isLast)

mutual

/-- The lines of the subtrees of a node, each after an indentation. -/
def childLines (style : TreeStyle) : Expr → String → List String
  | constant _ _ _, _ | parameter _, _ | staticMember _ _, _ => []
  | member _ target _, indent =>
    if target.path?.isSome then [] else hang style indent true "" target (childLines style target)
  | index _ target args, indent =>
    hang style indent args.isEmpty "" target (childLines style target)
      ++ listLines style args indent
  | staticCall _ _ args, indent => listLines style args indent
  | methodCall _ _ target args, indent =>
    hang style indent args.isEmpty "" target (childLines style target)
      ++ listLines style args indent
  | aggregate _ _ source _ args, indent =>
    hang style indent args.isEmpty "" source (childLines style source)
      ++ listLines style args indent
  | invoke _ target args, indent =>
    hang style indent args.isEmpty "" target (childLines style target)
      ++ listLines style args indent
  | binary _ _ left right _, indent =>
    hang style indent false "" left (childLines style left)
      ++ hang style indent true "" right (childLines style right)
  | convert _ operand, indent => hang style indent true "" operand (childLines style operand)
  | negate _ operand, indent => hang style indent true "" operand (childLines style operand)
  | not _ operand, indent => hang style indent true "" operand (childLines style operand)
  | conditional test ifTrue ifFalse, indent =>
    hang style indent false "" test (childLines style test)
      ++ hang style indent false "" ifTrue (childLines style ifTrue)
      ++ hang style indent true "" ifFalse (childLines style ifFalse)
  | coalesce _ left right, indent =>
    hang style indent false "" left (childLines style left)
      ++ hang style indent true "" right (childLines style right)
  | lambda _ body, indent => hang style indent true "" body (childLines style body)
  | construct _ args, indent => listLines style args indent
  | record _ _ members, indent => memberLines style members indent
  | newArray _ items, indent => listLines style items indent
  | typeTest _ target _ _, indent => hang style indent true "" target (childLines style target)
termination_by structural e => e

/-- The lines of several subtrees. -/
def listLines (style : TreeStyle) : List Expr → String → List String
  | [], _ => []
  | e :: rest, indent =>
    hang style indent rest.isEmpty "" e (childLines style e) ++ listLines style rest indent
termination_by structural es => es

/-- The lines of several named subtrees. -/
def memberLines (style : TreeStyle) : List (String × Expr) → String → List String
  | [], _ => []
  | (name, e) :: rest, indent =>
    hang style indent rest.isEmpty (name ++ " = ") e (childLines style e)
      ++ memberLines style rest indent
termination_by structural members => members

end

/-- Lines as a text in which each is ended. -/
def joinLines (lines : List String) : String := String.join (lines.map (· ++ "\n"))

/-- The text of a tree. -/
def tree (style : TreeStyle) (e : Expr) : String :=
  joinLines (e.label style :: childLines style e "")

end Expr

/-- The text of a sort key: its method and its selector. -/
def SortKey.tree (key : SortKey) : String :=
  Expr.joinLines
    (key.methodName :: Expr.hang ⟨true⟩ "" true "" key.selector (key.selector.childLines ⟨true⟩))

end QueryTree
