import QueryTree.Named
import QueryTree.Number.Shortest
import QueryTree.Text.Quoted

/-!
# Documents

The values of the JSON data format and their compact text.

The documented behaviour of a JSON value is followed: an integer of 64 bits, with or without a sign,
stays an integer, and every other number is a real number of 64 bits; the members of an object are
sorted by name, of two with one name the last counts; the text has no blanks, the short escapes
where there are any, and `null` for a real number that is not finite.
-/

namespace QueryTree

/-! ## Documents

The values of the JSON data format.  Integers that fit 64 bits, with or without a sign, are kept
apart from real numbers.
-/

/-- A document.  An object keeps its members as they are written. -/
inductive Json where
  | null
  | bool (b : Bool)
  | int (n : Int)
  | real (x : Float)
  | string (s : String)
  | array (items : List Json)
  | object (members : List (String × Json))

namespace Json

instance : Inhabited Json := ⟨null⟩

mutual

/-- The document with the members of each object sorted by name; of several with one name the last
counts. -/
def normalize : Json → Json
  | array items => array (normalizeAll items)
  | object members => object (Named.sort (normalizeMembers members))
  | other => other

/-- Documents normalized one by one. -/
def normalizeAll : List Json → List Json
  | [] => []
  | item :: rest => normalize item :: normalizeAll rest

/-- Members normalized one by one. -/
def normalizeMembers : List (String × Json) → List (String × Json)
  | [] => []
  | (name, value) :: rest => (name, normalize value) :: normalizeMembers rest

end

end Json

end QueryTree

namespace QueryTree.Json

/-! ## Printed documents

Documents as compact text: no blanks, short escapes where there are any, and the shortest digits
that read back as the same real number.
-/

/-- A character inside a string. -/
def escapeChar (c : Char) : String :=
  if c = '"' then "\\\""
  else if c = '\\' then "\\\\"
  else if c = '\x08' then "\\b"
  else if c = '\x0c' then "\\f"
  else if c = '\n' then "\\n"
  else if c = '\r' then "\\r"
  else if c = '\t' then "\\t"
  else if c.toNat < 32 then
    (if c.toNat < 16 then "\\u000" else "\\u00") ++ Text.hexText c.toNat
  else String.singleton c

/-- A string in quotes. -/
def quote (s : String) : String :=
  "\"" ++ String.join (s.toList.map escapeChar) ++ "\""

mutual

/-- The text of a document.  A real number that is not finite has no text of its own. -/
def text : Json → String
  | null => "null"
  | bool b => if b then "true" else "false"
  | int n => toString n
  | real x => if x.isFinite then RealLayout.document.doubleText x else "null"
  | string s => quote s
  | array items => "[" ++ ",".intercalate (itemTexts items) ++ "]"
  | object members => "\x7b" ++ ",".intercalate (memberTexts members) ++ "\x7d"

/-- The texts of items. -/
def itemTexts : List Json → List String
  | [] => []
  | item :: rest => item.text :: itemTexts rest

/-- The texts of members. -/
def memberTexts : List (String × Json) → List String
  | [] => []
  | (name, value) :: rest => (quote name ++ ":" ++ value.text) :: memberTexts rest

end

end QueryTree.Json
