import QueryTree.Evaluate.Operation
import QueryTree.Model.Error
import QueryTree.Type.Class
import QueryTree.Value.Reader

/-!
# Values and documents

Values of a type from documents, and documents from values.
-/

namespace QueryTree.Value

/-- The value of a number of which no type is known: an integer of the first of three widths that
holds it, or a real number. -/
def ofIntegerNumber (n : Int) : Value :=
  match (Integer.ofInt? .int32 n).orElse (fun _ => Integer.ofInt? .int64 n) with
  | some integer => integral integer
  | none => ofInteger .uint64 n

/-- A number as a value of a type. -/
def ofNumber (type : Ty) (json : Json) (natural : Value) : Except InputFault Value :=
  let target := type.core
  if target == .object then .ok natural
  else if target.isNumeric || target.isEnum then
    match natural.toNumeric? target with
    | some value => .ok value
    | none => .error (.mismatch type json)
  else .error (.mismatch type json)

/-- A string as a value of a type: the name of a member of an enumeration, the text form of a value,
or a text where the type has no text form. -/
def ofString (type : Ty) (text : String) : Except InputFault Value :=
  match type.enum? with
  | some e =>
    match e.valueOf? text with
    | some n => .ok (enum e n)
    | none => .error (.notMember text type)
  | none =>
    match ofText type text with
    | .read value => .ok value
    | .invalid => .error (.notValid text type)
    | .unreadable => .ok (string text)

/-- The type of a declared instance member with a name; any other one can be anything. -/
def memberType (members : List Member) (name : String) : Ty :=
  match members.find? fun m => !m.isStatic && m.name == name with
  | some m => m.type
  | none => .object

mutual

/-- The value of a type that a document is. -/
def ofJson (table : ClassTable) : Ty → Json → Except InputFault Value
  | _, .null => .ok null
  | target, .bool b =>
    if target.core == .boolean || target.core == .object then .ok (boolean b)
    else .error (.mismatch target (.bool b))
  | target, .int n => ofNumber target (.int n) (ofIntegerNumber n)
  | target, .real x => ofNumber target (.real x) (double x)
  | target, .string s => ofString target s
  | target, .array items =>
    (ofJsonItems table ((target.core.element? table).getD .object) items).map array
  | target, .object members =>
    (ofJsonMembers table (target.core.members table) members).map ofMembers

/-- The values of a type that documents are. -/
def ofJsonItems (table : ClassTable) (type : Ty) : List Json → Except InputFault (List Value)
  | [] => .ok []
  | item :: rest => do
    let value ← ofJson table type item
    let values ← ofJsonItems table type rest
    return value :: values

/-- The values that the members of an object are, each of its declared type. -/
def ofJsonMembers (table : ClassTable) (declared : List Member) :
    List (String × Json) → Except InputFault (List (String × Value))
  | [] => .ok []
  | (name, item) :: rest => do
    let value ← ofJson table (memberType declared name) item
    let values ← ofJsonMembers table declared rest
    return (name, value) :: values

end

/-- A real number as a document; one that is not finite is null. -/
def realJson (x : Float) : Json := if x.isFinite then .real x else .null

mutual

/-- The document for a value.  Values that have no other form are strings. -/
def toJson : Value → Json
  | null => .null
  | boolean b => .bool b
  | integral n => .int n.val
  | single x => realJson x.toFloat
  | double x => realJson x
  | decimal d => realJson d.toDouble
  | string s => .string s
  | array items => .array (itemsToJson items)
  | object members => .object (membersToJson members)
  | other => .string other.text

/-- The documents for items. -/
def itemsToJson : List Value → List Json
  | [] => []
  | item :: rest => item.toJson :: itemsToJson rest

/-- The documents for members. -/
def membersToJson : List (String × Value) → List (String × Json)
  | [] => []
  | (name, value) :: rest => (name, value.toJson) :: membersToJson rest

end

end QueryTree.Value
