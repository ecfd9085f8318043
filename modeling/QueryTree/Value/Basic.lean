import QueryTree.Guid
import QueryTree.Named
import QueryTree.Number.Decimal.Basic
import QueryTree.Number.Shortest
import QueryTree.Time.DateTime
import QueryTree.Type.Basic

/-!
# Values

The values of constants and of evaluated expressions.  Every number carries its own width, so that
a value determines its natural type.
-/

namespace QueryTree

/-- A value.  The members of an object are sorted by name and their names are distinct. -/
inductive Value where
  | null
  | boolean (b : Bool)
  | char (c : Char)
  | string (s : String)
  | integral (n : Integer)
  | single (x : Float32)
  | double (x : Float)
  | decimal (d : Decimal)
  | dateTime (moment : DateTime)
  | timeSpan (span : TimeSpan)
  | guid (id : Guid)
  /-- A member of an enumeration, or another integer in its place. -/
  | enum (e : EnumType) (n : Int)
  | type (t : Ty)
  | array (items : List Value)
  | object (members : List (String × Value))

namespace Value

instance : Inhabited Value := ⟨null⟩

/-- Whether the value is null. -/
def isNull : Value → Bool
  | null => true
  | _ => false

mutual

/-- The type of a value of which nothing else is known.  The element type of an array is the one
that its items other than null share, if they share one. -/
def naturalType : Value → Ty
  | null => .object
  | boolean _ => .boolean
  | char _ => .char
  | string _ => .string
  | integral n => .integral n.kind
  | single _ => .single
  | double _ => .double
  | decimal _ => .decimal
  | dateTime _ => .dateTime
  | timeSpan _ => .timeSpan
  | guid _ => .guid
  | enum e _ => .enum e
  | type _ => .type
  | array items =>
    match naturalTypes items with
    | [] => .array .object
    | t :: rest => .array (if rest.all (· == t) then t else .object)
  | object _ => .dynamic

/-- The natural types of the items other than null. -/
def naturalTypes : List Value → List Ty
  | [] => []
  | item :: rest => if item.isNull then naturalTypes rest else item.naturalType :: naturalTypes rest

end

/-- An integer as a value. -/
def ofInteger (kind : IntKind) (n : Int) : Value := integral (Integer.wrap kind n)

/-- A 32-bit integer as a value. -/
def int32 (n : Int) : Value := ofInteger .int32 n

mutual

/-- The text of a value.  An array stands in brackets and an object in braces. -/
def text : Value → String
  | null => "null"
  | boolean b => if b then "true" else "false"
  | char c => String.singleton c
  | string s => s
  | integral n => toString n.val
  | single x => RealLayout.plain.singleText x
  | double x => RealLayout.plain.doubleText x
  | decimal d => d.text
  | dateTime moment => moment.text
  | timeSpan span => span.text
  | guid id => id.text
  | enum e n =>
    match e.nameOf? n with
    | some name => name
    | none => toString n
  | type t => t.display
  | array items => "[" ++ ", ".intercalate (itemTexts items) ++ "]"
  | object members => "\x7b" ++ ", ".intercalate (memberTexts members) ++ "\x7d"

/-- The texts of items. -/
def itemTexts : List Value → List String
  | [] => []
  | item :: rest => item.text :: itemTexts rest

/-- The texts of named members. -/
def memberTexts : List (String × Value) → List String
  | [] => []
  | (name, value) :: rest => (name ++ " = " ++ value.text) :: memberTexts rest

end

/-- The text in a value, if it is one. -/
def string? : Value → Option String
  | string s => some s
  | _ => none

/-- The object with the given members; of several with one name the last counts. -/
def ofMembers (members : List (String × Value)) : Value :=
  object (Named.sort members)

end Value

end QueryTree
