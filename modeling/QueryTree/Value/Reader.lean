import QueryTree.Number.Decimal.Reader
import QueryTree.Time.Reader
import QueryTree.Value.Order

/-!
# Reading values

Values from text, by the type that is wanted.  Not every type can be read from text.
-/

namespace QueryTree.Value

/-- How a value of a type that does not admit null is read from a text without blanks around it,
if the type has a text form. -/
def reader? (type : Ty) : Option (String → Option Value) :=
  match type with
  | .boolean => some fun text =>
    let word := Text.foldAscii text
    if word = "true" then some (boolean true)
    else if word = "false" then some (boolean false)
    else none
  | .char => some fun text =>
    match text.toList with
    | [c] => some (char c)
    | _ => none
  | .integral kind => some fun text =>
    (Numeral.int? text).bind fun n => (Integer.ofInt? kind n).map integral
  | .single => some fun text => (Numeral.single? text).map single
  | .double => some fun text => (Numeral.double? text).map double
  | .decimal => some fun text => (Decimal.ofText? text).map decimal
  | .dateTime => some fun text => (DateTime.ofText? text).map dateTime
  | .guid => some fun text => (Guid.ofText? text).map guid
  | _ => none

/-- What reading a text as a value of a type yields. -/
inductive TextReading where
  /-- The type has no text form. -/
  | unreadable
  /-- The text is not the text form of a value of the type. -/
  | invalid
  | read (value : Value)

/-- Reads a text, without regard to blanks around it, as a value of a type. -/
def ofText (type : Ty) (text : String) : TextReading :=
  match reader? type.core with
  | none => .unreadable
  | some read =>
    match read (Text.trim text) with
    | none => .invalid
    | some value => .read value

/-- The value that a text reads as, if there is one. -/
def ofText? (type : Ty) (text : String) : Option Value :=
  match ofText type text with
  | .read value => some value
  | _ => none

end QueryTree.Value
