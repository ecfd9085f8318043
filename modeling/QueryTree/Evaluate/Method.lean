import QueryTree.Evaluate.Operation
import QueryTree.Number.Decimal.Binary
import QueryTree.Text.Intervals
import QueryTree.Text.Search

/-!
# Members and methods of values

The values of members and indices, and the built-in methods.
-/

/-!
## Members of values

The values of members and indices.
-/

namespace QueryTree.Value

/-- A count as a 32-bit integer, if it fits. -/
def count (what : String) (n : Int) : Evaluation Value :=
  Evaluation.require (.overflow what) ((Integer.ofInt? .int32 n).map integral)

/-- The ratio of the circumference of a circle to its diameter. -/
def circleConstant : Float := 3.141592653589793

/-- The base of natural logarithms. -/
def growthConstant : Float := 2.718281828459045

/-- The value of a static member, which its name and type determine.  `now` is the present
moment. -/
def ofStaticMember (now : DateTime) (type : Ty) (name : String) : Evaluation Value :=
  let unsupported : EvalError := .unsupported (.staticMember name type)
  match name, type with
  | "PI", .double => .ok (double circleConstant)
  | "E", .double => .ok (double growthConstant)
  | "Empty", .string => .ok (string "")
  | "Now", .dateTime => .ok (dateTime now)
  | "Today", .dateTime => .ok (dateTime (.midnight now.day))
  | "MinValue", .dateTime => .ok (dateTime .minValue)
  | "MaxValue", .dateTime => .ok (dateTime .maxValue)
  | "MinValue", .integral kind => Evaluation.require unsupported (ofInt? (.integral kind) kind.min)
  | "MaxValue", .integral kind => Evaluation.require unsupported (ofInt? (.integral kind) kind.max)
  | _, _ => .error unsupported

/-- The member of an object with a name, or else the first one whose name differs from it only in
the case of ASCII letters, or else null. -/
def memberNamed (name : String) (members : List (String × Value)) : Value :=
  ((members.lookup name)
    <|> (members.find? fun member => Text.sameIgnoringAsciiCase member.1 name).map (·.2)).getD null

/-- The number of steps of a ten-millionth of a second from the first moment of year 1.  Parts of a
millionth are not counted. -/
def ticks (moment : DateTime) : Evaluation Value :=
  let micros := (moment.since .minValue).nanoseconds.tdiv 1000
  if !fitsInt64 micros then .error (.overflow "Ticks")
  else Evaluation.require .aborted ((Integer.ofInt? .int64 (micros * 10)).map integral)

/-- A member of a moment. -/
def ofDateTimeMember (moment : DateTime) (name : String) : Evaluation Value :=
  match name with
  | "Year" => .ok (int32 moment.date.year)
  | "Month" => .ok (int32 moment.date.month)
  | "Day" => .ok (int32 moment.date.day)
  | "Hour" => .ok (int32 moment.hour)
  | "Minute" => .ok (int32 moment.minute)
  | "Second" => .ok (int32 moment.secondOfMinute)
  | "Millisecond" => .ok (int32 (moment.nanosecond / 1000000 : Nat))
  | "DayOfYear" => .ok (int32 (Calendar.dayOfYear moment.day))
  | "Date" => .ok (dateTime (.midnight moment.day))
  | "Ticks" => ticks moment
  | _ => .error (.unsupported (.builtIn "DateTime" name))

/-- A member of a duration.  Totals are derived from the whole milliseconds. -/
def ofTimeSpanMember (span : TimeSpan) (name : String) : Evaluation Value :=
  let millis := doubleOfInt span.milliseconds
  match name with
  | "Days" => count name span.days
  | "Hours" => count name (span.hours.tmod 24)
  | "Minutes" => count name (span.minutes.tmod 60)
  | "Seconds" => count name (span.seconds.tmod 60)
  | "TotalDays" => .ok (double (millis / 86400000.0))
  | "TotalHours" => .ok (double (millis / 3600000.0))
  | "TotalMinutes" => .ok (double (millis / 60000.0))
  | "TotalSeconds" => .ok (double (millis / 1000.0))
  | _ => .error (.unsupported (.builtIn "TimeSpan" name))

/-- A member of a value, by the kind of the value. -/
def ofOwnMember (type : Ty) (name : String) (value : Value) : Evaluation Value :=
  let unsupported : EvalError := .unsupported (.member name value.naturalType)
  match value with
  | null => .error (.null (.member name type))
  | object members => .ok (memberNamed name members)
  | string s => if name = "Length" then count name s.length else .error unsupported
  | array items =>
    if name = "Length" || name = "Count" then count name items.length else .error unsupported
  | dateTime moment => ofDateTimeMember moment name
  | timeSpan span => ofTimeSpanMember span name
  | _ => .error unsupported

/-- A member of a value that an expression of a type has. -/
def ofMember (type : Ty) (name : String) (value : Value) : Evaluation Value :=
  if type.isNullable && name = "HasValue" then .ok (boolean !value.isNull)
  else if type.isNullable && name = "Value" then
    if value.isNull then .error (.null .nullableValue) else .ok value
  else ofOwnMember type name value

/-- An item at a position. -/
def itemAt {α : Type} (items : List α) (i : Int) : Evaluation α :=
  Evaluation.require (.indexOutOfRange i) (if i < 0 then none else items[i.toNat]?)

/-- The integer that an index is. -/
def position (key : Value) : Evaluation Int :=
  Evaluation.require (.type (.notNumeric key)) key.toInt?

/-- An array or a text at a position, or an object at a name. -/
def atIndex (value : Value) (keys : List Value) : Evaluation Value :=
  match value, keys with
  | null, _ => .error (.null .index)
  | array items, [key] => do itemAt items (← position key)
  | string s, [key] => do return char (← itemAt s.toList (← position key))
  | object members, [string name] => .ok (memberNamed name members)
  | other, _ => .error (.type (.indexOf other))

end QueryTree.Value

/-!
## Methods of values

The built-in methods of texts and moments and the mathematical functions.
-/

namespace QueryTree.Value

/-- The argument at a place, which has to be a text. -/
def textArgument (args : List Value) (place : Nat) : Evaluation String :=
  match args[place]? with
  | some (string s) => .ok s
  | some null => .error (.null .textArgument)
  | _ => .error (.type (.textArgument place))

/-- The argument at a place, which has to be an integer. -/
def integerArgument (args : List Value) (place : Nat) : Evaluation Int :=
  Evaluation.require (.type (.integerArgument place)) (args[place]?.bind toInt?)

/-- Part of a text, by the position of its first character and the number of characters. -/
def substring (s : String) (start length : Int) : Evaluation Value :=
  let stop := start + length
  if start < 0 || length < 0 || (s.length : Int) < stop then .error (.indexOutOfRange stop)
  else .ok (string (String.ofList ((s.toList.drop start.toNat).take length.toNat)))

/-- Whether an argument is a text that satisfies a condition, or no text. -/
def isBlankText (condition : String → Bool) : Option Value → Bool
  | some (string s) => condition s
  | _ => true

/-- The number that says how one value is ordered against another. -/
def orderNumber (left right : Value) : Int :=
  match left.compare? right with
  | some .lt => -1
  | some .gt => 1
  | _ => 0

/-- A method that belongs to the type of texts and not to one text. -/
def callTextFunction (name : String) (args : List Value) : Evaluation Value :=
  match name with
  | "IsNullOrEmpty" => .ok (boolean (isBlankText (·.isEmpty) args.head?))
  | "IsNullOrWhiteSpace" =>
    .ok (boolean (isBlankText (fun s => (Text.trim s).isEmpty) args.head?))
  | "Concat" => .ok (string (String.join ((args.filter (!·.isNull)).map text)))
  | "Compare" =>
    .ok (int32 (orderNumber (args.head?.getD null) (args[1]?.getD null)))
  | _ => .error (.unsupported (.builtIn "String" name))

/-- A method of a text. -/
def callTextMethod (name : String) (s : String) (args : List Value) : Evaluation Value :=
  match name with
  | "Contains" => do return boolean (Text.containsText s (← textArgument args 0))
  | "StartsWith" => do
    return boolean ((← textArgument args 0).toList.isPrefixOf s.toList)
  | "EndsWith" => do
    return boolean ((← textArgument args 0).toList.isSuffixOf s.toList)
  | "Equals" => .ok (boolean (args.head?.any (· == string s)))
  | "ToUpper" => .ok (string (Text.uppercase s))
  | "ToLower" => .ok (string (Text.lowercase s))
  | "Trim" => .ok (string (Text.trim s))
  | "Substring" => do
    let start ← integerArgument args 0
    let length ← if 1 < args.length then integerArgument args 1 else pure (s.length - start)
    substring s start length
  | "IndexOf" => do
    let pattern ← textArgument args 0
    return int32 (match Text.indexOf? pattern.toList s.toList with
      | some place => (place : Int)
      | none => -1)
  | "Replace" => do
    let pattern ← textArgument args 0
    let replacement ← textArgument args 1
    return string (Text.replaceText s pattern replacement)
  | _ => .error (.unsupported (.builtIn "String" name))

/-- Milliseconds in the unit that a method of moments adds. -/
def millisPerUnit? : String → Option Float
  | "AddDays" => some 86400000.0
  | "AddHours" => some 3600000.0
  | "AddMinutes" => some 60000.0
  | "AddSeconds" => some 1000.0
  | _ => none

/-- The whole milliseconds nearest to a real number, within 64 bits. -/
def wholeMillis (x : Float) : Int :=
  max IntKind.int64.min (min IntKind.int64.max (integerOfDouble x.round))

/-- A method of a moment. -/
def callDateTimeMethod (name : String) (moment : DateTime) (args : List Value) :
    Evaluation Value := do
  let amount ←
    Evaluation.require (.type (.numberArgument name)) (args.head?.bind toDouble?)
  let unit ← Evaluation.require (.unsupported (.builtIn "DateTime" name)) (millisPerUnit? name)
  Evaluation.require (.overflow ("DateTime." ++ name))
    (((TimeSpan.ofMillis? (wholeMillis (amount * unit))).bind moment.add?).map dateTime)

/-- A real number rounded to some decimal places, a tie going to the even digit. -/
def roundPlaces (x : Float) (places : Int) : Float :=
  let scale := powerOfTen (IntKind.int32.wrapInt places)
  roundEvenDouble (x * scale) / scale

/-- The number of places that a value is rounded to, if there is an argument for it. -/
def placesArgument (args : List Value) : Evaluation Int :=
  if 1 < args.length then integerArgument args 1 else .ok 0

/-- The magnitude of an integer, if it fits its width. -/
def magnitude (n : Integer) : Evaluation Value :=
  Evaluation.require (.overflow "Abs") ((Integer.ofInt? n.kind n.val.natAbs).map integral)

/-- The other value if it is ordered as wanted against the first one, which is returned
otherwise. -/
def pick (wanted : Ordering) (first other : Value) : Value :=
  if other.compare? first == some wanted then other else first

/-- A mathematical function. -/
def callMath (name : String) (args : List Value) : Evaluation Value :=
  let arg := args.head?.getD null
  let second := args[1]?.getD null
  let unsupported : EvalError := .unsupported (.mathOf name arg.naturalType)
  match name, arg with
  | "Max", _ => .ok (pick .gt arg second)
  | "Min", _ => .ok (pick .lt arg second)
  | "Abs", integral n =>
    if n.kind = .int32 || n.kind = .int64 then magnitude n else .error unsupported
  | "Abs", single x => .ok (single x.abs)
  | "Abs", double x => .ok (double x.abs)
  | "Abs", decimal d => .ok (decimal d.abs)
  | "Round", double x => do return double (roundPlaces x (← placesArgument args))
  | "Round", decimal d => do
    let places ← placesArgument args
    if 0 ≤ places && places < Nat.pow 2 32 then return decimal (d.roundTo places.toNat)
    else throw (.indexOutOfRange places)
  | "Floor", double x => .ok (double x.floor)
  | "Floor", decimal d => .ok (decimal d.floor)
  | "Ceiling", double x => .ok (double x.ceil)
  | "Ceiling", decimal d => .ok (decimal d.ceiling)
  | "Truncate", double x => .ok (double (truncDouble x))
  | "Truncate", decimal d => .ok (decimal d.trunc)
  | "Sqrt", double x => .ok (double x.sqrt)
  | "Pow", double x =>
    Evaluation.require unsupported ((args[1]?.bind toDouble?).map fun y => double (x.pow y))
  | _, _ => .error unsupported

/-- A call of a method on a value, or on a type if there is no value. -/
def callMethod (method : Method) (receiver? : Option Value) (args : List Value) :
    Evaluation Value :=
  if method.name = "ToString" then
    match receiver?.filter (!·.isNull) with
    | some value => .ok (string value.text)
    | none => .error (.null .toText)
  else
    match method.declaringType, receiver? with
    | "String", none => callTextFunction method.name args
    | "String", some (string s) => callTextMethod method.name s args
    | "DateTime", some (dateTime moment) => callDateTimeMethod method.name moment args
    | "String", _ => .error (.null (.receiver "String" method.name))
    | "DateTime", _ => .error (.null (.receiver "DateTime" method.name))
    | "Math", _ => callMath method.name args
    | declaringType, _ => .error (.unsupported (.method declaringType method.name))

end QueryTree.Value
