import QueryTree.Expr.Basic
import QueryTree.Token.Basic
import QueryTree.Token.Escape
import QueryTree.Value.Reader

/-!
# Literals

Constants from the text of literals.  A constant keeps its text in a normal form: decimal digits, a
point as decimal separator and the letter that chooses its type.  The text of a number can be read
again as a number of another type; one with such a letter cannot.
-/

namespace QueryTree.Literal

/-- A constant that keeps a text. -/
def constant (value : Value) (text : String) : Expr :=
  .constant value.naturalType value (some text)

/-- The letters that make a literal a real number. -/
def isRealQualifier (c : Char) : Bool := c == 'F' || c == 'D' || c == 'M'

/-- A number of 32 bits, as a value, if it is finite. -/
def finiteSingle? (text : String) : Option Value :=
  (Numeral.single? text).bind fun x => if x.isFinite then some (.single x) else none

/-- A number of 64 bits, as a value, if it is finite. -/
def finiteDouble? (text : String) : Option Value :=
  (Numeral.double? text).bind fun x => if x.isFinite then some (.double x) else none

/-- The qualifier of a real literal, if there is one, and the rest of its text. -/
def splitReal (cs : List Char) : List Char × Option Char :=
  match cs.getLast?.map Char.toUpper with
  | some c => if isRealQualifier c then (cs.dropLast, some c) else (cs, none)
  | none => (cs, none)

/-- A real literal: `F` makes it a number of 32 bits, `M` a decimal number, and `D` or no letter a
number of 64 bits. -/
def real (text : String) (separator : Char) (position : Nat) : Except CompileError Expr :=
  let normal := text.toList.map fun c => if c = separator then '.' else c
  let (digits, qualifier) := splitReal normal
  let digits := String.ofList digits
  let value? :=
    match qualifier with
    | some 'F' => finiteSingle? digits
    | some 'M' => (Decimal.ofText? digits).map .decimal
    | _ => finiteDouble? digits
  match value? with
  | none => .error ⟨position, .invalidReal text⟩
  | some value =>
    .ok (constant value (digits ++ (qualifier.map String.singleton).getD ""))

/-- The parts of an integer literal. -/
structure IntegerParts where
  negative : Bool
  isHex : Bool
  digits : List Char
  /-- The letters at the end, in upper case. -/
  qualifier : List Char

/-- Splits a text behind the last character that is no qualifier. -/
def splitQualifier (isQualifier : Char → Bool) (cs : List Char) : List Char × List Char :=
  let letters := cs.reverse.takeWhile isQualifier
  (cs.take (cs.length - letters.length), letters.reverse.map Char.toUpper)

/-- The parts of the text of an integer literal. -/
def IntegerParts.ofChars (cs : List Char) : IntegerParts :=
  let negative := cs.head? == some '-'
  let body := if negative then cs.drop 1 else cs
  match body with
  | '0' :: x :: first :: rest =>
    if x = 'x' || x = 'X' then
      let (digits, qualifier) := splitQualifier (['U', 'u', 'L', 'l'].contains ·) (first :: rest)
      ⟨negative, true, digits, qualifier⟩
    else plain negative body
  | _ => plain negative body
where
  /-- The parts of a literal in decimal notation. -/
  plain (negative : Bool) (body : List Char) : IntegerParts :=
    let (digits, qualifier) := splitQualifier ("UuLlFfDdMm".toList.contains ·) body
    ⟨negative, false, digits, qualifier⟩

/-- The first of some widths that holds an integer. -/
def fitting? (kinds : List IntKind) (n : Int) : Option Value :=
  (kinds.findSome? fun kind => Integer.ofInt? kind n).map .integral

/-- The value of a literal without a sign.  Without a qualifier it has the first of four widths
that holds it. -/
def natural? (qualifier : List Char) (n : Nat) : Option Value :=
  match qualifier with
  | [] => fitting? [.int32, .uint32, .int64, .uint64] n
  | ['U'] => fitting? [.uint32] n
  | ['L'] => fitting? [.int64] n
  | ['U', 'L'] | ['L', 'U'] => fitting? [.uint64] n
  | _ => none

/-- The value of a literal with a minus sign. -/
def opposite? (qualifier : List Char) (n : Nat) : Option Value :=
  fitting? (if qualifier.isEmpty then [.int32, .int64] else [.int64]) (-(n : Int))

/-- An integer literal, perhaps with a minus sign in front.  The letters `F`, `D` and `M` make it a
real literal. -/
def integer (text : String) (position : Nat) : Except CompileError Expr :=
  let parts := IntegerParts.ofChars text.toList
  let invalid := .error ⟨position, .invalidInteger text⟩
  match parts.qualifier.find? isRealQualifier with
  | some letter =>
    if parts.qualifier.length = 1 then
      real (String.ofList ((if parts.negative then ['-'] else []) ++ parts.digits ++ [letter]))
        '.' position
    else invalid
  | none =>
    match Numeral.unsigned? (if parts.isHex then 16 else 10) parts.digits with
    | none => invalid
    | some n =>
      if Nat.pow 2 64 ≤ n then invalid
      else
        let qualifier := String.ofList parts.qualifier
        if parts.negative then
          if qualifier != "" && qualifier != "L" then .error ⟨position, .minusOnUnsigned⟩
          else
            match opposite? parts.qualifier n with
            | some value => .ok (constant value (toString (-(n : Int)) ++ qualifier))
            | none => invalid
        else
          match natural? parts.qualifier n with
          | some value => .ok (constant value (toString n ++ qualifier))
          | none => invalid

/-- A string literal in double quotes or a character literal in single quotes. -/
def quoted (token : Token) : Except CompileError Expr := do
  let decoded ← Escape.decode token.position token.text.toList
  if token.text.toList.head? == some '\'' then
    match decoded with
    | [c] => return constant (.char c) (String.ofList decoded)
    | _ => .error ⟨token.position, .invalidCharacterLiteral⟩
  else return constant (.string (String.ofList decoded)) (String.ofList decoded)

/-- Reads the text of a number again, as a value of a numeric or enumeration type. -/
def number? (text : String) (type : Ty) : Option Value :=
  match type with
  | .integral kind => integral? kind
  | .single => (Numeral.single? text).map .single
  | .double => (Numeral.double? text).map .double
  | .decimal => (Decimal.ofText? text).map .decimal
  | .enum e =>
    if e.lifted then none
    else
      (integral? e.underlying).bind fun value =>
        value.toInt?.bind fun n => Value.ofInt? type n
  | _ => none
where
  /-- The text as an integer of a width. -/
  integral? (kind : IntKind) : Option Value :=
    (Numeral.int? text).bind fun n => (Integer.ofInt? kind n).map .integral

/-- The member of an enumeration that a text names. -/
def member? (text : String) (type : Ty) : Option Value :=
  match type with
  | .enum e => (e.valueOf? text).map (.enum e)
  | _ => none

end QueryTree.Literal
