import QueryTree.Text.Alphabet
import QueryTree.Text.Intervals
import QueryTree.Token.Basic
import QueryTree.Token.Escape

/-!
# Scanning

The tokens of a text.  Blanks separate tokens and belong to none; every other character belongs to
exactly one token.
-/

namespace QueryTree

/-- A token before it has a place: its class, its characters and the characters that follow. -/
structure Lexeme where
  kind : TokenKind
  chars : List Char
  rest : List Char

namespace Lexeme

/-- The characters that an identifier may start with. -/
def startsIdentifier (c : Char) : Bool :=
  Text.isLetter c || ['@', '_', '$', '^', '~'].contains c

/-- The characters that may follow in an identifier. -/
def continuesIdentifier (c : Char) : Bool :=
  Text.isLetter c || Text.isNumeral c || c == '_'

/-- An identifier, or an operator that is a word. -/
def word (c : Char) (rest : List Char) : Lexeme :=
  let chars := c :: rest.takeWhile continuesIdentifier
  ⟨Token.wordKind (String.ofList chars), chars, rest.dropWhile continuesIdentifier⟩

/-- Splits a text behind the delimiter that ends a literal.  A doubled delimiter and a delimiter
after a backslash do not end it. -/
def splitLiteral? (delimiter : Char) : List Char → Option (List Char × List Char)
  | [] => none
  | ['\\'] => none
  | '\\' :: c :: rest =>
    (splitLiteral? delimiter rest).map fun (body, rest) => ('\\' :: c :: body, rest)
  | c :: rest =>
    if c = delimiter then
      match rest with
      | [] => some ([c], [])
      | d :: following =>
        if d = delimiter then
          (splitLiteral? delimiter following).map fun (body, rest) => (c :: d :: body, rest)
        else some ([c], d :: following)
    else (splitLiteral? delimiter rest).map fun (body, rest) => (c :: body, rest)
termination_by structural cs => cs

/-- A string or character literal at a position; its escapes are checked. -/
def literal (position : Nat) (delimiter : Char) (rest : List Char) :
    Except CompileError Lexeme :=
  match splitLiteral? delimiter rest with
  | none => .error ⟨position, .unterminatedString⟩
  | some (body, rest) => do
    let decoded ← Escape.decode position (delimiter :: body)
    if delimiter = '\'' && decoded.length != 1 then .error ⟨position, .invalidCharacterLiteral⟩
    else return ⟨.stringLiteral, delimiter :: body, rest⟩

/-- Whether a character is a hexadecimal digit. -/
def isHexDigit (c : Char) : Bool :=
  c.isDigit || ('a' ≤ c && c ≤ 'f') || ('A' ≤ c && c ≤ 'F')

/-- The letters that may end an integer, and choose its type. -/
def isIntegerQualifier (c : Char) : Bool := ['U', 'u', 'L', 'l'].contains c

/-- The letters that may end a real number, and choose its type. -/
def isRealQualifier (c : Char) : Bool := ['F', 'f', 'D', 'd', 'M', 'm'].contains c

/-- The decimal point and the digits after it, if a digit follows the point. -/
def fraction (separator : Char) (cs : List Char) : List Char :=
  match cs with
  | c :: d :: rest =>
    if c = separator && d.isDigit then c :: d :: rest.takeWhile Char.isDigit else []
  | _ => []

/-- An exponent, if its mark is followed by a digit, perhaps after a sign. -/
def exponent (cs : List Char) : List Char :=
  match cs with
  | mark :: rest =>
    if mark = 'e' || mark = 'E' then
      match rest with
      | sign :: d :: rest =>
        if (sign = '+' || sign = '-') && d.isDigit then
          mark :: sign :: d :: rest.takeWhile Char.isDigit
        else if sign.isDigit then mark :: sign :: (d :: rest).takeWhile Char.isDigit
        else []
      | [d] => if d.isDigit then [mark, d] else []
      | [] => []
    else []
  | [] => []

/-- An integer in decimal notation or a real number. -/
def decimalNumber (separator : Char) (cs : List Char) : Lexeme :=
  let whole := cs.takeWhile Char.isDigit
  let rest := cs.drop whole.length
  let decimals := fraction separator rest
  let rest := rest.drop decimals.length
  let power := exponent rest
  let rest := rest.drop power.length
  if decimals.isEmpty && power.isEmpty then
    let isQualifier (c : Char) : Bool := isIntegerQualifier c || isRealQualifier c
    ⟨.integerLiteral, whole ++ rest.takeWhile isQualifier, rest.dropWhile isQualifier⟩
  else
    ⟨.realLiteral, whole ++ decimals ++ power ++ rest.takeWhile isRealQualifier,
      rest.dropWhile isRealQualifier⟩

/-- An integer in hexadecimal notation, from the character after its mark on. -/
def hexNumber (position : Nat) (mark : Char) (rest : List Char) : Except CompileError Lexeme :=
  let digits := rest.takeWhile isHexDigit
  let following := rest.dropWhile isHexDigit
  if digits.isEmpty then .error ⟨position + 2, .hexDigitExpected⟩
  else
    .ok ⟨.integerLiteral, '0' :: mark :: (digits ++ following.takeWhile isIntegerQualifier),
      following.dropWhile isIntegerQualifier⟩

/-- A number that starts with a digit. -/
def number (separator : Char) (position : Nat) (cs : List Char) : Except CompileError Lexeme :=
  match cs with
  | '0' :: 'x' :: rest => hexNumber position 'x' rest
  | '0' :: 'X' :: rest => hexNumber position 'X' rest
  | _ => .ok (decimalNumber separator cs)

/-- A token of two characters. -/
def double? (c : Char) : List Char → Option Lexeme
  | d :: rest => (Token.doubleSymbol? c d).map fun kind => ⟨kind, [c, d], rest⟩
  | [] => none

/-- The token at the front of a text that does not start with a blank. -/
def first (separator : Char) (position : Nat) (c : Char) (rest : List Char) :
    Except CompileError Lexeme :=
  match double? c rest with
  | some lexeme => .ok lexeme
  | none =>
    match Token.symbol? c with
    | some kind => .ok ⟨kind, [c], rest⟩
    | none =>
      if c = '"' || c = '\'' then literal position c rest
      else if startsIdentifier c then .ok (word c rest)
      else if c.isDigit then number separator position (c :: rest)
      else .error ⟨position, .invalidCharacter c⟩

end Lexeme

/-- The tokens of a text up to its end, or up to a part that is no token. -/
structure Scan where
  tokens : List Token
  failure : Option CompileError

namespace Scan

/-- A token in front of a scan. -/
def cons (token : Token) (scan : Scan) : Scan := { scan with tokens := token :: scan.tokens }

/-- Scans the text from a position on.  Every token has a character, so that there are at most as
many tokens as characters. -/
def scanFrom (separator : Char) : Nat → Nat → List Char → Scan
  | 0, _, _ => ⟨[], none⟩
  | fuel + 1, position, cs =>
    let blanks := cs.takeWhile Text.isBlank
    let start := position + blanks.length
    match cs.dropWhile Text.isBlank with
    | [] => ⟨[⟨.finish, "", start⟩], none⟩
    | c :: rest =>
      match Lexeme.first separator start c rest with
      | .error error => ⟨[], some error⟩
      | .ok lexeme =>
        cons ⟨lexeme.kind, String.ofList lexeme.chars, start⟩
          (scanFrom separator fuel (start + lexeme.chars.length) lexeme.rest)

/-- Scans a text with the given decimal point. -/
def ofText (text : String) (separator : Char) : Scan :=
  scanFrom separator (text.toList.length + 1) 0 text.toList

end Scan

end QueryTree
