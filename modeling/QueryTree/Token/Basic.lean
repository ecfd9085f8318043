import QueryTree.Text.CaseMap

/-!
# Tokens

The words of an expression text.  A word operator is the operator it stands for from the start and
never an identifier.
-/

namespace QueryTree

/-- The classes of tokens. -/
inductive TokenKind where
  | identifier | stringLiteral | integerLiteral | realLiteral
  | exclamation | percent | ampersand | openParen | closeParen | openCurly | closeCurly
  | asterisk | plus | comma | minus | dot | slash | colon | lessThan | equal | greaterThan
  | question | openBracket | closeBracket | bar
  | exclamationEqual | doubleAmpersand | lessThanEqual | lessGreater | doubleEqual
  | greaterThanEqual | doubleBar | lambda | nullCoalescing | nullPropagation
  | doubleLessThan | doubleGreaterThan
  | finish
deriving DecidableEq

/-- A token: its class, the part of the text that it covers and where this starts. -/
structure Token where
  kind : TokenKind
  text : String
  position : Nat
deriving DecidableEq

namespace Token

/-- Whether the token is an identifier that is a given word, ASCII letters in either case. -/
def isWord (token : Token) (word : String) : Bool :=
  token.kind == .identifier && Text.sameIgnoringAsciiCase token.text word

/-- The operators that are words. -/
def wordOperators : List (String × TokenKind) := [
  ("eq", .doubleEqual), ("equal", .doubleEqual),
  ("ne", .exclamationEqual), ("neq", .exclamationEqual), ("notequal", .exclamationEqual),
  ("lt", .lessThan), ("le", .lessThanEqual), ("gt", .greaterThan), ("ge", .greaterThanEqual),
  ("and", .doubleAmpersand), ("andalso", .doubleAmpersand),
  ("or", .doubleBar), ("orelse", .doubleBar),
  ("not", .exclamation), ("mod", .percent)]

/-- The class of a word, which is an operator or an identifier. -/
def wordKind (word : String) : TokenKind :=
  (wordOperators.lookup (Text.foldAscii word)).getD .identifier

/-- Operators of two characters and the character that tells them from a shorter one. -/
def doubleSymbol? : Char → Char → Option TokenKind
  | '!', '=' => some .exclamationEqual
  | '&', '&' => some .doubleAmpersand
  | '<', '=' => some .lessThanEqual
  | '<', '>' => some .lessGreater
  | '<', '<' => some .doubleLessThan
  | '=', '=' => some .doubleEqual
  | '=', '>' => some .lambda
  | '>', '=' => some .greaterThanEqual
  | '>', '>' => some .doubleGreaterThan
  | '?', '?' => some .nullCoalescing
  | '?', '.' => some .nullPropagation
  | '|', '|' => some .doubleBar
  | _, _ => none

/-- Punctuation of one character. -/
def symbol? : Char → Option TokenKind
  | '!' => some .exclamation
  | '%' => some .percent
  | '&' => some .ampersand
  | '(' => some .openParen
  | ')' => some .closeParen
  | '\x7b' => some .openCurly
  | '\x7d' => some .closeCurly
  | '*' => some .asterisk
  | '+' => some .plus
  | ',' => some .comma
  | '-' => some .minus
  | '.' => some .dot
  | '/' => some .slash
  | ':' => some .colon
  | '<' => some .lessThan
  | '=' => some .equal
  | '>' => some .greaterThan
  | '?' => some .question
  | '[' => some .openBracket
  | ']' => some .closeBracket
  | '|' => some .bar
  | _ => none

end Token

end QueryTree
