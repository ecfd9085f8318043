import QueryTree.Compile.Error
import QueryTree.Number.Numeral

/-!
# Escapes in literals

A literal stands between two delimiters.  Inside it a doubled delimiter stands for one, and a
backslash starts an escape: a letter with a meaning of its own, or `u` with four hexadecimal digits.
-/

namespace QueryTree.Escape

/-- The character that a backslash and a letter stand for. -/
def named? : Char → Option Char
  | 'n' => some '\n'
  | 't' => some '\t'
  | 'r' => some '\r'
  | '0' => some '\x00'
  | 'a' => some '\x07'
  | 'b' => some '\x08'
  | 'f' => some '\x0c'
  | 'v' => some '\x0b'
  | '\\' => some '\\'
  | '"' => some '"'
  | '\'' => some '\''
  | _ => none

/-- The character with a code in base sixteen.  The first of the characters that spell the code may
be a plus sign. -/
def coded? (digits : List Char) : Option Char :=
  (Numeral.unsigned? 16 digits).bind fun code =>
    if valid : code.isValidChar then some (Char.ofNatAux code valid) else none

/-- Decodes what stands between the delimiters of a literal at position `start`, from the character
at position `here` on. -/
def decodeFrom (delimiter : Char) (start : Nat) : Nat → List Char →
    Except CompileError (List Char)
  | _, [] => .ok []
  | _, ['\\'] => .error ⟨start, .unterminatedString⟩
  | here, '\\' :: 'u' :: rest =>
    let refused := .error ⟨here, .invalidEscape 'u'⟩
    match rest with
    | a :: b :: c :: d :: rest =>
      match coded? [a, b, c, d] with
      | some decoded => (decodeFrom delimiter start (here + 6) rest).map (decoded :: ·)
      | none => refused
    | _ => refused
  | here, '\\' :: letter :: rest =>
    match named? letter with
    | some decoded => (decodeFrom delimiter start (here + 2) rest).map (decoded :: ·)
    | none => .error ⟨here, .invalidEscape letter⟩
  | here, c :: rest =>
    if c = delimiter then
      match rest with
      | [] => .ok [delimiter]
      | _ :: rest => (decodeFrom delimiter start (here + 2) rest).map (delimiter :: ·)
    else (decodeFrom delimiter start (here + 1) rest).map (c :: ·)
termination_by structural _ cs => cs

/-- The characters that a literal stands for, its delimiters included in `raw`. -/
def decode (start : Nat) (raw : List Char) : Except CompileError (List Char) :=
  match raw with
  | delimiter :: second :: rest =>
    decodeFrom delimiter start (start + 1) (second :: rest).dropLast
  | _ => .error ⟨start, .unterminatedString⟩

end QueryTree.Escape
