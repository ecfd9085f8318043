import Mathlib.Data.List.Basic
import QueryTree.Expr.Literal
import QueryTree.Proofs.Literal.Integer
import QueryTree.Proofs.Outcome
import QueryTree.Proofs.Token.Spacing

/-!
# Quoted literals

What stands between the delimiters of a literal is a row of parts, each of which stands for one
character.  The scanner finds the end of such a row and the decoder reads it part by part, so that
every way to write a text is read as this text.  Nothing else is accepted but for a plus sign in the
place of the first digit of a code.
-/

namespace QueryTree

namespace Escape

open Lexeme (isHexDigit splitLiteral?)
open Numeral (hexValue)

/-- The letters that a backslash gives a meaning, and the characters that they stand for. -/
def names : List (Char × Char) := [
  ('n', '\n'), ('t', '\t'), ('r', '\r'), ('0', '\x00'), ('a', '\x07'), ('b', '\x08'),
  ('f', '\x0c'), ('v', '\x0b'), ('\\', '\\'), ('"', '"'), ('\'', '\'')]

/-- A part of a literal and the character that it stands for. -/
inductive Part (delimiter : Char) : List Char → Char → Prop where
  | plain {c : Char} (noEscape : c ≠ '\\') (noDelimiter : c ≠ delimiter) : Part delimiter [c] c
  | doubled : Part delimiter [delimiter, delimiter] delimiter
  | named {letter c : Char} (isName : (letter, c) ∈ names) : Part delimiter ['\\', letter] c
  | coded {digits : List Char} {c : Char} (four : digits.length = 4)
      (hexadecimal : digits.all isHexDigit = true) (code : hexValue digits = c.toNat) :
      Part delimiter ('\\' :: 'u' :: digits) c

/-- Parts in a row and the characters that they stand for. -/
inductive Spells (delimiter : Char) : List Char → List Char → Prop where
  | nil : Spells delimiter [] []
  | cons {part rest : List Char} {c : Char} {cs : List Char} (first : Part delimiter part c)
      (more : Spells delimiter rest cs) : Spells delimiter (part ++ rest) (c :: cs)

variable {delimiter c letter : Char} {body decoded digits cs following : List Char}
  {start here : Nat}

theorem named?_eq_some_iff : named? letter = some c ↔ (letter, c) ∈ names := by
  constructor
  · intro named
    unfold named? at named
    split at named
    all_goals cases named
    all_goals decide
  · intro isName
    simp only [names, List.mem_cons, Prod.mk.injEq, List.not_mem_nil, or_false] at isName
    rcases isName with ⟨rfl, rfl⟩ | ⟨rfl, rfl⟩ | ⟨rfl, rfl⟩ | ⟨rfl, rfl⟩ | ⟨rfl, rfl⟩ | ⟨rfl, rfl⟩ |
      ⟨rfl, rfl⟩ | ⟨rfl, rfl⟩ | ⟨rfl, rfl⟩ | ⟨rfl, rfl⟩ | ⟨rfl, rfl⟩
    all_goals rfl

/-- Digits are the code of the character that their number belongs to. -/
theorem coded?_digits (nonempty : digits ≠ []) (hexadecimal : digits.all isHexDigit = true) :
    coded? digits = some c ↔ hexValue digits = c.toNat := by
  rw [coded?, Numeral.unsigned?_of_digits hexadecimal, Numeral.digits?_sixteen nonempty,
    if_pos hexadecimal, Option.bind_some]
  constructor
  · intro made
    by_cases valid : (hexValue digits).isValidChar
    · rw [dif_pos valid] at made
      obtain rfl := Option.some.inj made
      rfl
    · rw [dif_neg valid] at made
      cases made
  · intro code
    have valid : (hexValue digits).isValidChar := code ▸ c.valid
    rw [dif_pos valid]
    exact congrArg some (Char.toNat_inj.mp code)

section Encoded

variable (isQuote : delimiter = '"' ∨ delimiter = '\'')

include isQuote

theorem plain_of_isQuote : delimiter ≠ '\\' := by
  rcases isQuote with rfl | rfl <;> decide

theorem plain_of_isHexDigit (hexadecimal : isHexDigit c = true) : c ≠ '\\' ∧ c ≠ delimiter := by
  obtain ⟨noEscape, noDouble, noSingle, -⟩ := Numeral.isHexDigit_excludes hexadecimal
  rcases isQuote with rfl | rfl
  · exact ⟨noEscape, noDouble⟩
  · exact ⟨noEscape, noSingle⟩

/-- Hexadecimal digits neither end a literal nor start an escape. -/
theorem splitLiteral?_digits (hexadecimal : digits.all isHexDigit = true) (cs : List Char) :
    splitLiteral? delimiter (digits ++ cs) =
      (splitLiteral? delimiter cs).map fun (body, rest) => (digits ++ body, rest) := by
  induction digits with
  | nil => simp
  | cons c digits ih =>
      obtain ⟨first, more⟩ := (Bool.and_eq_true _ _).mp hexadecimal
      obtain ⟨noEscape, noDelimiter⟩ := plain_of_isHexDigit isQuote first
      rw [List.cons_append, Lexeme.splitLiteral?_plain noEscape noDelimiter, ih more,
        Option.map_map]
      rfl

/-- The scanner passes over a part as a whole. -/
theorem Part.splitLiteral?_append {part : List Char} (encodes : Part delimiter part c)
    (cs : List Char) :
    splitLiteral? delimiter (part ++ cs) =
      (splitLiteral? delimiter cs).map fun (body, rest) => (part ++ body, rest) := by
  have plainDelimiter := plain_of_isQuote isQuote
  cases encodes with
  | plain noEscape noDelimiter => exact Lexeme.splitLiteral?_plain noEscape noDelimiter
  | doubled => simp [splitLiteral?, plainDelimiter]
  | named => simp [splitLiteral?]
  | @coded digits _ _ hexadecimal =>
      simp [splitLiteral?, splitLiteral?_digits isQuote hexadecimal, Function.comp_def]

/-- The decoder reads a part as one character. -/
theorem Part.decodeFrom_append {part : List Char} (encodes : Part delimiter part c)
    (cs : List Char) :
    decodeFrom delimiter start here (part ++ cs) =
      (decodeFrom delimiter start (here + part.length) cs).map (c :: ·) := by
  have plainDelimiter := plain_of_isQuote isQuote
  cases encodes with
  | plain noEscape noDelimiter => exact decodeFrom_plain noEscape noDelimiter
  | doubled => simp [decodeFrom, plainDelimiter]
  | @named letter c isName =>
      have noCode : letter ≠ 'u' := by
        rintro rfl
        simp [names] at isName
      simp [decodeFrom, named?_eq_some_iff.mpr isName]
  | @coded digits c four hexadecimal code =>
      obtain ⟨x₁, x₂, x₃, x₄, rfl⟩ := List.length_eq_four.mp four
      have decoded := (coded?_digits (List.cons_ne_nil _ _) hexadecimal).mpr code
      simp [decodeFrom, decoded]

/-- The scanner ends a literal behind all of its parts. -/
theorem Spells.splitLiteral?_append (spells : Spells delimiter body decoded)
    (ends : ∀ d ∈ following.head?, d ≠ delimiter) :
    splitLiteral? delimiter (body ++ delimiter :: following) =
      some (body ++ [delimiter], following) := by
  induction spells with
  | nil => exact Lexeme.splitLiteral?_delimiter (plain_of_isQuote isQuote) ends
  | cons first _ ih =>
      rw [List.append_assoc, first.splitLiteral?_append isQuote, ih]
      simp

/-- The decoder reads parts in a row as their characters. -/
theorem Spells.decodeFrom_eq (spells : Spells delimiter body decoded) (start here : Nat) :
    decodeFrom delimiter start here body = .ok decoded := by
  induction spells generalizing here with
  | nil => rfl
  | cons first _ ih =>
      rw [first.decodeFrom_append isQuote, ih]
      rfl

end Encoded

/-- Every row of characters can be written: a delimiter doubled, a backslash after another one, and
all other characters as they are. -/
theorem exists_spells (delimiter : Char) (cs : List Char) : ∃ body, Spells delimiter body cs := by
  induction cs with
  | nil => exact ⟨[], .nil⟩
  | cons c cs ih =>
      obtain ⟨body, more⟩ := ih
      by_cases escape : c = '\\'
      · have isName : ('\\', c) ∈ names := by
          rw [escape]
          decide
        exact ⟨_, .cons (.named isName) more⟩
      · by_cases isDelimiter : c = delimiter
        · subst isDelimiter
          exact ⟨_, .cons .doubled more⟩
        · exact ⟨_, .cons (.plain escape isDelimiter) more⟩

section Decoded

/-- What is between two delimiters is decoded. -/
theorem decode_enclosed (delimiter : Char) (body : List Char) (start : Nat) :
    decode start (delimiter :: (body ++ [delimiter])) =
      decodeFrom delimiter start (start + 1) body := by
  cases body with
  | nil => rfl
  | cons c body =>
      rw [List.cons_append, decode, ← List.cons_append, List.dropLast_concat]

/-- A row of characters that the scanner takes up to a delimiter behind it. -/
def Closes (delimiter : Char) (body : List Char) : Prop :=
  splitLiteral? delimiter (body ++ [delimiter]) = some (body ++ [delimiter], [])

/-- A row of characters with a zero in the place of each plus sign that starts a code. -/
def withoutSigns : List Char → List Char
  | '\\' :: 'u' :: sign :: rest =>
    '\\' :: 'u' :: (if sign = '+' then '0' else sign) :: withoutSigns rest
  | '\\' :: c :: rest => '\\' :: c :: withoutSigns rest
  | c :: rest => c :: withoutSigns rest
  | [] => []

theorem exists_closes {left : List Char} (found : splitLiteral? delimiter cs = some (body, left)) :
    ∃ inner, body = inner ++ [delimiter] ∧ Closes delimiter inner := by
  have ended : ∃ inner, body = inner ++ [delimiter] := by
    fun_induction splitLiteral? delimiter cs generalizing body left
    case case1 | case2 => cases found
    case case4 | case6 =>
      cases found
      exact ⟨[], rfl⟩
    case case3 ih | case5 ih | case7 ih =>
      obtain ⟨_, found_rest, same⟩ := Option.map_eq_some_iff.mp found
      cases same
      obtain ⟨inner, inner_eq⟩ := ih found_rest
      rw [inner_eq]
      simp only [← List.cons_append]
      exact ⟨_, rfl⟩
  obtain ⟨inner, rfl⟩ := ended
  have nothing : ∀ d ∈ ([] : List Char).head?, d ≠ delimiter := by simp
  have again := Lexeme.splitLiteral?_again found nothing
  rw [List.append_nil] at again
  exact ⟨inner, rfl, again⟩

namespace Closes

variable {part : List Char}

/-- What the scanner passes over in front of a literal may be left out. -/
theorem of_append
    (passes : ∀ cs, splitLiteral? delimiter (part ++ cs) =
      (splitLiteral? delimiter cs).map fun (body, rest) => (part ++ body, rest))
    (closes : Closes delimiter (part ++ body)) : Closes delimiter body := by
  rw [Closes, List.append_assoc, passes] at closes
  obtain ⟨_, found, same⟩ := Option.map_eq_some_iff.mp closes
  simp only [Prod.mk.injEq, List.append_cancel_left_eq] at same
  rw [Closes, found, ← same.1, ← same.2]

theorem of_escape (closes : Closes delimiter ('\\' :: c :: body)) : Closes delimiter body := by
  simpa [Closes, splitLiteral?] using closes

theorem of_delimiter (plain : delimiter ≠ '\\') (closes : Closes delimiter (delimiter :: body)) :
    ∃ rest, body = delimiter :: rest ∧ Closes delimiter rest := by
  cases body with
  | nil => simp [Closes, splitLiteral?, plain] at closes
  | cons c rest =>
      by_cases doubled : c = delimiter
      · subst doubled
        refine ⟨rest, rfl, ?_⟩
        simpa [Closes, splitLiteral?, plain] using closes
      · simp [Closes, splitLiteral?, plain, doubled] at closes

end Closes

/-- A plus sign counts as a zero at the start of a code. -/
theorem coded?_plus (nonempty : digits ≠ []) : coded? ('+' :: digits) = coded? ('0' :: digits) := by
  have worth : Numeral.digits? 16 digits = Numeral.digits? 16 ('0' :: digits) := by
    rw [Numeral.digits?_sixteen nonempty, Numeral.digits?_sixteen (List.cons_ne_nil _ _)]
    rfl
  rw [coded?, coded?, Numeral.unsigned?, worth]
  rfl

theorem all_isHexDigit_of_coded? (nonempty : digits ≠ []) (noSign : digits.head? ≠ some '+')
    (accepted : coded? digits = some c) : digits.all isHexDigit = true := by
  have unsigned : Numeral.unsigned? 16 digits = Numeral.digits? 16 digits := by
    unfold Numeral.unsigned?
    split
    next => simp at noSign
    next => rfl
  by_contra noDigits
  rw [coded?, unsigned, Numeral.digits?_sixteen nonempty, if_neg noDigits] at accepted
  cases accepted

/-- The digits of an accepted code, with a zero in the place of a plus sign. -/
theorem of_coded? {sign : Char} (nonempty : digits ≠ [])
    (accepted : coded? (sign :: digits) = some c) :
    let zeroed := (if sign = '+' then '0' else sign) :: digits
    zeroed.all isHexDigit = true ∧ hexValue zeroed = c.toNat := by
  intro zeroed
  have same : coded? zeroed = some c := by
    by_cases signed : sign = '+'
    · rw [← accepted, signed, coded?_plus nonempty]
      simp [zeroed, signed]
    · simpa [zeroed, signed] using accepted
  have noSign : zeroed.head? ≠ some '+' := by
    by_cases signed : sign = '+' <;> simp [zeroed, signed]
  have hexadecimal := all_isHexDigit_of_coded? (List.cons_ne_nil _ _) noSign same
  exact ⟨hexadecimal, (coded?_digits (List.cons_ne_nil _ _) hexadecimal).mp same⟩

/-- A part has no sign. -/
theorem Part.withoutSigns_append {part : List Char} (encodes : Part delimiter part c)
    (plain : delimiter ≠ '\\') (cs : List Char) :
    withoutSigns (part ++ cs) = part ++ withoutSigns cs := by
  have of_plain {c : Char} (noEscape : c ≠ '\\') (cs : List Char) :
      withoutSigns (c :: cs) = c :: withoutSigns cs := by
    cases cs <;> simp [withoutSigns, noEscape]
  cases encodes with
  | plain noEscape => exact of_plain noEscape cs
  | doubled => rw [List.cons_append, of_plain plain, List.cons_append, of_plain plain]; rfl
  | @named letter c isName =>
      have noCode : letter ≠ 'u' := by
        rintro rfl
        simp [names] at isName
      cases cs <;> simp [withoutSigns, noCode]
  | @coded digits c four hexadecimal =>
      obtain ⟨x₁, x₂, x₃, x₄, rfl⟩ := List.length_eq_four.mp four
      simp only [List.all_cons, List.all_nil, Bool.and_true, Bool.and_eq_true] at hexadecimal
      obtain ⟨digit₁, digit₂, digit₃, digit₄⟩ := hexadecimal
      simp [withoutSigns, (Numeral.isHexDigit_excludes digit₁).2.2.2,
        of_plain (Numeral.isHexDigit_excludes digit₂).1,
        of_plain (Numeral.isHexDigit_excludes digit₃).1,
        of_plain (Numeral.isHexDigit_excludes digit₄).1]

theorem Spells.withoutSigns_eq (spells : Spells delimiter body decoded)
    (plain : delimiter ≠ '\\') : withoutSigns body = body := by
  induction spells with
  | nil => rfl
  | cons first _ ih => rw [first.withoutSigns_append plain, ih]

section Accepted

variable (isQuote : delimiter = '"' ∨ delimiter = '\'')

include isQuote

/-- What is decoded are parts in a row, up to the signs of codes. -/
theorem decodeFrom_spells (closes : Closes delimiter body)
    (decodes : decodeFrom delimiter start here body = .ok decoded) :
    Spells delimiter (withoutSigns body) decoded := by
  have plainDelimiter := plain_of_isQuote isQuote
  -- a part in front is passed over by the scanner as a whole and has no sign to be replaced
  have cons_part {part rest : List Char} {c : Char} {cs : List Char}
      (first : Part delimiter part c) (closes : Closes delimiter (part ++ rest))
      (more : Closes delimiter rest → Spells delimiter (withoutSigns rest) cs) :
      Spells delimiter (withoutSigns (part ++ rest)) (c :: cs) := by
    rw [first.withoutSigns_append plainDelimiter]
    exact .cons first (more (closes.of_append (first.splitLiteral?_append isQuote)))
  fun_induction decodeFrom delimiter start here body generalizing decoded with
  | case1 =>
      cases decodes
      exact .nil
  | case2 => cases decodes
  | case3 here x₁ x₂ x₃ x₄ rest c accepted ih =>
      obtain ⟨cs, found, rfl⟩ := map_eq_ok_iff.mp decodes
      obtain ⟨hexadecimal, code⟩ := of_coded? (List.cons_ne_nil _ _) accepted
      have first : Part delimiter ('\\' :: 'u' :: [if x₁ = '+' then '0' else x₁, x₂, x₃, x₄]) c :=
        .coded rfl hexadecimal code
      obtain ⟨digit₁, digits⟩ := (Bool.and_eq_true _ _).mp hexadecimal
      have plain₁ : x₁ ≠ '\\' ∧ x₁ ≠ delimiter := by
        by_cases sign : x₁ = '+'
        · rcases isQuote with rfl | rfl <;> simp [sign]
        · rw [if_neg sign] at digit₁
          exact plain_of_isHexDigit isQuote digit₁
      have signed : Closes delimiter ([x₁] ++ ([x₂, x₃, x₄] ++ rest)) := closes.of_escape
      have unsigned : Closes delimiter ([x₂, x₃, x₄] ++ rest) :=
        signed.of_append fun cs => Lexeme.splitLiteral?_plain plain₁.1 plain₁.2
      have closes_rest := unsigned.of_append (splitLiteral?_digits isQuote digits)
      have same : withoutSigns ('\\' :: 'u' :: x₁ :: x₂ :: x₃ :: x₄ :: rest) =
          withoutSigns ('\\' :: 'u' :: [if x₁ = '+' then '0' else x₁, x₂, x₃, x₄] ++ rest) := by
        by_cases sign : x₁ = '+' <;> simp [withoutSigns, sign]
      rw [same, first.withoutSigns_append plainDelimiter]
      exact .cons first (ih closes_rest found)
  | case4 | case5 => contradiction
  | case6 here letter rest noCode c isName ih =>
      obtain ⟨cs, found, rfl⟩ := map_eq_ok_iff.mp decodes
      exact cons_part (.named (named?_eq_some_iff.mp isName)) closes fun closes => ih closes found
  | case7 => cases decodes
  | case8 =>
      obtain ⟨_, missing, -⟩ := closes.of_delimiter plainDelimiter
      cases missing
  | case9 here d rest _ _ _ ih =>
      obtain ⟨cs, found, rfl⟩ := map_eq_ok_iff.mp decodes
      obtain ⟨_, same, closes_rest⟩ := closes.of_delimiter plainDelimiter
      cases same
      exact cons_part .doubled closes fun closes => ih closes found
  | case10 here c rest lone code letter noDelimiter ih =>
      obtain ⟨cs, found, rfl⟩ := map_eq_ok_iff.mp decodes
      have noEscape : c ≠ '\\' := by
        intro escape
        cases rest with
        | nil => exact lone escape rfl
        | cons d rest => exact letter d rest escape rfl
      exact cons_part (.plain noEscape noDelimiter) closes fun closes => ih closes found

end Accepted

end Decoded

end Escape

namespace Literal

open Escape (Spells)

variable {delimiter : Char} {body decoded following : List Char}

/-- A literal is scanned as one token wherever it stands, whatever follows it but its delimiter, and
the token is read as an expression. -/
def ReadsAs (delimiter : Char) (body : List Char) (e : Expr) : Prop :=
  ∀ (separator : Char) (position : Nat) (following : List Char),
    (∀ c ∈ following.head?, c ≠ delimiter) →
      let token : Token :=
        ⟨.stringLiteral, String.ofList (delimiter :: (body ++ [delimiter])), position⟩
      (Cursor.mk position (token.text.toList ++ following)).next separator =
          .ok (token, ⟨token.stop, following⟩) ∧
        quoted token = .ok e

theorem literal_spells (isQuote : delimiter = '"' ∨ delimiter = '\'' ∧ decoded.length = 1)
    (spells : Spells delimiter body decoded) (ends : ∀ c ∈ following.head?, c ≠ delimiter)
    (position : Nat) :
    Lexeme.literal position delimiter (body ++ delimiter :: following) =
      .ok ⟨.stringLiteral, delimiter :: (body ++ [delimiter]), following⟩ := by
  have quote := isQuote.imp_right And.left
  have decodes := spells.decodeFrom_eq quote position (position + 1)
  have isFine : (delimiter = '\'' && decoded.length != 1) = false := by
    rcases isQuote with rfl | ⟨-, single⟩
    · rfl
    · simp [single]
  rw [Lexeme.literal, spells.splitLiteral?_append quote ends]
  simp only [Escape.decode_enclosed, decodes]
  exact if_neg (by simp [isFine])

theorem next_spells (isQuote : delimiter = '"' ∨ delimiter = '\'' ∧ decoded.length = 1)
    (spells : Spells delimiter body decoded) (ends : ∀ c ∈ following.head?, c ≠ delimiter)
    (separator : Char) (position : Nat) :
    let token : Token :=
      ⟨.stringLiteral, String.ofList (delimiter :: (body ++ [delimiter])), position⟩
    (Cursor.mk position (token.text.toList ++ following)).next separator =
      .ok (token, ⟨token.stop, following⟩) := by
  intro token
  have visible : Text.isBlank delimiter = false := by
    rcases isQuote with rfl | ⟨rfl, -⟩ <;> decide +kernel
  have noSymbol : Token.symbol? delimiter = none := by
    rcases isQuote with rfl | ⟨rfl, -⟩ <;> rfl
  have quote : (delimiter = '"' || delimiter = '\'') = true := by
    rcases isQuote with rfl | ⟨rfl, -⟩ <;> rfl
  have scanned : Lexeme.first separator position delimiter (body ++ delimiter :: following) =
      .ok ⟨.stringLiteral, delimiter :: (body ++ [delimiter]), following⟩ := by
    simp only [Lexeme.first, Lexeme.double?_of_symbol? noSymbol, noSymbol]
    rw [if_pos quote]
    exact literal_spells isQuote spells ends position
  simp [Cursor.next, visible, scanned, Except.map, Token.stop, token, Nat.add_comm 1]

/-- Every text can be written as a literal, and everything that is written as one is read as the
text; a single character can be written as a character as well. -/
theorem encoding_reads (s : List Char) :
    let text := String.ofList s
    (∃ body, Spells '"' body s) ∧
      (∀ body, Spells '"' body s →
        ReadsAs '"' body (.constant .string (.string text) (some text))) ∧
      ∀ c body, s = [c] → Spells '\'' body s →
        ReadsAs '\'' body (.constant .char (.char c) (some text)) := by
  intro text
  refine ⟨Escape.exists_spells '"' s, ?_, ?_⟩
  · intro body spells separator position following ends
    refine ⟨next_spells (.inl rfl) spells ends separator position, ?_⟩
    have decodes := spells.decodeFrom_eq (.inl rfl) position (position + 1)
    simp only [quoted, String.toList_ofList, Escape.decode_enclosed, decodes]
    rfl
  · rintro c body rfl spells separator position following ends
    refine ⟨next_spells (.inr ⟨rfl, rfl⟩) spells ends separator position, ?_⟩
    have decodes := spells.decodeFrom_eq (.inr rfl) position (position + 1)
    simp only [quoted, String.toList_ofList, Escape.decode_enclosed, decodes]
    rfl

theorem encoding_reads_mixed :
    let text := String.ofList ['"', '\n', 'A', 'é']
    ReadsAs '"' ['"', '"', '\\', 'n', '\\', 'u', '0', '0', '4', '1', 'é']
      (.constant .string (.string text) (some text)) := by
  have quote : Escape.Part '"' ['"', '"'] '"' := .doubled
  have line : Escape.Part '"' ['\\', 'n'] '\n' := .named (by decide)
  have letter : Escape.Part '"' ('\\' :: 'u' :: ['0', '0', '4', '1']) 'A' :=
    .coded rfl (by decide) (by decide)
  have accented : Escape.Part '"' ['é'] 'é' := .plain (by decide) (by decide)
  exact (encoding_reads ['"', '\n', 'A', 'é']).2.1 _
    (.cons quote (.cons line (.cons letter (.cons accented .nil))))

end Literal

namespace Lexeme

variable {separator c : Char} {position : Nat} {rest : List Char} {lexeme : Lexeme}

/-- What is scanned as a literal starts with a delimiter. -/
theorem literal_of_first (outcome : first separator position c rest = .ok lexeme)
    (isLiteral : lexeme.kind = .stringLiteral) :
    (c = '"' ∨ c = '\'') ∧ literal position c rest = .ok lexeme := by
  cases first_cases outcome with
  | double isDouble => exact absurd isLiteral (double?_taken isDouble).2.1
  | symbol isSymbol => exact absurd isLiteral (symbol?_excludes isSymbol).2
  | literal _ isQuote scanned => exact ⟨isQuote, scanned⟩
  | word => exact absurd isLiteral (wordKind_excludes _).2.1
  | number _ _ _ _ scanned => obtain kind | kind := number_kind scanned <;> simp [kind] at isLiteral

theorem of_literal (outcome : literal position c rest = .ok lexeme) :
    ∃ body decoded, lexeme.chars = c :: (body ++ [c]) ∧ Escape.Closes c body ∧
      Escape.decodeFrom c position (position + 1) body = .ok decoded := by
  obtain ⟨chars, found, ⟨decoded, decodes, -⟩, -, chars_eq⟩ := literal_eq_ok.mp outcome
  obtain ⟨body, rfl, closes⟩ := Escape.exists_closes found
  rw [Escape.decode_enclosed] at decodes
  exact ⟨body, decoded, chars_eq, closes, decodes⟩

end Lexeme

namespace Cursor

open Escape (Spells withoutSigns)

variable {separator : Char} {cursor after : Cursor} {token : Token}

/-- What is scanned as a literal is delimited, and what stands between the delimiters is decoded to
what its parts spell, a plus sign at the start of a code being read as a zero.  It is a row of parts
if and only if it has no such sign. -/
theorem literal_spells_iff (scanned : cursor.next separator = .ok (token, after))
    (isLiteral : token.kind = .stringLiteral) :
    ∃ delimiter body decoded, (delimiter = '"' ∨ delimiter = '\'') ∧
      token.text.toList = delimiter :: (body ++ [delimiter]) ∧
      Escape.decode token.position token.text.toList = .ok decoded ∧
      Spells delimiter (withoutSigns body) decoded ∧
      (Spells delimiter body decoded ↔ withoutSigns body = body) := by
  unfold next at scanned
  simp only at scanned
  split at scanned
  next =>
    cases scanned
    cases isLiteral
  next c rest _ =>
    obtain ⟨lexeme, isFirst, made⟩ := map_eq_ok_iff.mp scanned
    cases made
    obtain ⟨isQuote, found⟩ := Lexeme.literal_of_first isFirst isLiteral
    obtain ⟨body, decoded, chars, closes, decodes⟩ := Lexeme.of_literal found
    have spells := Escape.decodeFrom_spells isQuote closes decodes
    refine ⟨c, body, decoded, isQuote, ?_, ?_, spells, ?_, ?_⟩
    · rw [String.toList_ofList, chars]
    · rw [String.toList_ofList, chars, Escape.decode_enclosed, decodes]
    · intro exact_spells
      exact exact_spells.withoutSigns_eq (Escape.plain_of_isQuote isQuote)
    · intro same
      rwa [same] at spells

theorem literal_spells_iff_tab :
    let text := ['"', '\\', 't', '"']
    ∃ delimiter body decoded, (delimiter = '"' ∨ delimiter = '\'') ∧
      text = delimiter :: (body ++ [delimiter]) ∧ Spells delimiter body decoded := by
  intro text
  have tab : Escape.Part '"' ['\\', 't'] '\t' := .named (by decide)
  have nothing : ∀ c ∈ ([] : List Char).head?, c ≠ '"' := by simp
  have scanned := Literal.next_spells (.inl rfl) (.cons tab .nil) nothing '.' 0
  obtain ⟨delimiter, body, decoded, isQuote, chars, -, -, spells_iff⟩ :=
    literal_spells_iff scanned rfl
  have chars : text = delimiter :: (body ++ [delimiter]) := String.toList_ofList.symm.trans chars
  obtain ⟨rfl, inner⟩ := List.cons.inj chars
  have body_eq : body = ['\\', 't'] := by
    have front := congrArg List.dropLast inner
    simpa using front.symm
  refine ⟨'"', body, decoded, isQuote, chars, spells_iff.mpr ?_⟩
  rw [body_eq]
  rfl

/-- A plus sign and three digits are accepted as a code, which no part has. -/
theorem signed_code_accepted :
    let text := ['"', '\\', 'u', '+', '0', '4', '1', '"']
    let token : Token := ⟨.stringLiteral, String.ofList text, 0⟩
    (Cursor.mk 0 text).next '.' = .ok (token, ⟨8, []⟩) ∧
      Literal.quoted token = .ok (.constant .string (.string "A") (some "A")) ∧
      ∀ decoded, ¬ Spells '"' ['\\', 'u', '+', '0', '4', '1'] decoded := by
  intro text token
  refine ⟨rfl, ?_, ?_⟩
  · simp only [Literal.quoted, token, String.toList_ofList]
    rfl
  intro decoded spells
  have same := spells.withoutSigns_eq (by decide)
  cases same

end Cursor

end QueryTree
