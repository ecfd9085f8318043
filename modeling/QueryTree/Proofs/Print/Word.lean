import QueryTree.Token.Scan
import Mathlib.Data.List.TakeWhile

/-!
# Spaced words

A text in which blanks stand between its words is scanned as these words.
-/

namespace QueryTree

namespace Text

/-- The code points of some intervals. -/
def Intervals.codes (intervals : Intervals) : List Nat :=
  intervals.flatMap fun (first, last) => List.range' first (last + 1 - first)

theorem Intervals.mem_codes {intervals : Intervals} {code : Nat}
    (inside : intervals.contains code = true) : code ∈ intervals.codes := by
  obtain ⟨⟨first, last⟩, member, bounds⟩ := List.any_eq_true.mp inside
  simp only [Bool.and_eq_true, decide_eq_true_eq] at bounds
  exact List.mem_flatMap.mpr ⟨_, member, List.mem_range'_1.mpr ⟨bounds.1, by omega⟩⟩

/-- What holds of the few blanks holds of every blank. -/
theorem of_isBlank (holds : Char → Bool)
    (each : (blankIntervals.codes.all fun code => holds (Char.ofNat code)) = true) {c : Char}
    (isBlank : isBlank c = true) : holds c = true := by
  have holds_code := List.all_eq_true.mp each _ (Intervals.mem_codes isBlank)
  rwa [Char.ofNat_toNat] at holds_code

/-- What a predicate takes from a text ends before a character that it does not hold of. -/
theorem span_append {holds : Char → Bool} {front rest : List Char}
    (each : front.all holds = true) (ends : ∀ c ∈ rest.head?, holds c = false) :
    (front ++ rest).takeWhile holds = front ∧ (front ++ rest).dropWhile holds = rest := by
  rw [List.all_eq_true] at each
  rw [List.takeWhile_append_of_pos each, List.dropWhile_append_of_pos each]
  cases rest with
  | nil => simp
  | cons d rest => simp [ends d rfl]

end Text

open Text (isBlank)

/-- A blank is neither part of a name or a number, nor a quote or an operator. -/
theorem Lexeme.isBlank_excludes {c : Char} (blank : isBlank c = true) :
    c.isDigit = false ∧ isHexDigit c = false ∧ isIntegerQualifier c = false ∧
      isRealQualifier c = false ∧ (c ≠ 'e' ∧ c ≠ 'E' ∧ c ≠ '+' ∧ c ≠ '-') ∧ (c ≠ 'x' ∧ c ≠ 'X') ∧
      (c ≠ '"' ∧ c ≠ '\'') ∧ startsIdentifier c = false ∧ continuesIdentifier c = false ∧
      Token.symbol? c = none := by
  have other := Text.of_isBlank (fun c => !(c.isDigit || isHexDigit c || isIntegerQualifier c ||
    isRealQualifier c || ['e', 'E', '+', '-', 'x', 'X', '"', '\''].contains c ||
    startsIdentifier c || continuesIdentifier c || (Token.symbol? c).isSome))
    (by decide +kernel) blank
  simpa [and_assoc] using other

/-- A word of a text: a class of tokens and the characters of the token. -/
structure Word where
  kind : TokenKind
  text : String

/-- The word that a token is. -/
def Token.word (token : Token) : Word := ⟨token.kind, token.text⟩

/-- Whether a text is an identifier and no operator. -/
def Token.isName (text : String) : Bool :=
  match text.toList with
  | c :: cs =>
    Lexeme.startsIdentifier c && cs.all Lexeme.continuesIdentifier
      && Token.wordKind text == .identifier
  | [] => false

/-- The end of a text, or a blank before more of it. -/
def Separates (rest : List Char) : Prop := ∀ c ∈ rest.head?, isBlank c = true

/-- Words in a row, each followed by a blank or by the end of the text. -/
inductive Spaced : List String → List Char → Prop where
  | nil {blanks : List Char} (blank : ∀ c ∈ blanks, isBlank c = true) : Spaced [] blanks
  | cons {word : String} {words : List String} {blanks rest : List Char}
      (blank : ∀ c ∈ blanks, isBlank c = true) (separates : Separates rest)
      (spaced : Spaced words rest) : Spaced (word :: words) (blanks ++ (word.toList ++ rest))

namespace Spaced

variable {words : List String} {cs : List Char}

theorem blank {c : Char} (isBlank : isBlank c = true) (spaced : Spaced words cs) :
    Spaced words (c :: cs) := by
  cases spaced with
  | nil blank => exact .nil (List.forall_mem_cons.mpr ⟨isBlank, blank⟩)
  | cons blank separates spaced =>
      exact .cons (List.forall_mem_cons.mpr ⟨isBlank, blank⟩) separates spaced

/-- Words with single blanks between them. -/
theorem intercalate (words : List String) :
    Spaced words (List.intercalate [' '] (words.map String.toList)) := by
  match words with
  | [] => exact .nil (by simp)
  | [word] =>
      have single : Spaced [word] ([] ++ (word.toList ++ [])) :=
        .cons (by simp) (by simp [Separates]) (.nil (by simp))
      simpa [List.intercalate] using single
  | word :: word' :: words =>
      have rest := (intercalate (word' :: words)).blank (show isBlank ' ' = true by decide)
      have whole : Spaced (word :: word' :: words) ([] ++ (word.toList ++ _)) :=
        .cons (by simp) (by simp [Separates]; decide) rest
      simpa [List.intercalate] using whole

end Spaced

namespace Word

/-- A word that is scanned as one token wherever a blank or the end of the text follows, with a
given decimal point. -/
def ScansWith (separator : Char) (word : Word) : Prop :=
  ∃ c cs, word.text.toList = c :: cs ∧ isBlank c = false ∧
    ∀ position rest, Separates rest →
      Lexeme.first separator position c (cs ++ rest) = .ok ⟨word.kind, c :: cs, rest⟩

/-- A word that is scanned as one token wherever a blank or the end of the text follows. -/
def Scans (word : Word) : Prop :=
  ∃ c cs, word.text.toList = c :: cs ∧ isBlank c = false ∧
    ∀ separator position rest, Separates rest →
      Lexeme.first separator position c (cs ++ rest) = .ok ⟨word.kind, c :: cs, rest⟩

theorem Scans.scansWith {word : Word} (scans : word.Scans) (separator : Char) :
    word.ScansWith separator := by
  obtain ⟨c, cs, chars, visible, first⟩ := scans
  exact ⟨c, cs, chars, visible, first separator⟩

theorem doubleSymbol?_of_isBlank {c d : Char} (blank : isBlank d = true) :
    Token.doubleSymbol? c d = none := by
  obtain ⟨-, -, -, -, -, -, -, -, -, none⟩ := Lexeme.isBlank_excludes blank
  unfold Token.doubleSymbol?
  split <;> first | rfl | cases none

theorem double?_of_separates {c : Char} {rest : List Char} (separates : Separates rest) :
    Lexeme.double? c rest = none := by
  cases rest with
  | nil => rfl
  | cons d rest => simp [Lexeme.double?, doubleSymbol?_of_isBlank (separates d rfl)]

theorem isBlank_of_symbol? {c : Char} {kind : TokenKind} (isSymbol : Token.symbol? c = some kind) :
    isBlank c = false := by
  by_contra blank
  obtain ⟨-, -, -, -, -, -, -, -, -, none⟩ :=
    Lexeme.isBlank_excludes (Bool.not_eq_false _ ▸ blank)
  cases none.symm.trans isSymbol

/-- Punctuation of one character. -/
theorem scans_symbol {word : Word} {c : Char} (chars : word.text.toList = [c])
    (isSymbol : Token.symbol? c = some word.kind) : word.Scans := by
  refine ⟨c, [], chars, isBlank_of_symbol? isSymbol, fun _ _ rest separates => ?_⟩
  simp [Lexeme.first, double?_of_separates separates, isSymbol]

/-- An operator of two characters. -/
theorem scans_doubleSymbol {word : Word} {c d : Char} (chars : word.text.toList = [c, d])
    (visible : isBlank c = false) (isSymbol : Token.doubleSymbol? c d = some word.kind) :
    word.Scans := by
  refine ⟨c, [d], chars, visible, fun _ _ rest _ => ?_⟩
  simp [Lexeme.first, Lexeme.double?, isSymbol]

section Name

variable {c : Char} (starts : Lexeme.startsIdentifier c = true)

include starts

theorem symbol?_of_startsIdentifier : Token.symbol? c = none := by
  unfold Token.symbol?
  split <;> first | rfl | cases starts

theorem double?_of_startsIdentifier (rest : List Char) : Lexeme.double? c rest = none := by
  cases rest with
  | nil => rfl
  | cons d rest =>
      have none : Token.doubleSymbol? c d = none := by
        unfold Token.doubleSymbol?
        split <;> first | rfl | cases starts
      simp [Lexeme.double?, none]

theorem isBlank_of_startsIdentifier : isBlank c = false := by
  by_contra blank
  simp [Lexeme.isBlank_excludes (Bool.not_eq_false _ ▸ blank)] at starts

end Name

/-- An identifier ends before a blank. -/
theorem span_of_separates {cs rest : List Char}
    (continues : cs.all Lexeme.continuesIdentifier = true) (separates : Separates rest) :
    (cs ++ rest).takeWhile Lexeme.continuesIdentifier = cs ∧
      (cs ++ rest).dropWhile Lexeme.continuesIdentifier = rest := by
  apply Text.span_append continues
  intro c isFirst
  simp [Lexeme.isBlank_excludes (separates c isFirst)]

theorem scans_name {name : String} (isName : Token.isName name = true) :
    Scans ⟨.identifier, name⟩ := by
  unfold Token.isName at isName
  split at isName
  next c cs chars =>
    simp only [Bool.and_eq_true, beq_iff_eq] at isName
    obtain ⟨⟨starts, continues⟩, kind⟩ := isName
    refine ⟨c, cs, chars, isBlank_of_startsIdentifier starts, fun _ _ rest separates => ?_⟩
    obtain ⟨word, following⟩ := span_of_separates continues separates
    have noQuote : (c = '"' || c = '\'') = false := by
      by_contra quote
      simp only [Bool.not_eq_false, Bool.or_eq_true, decide_eq_true_eq] at quote
      obtain rfl | rfl := quote
      · cases starts
      · cases starts
    have name_eq : String.ofList (c :: cs) = name := by rw [← chars, String.ofList_toList]
    simp [Lexeme.first, double?_of_startsIdentifier starts, symbol?_of_startsIdentifier starts,
      noQuote, starts, Lexeme.word, word, following, name_eq, kind]
  next => cases isName

end Word

namespace Scan

/-- The characters of a text start with blanks and go on with those of a token. -/
theorem scanFrom_lexeme {separator c : Char} {kind : TokenKind} {blanks cs rest : List Char}
    (fuel position : Nat) (blank : ∀ c ∈ blanks, isBlank c = true) (visible : isBlank c = false)
    (first : Lexeme.first separator (position + blanks.length) c (cs ++ rest) =
      .ok ⟨kind, c :: cs, rest⟩) :
    scanFrom separator (fuel + 1) position (blanks ++ (c :: cs ++ rest)) =
      cons ⟨kind, String.ofList (c :: cs), position + blanks.length⟩
        (scanFrom separator fuel (position + blanks.length + (c :: cs).length) rest) := by
  have leading : (blanks ++ (c :: cs ++ rest)).takeWhile isBlank = blanks := by
    rw [List.takeWhile_append_of_pos blank]
    simp [visible]
  have trailing : (blanks ++ (c :: cs ++ rest)).dropWhile isBlank = c :: (cs ++ rest) := by
    rw [List.dropWhile_append_of_pos blank]
    simp [visible]
  simp only [scanFrom, leading, trailing, first]

/-- The characters of a text start with blanks and go on with a word. -/
theorem scanFrom_word {word : Word} {separator : Char} (scans : word.ScansWith separator)
    (fuel position : Nat) {blanks rest : List Char} (blank : ∀ c ∈ blanks, isBlank c = true)
    (separates : Separates rest) :
    ∃ token : Token, token.word = word ∧
      scanFrom separator (fuel + 1) position (blanks ++ (word.text.toList ++ rest)) =
        cons token (scanFrom separator fuel
          (position + blanks.length + word.text.toList.length) rest) := by
  obtain ⟨c, cs, chars, visible, first⟩ := scans
  refine ⟨⟨word.kind, word.text, position + blanks.length⟩, rfl, ?_⟩
  have text_eq : String.ofList (c :: cs) = word.text := by rw [← chars, String.ofList_toList]
  rw [chars, scanFrom_lexeme fuel position blank visible (first _ rest separates), text_eq]

/-- Words with blanks between them are scanned as these words. -/
theorem scanFrom_spaced {words : List Word} {cs : List Char} {separator : Char}
    (spaced : Spaced (words.map Word.text) cs) (scan : ∀ word ∈ words, word.ScansWith separator)
    {fuel : Nat} (position : Nat) (enough : cs.length < fuel) :
    ∃ tokens finish, scanFrom separator fuel position cs = ⟨tokens ++ [finish], none⟩ ∧
      tokens.map Token.word = words ∧ finish.word = ⟨.finish, ""⟩ := by
  induction words generalizing cs fuel position with
  | nil =>
      obtain ⟨fuel, rfl⟩ := Nat.exists_eq_succ_of_ne_zero (Nat.ne_zero_of_lt enough)
      cases spaced with
      | nil blank =>
          have all : cs.dropWhile isBlank = [] := List.dropWhile_eq_nil_iff.mpr blank
          refine ⟨[], ⟨.finish, "", position + (cs.takeWhile isBlank).length⟩, ?_, rfl, rfl⟩
          simp only [scanFrom, all, List.nil_append]
  | cons word words ih =>
      obtain ⟨fuel, rfl⟩ := Nat.exists_eq_succ_of_ne_zero (Nat.ne_zero_of_lt enough)
      cases spaced with
      | @cons _ _ blanks rest blank separates spaced =>
          have scans := scan word (List.mem_cons_self ..)
          obtain ⟨token, token_word, scanned⟩ :=
            scanFrom_word scans fuel position blank separates
          obtain ⟨c, _, chars, -, -⟩ := scans
          have shorter : rest.length < fuel := by
            simp only [chars, List.length_append, List.length_cons] at enough
            omega
          obtain ⟨tokens, finish, scanned_rest, same, isFinish⟩ :=
            ih spaced (fun word member => scan word (List.mem_cons_of_mem _ member)) _ shorter
          refine ⟨token :: tokens, finish, ?_, by rw [List.map_cons, token_word, same], isFinish⟩
          rw [scanned, scanned_rest]
          rfl

theorem ofText_spaced {words : List Word} {text : String}
    (spaced : Spaced (words.map Word.text) text.toList) (scan : ∀ word ∈ words, word.Scans)
    (separator : Char) :
    ∃ tokens finish, ofText text separator = ⟨tokens ++ [finish], none⟩ ∧
      tokens.map Token.word = words ∧ finish.kind = .finish := by
  obtain ⟨tokens, finish, scanned, same, isFinish⟩ := scanFrom_spaced spaced
    (fun word member => (scan word member).scansWith separator) 0 (Nat.lt_succ_self _)
  exact ⟨tokens, finish, scanned, same, congrArg Word.kind isFinish⟩

end Scan

end QueryTree
