import Mathlib.Computability.Language
import Mathlib.Order.CompletePartialOrder
import QueryTree.Token.Basic

/-!
# Nested brackets

What the tokens of a text are for the nesting of its brackets, when brackets are balanced, and when
they are but for the brackets around the parts of constructions.
-/

namespace QueryTree

/-- The kinds of brackets. -/
inductive Bracket where
  | round | square | curly
deriving DecidableEq

/-- A bracket, with curly ones taken for round ones. -/
def Bracket.rounded : Bracket → Bracket
  | .curly => .round
  | bracket => bracket

/-- What a token is for the nesting of brackets: a bracket, a part of a name, or neither. -/
inductive Mark where
  | opening (bracket : Bracket)
  | closing (bracket : Bracket)
  | word (text : String)
  | dot
  | other

/-- What a token of a kind and with a text is for the nesting of brackets. -/
def TokenKind.mark (text : String) : TokenKind → Mark
  | .openParen => .opening .round
  | .closeParen => .closing .round
  | .openBracket => .opening .square
  | .closeBracket => .closing .square
  | .openCurly => .opening .curly
  | .closeCurly => .closing .curly
  | .identifier => .word text
  | .dot => .dot
  | _ => .other

/-- What a token is for the nesting of brackets. -/
def Token.mark (token : Token) : Mark := token.kind.mark token.text

namespace Mark

/-- Whether a mark is no bracket. -/
def isPlain : Mark → Bool
  | opening _ | closing _ => false
  | word _ | dot | other => true

/-- Whether every bracket of a text is closed by one of its kind, given the brackets that are open
before it. -/
def balancedFrom : List Bracket → List Mark → Bool
  | stack, [] => stack.isEmpty
  | stack, opening bracket :: rest => balancedFrom (bracket :: stack) rest
  | [], closing _ :: _ => false
  | bracket :: stack, closing closer :: rest => bracket == closer && balancedFrom stack rest
  | stack, _ :: rest => balancedFrom stack rest

/-- Whether every bracket of a text is closed by one of its kind. -/
def balanced (marks : List Mark) : Bool := balancedFrom [] marks

section Balance

variable {stack : List Bracket} {mark : Mark} {left right word rest : List Mark}
  {bracket opener closer : Bracket}

theorem balancedFrom_plain (isPlain : mark.isPlain = true) :
    balancedFrom stack (mark :: rest) = balancedFrom stack rest := by
  cases mark with
  | opening bracket => cases isPlain
  | closing bracket => cases isPlain
  | word text => cases stack <;> rfl
  | dot => cases stack <;> rfl
  | other => cases stack <;> rfl

theorem balancedFrom_opening :
    balancedFrom stack (opening bracket :: rest) = balancedFrom (bracket :: stack) rest := by
  cases stack <;> rfl

/-- What follows in a balanced text is balanced within the brackets that are open there. -/
theorem balancedFrom_tail (holds : balancedFrom stack (left ++ right) = true) :
    ∃ stack, balancedFrom stack right = true := by
  induction left generalizing stack with
  | nil => exact ⟨stack, holds⟩
  | cons mark left ih =>
      cases mark with
      | opening bracket => exact ih (balancedFrom_opening.symm.trans holds)
      | closing bracket =>
          cases stack with
          | nil => cases holds
          | cons opener stack => exact ih ((Bool.and_eq_true _ _).mp holds).2
      | word text => exact ih ((balancedFrom_plain rfl).symm.trans holds)
      | dot => exact ih ((balancedFrom_plain rfl).symm.trans holds)
      | other => exact ih ((balancedFrom_plain rfl).symm.trans holds)

/-- A part of a text that leaves the brackets around it as they are. -/
def Neutral (word : List Mark) : Prop :=
  ∀ stack rest, balancedFrom stack (word ++ rest) = balancedFrom stack rest

theorem Neutral.balanced (neutral : Neutral word) : Mark.balanced word = true := by
  have ends := neutral [] []
  rwa [List.append_nil] at ends

theorem neutral_nil : Neutral [] := fun _ _ => rfl

theorem neutral_plain (isPlain : mark.isPlain = true) : Neutral [mark] :=
  fun _ _ => balancedFrom_plain isPlain

theorem Neutral.append (first : Neutral left) (second : Neutral right) :
    Neutral (left ++ right) := by
  intro stack rest
  rw [List.append_assoc, first, second]

/-- Brackets around a part are balanced if they are of one kind. -/
theorem Neutral.balancedFrom_enclosed (inside : Neutral word) :
    balancedFrom stack ([opening opener] ++ (word ++ [closing closer]) ++ rest) =
      (opener == closer && balancedFrom stack rest) := by
  simp [balancedFrom_opening, inside _ _, balancedFrom]

theorem Neutral.group (inside : Neutral word) (bracket : Bracket) :
    Neutral ([opening bracket] ++ (word ++ [closing bracket])) := by
  intro stack rest
  rw [inside.balancedFrom_enclosed, beq_self_eq_true, Bool.true_and]

end Balance

/-- Whether a mark may be part of a name. -/
def isNamePart : Mark → Bool
  | word _ | dot => true
  | _ => false

/-- Names with their dots. -/
def names : Language Mark := {name | ∀ mark ∈ name, mark.isNamePart = true}

/-- The brackets that may mark an array. -/
def arrayMarks : Language Mark := 1 + {[opening .square, closing .square]}

/-- The words that mean `new`. -/
def newWords (isNew : String → Prop) : Language Mark :=
  {front | ∃ text, isNew text ∧ front = [word text]}

/-- What stands before the parts of a construction: a word that means `new`, perhaps the name of a
type, and perhaps the mark of an array. -/
def constructionFronts (isNew : String → Prop) : Language Mark :=
  newWords isNew * (names * arrayMarks)

/-- Brackets of which each is closed by one of its kind, but for the brackets around the parts of a
construction: these may be round or curly at either end. -/
inductive Nested (isNew : String → Prop) : List Mark → Prop
  | nil : Nested isNew []
  | plain {mark : Mark} (isPlain : mark.isPlain = true) : Nested isNew [mark]
  | append {left right : List Mark} (first : Nested isNew left) (second : Nested isNew right) :
      Nested isNew (left ++ right)
  | group {bracket : Bracket} {word : List Mark} (inside : Nested isNew word) :
      Nested isNew ([opening bracket] ++ (word ++ [closing bracket]))
  | construction {front word : List Mark} {opener closer : Bracket}
      (isFront : front ∈ constructionFronts isNew) (opens : opener ≠ .square)
      (closes : closer ≠ .square) (inside : Nested isNew word) :
      Nested isNew (front ++ ([opening opener] ++ (word ++ [closing closer])))

/-- Texts whose brackets are nested but for those around the parts of constructions. -/
def nested (isNew : String → Prop) : Language Mark := {marks | Nested isNew marks}

/-- The brackets that the parts of a construction may begin with. -/
def openers : Language Mark := {word | ∃ bracket, bracket ≠ .square ∧ word = [opening bracket]}

/-- The brackets that the parts of a construction may end with. -/
def closers : Language Mark := {word | ∃ bracket, bracket ≠ .square ∧ word = [closing bracket]}

/-- The brackets around the parts of each construction of a text are of one kind. -/
def ClosesAlike (isNew : String → Prop) (marks : List Mark) : Prop :=
  ∀ front word opener closer, front ∈ constructionFronts isNew → Nested isNew word →
    front ++ ([opening opener] ++ (word ++ [closing closer])) <:+: marks → opener = closer

section Language

variable {isNew : String → Prop}

theorem one_le_nested : 1 ≤ nested isNew := by
  rintro word rfl
  exact .nil

theorem nested_mul_nested_le : nested isNew * nested isNew ≤ nested isNew := by
  rintro _ ⟨left, first, right, second, rfl⟩
  exact .append first second

theorem plain_le_nested {mark : Mark} (isPlain : mark.isPlain = true) :
    {[mark]} ≤ nested isNew := by
  rintro word rfl
  exact .plain isPlain

theorem le_nested_mul (language : Language Mark) : language ≤ nested isNew * language :=
  le_mul_of_one_le_left' one_le_nested

theorem nested_mul_mul_le (language : Language Mark) :
    nested isNew * (nested isNew * language) ≤ nested isNew * language := by
  rw [← mul_assoc]
  exact mul_le_mul' nested_mul_nested_le le_rfl

theorem group_le_nested (bracket : Bracket) :
    {[opening bracket]} * (nested isNew * {[closing bracket]}) ≤ nested isNew := by
  rintro _ ⟨_, rfl, _, ⟨word, inside, _, rfl, rfl⟩, rfl⟩
  exact .group inside

theorem one_le_names : 1 ≤ names := by
  rintro word rfl
  exact List.forall_mem_nil _

theorem names_mul_names_le : names * names ≤ names := by
  rintro _ ⟨left, first, right, second, rfl⟩
  exact List.forall_mem_append.mpr ⟨first, second⟩

theorem arrayMark_le : {[opening .square]} * {[closing .square]} ≤ arrayMarks := by
  rintro _ ⟨_, rfl, _, rfl, rfl⟩
  exact .inr rfl

/-- A token that may begin the parts of a construction is passed over as such. -/
theorem mem_openers {token : Token} (opens : token.kind = .openParen ∨ token.kind = .openCurly) :
    token.kind ≠ .finish ∧ [token.mark] ∈ openers := by
  rw [Token.mark]
  obtain isRound | isCurly := opens
  · exact isRound ▸ ⟨by decide, .round, by decide, rfl⟩
  · exact isCurly ▸ ⟨by decide, .curly, by decide, rfl⟩

/-- A token that may end the parts of a construction is passed over as such. -/
theorem mem_closers {token : Token} (closes : token.kind = .closeParen ∨ token.kind = .closeCurly) :
    token.kind ≠ .finish ∧ [token.mark] ∈ closers := by
  rw [Token.mark]
  obtain isRound | isCurly := closes
  · exact isRound ▸ ⟨by decide, .round, by decide, rfl⟩
  · exact isCurly ▸ ⟨by decide, .curly, by decide, rfl⟩

theorem construction_le_nested :
    newWords isNew * (names * (arrayMarks * (openers * (nested isNew * closers)))) ≤
      nested isNew := by
  rw [← mul_assoc, ← mul_assoc, mul_assoc (newWords isNew)]
  rintro _ ⟨front, isFront, _, ⟨_, ⟨opener, opens, rfl⟩, _,
    ⟨word, inside, _, ⟨closer, closes, rfl⟩, rfl⟩, rfl⟩, rfl⟩
  exact .construction isFront opens closes inside

end Language

section Nesting

variable {isNew : String → Prop} {left right marks word front : List Mark}
  {opener closer : Bracket}

theorem isPlain_of_isNamePart {mark : Mark} (isPart : mark.isNamePart = true) :
    mark.isPlain = true := by
  cases mark with
  | word text => rfl
  | dot => rfl
  | _ => cases isPart

theorem neutral_of_mem_names (isName : word ∈ names) : Neutral word := by
  induction word with
  | nil => exact neutral_nil
  | cons mark word ih =>
      obtain ⟨first, others⟩ := List.forall_mem_cons.mp isName
      exact (neutral_plain (isPlain_of_isNamePart first)).append (ih others)

theorem neutral_of_mem_constructionFronts (isFront : front ∈ constructionFronts isNew) :
    Neutral front := by
  obtain ⟨_, ⟨text, -, rfl⟩, _, ⟨name, isName, mark, isMark, rfl⟩, rfl⟩ := isFront
  refine (neutral_plain rfl).append ((neutral_of_mem_names isName).append ?_)
  obtain rfl | rfl := isMark
  · exact neutral_nil
  · exact neutral_nil.group .square

/-- A nested text leaves the brackets around it as they are, or is balanced nowhere. -/
theorem Nested.neutral_or (holds : Nested isNew marks) :
    Neutral marks ∨ ∀ stack rest, balancedFrom stack (marks ++ rest) = false := by
  induction holds with
  | nil => exact .inl neutral_nil
  | plain isPlain => exact .inl (neutral_plain isPlain)
  | append _ _ first second =>
      obtain first | never := first
      · obtain second | never := second
        · exact .inl (first.append second)
        · exact .inr fun stack rest => by rw [List.append_assoc, first, never]
      · exact .inr fun stack rest => by rw [List.append_assoc, never]
  | group _ inside =>
      obtain inside | never := inside
      · exact .inl (inside.group _)
      · exact .inr fun stack rest => by simp [balancedFrom_opening, never]
  | @construction front word opener closer isFront _ _ _ inside =>
      have front_neutral := neutral_of_mem_constructionFronts isFront
      obtain inside | never := inside
      · by_cases alike : opener = closer
        · exact .inl (front_neutral.append (alike ▸ inside.group opener))
        · -- The closing bracket does not fit the opening one, whatever is open around them.
          refine .inr fun stack rest => ?_
          rw [List.append_assoc, front_neutral, inside.balancedFrom_enclosed,
            beq_eq_false_iff_ne.mpr alike, Bool.false_and]
      · refine .inr fun stack rest => ?_
        rw [List.append_assoc, front_neutral]
        simp [balancedFrom_opening, never]

theorem ClosesAlike.of_infix (alike : ClosesAlike isNew marks) (isPart : word <:+: marks) :
    ClosesAlike isNew word :=
  fun front inner opener closer isFront inside here =>
    alike front inner opener closer isFront inside (here.trans isPart)

/-- A nested text leaves the brackets around it as they are if its constructions close with the
brackets that they open with. -/
theorem Nested.neutral (holds : Nested isNew marks) (alike : ClosesAlike isNew marks) :
    Neutral marks := by
  induction holds with
  | nil => exact neutral_nil
  | plain isPlain => exact neutral_plain isPlain
  | append _ _ first second =>
      exact (first (alike.of_infix (List.prefix_append ..).isInfix)).append
        (second (alike.of_infix (List.suffix_append ..).isInfix))
  | group _ inside => exact (inside (alike.of_infix (List.infix_append' ..))).group _
  | @construction front word opener closer isFront _ _ nested inside =>
      obtain rfl := alike front word opener closer isFront nested (List.infix_refl _)
      refine (neutral_of_mem_constructionFronts isFront).append ((inside ?_).group opener)
      refine alike.of_infix (.trans ?_ (List.suffix_append ..).isInfix)
      exact List.infix_append' ..

/-- In a balanced text the constructions close with the brackets that they open with. -/
theorem closesAlike_of_balancedFrom {stack : List Bracket}
    (balanced : balancedFrom stack marks = true) : ClosesAlike isNew marks := by
  rintro front word opener closer isFront nested ⟨before, after, rfl⟩
  rw [List.append_assoc] at balanced
  obtain ⟨stack, inner⟩ := balancedFrom_tail balanced
  rw [List.append_assoc, neutral_of_mem_constructionFronts isFront] at inner
  obtain inside | never := nested.neutral_or
  · rw [inside.balancedFrom_enclosed] at inner
    exact beq_iff_eq.mp ((Bool.and_eq_true _ _).mp inner).1
  · simp [balancedFrom_opening, never] at inner

/-- A text without a word that means `new` has no constructions. -/
theorem closesAlike_of_forall_word (none : ∀ text, Mark.word text ∈ marks → ¬ isNew text) :
    ClosesAlike isNew marks := by
  rintro front word opener closer isFront - isPart
  obtain ⟨_, ⟨text, means, rfl⟩, _, -, rfl⟩ := isFront
  exact absurd means (none text (isPart.mem (by simp)))

/-- A nested text is balanced if and only if its constructions close with the brackets that they
open with. -/
theorem Nested.balanced_iff (holds : Nested isNew marks) :
    balanced marks = true ↔ ClosesAlike isNew marks :=
  ⟨closesAlike_of_balancedFrom, fun alike => (holds.neutral alike).balanced⟩

end Nesting

section Rounding

/-- A mark, with curly brackets taken for round ones. -/
def rounded : Mark → Mark
  | opening bracket => opening bracket.rounded
  | closing bracket => closing bracket.rounded
  | mark => mark

variable {isNew : String → Prop} {marks front : List Mark}

theorem rounded_of_isPlain {mark : Mark} (isPlain : mark.isPlain = true) :
    mark.rounded = mark := by
  cases mark with
  | opening bracket => cases isPlain
  | closing bracket => cases isPlain
  | _ => rfl

theorem map_rounded_of_mem_constructionFronts (isFront : front ∈ constructionFronts isNew) :
    front.map rounded = front := by
  obtain ⟨_, ⟨text, -, rfl⟩, _, ⟨name, isName, mark, isMark, rfl⟩, rfl⟩ := isFront
  have name_same : name.map rounded = name := by
    refine (List.map_congr_left fun mark isPart => ?_).trans (List.map_id name)
    exact rounded_of_isPlain (isPlain_of_isNamePart (isName mark isPart))
  have mark_same : mark.map rounded = mark := by
    obtain rfl | rfl := isMark
    · rfl
    · rfl
  simp [name_same, mark_same, rounded]

/-- The brackets of a nested text are balanced, with curly ones taken for round ones. -/
theorem Nested.neutral_rounded (holds : Nested isNew marks) : Neutral (marks.map rounded) := by
  induction holds with
  | nil => exact neutral_nil
  | plain isPlain =>
      rw [List.map_singleton, rounded_of_isPlain isPlain]
      exact neutral_plain isPlain
  | append _ _ first second =>
      rw [List.map_append]
      exact first.append second
  | @group bracket _ _ inside =>
      rw [List.map_append, List.map_append]
      exact inside.group bracket.rounded
  | @construction front word opener closer isFront opens closes _ inside =>
      have round {bracket : Bracket} (other : bracket ≠ .square) : bracket.rounded = .round := by
        cases bracket with
        | square => exact absurd rfl other
        | round => rfl
        | curly => rfl
      simp only [List.map_append, List.map_cons, List.map_nil, rounded, round opens, round closes,
        map_rounded_of_mem_constructionFronts isFront]
      exact (neutral_of_mem_constructionFronts isFront).append (inside.group .round)

end Rounding

end Mark

end QueryTree
