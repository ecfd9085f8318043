import QueryTree.Compile.Expression
import QueryTree.Proofs.Compile.Surroundings
import QueryTree.Proofs.Nesting.Mark
import QueryTree.Proofs.Token.Lexeme

/-!
# Steps over brackets

Which brackets and names a step of a compile passes over.
-/

/-!
## The end of a scan

A scan ends with the one token that stands for the end of the text, unless it stops at what is no
token.
-/

namespace QueryTree

namespace Lexeme

/-- A lexeme does not stand for the end of the text, and what it leaves is behind its first
character. -/
def IsProper (rest : List Char) (lexeme : Lexeme) : Prop :=
  lexeme.kind ≠ .finish ∧ lexeme.rest <:+ rest

variable {separator c : Char} {position : Nat} {rest : List Char} {lexeme : Lexeme}

theorem first_isProper (outcome : first separator position c rest = .ok lexeme) :
    lexeme.IsProper rest := by
  obtain ⟨notFinish, tail, -, covered⟩ := first_taken outcome
  exact ⟨notFinish, tail, covered⟩

end Lexeme

/-- Tokens of which the one for the end of a text is the last one, and stands there unless the text
goes on with what is no token. -/
def EndsWell (failure : Option CompileError) : List Token → Prop
  | [] => failure ≠ none
  | token :: rest =>
    if token.kind = .finish then rest = [] ∧ failure = none else EndsWell failure rest

namespace Scan

theorem scanFrom_endsWell {separator : Char} {fuel position : Nat} {cs : List Char}
    (enough : cs.length < fuel) :
    EndsWell (scanFrom separator fuel position cs).failure
      (scanFrom separator fuel position cs).tokens := by
  induction fuel generalizing position cs with
  | zero => omega
  | succ fuel ih =>
      unfold scanFrom
      simp only
      split
      next => simp [EndsWell]
      next c rest visible =>
        split
        next => simp [EndsWell]
        next lexeme outcome =>
          obtain ⟨notFinish, left⟩ := Lexeme.first_isProper outcome
          have shorter : lexeme.rest.length < fuel := by
            have all := (List.dropWhile_suffix Text.isBlank (l := cs)).length_le
            have left := left.length_le
            rw [visible, List.length_cons] at all
            omega
          simpa [cons, EndsWell, notFinish] using ih shorter

theorem ofText_endsWell (text : String) (separator : Char) :
    EndsWell (ofText text separator).failure (ofText text separator).tokens :=
  scanFrom_endsWell (Nat.lt_succ_self _)

end Scan

end QueryTree

namespace QueryTree

/-- The rest of a text from the current token on. -/
structure Session.Stands (failure : Option CompileError) (marks : List Mark) (session : Session) :
    Prop where
  failure_eq : session.failure = failure
  endsWell : EndsWell failure (session.current :: session.rest)
  marks_eq : (session.current :: session.rest).map Token.mark = marks

/-- Passing over a token that is not the last one makes the next one current. -/
theorem Session.Stands.advance {failure : Option CompileError} {marks : List Mark}
    {session : Session} (stands : session.Stands failure marks)
    (notFinish : session.current.kind ≠ .finish) :
    (∃ error, Parse.advance session = .error error session) ∨
      ∃ next left, Parse.advance session = .ok () next ∧ next.Stands failure left ∧
        marks = [session.current.mark] ++ left := by
  obtain ⟨current, rest, failure, scopes, internals, store⟩ := session
  obtain ⟨rfl, endsWell, rfl⟩ := stands
  rw [EndsWell, if_neg notFinish] at endsWell
  cases rest with
  | nil =>
      cases failure with
      | none => exact absurd rfl endsWell
      | some error => exact .inl ⟨error, rfl⟩
  | cons token rest =>
      exact .inr ⟨⟨token, rest, failure, scopes, internals, store⟩, _, rfl, ⟨rfl, endsWell, rfl⟩,
        rfl⟩

/-- The token for the end of the text is the current one. -/
def Session.AtEnd (session : Session) : Prop := session.current.kind = .finish

/-- Where the text ends only the token for its end is left. -/
theorem Session.Stands.of_atEnd {failure : Option CompileError} {marks : List Mark}
    {session : Session} (stands : session.Stands failure marks) (atEnd : session.AtEnd) :
    failure = none ∧ marks = [.other] := by
  obtain ⟨-, endsWell, rfl⟩ := stands
  rw [EndsWell, if_pos (show session.current.kind = .finish from atEnd)] at endsWell
  obtain ⟨isLast, failure_eq⟩ := endsWell
  refine ⟨failure_eq, ?_⟩
  rw [isLast, List.map_singleton, Token.mark, show session.current.kind = .finish from atEnd]
  rfl

namespace Parse

/-- From a state that satisfies `before`, a step passes over a part of the text that is in the
language and ends in a state that satisfies `after`, unless it fails. -/
def Passes {α : Type} (before : Session → Prop) (language : Language Mark) (step : Parse α)
    (after : α → Session → Prop) : Prop :=
  ∀ failure marks, Ensures (fun session => session.Stands failure marks ∧ before session) step
    (fun a session => (∃ word ∈ language, ∃ left, marks = word ++ left ∧
      session.Stands failure left) ∧ after a session) fun _ => True

namespace Passes

variable {α β : Type} {before : Session → Prop} {language : Language Mark}
  {step : Parse α} {after : α → Session → Prop}

section Composition

theorem bind {next : α → Parse β} {following : Language Mark} {last : β → Session → Prop}
    (first : Passes before language step after)
    (second : ∀ a, Passes (after a) following (next a) last) :
    Passes before (language * following) (step >>= next) last := by
  intro failure marks
  refine Ensures.bind (first failure marks) fun a session reached => ?_
  obtain ⟨⟨word, isRead, left, rfl, stands⟩, holds⟩ := reached
  refine (second a failure left).imp (fun _ start => start) ?_ (fun _ _ => trivial) session
    ⟨stands, holds⟩
  rintro b reached ⟨⟨word', isRead', left', rfl, stands'⟩, holds'⟩
  refine ⟨⟨word ++ word', Language.append_mem_mul isRead isRead', left', ?_, stands'⟩, holds'⟩
  rw [List.append_assoc]

theorem weaken {before' : Session → Prop} {language' : Language Mark}
    (passes : Passes before language step after)
    (weaker : ∀ session, before' session → before session) (le : language ≤ language') :
    Passes before' language' step after :=
  fun failure marks => (passes failure marks).imp
    (fun _ start => ⟨start.1, weaker _ start.2⟩)
    (fun _ _ reached => ⟨reached.1.imp fun _ read => ⟨le read.1, read.2⟩, reached.2⟩)
    fun _ _ => trivial

/-- After a step that passes over nothing, what follows passes over the rest. -/
theorem look {next : α → Parse β} {last : β → Session → Prop} (first : Passes before 1 step after)
    (second : ∀ a, Passes (after a) language (next a) last) :
    Passes before language (step >>= next) last :=
  one_mul language ▸ bind first second

/-- Two texts of a language that is closed under them follow each other. -/
theorem join {next : α → Parse β} {last : β → Session → Prop}
    (closed : language * language ≤ language) (first : Passes before language step after)
    (second : ∀ a, Passes (after a) language (next a) last) :
    Passes before language (step >>= next) last :=
  (bind first second).weaken (fun _ start => start) closed

/-- What follows a step may pass over nothing. -/
theorem settle {next : α → Parse β} {last : β → Session → Prop}
    (first : Passes before language step after) (second : ∀ a, Passes (after a) 1 (next a) last) :
    Passes before language (step >>= next) last :=
  mul_one language ▸ bind first second

theorem throw {error : CompileError} :
    Passes before language (MonadExcept.throw error : Parse α) after :=
  fun _ _ => Ensures.throw fun _ _ => trivial

theorem failAt {position : Nat} {fault : CompileFault} :
    Passes before language (Parse.failAt position fault : Parse α) after :=
  throw

theorem failHere {fault : CompileFault} :
    Passes before language (Parse.failHere fault : Parse α) after :=
  fun _ _ _ _ => trivial

end Composition

section Looking

/-- A step that keeps the tokens passes over nothing. -/
theorem of_stands (keeps : ∀ failure marks, Ensures
      (fun session => session.Stands failure marks ∧ before session) step
      (fun a session => session.Stands failure marks ∧ after a session) fun _ => True) :
    Passes before 1 step after :=
  fun failure marks => (keeps failure marks).imp (fun _ start => start)
    (fun _ _ reached => ⟨⟨[], rfl, marks, rfl, reached.1⟩, reached.2⟩) fun _ _ => trivial

theorem pure {a : α} (holds : ∀ session, before session → after a session) :
    Passes before 1 (Pure.pure a : Parse α) after :=
  of_stands fun _ _ _ start => ⟨start.1, holds _ start.2⟩

theorem lift {outcome : Except CompileError α} {after : Session → Prop}
    (holds : ∀ session, before session → after session) :
    Passes before 1 (Parse.lift outcome) fun _ => after := by
  cases outcome with
  | ok a => exact pure holds
  | error error => exact throw

theorem current : Passes before 1 Parse.current fun token session =>
    before session ∧ session.current = token :=
  of_stands fun _ _ _ start => ⟨start.1, start.2, rfl⟩

theorem check {kind : TokenKind} : Passes before 1 (Parse.check kind) fun isKind session =>
    before session ∧ (session.current.kind == kind) = isKind :=
  of_stands fun _ _ _ start => ⟨start.1, start.2, rfl⟩

theorem checkWord {word : String} : Passes before 1 (Parse.checkWord word) fun isWord session =>
    before session ∧ session.current.isWord word = isWord :=
  of_stands fun _ _ _ start => ⟨start.1, start.2, rfl⟩

theorem get : Passes before 1 MonadState.get fun _ => before :=
  of_stands fun _ _ _ start => start

theorem position : Passes before 1 Parse.position fun _ => before :=
  of_stands fun _ _ _ start => start

theorem tokensLeft : Passes before 1 Parse.tokensLeft fun _ => before :=
  of_stands fun _ _ _ start => start

theorem scope : Passes before 1 Parse.scope fun _ => before :=
  of_stands fun _ _ _ start => start

theorem validate {kind : TokenKind} {fault : CompileFault} :
    Passes before 1 (Parse.validate kind fault) fun _ session =>
      before session ∧ session.current.kind = kind := by
  refine look check fun isKind => ?_
  cases isKind with
  | true => exact pure fun session reached => ⟨reached.1, beq_iff_eq.mp reached.2⟩
  | false => exact failHere

theorem identifier : Passes before 1 Parse.identifier fun _ session =>
    before session ∧ session.current.kind = .identifier :=
  look validate fun _ => look current fun _ => pure fun _ reached => reached.1

theorem newParameter {name : String} {type : Ty} :
    Passes before 1 (Parse.newParameter name type) fun _ _ => True :=
  of_stands fun _ _ _ start => ⟨⟨start.1.1, start.1.2, start.1.3⟩, trivial⟩

theorem recordType {names : List String} {types : List Ty} :
    Passes before 1 (Parse.recordType names types) fun _ _ => True :=
  of_stands fun _ _ _ start => ⟨⟨start.1.1, start.1.2, start.1.3⟩, trivial⟩

end Looking

section Passing

/-- Passing over a token that is not the last one. -/
theorem advance (isRead : ∀ session, before session →
      session.current.kind ≠ .finish ∧ [session.current.mark] ∈ language) :
    Passes before language Parse.advance fun _ _ => True := by
  rintro failure marks session ⟨stands, start⟩
  obtain ⟨notFinish, isRead⟩ := isRead session start
  obtain ⟨error, outcome⟩ | ⟨next, left, outcome, stands', rfl⟩ := stands.advance notFinish
  · rw [outcome]
    trivial
  · rw [outcome]
    exact ⟨⟨_, isRead, left, rfl, stands'⟩, trivial⟩

/-- Passing over a token of a kind. -/
theorem pass {kind : TokenKind} (isKind : ∀ session, before session → session.current.kind = kind)
    (notFinish : kind ≠ .finish) (isRead : ∀ text, [kind.mark text] ∈ language) :
    Passes before language Parse.advance fun _ _ => True := by
  refine advance fun session start => ?_
  obtain rfl := isKind session start
  exact ⟨notFinish, isRead _⟩

theorem expect {kind : TokenKind} {fault : CompileFault} (notFinish : kind ≠ .finish)
    (isRead : ∀ text, [kind.mark text] ∈ language) :
    Passes before language (Parse.expect kind fault) fun _ _ => True :=
  look validate fun _ => pass (fun _ reached => reached.2) notFinish isRead

end Passing

section Surroundings

/-- The scope does not count for the tokens. -/
theorem withScope {frame : ScopeFrame}
    (passes : Passes (fun _ => True) language step fun _ _ => True) :
    Passes before language (Parse.withScope frame step) fun _ _ => True := by
  rintro failure marks session ⟨stands, -⟩
  have reached := passes failure marks { session with scopes := session.scopes.push frame }
    ⟨⟨stands.1, stands.2, stands.3⟩, trivial⟩
  unfold Parse.withScope
  cases outcome : step { session with scopes := session.scopes.push frame } with
  | ok a next =>
      rw [outcome] at reached
      obtain ⟨⟨word, isRead, left, rfl, stands'⟩, -⟩ := reached
      exact ⟨⟨word, isRead, left, rfl, stands'.1, stands'.2, stands'.3⟩, trivial⟩
  | error error next => trivial

/-- The names that stand for an element do not count for the tokens. -/
theorem withInternal {key : String} {element : Parameter} {kind : TokenKind}
    (isKind : ∀ session, before session → session.current.kind = kind)
    (passes : Passes (fun session => session.current.kind = kind) language step fun _ _ => True) :
    Passes before language (Parse.withInternal key element step) fun _ _ => True := by
  rintro failure marks session ⟨stands, start⟩
  have reached := passes failure marks
    { session with internals := session.internals.set key (some element) }
    ⟨⟨stands.1, stands.2, stands.3⟩, isKind session start⟩
  unfold Parse.withInternal
  simp only
  cases outcome : step { session with internals := session.internals.set key (some element) } with
  | ok a next =>
      rw [outcome] at reached
      obtain ⟨⟨word, isRead, left, rfl, stands'⟩, -⟩ := reached
      exact ⟨⟨word, isRead, left, rfl, stands'.1, stands'.2, stands'.3⟩, trivial⟩
  | error error next => trivial

end Surroundings

section Nesting

variable {isNew : String → Prop}

/-- What passes over nothing passes over a nested text. -/
theorem nothing (passes : Passes before 1 step after) :
    Passes before (Mark.nested isNew) step after :=
  passes.weaken (fun _ start => start) Mark.one_le_nested

theorem done {a : α} : Passes before (Mark.nested isNew) (Pure.pure a) fun _ _ => True :=
  nothing (pure fun _ _ => trivial)

/-- What is made at the end passes over nothing. -/
theorem made {outcome : Except CompileError α} :
    Passes before (Mark.nested isNew) (Parse.lift outcome) fun _ _ => True :=
  nothing (lift fun _ _ => trivial)

/-- A nested text may be followed by a nested text. -/
theorem nest {next : α → Parse β} {last : β → Session → Prop}
    (first : Passes before (Mark.nested isNew) step after)
    (second : ∀ a, Passes (after a) (Mark.nested isNew) (next a) last) :
    Passes before (Mark.nested isNew) (step >>= next) last :=
  join Mark.nested_mul_nested_le first second

/-- Passing over a token that is no bracket. -/
theorem sign {kind : TokenKind} (isKind : ∀ session, before session → session.current.kind = kind)
    (notFinish : kind ≠ .finish) (isPlain : ∀ text, (kind.mark text).isPlain = true) :
    Passes before (Mark.nested isNew) Parse.advance fun _ _ => True :=
  pass isKind notFinish fun text => .plain (isPlain text)

/-- A sign that may come next, and what follows it. -/
theorem optional {kind : TokenKind} {continued ended : Parse α} (notFinish : kind ≠ .finish)
    (isPlain : ∀ text, (kind.mark text).isPlain = true)
    (further : ∀ before, Passes before (Mark.nested isNew) continued after)
    (done : ∀ before, Passes before (Mark.nested isNew) ended after) :
    Passes before (Mark.nested isNew) (do
      if ← Parse.check kind then
        Parse.advance
        continued
      else ended) after := by
  refine look check fun comes => ?_
  cases comes with
  | true =>
      exact nest (sign (fun _ start => beq_iff_eq.mp start.2) notFinish isPlain) fun _ => further _
  | false => exact done _

end Nesting

end Passes

/-- Wherever a step starts, it passes over a nested text. -/
def Nests {α : Type} (isNew : String → Prop) (step : Parse α) : Prop :=
  ∀ before, Passes before (Mark.nested isNew) step fun _ _ => True

end Parse

end QueryTree
