import QueryTree.Proofs.Compile.Surroundings
import QueryTree.Compile.Expression

/-!
# Texts of operators

The texts in which only parameters, literals, the constants `true`, `false` and `null`, parentheses,
operators, tests for list items and the functions `iif` and `isnull` are used, and the state of a
compile in the middle of such a text.
-/

namespace QueryTree

/-- Whether a kind of token is punctuation that operators or parentheses are written with. -/
def TokenKind.isOperatorSign : TokenKind → Bool
  | .identifier | .stringLiteral | .integerLiteral | .realLiteral | .finish => false
  | .dot | .openBracket | .closeBracket | .openCurly | .closeCurly | .lambda | .nullPropagation =>
    false
  | _ => true

/-- Whether an operand ends with a token; a name ends one unless it is the word `in` after an
operand. -/
def TokenKind.endsOperand (after : Bool) : TokenKind → Bool
  | .identifier => !after
  | .stringLiteral | .integerLiteral | .realLiteral | .closeParen => true
  | _ => false

/-- Whether a text consists of operators, parentheses, literals and names that can be used.  `after`
says whether the first token stands after an operand: a name there has to be the word `in` before a
list in parentheses. -/
def usesOperators (isUsable : String → Bool) (after : Bool) : List Token → Bool
  | [] => false
  | token :: rest =>
    match token.kind with
    | .finish => true
    | .identifier =>
      (if after then token.isWord "in" && rest.head?.any (·.kind == .openParen)
        else isUsable token.text)
        && usesOperators isUsable (!after) rest
    | .stringLiteral | .integerLiteral | .realLiteral => usesOperators isUsable true rest
    | kind => kind.isOperatorSign && usesOperators isUsable (kind.endsOperand after) rest

/-- Whether a keyword is a constant word or one of the functions `iif` and `isnull`. -/
def Keyword.isOperatorWord : Keyword → Bool
  | .constant (.boolean _) | .constant .null | .iif | .isnull => true
  | _ => false

/-- Whether a name can be used beside operators: a parameter, a constant word, or one of the
functions `iif` and `isnull`. -/
def Environment.isOperatorName (env : Environment) (params : List Parameter) (name : String) :
    Bool :=
  match env.keyword? name with
  | some keyword => keyword.isOperatorWord
  | none => params.any fun p => !p.name.isEmpty && env.options.sameName p.name name

theorem usesOperators_cons {isUsable : String → Bool} {after : Bool} {token : Token}
    {rest : List Token} (uses : usesOperators isUsable after (token :: rest) = true)
    (notFinish : token.kind ≠ .finish) :
    usesOperators isUsable (token.kind.endsOperand after) rest = true := by
  rw [usesOperators] at uses
  split at uses
  next isFinish => exact absurd isFinish notFinish
  next isName =>
    rw [isName]
    exact ((Bool.and_eq_true _ _).mp uses).2
  next isText => exact isText ▸ uses
  next isInteger => exact isInteger ▸ uses
  next isReal => exact isReal ▸ uses
  next => exact ((Bool.and_eq_true _ _).mp uses).2

/-- The rest of the text from the current token on consists of operators and of what they need. -/
def Session.Ready (isUsable : String → Bool) (after : Bool) (session : Session) : Prop :=
  usesOperators isUsable after (session.current :: session.rest) = true

namespace Session.Ready

variable {isUsable : String → Bool} {after : Bool} {session : Session}

/-- Members, indices and arrows do not come next. -/
theorem excludes {kind : TokenKind} (ready : session.Ready isUsable after)
    (isOther : kind = .dot ∨ kind = .openBracket ∨ kind = .lambda) :
    session.current.kind ≠ kind := by
  rintro rfl
  rw [Ready, usesOperators] at ready
  obtain isKind | isKind | isKind := isOther
  all_goals
    rw [isKind] at ready
    cases ready

/-- A name before an operand can be used. -/
theorem isUsable_name (ready : session.Ready isUsable false)
    (isName : session.current.kind = .identifier) : isUsable session.current.text = true := by
  rw [Ready, usesOperators] at ready
  rw [isName] at ready
  simp only [Bool.false_eq_true, if_false] at ready
  exact ((Bool.and_eq_true _ _).mp ready).1

/-- After the word `in` comes a list in parentheses. -/
theorem opensList (ready : session.Ready isUsable true)
    (isName : session.current.kind = .identifier) :
    session.rest.head?.any (·.kind == .openParen) = true := by
  rw [Ready, usesOperators] at ready
  rw [isName] at ready
  simp only [if_true] at ready
  exact ((Bool.and_eq_true _ _).mp ((Bool.and_eq_true _ _).mp ready).1).2

/-- A text does not end before its last token. -/
theorem rest_ne_nil (ready : session.Ready isUsable after)
    (notFinish : session.current.kind ≠ .finish) : session.rest ≠ [] := by
  intro isNil
  have uses := usesOperators_cons ready notFinish
  rw [isNil] at uses
  cases uses

/-- Passing over the current token makes the next one current. -/
theorem advance (ready : session.Ready isUsable after)
    (notFinish : session.current.kind ≠ .finish) :
    ∃ token rest, session.rest = token :: rest ∧
      Parse.advance session = .ok () { session with current := token, rest := rest } := by
  obtain ⟨token, rest, rest_eq⟩ := List.exists_cons_of_ne_nil (ready.rest_ne_nil notFinish)
  cases session
  cases rest_eq
  exact ⟨token, rest, rfl, rfl⟩

end Session.Ready

namespace Parse

variable {isUsable : String → Bool} {after : Bool}

/-- A step reaches a state from a state; nothing is said about where it fails. -/
def Reaches {α : Type} (before : Session → Prop) (step : Parse α)
    (reached : α → Session → Prop) : Prop :=
  Ensures before step reached fun _ => True

namespace Reaches

variable {α β : Type} {before : Session → Prop} {reached : α → Session → Prop}

theorem pure {a : α} (holds : ∀ session, before session → reached a session) :
    Reaches before (Pure.pure a : Parse α) reached :=
  Ensures.pure holds

theorem bind {step : Parse α} {next : α → Parse β} {reached' : β → Session → Prop}
    (first : Reaches before step reached)
    (second : ∀ a, Reaches (reached a) (next a) reached') :
    Reaches before (step >>= next) reached' :=
  Ensures.bind first second

theorem throw {error : CompileError} :
    Reaches before (MonadExcept.throw error : Parse α) reached :=
  Ensures.throw fun _ _ => trivial

theorem lift {outcome : Except CompileError α}
    (holds : ∀ a session, outcome = .ok a → before session → reached a session) :
    Reaches before (Parse.lift outcome) reached := by
  cases outcome with
  | ok a => exact .pure fun session start => holds a session rfl start
  | error error => exact .throw

theorem current : Reaches before Parse.current fun token session =>
    before session ∧ session.current = token := fun _ start => ⟨start, rfl⟩

theorem position : Reaches before Parse.position fun _ => before := fun _ start => start

theorem tokensLeft : Reaches before Parse.tokensLeft fun _ => before := fun _ start => start

theorem get : Reaches before MonadState.get fun _ => before := fun _ start => start

theorem scope : Reaches before Parse.scope fun _ => before := fun _ start => start

theorem check {kind : TokenKind} : Reaches before (Parse.check kind) fun isKind session =>
    before session ∧ (session.current.kind == kind) = isKind := fun _ start => ⟨start, rfl⟩

theorem failAt {position : Nat} {fault : CompileFault} :
    Reaches before (Parse.failAt position fault : Parse α) reached :=
  throw

theorem failHere {fault : CompileFault} : Reaches before (Parse.failHere fault : Parse α) reached :=
  bind position fun _ => throw

theorem weaken {step : Parse α} {before' : Session → Prop} (reaches : Reaches before step reached)
    (weaker : ∀ session, before' session → before session) : Reaches before' step reached :=
  fun session start => reaches session (weaker session start)

/-- A step may start from what is known in its states. -/
theorem of_known {known : Prop} {step : Parse α} (holds : ∀ session, before session → known)
    (reaches : known → Reaches before step reached) : Reaches before step reached :=
  fun session start => reaches (holds session start) session start

/-- Passing over a token leads to the state after a token of its kind. -/
theorem advance {kind : TokenKind} (stands : ∀ session, before session →
      session.Ready isUsable after ∧ session.current.kind = kind) (notFinish : kind ≠ .finish) :
    Reaches before Parse.advance fun _ session =>
      session.Ready isUsable (kind.endsOperand after) := by
  intro session start
  obtain ⟨ready, rfl⟩ := stands session start
  obtain ⟨token, rest, rest_eq, outcome⟩ := ready.advance notFinish
  have moved := usesOperators_cons ready notFinish
  rw [rest_eq] at moved
  rw [outcome]
  exact moved

/-- After the word `in` the parenthesis of a list is the current token. -/
theorem advance_in (stands : ∀ session, before session →
      session.Ready isUsable true ∧ session.current.kind = .identifier) :
    Reaches before Parse.advance fun _ session =>
      session.Ready isUsable false ∧ session.current.kind = .openParen := by
  intro session start
  obtain ⟨ready, isName⟩ := stands session start
  have notFinish : session.current.kind ≠ .finish := by simp [isName]
  obtain ⟨token, rest, rest_eq, outcome⟩ := ready.advance notFinish
  have moved := usesOperators_cons ready notFinish
  have opens := ready.opensList isName
  rw [isName, rest_eq] at moved
  rw [rest_eq] at opens
  rw [outcome]
  exact ⟨moved, beq_iff_eq.mp opens⟩

theorem validate {kind : TokenKind} {fault : CompileFault} :
    Reaches before (Parse.validate kind fault) fun _ session =>
      before session ∧ session.current.kind = kind := by
  refine bind check fun isKind => ?_
  cases isKind with
  | true => exact .pure fun session reached => ⟨reached.1, beq_iff_eq.mp reached.2⟩
  | false => exact failHere

theorem expect {kind : TokenKind} {fault : CompileFault} (notFinish : kind ≠ .finish) :
    Reaches (Session.Ready isUsable after) (Parse.expect kind fault) fun _ session =>
      session.Ready isUsable (kind.endsOperand after) :=
  bind validate fun _ => advance (fun _ start => start) notFinish

end Reaches

end Parse

end QueryTree
