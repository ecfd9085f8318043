import QueryTree.Proofs.Parallel.Step
import QueryTree.Proofs.Token.Comma

/-!
# Steps up to a comma

Two compiles of which the first one reads a text up to a comma, and the second one a text that goes
on behind the comma.  As long as both are before the comma they do the same.  Where the first one
ends, or fails for want of further text, the second one stands before the comma, or is behind it.
-/

namespace QueryTree

/-- The classes of the tokens from the current one on. -/
def Session.kinds (session : Session) : List TokenKind :=
  (session.current :: session.rest).map Token.kind

theorem Session.length_le_of_kinds {session after : Session}
    (reached : after.kinds <:+ session.kinds) : after.rest.length ≤ session.rest.length := by
  have bound := reached.length_le
  simpa [kinds] using bound

/-- A step that leaves the tokens at the end of those that there were. -/
structure Parse.Shortens {α : Type} (step : Parse α) : Prop where
  suffix : ∀ {session a after}, step session = .ok a after → after.kinds <:+ session.kinds

namespace Parse.Shortens

variable {α β : Type}

theorem pure {a : α} : Shortens (Pure.pure a) where
  suffix ran := by
    obtain ⟨-, rfl⟩ := EStateM.Result.ok.inj ran
    exact List.suffix_refl _

theorem failAt {position : Nat} {fault : CompileFault} :
    Shortens (Parse.failAt position fault : Parse α) where
  suffix ran := by cases ran

theorem bind {step : Parse α} {next : α → Parse β} (first : Shortens step)
    (second : ∀ a, Shortens (next a)) : Shortens (step >>= next) where
  suffix ran := by
    obtain ⟨a, middle, ran, ran'⟩ := Parse.bind_eq_ok_iff.mp ran
    exact ((second a).suffix ran').trans (first.suffix ran)

/-- A step that looks at the state. -/
theorem read {f : Session → β} {next : β → Parse α} (second : ∀ b, Shortens (next b)) :
    Shortens (MonadState.get >>= fun session => next (f session)) where
  suffix ran := (second _).suffix ran

theorem check {kind : TokenKind} {next : Bool → Parse α} (second : ∀ found, Shortens (next found)) :
    Shortens (Parse.check kind >>= next) where
  suffix ran := (second _).suffix ran

theorem failHere {fault : CompileFault} : Shortens (Parse.failHere fault : Parse α) :=
  .read fun _ => .failAt

theorem lift {outcome : Except CompileError α} : Shortens (Parse.lift outcome) := by
  cases outcome with
  | ok a => exact pure
  | error error => exact @failAt α error.position error.fault

theorem advance : Shortens Parse.advance := by
  refine ⟨fun {session _ after} ran => ?_⟩
  cases behind : session.rest with
  | cons token rest =>
      rw [Parse.advance_eq behind] at ran
      obtain ⟨-, rfl⟩ := EStateM.Result.ok.inj ran
      simp [Session.kinds, Session.moveTo, behind, List.suffix_cons]
  | nil =>
      cases failed : session.failure with
      | none =>
          rw [Session.advance_last behind failed] at ran
          obtain ⟨-, rfl⟩ := EStateM.Result.ok.inj ran
          exact List.suffix_refl _
      | some error =>
          rw [Session.advance_failed behind failed] at ran
          cases ran

end Parse.Shortens

/-- A step from a changed state on, whose result is changed again. -/
def Parse.around {α : Type} (enter : Session → Session) (leave : Session → Session → Session)
    (step : Parse α) : Parse α := fun session =>
  match step (enter session) with
  | .ok a after => .ok a (leave session after)
  | .error error after => .error error (leave session after)

theorem Parse.around_eq_ok {α : Type} {enter : Session → Session}
    {leave : Session → Session → Session} {step : Parse α} {session after : Session} {a : α} :
    Parse.around enter leave step session = .ok a after ↔
      ∃ middle, step (enter session) = .ok a middle ∧ leave session middle = after := by
  unfold around
  cases step (enter session) <;> simp

/-- A place where a text may be cut: the position of a comma, the tokens behind it, and what is
wrong with the text behind these. -/
structure Cut where
  place : Nat
  tail : List Token
  failure : Option CompileError
  goesOn : tail = [] → failure ≠ none

namespace Cut

open Parse (Shortens)

/-- Two states of which the first one is before the end of a text, and the second one at the same
place in the text that goes on behind the comma. -/
structure Splits (cut : Cut) (session session' : Session) : Prop where
  tokens : ∃ front, (∀ token ∈ front, token.kind ≠ .finish) ∧
    session.current :: session.rest = front ++ [Cursor.finishAt cut.place] ∧
    session'.current :: session'.rest = front ++ Cursor.commaAt cut.place :: cut.tail
  complete : session.failure = none
  failure : session'.failure = cut.failure
  scopes : session'.scopes = session.scopes
  internals : session'.internals = session.internals
  store : session'.store = session.store

variable {cut : Cut} {session session' : Session}

namespace Splits

theorem length_eq (splits : cut.Splits session session') :
    session'.rest.length = session.rest.length + cut.tail.length := by
  obtain ⟨front, -, tokens, tokens'⟩ := splits.tokens
  have length := congrArg List.length tokens
  have length' := congrArg List.length tokens'
  simp only [List.length_append, List.length_cons, List.length_nil] at length length'
  omega

/-- The two states are at the cut, or both before a token that is no end. -/
theorem cases (splits : cut.Splits session session') :
    session.current = Cursor.finishAt cut.place ∧ session.rest = [] ∧
        session'.current = Cursor.commaAt cut.place ∧ session'.rest = cut.tail ∨
      session.current.kind ≠ .finish ∧ session'.current = session.current ∧
        ∃ token token' rest rest', session.rest = token :: rest ∧ session'.rest = token' :: rest' ∧
          cut.Splits (session.moveTo token rest) (session'.moveTo token' rest') := by
  obtain ⟨front, notFinish, tokens, tokens'⟩ := splits.tokens
  match front with
  | [] =>
      obtain ⟨current, rest⟩ := List.cons.inj tokens
      obtain ⟨current', rest'⟩ := List.cons.inj tokens'
      exact .inl ⟨current, rest, current', rest'⟩
  | [first] =>
      obtain ⟨current, rest⟩ := List.cons.inj tokens
      obtain ⟨current', rest'⟩ := List.cons.inj tokens'
      refine .inr ⟨current ▸ notFinish first List.mem_cons_self, current'.trans current.symm, _, _,
        _, _, rest, rest', { splits with tokens := ⟨[], nofun, rfl, rfl⟩ }⟩
  | first :: second :: front =>
      obtain ⟨current, rest⟩ := List.cons.inj tokens
      obtain ⟨current', rest'⟩ := List.cons.inj tokens'
      refine .inr ⟨current ▸ notFinish first List.mem_cons_self, current'.trans current.symm, _, _,
        _, _, rest, rest', { splits with tokens := ⟨second :: front, ?_, rfl, rfl⟩ }⟩
      exact fun token member => notFinish token (List.mem_cons_of_mem _ member)

theorem position_eq (splits : cut.Splits session session') :
    session'.current.position = session.current.position := by
  obtain ⟨current, -, current', -⟩ | ⟨-, same, -⟩ := splits.cases
  · rw [current, current']
    rfl
  · rw [same]

/-- Only a comma and the end of a text are told apart. -/
theorem beq_eq (splits : cut.Splits session session') {kind : TokenKind} (apart : kind ≠ .comma)
    (notFinish : kind ≠ .finish) :
    (session'.current.kind == kind) = (session.current.kind == kind) := by
  obtain ⟨current, -, current', -⟩ | ⟨-, same, -⟩ := splits.cases
  · rw [current, current']
    cases kind <;> first | rfl | contradiction
  · rw [same]

end Splits

/-- A first result from which nothing comes of a second one: it is no value, or it is one at the end
of the text, if this may be. -/
def Stuck {α : Type} (loose : Prop) (result : EStateM.Result CompileError Session α) : Prop :=
  ∀ a session, result = .ok a session → loose ∧ session.current.kind = .finish

/-- A second result behind the cut, if it is a value at all. -/
def Beyond {α : Type} (cut : Cut) (result : EStateM.Result CompileError Session α) : Prop :=
  ∀ a session, result = .ok a session → session.rest.length < cut.tail.length

/-- Two results that belong together: the same value before the cut, or none that counts. -/
inductive Ends {α : Type} (cut : Cut) (loose : Prop) :
    EStateM.Result CompileError Session α → EStateM.Result CompileError Session α → Prop where
  | both {a : α} {session session' : Session} (splits : cut.Splits session session') :
      Ends cut loose (.ok a session) (.ok a session')
  | apart {result result' : EStateM.Result CompileError Session α} (stuck : Stuck loose result)
      (beyond : cut.Beyond result') : Ends cut loose result result'

/-- Two steps do the same up to a cut that is fewer than so many tokens away, from a current token
of one of some classes on.  If the first one may stop loosely, it may find an end where the second
one goes on. -/
structure Agrees {α : Type} (cut : Cut) (loose : Prop) (n : Nat) (kinds : TokenKind → Prop)
    (step step' : Parse α) : Prop where
  shortens : Shortens step'
  ends : ∀ {session session'}, cut.Splits session session' → session.rest.length < n →
    kinds session.current.kind → cut.Ends loose (step session) (step' session')

/-- Nothing is known of a class. -/
def anyKind (_ : TokenKind) : Prop := True

theorem Beyond.bind {α β : Type} {step' : Parse α} {next' : α → Parse β}
    (beyond : cut.Beyond (step' session')) (shortens : ∀ a, Shortens (next' a)) :
    cut.Beyond ((step' >>= next') session') := by
  intro b after ran
  obtain ⟨a, middle, ran, ran'⟩ := Parse.bind_eq_ok_iff.mp ran
  have shorter := Session.length_le_of_kinds ((shortens a).suffix ran')
  exact Nat.lt_of_le_of_lt shorter (beyond a middle ran)

theorem Stuck.of_error {α : Type} {loose : Prop} {error : CompileError} :
    Stuck loose (.error error session : EStateM.Result CompileError Session α) := by
  intro a after ran
  cases ran

namespace Agrees

variable {α β : Type} {loose : Prop} {n m : Nat} {kinds : TokenKind → Prop} {step step' : Parse α}

section Composition

theorem pure {a : α} : cut.Agrees loose n kinds (Pure.pure a) (Pure.pure a) where
  shortens := .pure
  ends splits _ _ := .both splits

theorem failAt {position position' : Nat} {fault fault' : CompileFault} :
    cut.Agrees loose n kinds (Parse.failAt position fault : Parse α)
      (Parse.failAt position' fault') where
  shortens := .failAt
  ends _ _ _ := .apart .of_error fun _ _ ran => by cases ran

theorem lift {outcome : Except CompileError α} :
    cut.Agrees loose n kinds (Parse.lift outcome) (Parse.lift outcome) := by
  cases outcome with
  | ok a => exact pure
  | error error => exact @failAt _ α _ _ _ error.position error.position error.fault error.fault

/-- What does not look at the state leaves the current token. -/
theorem liftBind {outcome : Except CompileError α} {next next' : α → Parse β}
    (second : ∀ a, cut.Agrees loose n kinds (next a) (next' a)) :
    cut.Agrees loose n kinds (Parse.lift outcome >>= next) (Parse.lift outcome >>= next') := by
  cases outcome with
  | ok a => exact second a
  | error error => exact @failAt _ β _ _ _ error.position error.position error.fault error.fault

theorem imp {weaker : TokenKind → Prop} (steps : cut.Agrees loose n weaker step step')
    (implies : ∀ kind, kinds kind → weaker kind) : cut.Agrees loose n kinds step step' where
  shortens := steps.shortens
  ends splits near start := steps.ends splits near (implies _ start)

theorem of_any (steps : cut.Agrees loose n anyKind step step') :
    cut.Agrees loose n kinds step step' :=
  steps.imp fun _ _ => trivial

theorem mono (steps : cut.Agrees loose n kinds step step') (le : m ≤ n) :
    cut.Agrees loose m kinds step step' where
  shortens := steps.shortens
  ends splits near start := steps.ends splits (Nat.lt_of_lt_of_le near le) start

/-- Steps of which the first one may not stop loosely. -/
theorem loosen (steps : cut.Agrees False n kinds step step') :
    cut.Agrees loose n kinds step step' where
  shortens := steps.shortens
  ends splits near start := by
    have ends := steps.ends splits near start
    generalize step _ = result at ends ⊢
    generalize step' _ = result' at ends ⊢
    cases ends with
    | both splits' => exact .both splits'
    | apart stuck beyond => exact .apart (fun a after ran => (stuck a after ran).1.elim) beyond

/-- Nothing is asked for where no token is left. -/
theorem of_shortens (shortens : Shortens step') (nothing : n = 0) :
    cut.Agrees loose n kinds step step' where
  shortens := shortens
  ends _ near _ := absurd near (nothing ▸ Nat.not_lt_zero _)

/-- The steps that come behind two others.  Where the first one may stop loosely, nothing comes of
what is behind it at the end. -/
theorem bindWhere {loose' : Prop} {next next' : α → Parse β}
    (first : cut.Agrees loose' n kinds step step')
    (second : ∀ a, cut.Agrees loose n anyKind (next a) (next' a))
    (closes : loose' → ∀ a session, session.current.kind = .finish →
      Stuck loose (next a session)) :
    cut.Agrees loose n kinds (step >>= next) (step' >>= next') where
  shortens := first.shortens.bind fun a => (second a).shortens
  ends {session session'} splits near start := by
    have ends := first.ends splits near start
    generalize outcome : step session = result at ends
    generalize outcome' : step' session' = result' at ends
    cases ends with
    | @both a middle middle' splits' =>
        rw [Parse.bind_eq outcome, Parse.bind_eq outcome']
        refine (second a).ends splits' ?_ trivial
        have shorter := Session.length_le_of_kinds (first.shortens.suffix outcome')
        rw [splits.length_eq, splits'.length_eq] at shorter
        omega
    | apart stuck beyond =>
        subst outcome'
        refine .apart ?_ (beyond.bind fun a => (second a).shortens)
        cases result with
        | ok a middle =>
            obtain ⟨isLoose, isFinish⟩ := stuck a middle rfl
            rw [Parse.bind_eq outcome]
            exact closes isLoose a middle isFinish
        | error error middle =>
            rw [Parse.bind_error outcome]
            exact .of_error

theorem bind {next next' : α → Parse β} (first : cut.Agrees False n kinds step step')
    (second : ∀ a, cut.Agrees loose n anyKind (next a) (next' a)) :
    cut.Agrees loose n kinds (step >>= next) (step' >>= next') :=
  first.bindWhere second False.elim

/-- What is made of the value of two steps. -/
theorem map {f : α → β} (steps : cut.Agrees loose n kinds step step') :
    cut.Agrees loose n kinds (step >>= fun a => Pure.pure (f a))
      (step' >>= fun a => Pure.pure (f a)) := by
  refine steps.bindWhere (fun _ => pure) fun isLoose a session isFinish b after ran => ?_
  obtain ⟨-, rfl⟩ := EStateM.Result.ok.inj ran
  exact ⟨isLoose, isFinish⟩

/-- At the cut and before it two steps may agree for different reasons.  Before the cut there is
more than one token left. -/
theorem split (ended : cut.Agrees loose n (fun kind => kinds kind ∧ kind = .finish) step step')
    (before : 1 < n → cut.Agrees loose n (fun kind => kinds kind ∧ kind ≠ .finish) step step') :
    cut.Agrees loose n kinds step step' where
  shortens := ended.shortens
  ends {session _} splits near start := by
    obtain ⟨current, -⟩ | ⟨notFinish, -, _, _, _, _, behind, -⟩ := splits.cases
    · exact ended.ends splits near ⟨start, by rw [current]; rfl⟩
    · have several : 1 < n := by
        rw [behind, List.length_cons] at near
        omega
      exact (before several).ends splits near ⟨start, notFinish⟩

end Composition

section Looking

/-- What is the same in both states is read alike. -/
theorem read {f : Session → β}
    (same : ∀ {session session'}, cut.Splits session session' → f session' = f session)
    {next next' : β → Parse α} (second : ∀ b, cut.Agrees loose n kinds (next b) (next' b)) :
    cut.Agrees loose n kinds (MonadState.get >>= fun session => next (f session))
      (MonadState.get >>= fun session => next' (f session)) where
  shortens := .read fun b => (second b).shortens
  ends {session session'} splits near start := by
    change cut.Ends loose (next (f session) session) (next' (f session') session')
    rw [same splits]
    exact (second _).ends splits near start

theorem position {next next' : Nat → Parse α}
    (second : ∀ position, cut.Agrees loose n kinds (next position) (next' position)) :
    cut.Agrees loose n kinds (Parse.position >>= next) (Parse.position >>= next') :=
  read (fun splits => splits.position_eq) second

theorem scope {next next' : ScopeFrame → Parse α}
    (second : ∀ frame, cut.Agrees loose n kinds (next frame) (next' frame)) :
    cut.Agrees loose n kinds (Parse.scope >>= next) (Parse.scope >>= next') :=
  read (fun splits => congrArg ScopeStack.current splits.scopes) second

/-- The current token is the same in both texts, unless the one is the end and the other the
comma. -/
theorem current {next next' : Token → Parse α}
    (ended : cut.Agrees loose n (fun kind => kinds kind ∧ kind = .finish)
      (next (Cursor.finishAt cut.place)) (next' (Cursor.commaAt cut.place)))
    (before : ∀ token, cut.Agrees loose n
      (fun kind => kinds kind ∧ kind ≠ .finish ∧ kind = token.kind) (next token) (next' token)) :
    cut.Agrees loose n kinds (Parse.current >>= next) (Parse.current >>= next') where
  shortens := .read fun token => (before token).shortens
  ends {session session'} splits near start := by
    change cut.Ends loose (next session.current session) (next' session'.current session')
    obtain ⟨current, -, current', -⟩ | ⟨notFinish, same, -⟩ := splits.cases
    · rw [current, current']
      exact ended.ends splits near ⟨start, by rw [current]; rfl⟩
    · rw [same]
      exact (before _).ends splits near ⟨start, notFinish, rfl⟩

/-- Before the cut the current token is the same in both texts. -/
theorem currentBefore (notFinish : ∀ kind, kinds kind → kind ≠ .finish)
    {next next' : Token → Parse α}
    (before : ∀ token, cut.Agrees loose n
      (fun kind => kinds kind ∧ kind = token.kind) (next token) (next' token)) :
    cut.Agrees loose n kinds (Parse.current >>= next) (Parse.current >>= next') where
  shortens := .read fun token => (before token).shortens
  ends {session session'} splits near start := by
    change cut.Ends loose (next session.current session) (next' session'.current session')
    obtain ⟨current, -⟩ | ⟨-, same, -⟩ := splits.cases
    · exact absurd (by rw [current]; rfl) (notFinish _ start)
    · rw [same]
      exact (before _).ends splits near ⟨start, rfl⟩

theorem check {kind : TokenKind} (apart : kind ≠ .comma) (notFinish : kind ≠ .finish)
    {next next' : Bool → Parse α}
    (second : ∀ found, cut.Agrees loose n (fun other => kinds other ∧ (other == kind) = found)
      (next found) (next' found)) :
    cut.Agrees loose n kinds (Parse.check kind >>= next) (Parse.check kind >>= next') where
  shortens := .read fun found => (second found).shortens
  ends {session session'} splits near start := by
    change cut.Ends loose (next (session.current.kind == kind) session)
      (next' (session'.current.kind == kind) session')
    rw [splits.beq_eq apart notFinish]
    exact (second _).ends splits near ⟨start, rfl⟩

/-- Before the cut a comma is one in both texts. -/
theorem checkBefore (notFinish : ∀ kind, kinds kind → kind ≠ .finish) {kind : TokenKind}
    {next next' : Bool → Parse α}
    (second : ∀ found, cut.Agrees loose n (fun other => kinds other ∧ (other == kind) = found)
      (next found) (next' found)) :
    cut.Agrees loose n kinds (Parse.check kind >>= next) (Parse.check kind >>= next') := by
  change cut.Agrees loose n kinds (Parse.current >>= fun token => next (token.kind == kind))
    (Parse.current >>= fun token => next' (token.kind == kind))
  refine currentBefore notFinish fun token => (second _).imp ?_
  rintro _ ⟨start, rfl⟩
  exact ⟨start, rfl⟩

theorem checkWord {word : String} {next next' : Bool → Parse α}
    (second : ∀ found, cut.Agrees loose n
      (fun kind => kinds kind ∧ (found = true → kind = .identifier)) (next found) (next' found)) :
    cut.Agrees loose n kinds (Parse.checkWord word >>= next) (Parse.checkWord word >>= next') := by
  change cut.Agrees loose n kinds (Parse.current >>= fun token => next (token.isWord word))
    (Parse.current >>= fun token => next' (token.isWord word))
  refine current ((second false).imp ?_) fun token => (second _).imp ?_
  · rintro _ ⟨start, -⟩
    exact ⟨start, nofun⟩
  · rintro _ ⟨start, -, rfl⟩
    refine ⟨start, fun isWord => ?_⟩
    exact beq_iff_eq.mp ((Bool.and_eq_true _ _).mp isWord).1

/-- There are tokens enough for both steps. -/
theorem tokensLeft {next next' : Nat → Parse α}
    (second : ∀ fuel fuel' m, m ≤ n → m ≤ fuel + 1 → m ≤ fuel' + 1 →
      cut.Agrees loose m kinds (next fuel) (next' fuel')) :
    cut.Agrees loose n kinds (Parse.tokensLeft >>= next) (Parse.tokensLeft >>= next') where
  shortens := .read fun fuel => (second 0 fuel 0 (Nat.zero_le _) (Nat.zero_le _)
    (Nat.zero_le _)).shortens
  ends {session session'} splits near start := by
    change cut.Ends loose (next session.rest.length session) (next' session'.rest.length session')
    have enough := splits.length_eq
    exact (second _ _ (session.rest.length + 1) near (Nat.le_refl _) (by omega)).ends splits
      (Nat.lt_succ_self _) start

theorem failHere {fault fault' : CompileFault} :
    cut.Agrees loose n kinds (Parse.failHere fault : Parse α) (Parse.failHere fault') :=
  position fun _ => failAt

/-- Behind the check for a class the current token is of this class. -/
theorem validate {kind : TokenKind} (apart : kind ≠ .comma) (notFinish : kind ≠ .finish)
    {fault : CompileFault} {next next' : Parse α}
    (second : cut.Agrees loose n (· = kind) next next') :
    cut.Agrees loose n kinds (Parse.validate kind fault >>= fun _ => next)
      (Parse.validate kind fault >>= fun _ => next') := by
  let reached (found : Bool) : Parse Unit := if found then Pure.pure () else Parse.failHere fault
  change cut.Agrees loose n kinds
    (Parse.check kind >>= fun found => reached found >>= fun _ => next)
    (Parse.check kind >>= fun found => reached found >>= fun _ => next')
  refine check apart notFinish fun found => ?_
  cases found with
  | true => exact second.imp fun _ start => beq_iff_eq.mp start.2
  | false => exact @failHere cut α loose n _ fault fault

theorem identifier {next next' : String → Parse α}
    (second : ∀ name, cut.Agrees loose n (· = .identifier) (next name) (next' name)) :
    cut.Agrees loose n kinds (Parse.identifier >>= next) (Parse.identifier >>= next') := by
  simp only [Parse.identifier, bind_assoc, pure_bind]
  refine validate (by decide) (by decide) (currentBefore ?_ fun token => (second _).imp ?_)
  · rintro _ rfl
    decide
  · rintro _ ⟨rfl, -⟩
    rfl

end Looking

section Moving

/-- Before the cut both compiles go on to the next token. -/
theorem next {following following' : Parse α} (notFinish : ∀ kind, kinds kind → kind ≠ .finish)
    (second : cut.Agrees loose (n - 1) anyKind following following') :
    cut.Agrees loose n kinds (Parse.advance >>= fun _ => following)
      (Parse.advance >>= fun _ => following') where
  shortens := Shortens.advance.bind fun _ => second.shortens
  ends {session session'} splits near start := by
    obtain ⟨current, -⟩ | ⟨-, -, token, token', rest, rest', behind, behind', moved⟩ := splits.cases
    · exact absurd (by rw [current]; rfl) (notFinish _ start)
    · rw [Parse.bind_eq (Parse.advance_eq behind), Parse.bind_eq (Parse.advance_eq behind')]
      refine second.ends moved ?_ trivial
      rw [behind, List.length_cons] at near
      exact Nat.lt_sub_of_add_lt near

theorem expectNext {kind : TokenKind} (apart : kind ≠ .comma) (notFinish : kind ≠ .finish)
    {fault : CompileFault} {following following' : Parse α}
    (second : cut.Agrees loose (n - 1) anyKind following following') :
    cut.Agrees loose n kinds (Parse.expect kind fault >>= fun _ => following)
      (Parse.expect kind fault >>= fun _ => following') := by
  simp only [Parse.expect, bind_assoc]
  refine validate apart notFinish (next ?_ second)
  rintro _ rfl
  exact notFinish

/-- Where a class is expected, the end of the text is refused. -/
theorem stuck_expect {kind : TokenKind} (notFinish : kind ≠ .finish) {fault : CompileFault}
    {following : Parse α} (isFinish : session.current.kind = .finish) :
    Stuck loose ((Parse.expect kind fault >>= fun _ => following) session) := by
  have other : (session.current.kind == kind) = false := by
    rw [isFinish, beq_eq_false_iff_ne]
    exact notFinish.symm
  have refused : Parse.validate kind fault session =
      .error ⟨session.current.position, fault⟩ session := by
    rw [Parse.validate, Parse.bind_eq (Parse.check_eq kind session), other]
    rfl
  have failed : Parse.expect kind fault session =
      .error ⟨session.current.position, fault⟩ session := Parse.bind_error refused
  rw [Parse.bind_error failed]
  exact .of_error

/-- A step that changes no more than what outlives the compile. -/
theorem update (f : Store → α × Store) :
    cut.Agrees loose n kinds
      (fun session => .ok (f session.store).1 { session with store := (f session.store).2 })
      (fun session => .ok (f session.store).1 { session with store := (f session.store).2 }) where
  shortens := by
    refine ⟨fun ran => ?_⟩
    obtain ⟨-, rfl⟩ := EStateM.Result.ok.inj ran
    exact List.suffix_refl _
  ends splits _ _ := by
    rw [splits.store]
    exact .both { splits with store := rfl }

theorem newParameter {name : String} {type : Ty} :
    cut.Agrees loose n kinds (Parse.newParameter name type) (Parse.newParameter name type) :=
  update fun store => store.newParameter name type

theorem recordType {names : List String} {types : List Ty} :
    cut.Agrees loose n kinds (Parse.recordType names types) (Parse.recordType names types) :=
  update fun store =>
    ((store.records.intern names types).1,
      { store with records := (store.records.intern names types).2 })

/-- Two steps from changed states on, whose results are changed again, but for the tokens. -/
theorem around {enter : Session → Session} {leave : Session → Session → Session}
    (steps : cut.Agrees False n kinds step step')
    (entered : ∀ session, (enter session).current = session.current ∧
      (enter session).rest = session.rest)
    (left : ∀ session after, (leave session after).current = after.current ∧
      (leave session after).rest = after.rest)
    (enters : ∀ {session session'}, cut.Splits session session' →
      cut.Splits (enter session) (enter session'))
    (leaves : ∀ {session session' after after'}, cut.Splits session session' →
      cut.Splits after after' → cut.Splits (leave session after) (leave session' after')) :
    cut.Agrees loose n kinds (Parse.around enter leave step) (Parse.around enter leave step') where
  shortens := by
    refine ⟨fun {session a after} ran => ?_⟩
    obtain ⟨middle, outcome, rfl⟩ := Parse.around_eq_ok.mp ran
    have reached := steps.shortens.suffix outcome
    simpa only [Session.kinds, entered, left] using reached
  ends {session session'} splits near start := by
    rw [← (entered session).1] at start
    rw [← (entered session).2] at near
    have ends := steps.ends (enters splits) near start
    unfold Parse.around
    generalize step (enter session) = result at ends ⊢
    generalize step' (enter session') = result' at ends ⊢
    cases ends with
    | both splits' => exact .both (leaves splits splits')
    | apart stuck beyond =>
        refine .apart ?_ fun a after ran => ?_
        · cases result with
          | ok a after => exact absurd (stuck a after rfl).1 id
          | error error after => exact .of_error
        · cases result' with
          | ok b middle =>
              obtain ⟨-, rfl⟩ := EStateM.Result.ok.inj ran
              rw [(left session' middle).2]
              exact beyond b middle rfl
          | error error middle => cases ran

/-- Two steps inside a scope. -/
theorem withScope {frame : ScopeFrame} (steps : cut.Agrees False n kinds step step') :
    cut.Agrees loose n kinds (Parse.withScope frame step) (Parse.withScope frame step') :=
  @around cut α loose n kinds step step'
    (fun session => { session with scopes := session.scopes.push frame })
    (fun _ after => { after with scopes := after.scopes.pop }) steps
    (fun _ => ⟨rfl, rfl⟩) (fun _ _ => ⟨rfl, rfl⟩)
    (fun splits => { splits with scopes := congrArg (·.push frame) splits.scopes })
    fun _ splits => { splits with scopes := congrArg ScopeStack.pop splits.scopes }

/-- Two steps in which a name stands for an element. -/
theorem withInternal {key : String} {element : Parameter}
    (steps : cut.Agrees False n kinds step step') :
    cut.Agrees loose n kinds (Parse.withInternal key element step)
      (Parse.withInternal key element step') :=
  @around cut α loose n kinds step step'
    (fun session => { session with internals := session.internals.set key (some element) })
    (fun session after =>
      { after with internals := after.internals.set key (session.internals.lookup key) }) steps
    (fun _ => ⟨rfl, rfl⟩) (fun _ _ => ⟨rfl, rfl⟩)
    (fun splits =>
      { splits with internals := congrArg (·.set key (some element)) splits.internals })
    fun splits splits' =>
      { splits' with internals := by rw [splits.internals, splits'.internals] }

end Moving

/-- Two loops agree if each round of them does, in which a token is passed. -/
theorem loop {ι : Type} {loop loop' : Nat → ι → Parse α} (stops : ∀ i, Shortens (loop' 0 i))
    (goes : ∀ {m fuel fuel'}, m ≤ n →
      (∀ i, cut.Agrees loose (m - 1) kinds (loop fuel i) (loop' fuel' i)) →
      ∀ i, cut.Agrees loose m kinds (loop (fuel + 1) i) (loop' (fuel' + 1) i))
    {fuel fuel' : Nat} (enough : n ≤ fuel) (enough' : n ≤ fuel') (i : ι) :
    cut.Agrees loose n kinds (loop fuel i) (loop' fuel' i) := by
  have shortens (fuel' : Nat) (i : ι) : Shortens (loop' fuel' i) := by
    induction fuel' generalizing i with
    | zero => exact stops i
    | succ fuel' ih =>
        have round := @goes 0 0 fuel' (Nat.zero_le n) fun i => of_shortens (ih i) rfl
        exact (round i).shortens
  have agrees (fuel fuel' m : Nat) (i : ι) (le : m ≤ n) (enough : m ≤ fuel)
      (enough' : m ≤ fuel') : cut.Agrees loose m kinds (loop fuel i) (loop' fuel' i) := by
    induction fuel generalizing m fuel' i with
    | zero => exact of_shortens (shortens fuel' i) (Nat.le_zero.mp enough)
    | succ fuel ih =>
        cases fuel' with
        | zero => exact of_shortens (shortens 0 i) (Nat.le_zero.mp enough')
        | succ fuel' =>
            exact goes le (fun i => ih fuel' (m - 1) i (by omega) (by omega) (by omega)) i
  exact agrees fuel fuel' n i (Nat.le_refl n) enough enough'

section Listing

variable {item item' : Parse α}

/-- Behind the comma at the cut the second compile is behind the cut. -/
theorem beyond_advance {following : Parse α} (splits : cut.Splits session session')
    (isFinish : session.current.kind = .finish) (shortens : Shortens following) :
    cut.Beyond ((Parse.advance >>= fun _ => following) session') := by
  refine Beyond.bind ?_ fun _ => shortens
  obtain ⟨-, -, -, behind⟩ | ⟨notFinish, -⟩ := splits.cases
  · intro _ after ran
    cases tail : cut.tail with
    | nil =>
        obtain ⟨error, failed⟩ := Option.ne_none_iff_exists'.mp (cut.goesOn tail)
        rw [Session.advance_failed (behind.trans tail) (splits.failure.trans failed)] at ran
        cases ran
    | cons token rest =>
        rw [Parse.advance_eq (behind.trans tail)] at ran
        obtain ⟨-, rfl⟩ := EStateM.Result.ok.inj ran
        exact Nat.lt_succ_self _
  · exact absurd isFinish notFinish

/-- At the cut there is a comma in the second text only. -/
theorem checkComma {next next' : Bool → Parse α}
    (stuck : ∀ session, session.current.kind = .finish → Stuck loose (next false session))
    (beyond : ∀ {session session'}, cut.Splits session session' →
      session.current.kind = .finish → cut.Beyond (next' true session'))
    (before : ∀ found, cut.Agrees loose n
      (fun kind => (kinds kind ∧ kind ≠ .finish) ∧ (kind == .comma) = found)
      (next found) (next' found)) :
    cut.Agrees loose n kinds (Parse.check .comma >>= next) (Parse.check .comma >>= next') := by
  have shortens : Shortens (Parse.check .comma >>= next') :=
    .check fun found => (before found).shortens
  refine split ⟨shortens, fun {session session'} splits _ start => ?_⟩
    fun _ => checkBefore (fun _ start => start.2) before
  obtain ⟨current, -, current', -⟩ | ⟨notFinish, -⟩ := splits.cases
  · change cut.Ends loose (next (session.current.kind == .comma) session)
      (next' (session'.current.kind == .comma) session')
    rw [current, current']
    exact .apart (stuck session start.2) (beyond splits start.2)
  · exact absurd start.2 notFinish

theorem commaListFrom_shortens (each : Shortens item) (fuel : Nat) :
    Shortens (Parse.commaList.go item fuel) := by
  induction fuel with
  | zero => exact .pure
  | succ fuel ih =>
      refine .check fun more => ?_
      cases more with
      | true => exact Shortens.advance.bind fun _ => each.bind fun _ => ih.bind fun _ => .pure
      | false => exact .pure

/-- At the cut the first list ends, and the second one goes on, unless there is no fuel for it. -/
theorem commaListFrom_ended (shortens : Shortens item') (splits : cut.Splits session session')
    (isFinish : session.current.kind = .finish) (fuel fuel' : Nat) :
    cut.Ends True (Parse.commaList.go item fuel session)
      (Parse.commaList.go item' fuel' session') := by
  obtain ⟨current, -, current', -⟩ | ⟨notFinish, -⟩ := splits.cases
  · have stops : Parse.commaList.go item fuel session = .ok [] session := by
      cases fuel with
      | zero => rfl
      | succ fuel =>
          rw [Parse.commaList.go, Parse.bind_eq (Parse.check_eq .comma session), current]
          rfl
    rw [stops]
    cases fuel' with
    | zero => exact .both splits
    | succ fuel' =>
        refine .apart (fun a after ran => ?_) ?_
        · obtain ⟨-, rfl⟩ := EStateM.Result.ok.inj ran
          exact ⟨trivial, isFinish⟩
        · rw [Parse.commaList.go, Parse.bind_eq (Parse.check_eq .comma session'), current']
          exact beyond_advance splits isFinish (shortens.bind fun _ =>
            (commaListFrom_shortens shortens fuel').bind fun _ => .pure)
  · exact absurd isFinish notFinish

theorem commaListFrom (each : cut.Agrees False (n - 1) anyKind item item') {fuel fuel' : Nat}
    (enough : n ≤ fuel + 1) (enough' : n ≤ fuel' + 1) :
    cut.Agrees True n kinds (Parse.commaList.go item fuel) (Parse.commaList.go item' fuel') := by
  induction fuel generalizing n kinds fuel' with
  | zero =>
      refine split ⟨commaListFrom_shortens each.shortens fuel', fun splits _ start =>
        commaListFrom_ended each.shortens splits start.2 _ _⟩ fun several => ?_
      omega
  | succ fuel ih =>
      refine split ⟨commaListFrom_shortens each.shortens fuel', fun splits _ start =>
        commaListFrom_ended each.shortens splits start.2 _ _⟩ fun several => ?_
      obtain ⟨fuel', rfl⟩ : ∃ fewer, fuel' = fewer + 1 := ⟨fuel' - 1, by omega⟩
      refine checkBefore (fun _ start => start.2) fun more => ?_
      cases more with
      | true =>
          refine next (fun _ start => start.1.2) (each.bind fun _ => ?_)
          exact (ih (each.mono (Nat.sub_le _ _)) (by omega) (by omega)).map
      | false => exact pure

theorem commaList (each : cut.Agrees False n kinds item item')
    (further : cut.Agrees False (n - 1) anyKind item item') :
    cut.Agrees True n kinds (Parse.commaList item) (Parse.commaList item') :=
  each.bind fun _ => .tokensLeft fun _ _ _ le enough enough' =>
    (commaListFrom (further.mono (Nat.sub_le_sub_right le 1)) (Nat.le_succ_of_le enough)
      (Nat.le_succ_of_le enough')).map

theorem argumentList {expression expression' : Parse Expr}
    (below : cut.Agrees False (n - 1) anyKind expression expression') :
    cut.Agrees loose n kinds (Parse.argumentList expression) (Parse.argumentList expression') := by
  have closed (args : List Expr) {kinds : TokenKind → Prop} :
      cut.Agrees loose (n - 1) kinds
        (do Parse.expect .closeParen (.expected .closeParenOrComma); return args)
        (do Parse.expect .closeParen (.expected .closeParenOrComma); return args) :=
    expectNext (by decide) (by decide) pure
  refine expectNext (by decide) (by decide) (check (by decide) (by decide) fun none => ?_)
  cases none with
  | true => exact closed []
  | false =>
      refine (commaList below.of_any (below.mono (Nat.sub_le _ _))).bindWhere
        (fun args => closed args) fun _ args session isFinish => stuck_expect (by decide) isFinish

end Listing

end Agrees

end Cut

end QueryTree
