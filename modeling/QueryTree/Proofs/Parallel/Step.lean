import QueryTree.Proofs.Parallel.Pairing
import QueryTree.Proofs.Spelling.Step

/-!
# Steps side by side

The steps of two compiles that go on side by side: where the first one succeeds and the demand on it
is met, the second one succeeds as well, and they end in states that belong together.
-/

namespace QueryTree

/-- A state in which a step ends that starts in another one. -/
structure Session.Follows (after session : Session) : Prop where
  endsWell : after.EndsWell
  suffix : after.rest <:+ session.rest
  scopes : after.scopes = session.scopes
  internals : after.internals = session.internals
  parameters_le : session.store.nextParameter ≤ after.store.nextParameter

theorem Session.Follows.refl {session : Session} (endsWell : session.EndsWell) :
    session.Follows session :=
  ⟨endsWell, List.suffix_refl _, rfl, rfl, Nat.le_refl _⟩

theorem Session.Follows.length_le {after session : Session} (follows : after.Follows session) :
    after.rest.length ≤ session.rest.length :=
  follows.suffix.length_le

theorem Session.Follows.trans {session middle after : Session} (first : middle.Follows session)
    (second : after.Follows middle) : after.Follows session :=
  ⟨second.endsWell, second.suffix.trans first.suffix, second.scopes.trans first.scopes,
    second.internals.trans first.internals, Nat.le_trans first.parameters_le second.parameters_le⟩

namespace Session

variable {session after : Session}

theorem advance_last (behind : session.rest = []) (none : session.failure = none) :
    Parse.advance session = .ok () session := by
  cases session
  cases behind
  cases none
  rfl

theorem advance_failed {error : CompileError} (behind : session.rest = [])
    (failed : session.failure = some error) : Parse.advance session = .error error session := by
  cases session
  cases behind
  cases failed
  rfl

/-- Only the token for the end of the text has no token behind it. -/
theorem EndsWell.notFinish {token : Token} {rest : List Token} (endsWell : session.EndsWell)
    (behind : session.rest = token :: rest) : session.current.kind ≠ .finish := by
  intro isFinish
  rw [EndsWell, QueryTree.EndsWell, if_pos isFinish, behind] at endsWell
  cases endsWell.1

theorem advance_follows (endsWell : session.EndsWell) (ran : Parse.advance session = .ok () after) :
    after.Follows session := by
  cases behind : session.rest with
  | cons token rest =>
      rw [Parse.advance_eq behind] at ran
      obtain ⟨-, rfl⟩ := EStateM.Result.ok.inj ran
      have endsWell' := endsWell.moveTo (endsWell.notFinish behind) behind
      exact ⟨endsWell', behind ▸ List.suffix_cons _ _, rfl, rfl, Nat.le_refl _⟩
  | nil =>
      cases failed : session.failure with
      | none =>
          rw [advance_last behind failed] at ran
          obtain ⟨-, rfl⟩ := EStateM.Result.ok.inj ran
          exact .refl endsWell
      | some error =>
          rw [advance_failed behind failed] at ran
          cases ran

end Session

namespace Pairing

variable {ctx : CompileContext} {w : Pairing ctx}

theorem Same.refl (token : Token) : w.Same token token := ⟨rfl, rfl, w.placed_refl _⟩

theorem Same.paired {token token' : Token} (same : w.Same token token') : w.Paired token token' :=
  ⟨same.kind, .inl same.text, same.position⟩

theorem Paired.refl (token : Token) : w.Paired token token := (Same.refl token).paired

theorem Paired.same {token token' : Token} (paired : w.Paired token token')
    (noName : token.kind ≠ .identifier) : w.Same token token' := by
  refine ⟨paired.kind, ?_, paired.position⟩
  obtain same | swaps := paired.text
  · exact same
  · exact absurd (w.swaps_kind swaps).1 noName

theorem Paired.isWord_eq {token token' : Token} (paired : w.Paired token token') {word : String}
    (isClause : word ∈ ["in", "as"]) : token.isWord word = token'.isWord word := by
  obtain same | swaps := paired.text
  · rw [Token.isWord, Token.isWord, paired.kind, same]
  · exact w.swaps_word swaps word isClause

theorem Stand.paired {place : Nat} {token token' : Token} (stand : w.Stand place token token') :
    w.Paired token token' := by
  cases stand with
  | same same => exact same.paired
  | swapped swaps =>
      have kinds := w.swaps_kind swaps
      exact ⟨kinds.1.trans kinds.2.symm, .inr swaps, w.swaps_placed swaps⟩

theorem Ahead.length_eq {token : Token} {rest rest' : List Token}
    (ahead : w.Ahead token rest rest') : rest'.length = rest.length := by
  induction ahead with
  | nil => rfl
  | cons _ _ _ ih => exact congrArg (· + 1) ih

/-- What is behind a token may be behind every token that may introduce a name of the element. -/
theorem Ahead.behind {token token' : Token} {rest rest' : List Token}
    (ahead : w.Ahead token rest rest') (introduces : ctx.env.Introduces token') :
    w.Ahead token' rest rest' := by
  cases ahead with
  | nil => exact .nil
  | cons stand _ ahead => exact .cons stand (.inr introduces) ahead

/-- Two results that belong together: if the first one is a value and the demand is met, then the
second one is a value that is related to it. -/
inductive Ends {α : Type} (w : Pairing ctx) (demand : w.Demand) (place : Nat) (stack : ScopeStack)
    (names names' : ElementNames) (holds : α → α → Prop) :
    EStateM.Result CompileError Session α → EStateM.Result CompileError Session α → Prop where
  | ok {a : α} {after : Session} {outcome' : EStateM.Result CompileError Session α}
      (carried : demand.meets place after.rest.length → ∃ a' after', outcome' = .ok a' after' ∧
        holds a a' ∧ w.Twins stack names names' after after') :
      Ends w demand place stack names names' holds (.ok a after) outcome'
  | error {error : CompileError} {after : Session}
      {outcome' : EStateM.Result CompileError Session α}
      (failed : w.lenient ∨ ∃ error' after', outcome' = .error error' after' ∧
        w.placed error.position error'.position) :
      Ends w demand place stack names names' holds (.error error after) outcome'

/-- What is asked for from one place on is asked for from every later place on. -/
theorem Ends.later {α : Type} {demand : w.Demand} {place place' : Nat} {stack : ScopeStack}
    {names names' : ElementNames} {holds : α → α → Prop}
    {outcome outcome' : EStateM.Result CompileError Session α}
    (ends : w.Ends demand place' stack names names' holds outcome outcome') (le : place' ≤ place)
    (follows : ∀ {a after}, outcome = .ok a after → after.rest.length ≤ place') :
    w.Ends demand place stack names names' holds outcome outcome' := by
  cases ends with
  | ok carried => exact .ok fun meets => carried (demand.split meets (follows rfl) le).2
  | error failed => exact .error failed

/-- Where more is asked for, a step ends as well. -/
theorem Ends.demanding {α : Type} {demand demand' : w.Demand} {place : Nat} {stack : ScopeStack}
    {names names' : ElementNames} {holds : α → α → Prop}
    {outcome outcome' : EStateM.Result CompileError Session α}
    (ends : w.Ends demand place stack names names' holds outcome outcome')
    (asks : ∀ a after, outcome = .ok a after → demand'.meets place after.rest.length →
      demand.meets place after.rest.length) :
    w.Ends demand' place stack names names' holds outcome outcome' := by
  cases ends with
  | ok carried => exact .ok fun meets => carried (asks _ _ rfl meets)
  | error failed => exact .error failed

/-- Two steps go on side by side from the states that belong together in a scope, with at most so
many tokens behind the current ones, of which something is known. -/
structure Carries {α : Type} (w : Pairing ctx) (demand : w.Demand) (frame : ScopeFrame) (n : Nat)
    (known : Token → Token → Prop) (step step' : Parse α) (holds : α → α → Prop) : Prop where
  follows : ∀ {session token'}, session.EndsWell → session.scopes.current = frame →
    session.rest.length ≤ n → w.Paired session.current token' → known session.current token' →
      ∀ {a after}, step session = .ok a after → after.Follows session
  ends : ∀ {stack names names' session session'}, w.Twins stack names names' session session' →
    stack.current = frame → session.rest.length ≤ n → known session.current session'.current →
      w.Ends demand session.rest.length stack names names' holds (step session) (step' session')

/-- Nothing is known of two tokens. -/
def Known.nothing (_ _ : Token) : Prop := True

namespace Carries

variable {α β : Type} {demand : w.Demand} {frame : ScopeFrame} {n : Nat}
  {known : Token → Token → Prop} {step step' : Parse α} {holds : α → α → Prop}

section Composition

theorem pure {a a' : α} (related : holds a a') :
    w.Carries demand frame n known (Pure.pure a) (Pure.pure a') holds where
  follows endsWell _ _ _ _ _ _ ran := by
    obtain ⟨rfl, rfl⟩ := EStateM.Result.ok.inj ran
    exact .refl endsWell
  ends twins _ _ _ := .ok fun _ => ⟨a', _, rfl, related, twins⟩

theorem failAt {position position' : Nat} {fault fault' : CompileFault}
    (related : w.placed position position') :
    w.Carries demand frame n known (Parse.failAt position fault) (Parse.failAt position' fault')
      holds where
  follows _ _ _ _ _ _ _ ran := by cases ran
  ends _ _ _ _ := .error (.inr ⟨_, _, rfl, related⟩)

theorem lift {outcome outcome' : Except CompileError α}
    (outcomes : Outcome.Alike w.placed holds outcome outcome') :
    w.Carries demand frame n known (Parse.lift outcome) (Parse.lift outcome') holds := by
  cases outcomes with
  | ok related => exact pure related
  | @error error error' related =>
      change w.Carries demand frame n known (Parse.failAt error.position error.fault)
        (Parse.failAt error'.position error'.fault) holds
      exact failAt related

theorem imp {known' : Token → Token → Prop} (steps : w.Carries demand frame n known step step' holds)
    (implies : ∀ token token', known' token token' → known token token') :
    w.Carries demand frame n known' step step' holds where
  follows endsWell framed bound paired start :=
    steps.follows endsWell framed bound paired (implies _ _ start)
  ends twins framed bound start := steps.ends twins framed bound (implies _ _ start)

/-- Two steps that go on side by side from where two other ones end. -/
theorem then_ends {stack : ScopeStack} {names names' : ElementNames} {session session' : Session}
    {next next' : α → Parse β} {result : β → β → Prop} (framed : stack.current = frame)
    (scopes : session.scopes = stack) (bound : session.rest.length ≤ n)
    (first : w.Ends demand session.rest.length stack names names' holds (step session)
      (step' session'))
    (follows : ∀ {a after}, step session = .ok a after → after.Follows session)
    (reflexive : ∀ a, holds a a)
    (second : ∀ a a', holds a a' →
      w.Carries demand frame n Known.nothing (next a) (next' a') result) :
    w.Ends demand session.rest.length stack names names' result ((step >>= next) session)
      ((step' >>= next') session') := by
  cases ran : step session with
  | error error after =>
      rw [ran] at first
      rw [Parse.bind_error ran]
      cases first with
      | error failed =>
          refine .error (failed.imp_right ?_)
          rintro ⟨error', after', failed', related⟩
          exact ⟨error', after', Parse.bind_error failed', related⟩
  | ok a middle =>
      have reached := follows ran
      have inside : middle.rest.length ≤ n := Nat.le_trans reached.length_le bound
      have framed' : middle.scopes.current = frame := by rw [reached.scopes, scopes, framed]
      rw [ran] at first
      rw [Parse.bind_eq ran]
      cases first with
      | ok carried =>
          cases ran' : next a middle with
          | ok b after =>
              have later := (second a a (reflexive a)).follows reached.endsWell framed' inside
                (Paired.refl _) trivial ran'
              refine .ok fun meets => ?_
              obtain ⟨meets, meets'⟩ := demand.split meets later.length_le reached.length_le
              obtain ⟨a', middle', ran₁, related, twins⟩ := carried meets
              have ends := (second a a' related).ends twins framed inside trivial
              rw [ran'] at ends
              cases ends with
              | ok carried =>
                  obtain ⟨b', after', ran₂, related, twins⟩ := carried meets'
                  exact ⟨b', after', (Parse.bind_eq ran₁).trans ran₂, related, twins⟩
          | error error after =>
              refine .error ?_
              obtain lenient | meets := demand.lenient_or_meets
              · exact .inl lenient
              · obtain ⟨a', middle', ran₁, related, twins⟩ := carried (meets _ _)
                have ends := (second a a' related).ends twins framed inside trivial
                rw [ran'] at ends
                cases ends with
                | error failed =>
                    refine failed.imp_right ?_
                    rintro ⟨error', after', failed', related⟩
                    exact ⟨error', after', (Parse.bind_eq ran₁).trans failed', related⟩

theorem bindRel {next next' : α → Parse β} {result : β → β → Prop}
    (first : w.Carries demand frame n known step step' holds) (reflexive : ∀ a, holds a a)
    (second : ∀ a a', holds a a' →
      w.Carries demand frame n Known.nothing (next a) (next' a') result) :
    w.Carries demand frame n known (step >>= next) (step' >>= next') result where
  follows endsWell framed bound paired start b after ran := by
    obtain ⟨a, middle, ran, ran'⟩ := Parse.bind_eq_ok_iff.mp ran
    have reached := first.follows endsWell framed bound paired start ran
    exact reached.trans ((second a a (reflexive a)).follows reached.endsWell
      ((congrArg ScopeStack.current reached.scopes).trans framed)
      (Nat.le_trans reached.length_le bound) (Paired.refl _) trivial ran')
  ends twins framed bound start :=
    then_ends framed twins.scopes bound (first.ends twins framed bound start)
      (first.follows twins.endsWell ((congrArg ScopeStack.current twins.scopes).trans framed)
        bound twins.current.paired start) reflexive second

theorem bind {next next' : α → Parse β} {result : β → β → Prop}
    (first : w.Carries demand frame n known step step' Eq)
    (second : ∀ a, w.Carries demand frame n Known.nothing (next a) (next' a) result) :
    w.Carries demand frame n known (step >>= next) (step' >>= next') result := by
  refine bindRel first (fun _ => rfl) ?_
  rintro a _ rfl
  exact second a

end Composition

section Looking

theorem current {next next' : Token → Parse α}
    (second : ∀ token token', w.Paired token token' → known token token' →
      w.Carries demand frame n (fun now now' => now = token ∧ now' = token') (next token)
        (next' token') holds) :
    w.Carries demand frame n known (Parse.current >>= next) (Parse.current >>= next') holds where
  follows endsWell framed bound paired start :=
    (second _ _ paired start).follows endsWell framed bound paired ⟨rfl, rfl⟩
  ends twins framed bound start :=
    (second _ _ twins.current.paired start).ends twins framed bound ⟨rfl, rfl⟩

theorem position {next next' : Nat → Parse α}
    (second : ∀ position position', w.placed position position' →
      w.Carries demand frame n known (next position) (next' position') holds) :
    w.Carries demand frame n known (Parse.position >>= next) (Parse.position >>= next') holds :=
  current fun token token' paired start =>
    (second _ _ paired.position).imp (by rintro _ _ ⟨rfl, rfl⟩; exact start)

theorem check {kind : TokenKind} {next next' : Bool → Parse α}
    (second : ∀ found,
      w.Carries demand frame n (fun token token' => known token token' ∧
        (token.kind == kind) = found) (next found) (next' found) holds) :
    w.Carries demand frame n known (Parse.check kind >>= next) (Parse.check kind >>= next')
      holds := by
  change w.Carries demand frame n known (Parse.current >>= fun token => next (token.kind == kind))
    (Parse.current >>= fun token => next' (token.kind == kind)) holds
  refine current fun token token' paired start => ?_
  rw [← paired.kind]
  refine (second _).imp ?_
  rintro _ _ ⟨rfl, rfl⟩
  exact ⟨start, rfl⟩

theorem checkWord {word : String} (isClause : word ∈ ["in", "as"]) {next next' : Bool → Parse α}
    (second : ∀ found, w.Carries demand frame n (fun token token' => known token token' ∧
        token.isWord word = found) (next found) (next' found) holds) :
    w.Carries demand frame n known (Parse.checkWord word >>= next) (Parse.checkWord word >>= next')
      holds := by
  change w.Carries demand frame n known (Parse.current >>= fun token => next (token.isWord word))
    (Parse.current >>= fun token => next' (token.isWord word)) holds
  refine current fun token token' paired start => ?_
  rw [← paired.isWord_eq isClause]
  refine (second _).imp ?_
  rintro _ _ ⟨rfl, rfl⟩
  exact ⟨start, rfl⟩

theorem tokensLeft {next next' : Nat → Parse α}
    (second : ∀ fuel, w.Carries demand frame n known (next fuel) (next' fuel) holds) :
    w.Carries demand frame n known (Parse.tokensLeft >>= next) (Parse.tokensLeft >>= next')
      holds where
  follows := (second _).follows
  ends {_ _ _ session session'} twins framed bound start := by
    change w.Ends _ _ _ _ _ _ (next session.rest.length session)
      (next' session'.rest.length session')
    rw [twins.ahead.length_eq]
    exact (second _).ends twins framed bound start

theorem scope {next next' : ScopeFrame → Parse α}
    (second : w.Carries demand frame n known (next frame) (next' frame) holds) :
    w.Carries demand frame n known (Parse.scope >>= next) (Parse.scope >>= next') holds where
  follows {session _} endsWell framed bound paired start _ _ ran := by
    change next session.scopes.current session = _ at ran
    rw [framed] at ran
    exact second.follows endsWell framed bound paired start ran
  ends {_ _ _ session session'} twins framed bound start := by
    change w.Ends _ _ _ _ _ _ (next session.scopes.current session)
      (next' session'.scopes.current session')
    rw [twins.scopes, twins.scopes', framed]
    exact second.ends twins framed bound start

theorem failHere {fault fault' : CompileFault} :
    w.Carries demand frame n known (Parse.failHere fault : Parse α) (Parse.failHere fault')
      holds :=
  position fun _ _ related => failAt related

/-- Behind the check for a class the current token is of this class. -/
theorem validate {kind : TokenKind} {fault : CompileFault} {next next' : Parse α}
    (second : w.Carries demand frame n (fun token token' => known token token' ∧
      token.kind = kind) next next' holds) :
    w.Carries demand frame n known (Parse.validate kind fault >>= fun _ => next)
      (Parse.validate kind fault >>= fun _ => next') holds := by
  let reached (found : Bool) : Parse Unit := if found then Pure.pure () else Parse.failHere fault
  change w.Carries demand frame n known
    (Parse.check kind >>= fun found => reached found >>= fun _ => next)
    (Parse.check kind >>= fun found => reached found >>= fun _ => next') holds
  refine check fun found => ?_
  cases found with
  | true => exact second.imp fun _ _ start => ⟨start.1, beq_iff_eq.mp start.2⟩
  | false => exact @failHere ctx w α demand frame n _ holds fault fault

/-- An identifier spells the same name in both texts if the tokens are the same. -/
theorem identifier (same : ∀ token token', known token token' → w.Same token token')
    {next next' : String → Parse α}
    (second : ∀ name, w.Carries demand frame n
      (fun token token' => known token token' ∧ token.kind = .identifier) (next name) (next' name)
        holds) :
    w.Carries demand frame n known (Parse.identifier >>= next) (Parse.identifier >>= next')
      holds := by
  simp only [Parse.identifier, bind_assoc, pure_bind]
  refine validate (current fun token token' _ start => ?_)
  rw [← (same token token' start.1).text]
  refine (second _).imp ?_
  rintro _ _ ⟨rfl, rfl⟩
  exact start

end Looking

end Carries

section Moving

theorem Twins.moveTo {stack : ScopeStack} {names names' : ElementNames}
    {session session' : Session} {token : Token} {rest : List Token}
    (twins : w.Twins stack names names' session session') (behind : session.rest = token :: rest) :
    ∃ token' rest', session'.rest = token' :: rest' ∧
      (w.Same token token' ∨ ctx.env.Introduces session.current) ∧
        w.Twins stack names names' (session.moveTo token rest) (session'.moveTo token' rest') := by
  have ahead := twins.ahead
  rw [behind] at ahead
  generalize behind' : session'.rest = tokens at ahead
  cases ahead with
  | @cons _ _ token' _ rest' stand introduced ahead =>
      exact ⟨token', rest', rfl, introduced, { twins with
        current := stand
        ahead := ahead
        endsWell := twins.endsWell.moveTo (twins.endsWell.notFinish behind) behind }⟩

theorem Twins.rest_nil {stack : ScopeStack} {names names' : ElementNames}
    {session session' : Session} (twins : w.Twins stack names names' session session')
    (behind : session.rest = []) : session'.rest = [] := by
  have ahead := twins.ahead
  rw [behind] at ahead
  cases behind' : session'.rest with
  | nil => rfl
  | cons =>
      rw [behind'] at ahead
      cases ahead

end Moving

namespace Carries

variable {α β : Type} {demand : w.Demand} {frame : ScopeFrame} {n : Nat}
  {known : Token → Token → Prop} {step step' : Parse α} {holds : α → α → Prop}

section Moving

theorem advance : w.Carries demand frame n known Parse.advance Parse.advance Eq where
  follows endsWell _ _ _ _ _ _ ran := Session.advance_follows endsWell ran
  ends {stack names names' session session'} twins _ _ _ := by
    cases behind : session.rest with
    | cons token rest =>
        obtain ⟨token', rest', behind', -, twins'⟩ := twins.moveTo behind
        rw [Parse.advance_eq behind, Parse.advance_eq behind']
        exact .ok fun _ => ⟨(), _, rfl, rfl, twins'⟩
    | nil =>
        have behind' := twins.rest_nil behind
        have failures := twins.failure
        generalize failed : session.failure = failure at failures
        generalize failed' : session'.failure = failure' at failures
        cases failures with
        | none =>
            rw [Session.advance_last behind failed, Session.advance_last behind' failed']
            exact .ok fun _ => ⟨(), _, rfl, rfl, twins⟩
        | some related =>
            rw [Session.advance_failed behind failed, Session.advance_failed behind' failed']
            exact .error (.inr ⟨_, _, rfl, w.placed_of_failing related⟩)

/-- Behind a token that is not the last one fewer tokens are left. -/
theorem goOn (notFinish : ∀ token token', known token token' → token.kind ≠ .finish)
    {known' : Token → Token → Prop} (reflexive : ∀ token, known' token token)
    (reached : ∀ {before before' token token'}, known before before' →
      w.Same token token' ∨ ctx.env.Introduces before → known' token token')
    {next next' : Parse α} (second : ∀ m < n, w.Carries demand frame m known' next next' holds) :
    w.Carries demand frame n known (Parse.advance >>= fun _ => next)
      (Parse.advance >>= fun _ => next') holds where
  follows {session _} endsWell framed bound _ start b after ran := by
    obtain ⟨_, middle, ran, ran'⟩ := Parse.bind_eq_ok_iff.mp ran
    obtain ⟨token, rest, behind, rfl, endsWell'⟩ := endsWell.advance (notFinish _ _ start) ran
    rw [behind] at bound
    have moved : (session.moveTo token rest).Follows session :=
      ⟨endsWell', behind ▸ List.suffix_cons _ _, rfl, rfl, Nat.le_refl _⟩
    exact moved.trans ((second rest.length bound).follows endsWell' framed (Nat.le_refl _)
      (Paired.refl _) (reflexive _) ran')
  ends {stack names names' session session'} twins framed bound start := by
    cases behind : session.rest with
    | cons token rest =>
        obtain ⟨token', rest', behind', introduced, twins'⟩ := twins.moveTo behind
        rw [behind] at bound
        rw [Parse.bind_eq (Parse.advance_eq behind), Parse.bind_eq (Parse.advance_eq behind')]
        have later := second rest.length bound
        exact (later.ends twins' framed (Nat.le_refl _) (reached start introduced)).later (by simp)
          fun ran => (later.follows twins'.endsWell
            ((congrArg ScopeStack.current twins'.scopes).trans framed) (Nat.le_refl _)
            (Paired.refl _) (reflexive _) ran).length_le
    | nil =>
        have behind' := twins.rest_nil behind
        have failures := twins.failure
        have endsWell := twins.endsWell
        rw [Session.EndsWell, EndsWell, if_neg (notFinish _ _ start), behind] at endsWell
        generalize failed : session.failure = failure at failures endsWell
        generalize failed' : session'.failure = failure' at failures
        cases failures with
        | none => exact absurd rfl endsWell
        | some related =>
            rw [Parse.bind_error (Session.advance_failed behind failed),
              Parse.bind_error (Session.advance_failed behind' failed')]
            exact .error (.inr ⟨_, _, rfl, w.placed_of_failing related⟩)

theorem next (notFinish : ∀ token token', known token token' → token.kind ≠ .finish)
    {next next' : Parse α}
    (second : ∀ m < n, w.Carries demand frame m Known.nothing next next' holds) :
    w.Carries demand frame n known (Parse.advance >>= fun _ => next)
      (Parse.advance >>= fun _ => next') holds :=
  goOn notFinish (fun _ => trivial) (fun _ _ => trivial) second

/-- Behind a dot and other tokens that introduce no name of the element the next token is the same
in both texts. -/
theorem nextSame (noName : ∀ token token', known token token' → ¬ ctx.env.Introduces token)
    (notFinish : ∀ token token', known token token' → token.kind ≠ .finish)
    {next next' : Parse α} (second : ∀ m < n, w.Carries demand frame m w.Same next next' holds) :
    w.Carries demand frame n known (Parse.advance >>= fun _ => next)
      (Parse.advance >>= fun _ => next') holds := by
  refine goOn notFinish Same.refl ?_ second
  intro before before' token token' start same
  exact same.resolve_right (noName before before' start)

theorem nextDot (isDot : ∀ token token', known token token' → token.kind = .dot)
    {next next' : Parse α} (second : ∀ m < n, w.Carries demand frame m w.Same next next' holds) :
    w.Carries demand frame n known (Parse.advance >>= fun _ => next)
      (Parse.advance >>= fun _ => next') holds :=
  nextSame (fun _ _ start introduces => introduces.1 (isDot _ _ start))
    (fun _ _ start => by rw [isDot _ _ start]; decide) second

theorem expect {kind : TokenKind} {fault : CompileFault} :
    w.Carries demand frame n known (Parse.expect kind fault) (Parse.expect kind fault) Eq :=
  validate advance

theorem expectNext {kind : TokenKind} {fault : CompileFault} (notFinish : kind ≠ .finish)
    {next next' : Parse α}
    (second : ∀ m < n, w.Carries demand frame m Known.nothing next next' holds) :
    w.Carries demand frame n known (Parse.expect kind fault >>= fun _ => next)
      (Parse.expect kind fault >>= fun _ => next') holds := by
  simp only [Parse.expect, bind_assoc]
  refine validate (Carries.next ?_ second)
  rintro _ _ ⟨-, rfl⟩
  exact notFinish

end Moving

section Surroundings

theorem recordType {names : List String} {types : List Ty} :
    w.Carries demand frame n known (Parse.recordType names types) (Parse.recordType names types)
      Eq where
  follows endsWell _ _ _ _ _ _ ran := by
    obtain ⟨-, rfl⟩ := EStateM.Result.ok.inj ran
    exact ⟨endsWell, List.suffix_refl _, rfl, rfl, Nat.le_refl _⟩
  ends {stack names₁ names₂ session session'} twins _ _ _ := by
    obtain ⟨current, rest, failure, scopes, internals, store⟩ := session
    obtain ⟨current', rest', failure', scopes', internals', store'⟩ := session'
    obtain rfl : store' = store := twins.store
    exact .ok fun _ => ⟨_, _, rfl, rfl, { twins with store := rfl }⟩

/-- Inside of a name for the current element both compiles have this name. -/
theorem withInternal {key : String} {element : Parameter} (current : frame.it = some element)
    (inside : w.Carries demand frame n known step step' holds) :
    w.Carries demand frame n known (Parse.withInternal key element step)
      (Parse.withInternal key element step') holds where
  follows {session _} endsWell framed bound paired start a after ran := by
    rw [Parse.withInternal] at ran
    split at ran
    next ran' =>
      obtain ⟨-, rfl⟩ := EStateM.Result.ok.inj ran
      obtain ⟨endsWell', suffix, scopes, internals, parameters_le⟩ :=
        inside.follows (by exact endsWell) (by exact framed) (by exact bound) (by exact paired)
          (by exact start) ran'
      refine ⟨endsWell', suffix, scopes, ?_, parameters_le⟩
      simp only [internals, ElementNames.set_set_lookup]
    next => cases ran
  ends {stack names names' session session'} twins framed bound start := by
    have named : w.Twins stack (names.set key (some element)) (names'.set key (some element))
        { session with internals := session.internals.set key (some element) }
        { session' with internals := session'.internals.set key (some element) } :=
      { twins with
        internals := congrArg (·.set key (some element)) twins.internals
        internals' := congrArg (·.set key (some element)) twins.internals'
        agrees := w.agrees_set twins.agrees key element (framed ▸ current) }
    have ends := inside.ends named framed bound start
    unfold Parse.withInternal
    simp only
    generalize step { session with internals := session.internals.set key (some element) } =
      outcome at ends
    generalize step' { session' with internals := session'.internals.set key (some element) } =
      outcome' at ends
    cases ends with
    | ok carried =>
        refine .ok fun meets => ?_
        obtain ⟨a', after', rfl, related, later⟩ := carried meets
        refine ⟨a', _, rfl, related, { later with
          internals := ?_
          internals' := ?_
          agrees := twins.agrees }⟩
        · rw [later.internals, twins.internals]
          exact ElementNames.set_set_lookup _ _ _
        · rw [later.internals', twins.internals']
          exact ElementNames.set_set_lookup _ _ _
    | error failed =>
        refine .error (failed.imp_right ?_)
        rintro ⟨error', after', rfl, related⟩
        exact ⟨error', _, rfl, related⟩

end Surroundings

section Lists

variable {item item' : Parse α}

theorem commaListFrom (each : w.Carries demand frame n Known.nothing item item' Eq) (fuel : Nat) :
    w.Carries demand frame n known (Parse.commaList.go item fuel) (Parse.commaList.go item' fuel)
      Eq := by
  induction fuel generalizing known with
  | zero => exact pure rfl
  | succ fuel ih =>
      refine check fun more => ?_
      cases more with
      | true => exact advance.bind fun _ => each.bind fun _ => ih.bind fun _ => pure rfl
      | false => exact pure rfl

theorem commaList (each : w.Carries demand frame n Known.nothing item item' Eq) :
    w.Carries demand frame n known (Parse.commaList item) (Parse.commaList item') Eq :=
  (each.imp fun _ _ _ => trivial).bind fun _ => tokensLeft fun fuel =>
    (commaListFrom each (fuel + 1)).bind fun _ => pure rfl

/-- The arguments in parentheses have fewer tokens behind them than the parenthesis has. -/
theorem argumentList {expression expression' : Parse Expr}
    (each : ∀ m < n, w.Carries demand frame m Known.nothing expression expression' Eq) :
    w.Carries demand frame n known (Parse.argumentList expression)
      (Parse.argumentList expression') Eq := by
  refine expectNext (by decide) fun m less => check fun closed => ?_
  have close (args : List Expr) : w.Carries demand frame m Known.nothing
      (do Parse.expect .closeParen (.expected .closeParenOrComma); return args)
      (do Parse.expect .closeParen (.expected .closeParenOrComma); return args) Eq :=
    expect.bind fun _ => pure rfl
  cases closed with
  | true => exact (close []).imp fun _ _ _ => trivial
  | false => exact (commaList (each m less)).bind close

end Lists

end Carries

/-- Two expressions that are nested in others go on side by side in every scope: where the demand is
met, and always where the words for the element do not mean the same. -/
structure Nested (w : Pairing ctx) (n : Nat) (expression expression' : Parse Expr) : Prop where
  guarded : ∀ frame, w.Carries (.guarded w frame) frame n Known.nothing expression expression' Eq
  free : ∀ frame, ¬ w.outer frame →
    w.Carries (.free w) frame n Known.nothing expression expression' Eq

/-- The arguments of an operation in their scope go on side by side. -/
theorem Nested.arguments {n : Nat} {expression expression' : Parse Expr}
    (below : ∀ m < n, w.Nested m expression expression') (frame : ScopeFrame) :
    ∃ demand : w.Demand,
      (∀ start stop, Unpassed w.walls start stop → demand.meets start stop) ∧
      w.Carries demand frame n Known.nothing (Parse.argumentList expression)
        (Parse.argumentList expression') Eq := by
  by_cases isOuter : w.outer frame
  · exact ⟨.guarded w frame, fun _ _ unwalled => ⟨unwalled, .inl isOuter⟩,
      .argumentList fun m less => (below m less).guarded frame⟩
  · exact ⟨.free w, fun _ _ => id,
      .argumentList fun m less => (below m less).free frame isOuter⟩

section Call

variable {α : Type} {n : Nat} {expression expression' : Parse Expr} {frame : ScopeFrame}
  {known : Token → Token → Prop} {holds : α → α → Prop}
  (below : ∀ m < n, w.Nested m expression expression')

include below

theorem withScope_follows {session after : Session} {args : List Expr} (inner : ScopeFrame)
    (endsWell : session.EndsWell) (bound : session.rest.length ≤ n)
    (ran : Parse.withScope inner (Parse.argumentList expression) session = .ok args after) :
    after.Follows session := by
  obtain ⟨demand, -, carries⟩ := Nested.arguments below inner
  rw [Parse.withScope] at ran
  split at ran
  next ran' =>
    obtain ⟨-, rfl⟩ := EStateM.Result.ok.inj ran
    have reached := carries.follows (by exact endsWell) rfl (by exact bound) (Paired.refl _)
      trivial ran'
    exact ⟨reached.endsWell, reached.suffix, congrArg ScopeStack.pop reached.scopes,
      reached.internals, reached.parameters_le⟩
  next => cases ran

theorem withScope_ends {stack : ScopeStack} {names names' : ElementNames} {inner : ScopeFrame}
    {session session' : Session} {demand : w.Demand}
    (twins : w.Twins stack names names' session session') (bound : session.rest.length ≤ n)
    (agrees : w.agrees inner names names')
    (fresh : w.fresh (stack.push inner) session.store.nextParameter) :
    w.Ends demand session.rest.length stack names names' Eq
      (Parse.withScope inner (Parse.argumentList expression) session)
      (Parse.withScope inner (Parse.argumentList expression') session') := by
  obtain ⟨asked, always, carries⟩ := Nested.arguments below inner
  have entered : w.Twins (stack.push inner) names names'
      { session with scopes := session.scopes.push inner }
      { session' with scopes := session'.scopes.push inner } :=
    { twins with
      scopes := congrArg (·.push inner) twins.scopes
      scopes' := congrArg (·.push inner) twins.scopes'
      agrees := agrees
      fresh := fresh }
  have ends := carries.ends entered rfl bound trivial
  have follows (args : List Expr) (after : Session) (ran : Parse.argumentList expression
      { session with scopes := session.scopes.push inner } = .ok args after) :=
    carries.follows entered.endsWell rfl bound (.refl _) trivial ran
  unfold Parse.withScope
  generalize Parse.argumentList expression { session with scopes := session.scopes.push inner } =
    outcome at ends follows
  generalize Parse.argumentList expression'
    { session' with scopes := session'.scopes.push inner } = outcome' at ends
  cases ends with
  | ok carried =>
      refine .ok fun meets => ?_
      obtain ⟨args', after', rfl, same, left⟩ := carried (always _ _ (demand.unwalled meets))
      exact ⟨args', _, rfl, same, { left with
        scopes := congrArg ScopeStack.pop left.scopes
        scopes' := congrArg ScopeStack.pop left.scopes'
        agrees := twins.agrees
        fresh := w.persists.later twins.fresh (follows _ _ rfl).parameters_le }⟩
  | error failed =>
      refine .error (failed.imp_right ?_)
      rintro ⟨error', after', rfl, related⟩
      exact ⟨error', _, rfl, related⟩

/-- A new element, the arguments of an operation in the scope of the element, and what is made of
both. -/
theorem Carries.call {operation : Aggregate} {element : Ty}
    {next next' : Parameter → List Expr → Parse α} (second : ∀ p args,
      w.Carries (.guarded w frame) frame n Known.nothing (next p args) (next' p args) holds) :
    w.Carries (.guarded w frame) frame n known
      (do
        let p ← Parse.newParameter "" element
        let outer ← Parse.scope
        let args ← Parse.withScope (operation.argumentScope outer p)
          (Parse.argumentList expression)
        next p args)
      (do
        let p ← Parse.newParameter "" element
        let outer ← Parse.scope
        let args ← Parse.withScope (operation.argumentScope outer p)
          (Parse.argumentList expression')
        next' p args) holds where
  follows {session _} endsWell framed bound _ _ a after ran := by
    let begun : Session := { session with store := (session.store.newParameter "" element).2 }
    let p : Parameter := (session.store.newParameter "" element).1
    change (Parse.withScope (operation.argumentScope session.scopes.current p)
      (Parse.argumentList expression) >>= next p) begun = _ at ran
    obtain ⟨args, middle, ran, ran'⟩ := Parse.bind_eq_ok_iff.mp ran
    have ⟨endsWell', suffix, scopes, internals, parameters_le⟩ : middle.Follows begun :=
      withScope_follows below _ endsWell bound ran
    have reached : middle.Follows session :=
      ⟨endsWell', suffix, scopes, internals, Nat.le_trans (Nat.le_succ _) parameters_le⟩
    exact reached.trans ((second _ args).follows endsWell'
      ((congrArg ScopeStack.current scopes).trans framed) (Nat.le_trans suffix.length_le bound)
      (Paired.refl _) trivial ran')
  ends {stack names names' session session'} twins framed bound _ := by
    obtain ⟨current, rest, failure, scopes, internals, store⟩ := session
    obtain ⟨current', rest', failure', scopes', internals', store'⟩ := session'
    obtain rfl : scopes = stack := twins.scopes
    obtain rfl : scopes' = scopes := twins.scopes'
    obtain rfl : store' = store := twins.store
    let begun : Session :=
      ⟨current, rest, failure, scopes', internals, (store'.newParameter "" element).2⟩
    let begun' : Session :=
      ⟨current', rest', failure', scopes', internals', (store'.newParameter "" element).2⟩
    let p : Parameter := (store'.newParameter "" element).1
    have later : w.Twins scopes' names names' begun begun' :=
      { twins with
        store := rfl
        fresh := w.persists.later twins.fresh (Nat.le_succ _) }
    change w.Ends _ begun.rest.length _ _ _ _
      ((Parse.withScope (operation.argumentScope scopes'.current p)
        (Parse.argumentList expression) >>= next p) begun)
      ((Parse.withScope (operation.argumentScope scopes'.current p)
        (Parse.argumentList expression') >>= next' p) begun')
    refine then_ends framed rfl bound ?_ (withScope_follows below _ twins.endsWell bound)
      (fun _ => rfl) ?_
    · exact withScope_ends below later bound
        (w.agrees_enter twins.agrees twins.fresh operation "" element)
        (w.persists.enter twins.fresh operation "" element)
    rintro args _ rfl
    exact second p args

end Call

end Pairing

end QueryTree
