import QueryTree.Proofs.Cutting.Level
import QueryTree.Proofs.Independence.Text
import QueryTree.Proofs.Parallel.Enclosure
import QueryTree.Proofs.Spelling.Text

/-!
# Lists of sort keys

A list of sort keys is the sequence of its keys: the texts of the keys, compiled one after another,
give the keys of the list, and each list comes apart at commas into such texts.
-/

namespace QueryTree

/-! ## Texts at other positions -/

theorem Lexeme.hexNumber_moved (position position' : Nat) (mark : Char) (rest : List Char) :
    Outcome.Alike (fun _ _ => True) Eq (hexNumber position mark rest)
      (hexNumber position' mark rest) := by
  unfold hexNumber
  simp only
  split
  next => exact .error trivial
  next => exact .ok rfl

/-- A token is the same wherever it stands. -/
theorem Lexeme.first_moved (separator : Char) (position position' : Nat) (c : Char)
    (rest : List Char) :
    Outcome.Alike (fun _ _ => True) Eq (first separator position c rest)
      (first separator position' c rest) := by
  unfold first
  split
  next => exact .ok rfl
  next =>
    split
    next => exact .ok rfl
    next =>
      split
      next =>
        unfold literal
        split
        next => exact .error trivial
        next =>
          refine (Escape.decode_alike fun _ _ => trivial).bind ?_
          rintro decoded _ rfl
          split
          next => exact .error trivial
          next => exact .ok rfl
      next =>
        split
        next => exact .ok rfl
        next =>
          split
          next =>
            unfold number
            split
            next => exact hexNumber_moved ..
            next => exact hexNumber_moved ..
            next => exact .ok rfl
          next => exact .error trivial

namespace Cursor

open Text (isBlank)

variable {separator : Char}

/-- The next token is the same wherever the text stands. -/
theorem next_moved (position position' : Nat) (cs : List Char) :
    Outcome.Alike (fun _ _ => True)
      (fun taken taken' => taken.1.kind = taken'.1.kind ∧ taken.1.text = taken'.1.text ∧
        taken.2.rest = taken'.2.rest)
      ((Cursor.mk position cs).next separator) ((Cursor.mk position' cs).next separator) := by
  unfold next
  simp only
  split
  next => exact .ok ⟨rfl, rfl, rfl⟩
  next c rest _ =>
    generalize position + (cs.takeWhile isBlank).length = start
    generalize position' + (cs.takeWhile isBlank).length = start'
    have alike := Lexeme.first_moved separator start start' c rest
    generalize Lexeme.first separator start c rest = outcome at alike ⊢
    generalize Lexeme.first separator start' c rest = outcome' at alike ⊢
    cases alike with
    | ok same => exact .ok (same ▸ ⟨rfl, rfl, rfl⟩)
    | error => exact .error trivial

/-- A text is scanned alike wherever it stands. -/
theorem scanned_moved (position position' : Nat) (cs : List Char) :
    (scanned separator ⟨position, cs⟩).Alike (fun _ _ => True)
      (scanned separator ⟨position', cs⟩) := by
  rw [scanned_eq, scanned_eq]
  have alike := @next_moved separator position position' cs
  cases taken : (Cursor.mk position cs).next separator with
  | error error =>
      obtain ⟨error', taken', -⟩ := (taken ▸ alike).of_error
      rw [taken']
      exact ⟨.nil, .some trivial⟩
  | ok following =>
      obtain ⟨token, start, left⟩ := following
      obtain ⟨⟨token', start', _⟩, taken', kind, text, same⟩ := (taken ▸ alike).of_ok
      obtain rfl : left = _ := same
      simp only at kind text
      have tokens : token.Alike (fun _ _ => True) token' :=
        ⟨⟨kind ▸ rfl, fun _ => text⟩, trivial, fun _ _ _ => trivial⟩
      simp only [taken', ← kind]
      split
      next => exact ⟨.cons tokens .nil, .none⟩
      next notFinish =>
        have shorter := (next_left taken notFinish).1
        have further := scanned_moved start start' left
        exact ⟨.cons tokens further.tokens, further.failure⟩
termination_by cs.length

/-- A blank in front of a text is passed over. -/
theorem scanned_cons {c : Char} (blank : isBlank c = true) (position : Nat) (cs : List Char) :
    scanned separator ⟨position, c :: cs⟩ = scanned separator ⟨position + 1, cs⟩ := by
  have same : (Cursor.mk position (c :: cs)).next separator =
      (Cursor.mk (position + 1) cs).next separator := by
    simp only [next, List.takeWhile_cons, List.dropWhile_cons, blank, if_true, List.length_cons,
      Nat.add_assoc, Nat.add_comm 1]
  rw [scanned_eq, scanned_eq, same]

end Cursor

/-! ## States before a text -/

namespace Session

variable {separator : Char} {cursor : Cursor} {params : List Parameter} {store : Store}
  {session : Session}

/-- A compile starts with the tokens from a place on, in the outermost scope. -/
theorem start_eq_ok : start (cursor.scanned separator) params store = .ok session ↔
    cursor.scanned separator = ⟨session.current :: session.rest, session.failure⟩ ∧
      session.scopes = .of (.outermost (initialElement? params)) ∧ session.internals = .empty ∧
      session.store = store := by
  constructor
  · intro started
    have nonempty := Cursor.scanned_ne_empty separator cursor
    generalize cursor.scanned separator = scan at started nonempty ⊢
    obtain ⟨tokens, failure⟩ := scan
    obtain ⟨token, rest, rfl, rfl | ⟨rfl, rfl⟩⟩ := start_cases started
    · exact ⟨rfl, rfl, rfl, rfl⟩
    · exact absurd rfl nonempty
  · rintro ⟨scan, scopes, internals, rfl⟩
    cases session
    simp only at scopes internals
    rw [scan, start, scopes, internals]

/-- A compile starts before tokens that there are. -/
theorem exists_start {front tail : List Token} {token : Token} {failure : Option CompileError}
    (scan : cursor.scanned separator = ⟨front ++ token :: tail, failure⟩) (params : List Parameter)
    (store : Store) :
    ∃ session, start (cursor.scanned separator) params store = .ok session ∧
      session.current :: session.rest = front ++ token :: tail ∧ session.failure = failure := by
  obtain ⟨current, rest, tokens⟩ : ∃ current rest, front ++ token :: tail = current :: rest :=
    List.exists_cons_of_ne_nil (by simp)
  rw [scan, tokens]
  exact ⟨_, rfl, rfl, rfl⟩

theorem endsWell_of_start (started : start (cursor.scanned separator) params store = .ok session) :
    session.EndsWell := by
  have endsWell := @Scan.scanFrom_endsWell separator (cursor.rest.length + 1) cursor.position
    cursor.rest (Nat.lt_succ_self _)
  change QueryTree.EndsWell (cursor.scanned separator).failure (cursor.scanned separator).tokens
    at endsWell
  rwa [(start_eq_ok.mp started).1] at endsWell

/-- A text whose end is a token has no other one behind it, and nothing is wrong with it. -/
theorem EndsWell.exists_finish (endsWell : session.EndsWell)
    (ends : TokenKind.finish ∈ session.kinds) :
    ∃ front finish, session.current :: session.rest = front ++ [finish] ∧
      (∀ token ∈ front, token.kind ≠ .finish) ∧ session.failure = none := by
  rw [EndsWell] at endsWell
  rw [kinds] at ends
  generalize session.current :: session.rest = tokens at endsWell ends ⊢
  induction tokens with
  | nil => cases ends
  | cons token rest ih =>
      rw [QueryTree.EndsWell] at endsWell
      split at endsWell
      next =>
        obtain ⟨rfl, failed⟩ := endsWell
        exact ⟨[], token, rfl, List.forall_mem_nil _, failed⟩
      next notFinish =>
        obtain ⟨front, finish, rfl, before, failed⟩ :=
          ih endsWell ((List.mem_cons.mp ends).resolve_left (Ne.symm notFinish))
        exact ⟨token :: front, finish, rfl, List.forall_mem_cons.mpr ⟨notFinish, before⟩, failed⟩

end Session

/-! ## Sort keys -/

namespace CompileContext

variable {ctx : CompileContext} {session after : Session} {continues : Bool} {key : Expr × Bool}
  {keys : List SortKey}

/-- A sort key by itself: its selector, and whether it is ascending. -/
def sortKey (ctx : CompileContext) : Parse (Expr × Bool) := do
  let selector ← ctx.wholeExpression
  let ascending ← direction
  return (selector, ascending)

theorem sortKey_eq_ok : ctx.sortKey session = .ok key after ↔
    ∃ middle, ctx.wholeExpression session = .ok key.1 middle ∧
      direction middle = .ok key.2 after := by
  constructor
  · intro ran
    obtain ⟨selector, middle, read, ran⟩ := Parse.bind_eq_ok_iff.mp ran
    obtain ⟨ascending, final, directed, ran⟩ := Parse.bind_eq_ok_iff.mp ran
    obtain ⟨rfl, rfl⟩ := EStateM.Result.ok.inj ran
    exact ⟨middle, read, directed⟩
  · rintro ⟨middle, read, directed⟩
    rw [sortKey, Parse.bind_eq read, Parse.bind_eq directed]
    rfl

theorem sortKey_follows (endsWell : session.EndsWell) (ran : ctx.sortKey session = .ok key after) :
    after.Follows session := by
  obtain ⟨middle, read, directed⟩ := sortKey_eq_ok.mp ran
  rw [wholeExpression_eq] at read
  have follows := ctx.expression_follows endsWell read
  exact follows.trans (direction_follows follows.endsWell directed)

theorem sortKey_steady {placed : Nat → Nat → Prop} : Parse.Steady placed ctx.sortKey :=
  fun _ => (wholeExpression_steady _).bind fun _ => (direction_steady _).bind fun _ => .pure rfl

theorem sortKey_agrees {cut : Cut} {n : Nat} :
    cut.Agrees False n Cut.anyKind ctx.sortKey ctx.sortKey :=
  wholeExpression_agrees.bind fun _ => direction_agrees.map

theorem sortKey_shortens : Parse.Shortens ctx.sortKey :=
  have anywhere : Cut := ⟨0, [], some ⟨0, .malformed⟩, nofun⟩
  (@sortKey_agrees ctx anywhere 0).shortens

/-- Sort keys are one sort key, and further ones behind a comma. -/
theorem sortKeys_eq (fuel : Nat) (continues : Bool) (session : Session) :
    ctx.sortKeys (fuel + 1) continues session = match ctx.sortKey session with
      | .error error after => .error error after
      | .ok key after =>
        if after.current.kind = .comma then
          (Parse.advance >>= fun _ => ctx.sortKeys fuel true >>= fun others =>
            pure (⟨key.1, key.2, continues⟩ :: others)) after
        else .ok [⟨key.1, key.2, continues⟩] after := by
  have split : ctx.sortKeys (fuel + 1) continues = ctx.sortKey >>= fun key =>
      Parse.check .comma >>= fun more =>
        if more then Parse.advance >>= fun _ => ctx.sortKeys fuel true >>= fun others =>
          pure (⟨key.1, key.2, continues⟩ :: others)
        else pure [⟨key.1, key.2, continues⟩] := by
    simp only [sortKeys, sortKey, bind_assoc, pure_bind]
  rw [split, Parse.bind_apply]
  cases ctx.sortKey session with
  | error error after => rfl
  | ok key after =>
      simp only [Parse.bind_eq (Parse.check_eq .comma after), beq_iff_eq]
      split
      · rfl
      · rfl

/-- The fuel for sort keys does not count. -/
theorem sortKeys_fuel {fuel fuel' : Nat} (endsWell : session.EndsWell)
    (enough : session.rest.length < fuel) (enough' : session.rest.length < fuel') :
    ctx.sortKeys fuel continues session = ctx.sortKeys fuel' continues session := by
  induction fuel generalizing session continues fuel' with
  | zero => omega
  | succ fuel ih =>
      obtain ⟨fuel', rfl⟩ := Nat.exists_eq_add_one_of_ne_zero (Nat.ne_zero_of_lt enough')
      rw [sortKeys_eq, sortKeys_eq]
      cases read : ctx.sortKey session with
      | error => rfl
      | ok key middle =>
          simp only
          split
          next isComma =>
            have follows := sortKey_follows endsWell read
            have notFinish : middle.current.kind ≠ .finish := by rw [isComma]; decide
            rw [Parse.bind_apply, Parse.bind_apply]
            cases passed : Parse.advance middle with
            | error => rfl
            | ok _ next =>
                obtain ⟨token, rest, behind, rfl, endsWell'⟩ :=
                  follows.endsWell.advance notFinish passed
                have shorter := follows.length_le
                rw [behind, List.length_cons] at shorter
                simp only [Parse.bind_apply]
                rw [@ih _ true fuel' endsWell' (by simp; omega) (by simp; omega)]
          next => rfl

theorem ordering_eq_ok_iff : ctx.ordering continues session = .ok keys after ↔
    ctx.sortKeys (session.rest.length + 1) continues session = .ok keys after ∧
      after.current.kind = .finish := by
  have finished (keys' : List SortKey) (middle : Session) :
      (Parse.validate .finish .malformed >>= fun _ => pure keys' : Parse (List SortKey)) middle =
        .ok keys after ↔ keys' = keys ∧ middle = after ∧ after.current.kind = .finish := by
    rw [Parse.validate, bind_assoc, Parse.bind_eq (Parse.check_eq .finish middle)]
    cases isFinish : middle.current.kind == .finish with
    | true =>
        refine ⟨fun ran => ?_, ?_⟩
        · obtain ⟨rfl, rfl⟩ := EStateM.Result.ok.inj ran
          exact ⟨rfl, rfl, beq_iff_eq.mp isFinish⟩
        · rintro ⟨rfl, rfl, -⟩
          rfl
    | false =>
        refine ⟨fun ran => (by cases ran), ?_⟩
        rintro ⟨-, rfl, same⟩
        rw [same] at isFinish
        cases isFinish
  rw [ordering, Parse.bind_eq (Parse.tokensLeft_eq session), Parse.bind_eq_ok_iff]
  constructor
  · rintro ⟨keys', middle, ran, ended⟩
    obtain ⟨rfl, rfl, isFinish⟩ := (finished keys' middle).mp ended
    exact ⟨ran, isFinish⟩
  · rintro ⟨ran, isFinish⟩
    exact ⟨keys, after, ran, (finished keys after).mpr ⟨rfl, rfl, isFinish⟩⟩

/-- A list of sort keys is one sort key at the end, or one before a comma and a list behind it. -/
theorem ordering_eq_ok (endsWell : session.EndsWell) :
    ctx.ordering continues session = .ok keys after ↔
      ∃ key middle, ctx.sortKey session = .ok key middle ∧
        (middle.current.kind = .finish ∧ keys = [⟨key.1, key.2, continues⟩] ∧ after = middle ∨
          middle.current.kind = .comma ∧ ∃ token rest others, middle.rest = token :: rest ∧
            ctx.ordering true (middle.moveTo token rest) = .ok others after ∧
              keys = ⟨key.1, key.2, continues⟩ :: others) := by
  rw [ordering_eq_ok_iff, sortKeys_eq]
  cases read : ctx.sortKey session with
  | error => simp
  | ok key middle =>
      have follows := sortKey_follows endsWell read
      have further {token : Token} {rest : List Token} (isComma : middle.current.kind = .comma)
          (behind : middle.rest = token :: rest) :
          ctx.sortKeys session.rest.length true (middle.moveTo token rest) =
            ctx.sortKeys ((middle.moveTo token rest).rest.length + 1) true
              (middle.moveTo token rest) := by
        have shorter := follows.length_le
        rw [behind, List.length_cons] at shorter
        refine sortKeys_fuel (follows.endsWell.moveTo ?_ behind) shorter (Nat.lt_succ_self _)
        rw [isComma]
        decide
      constructor
      · rintro ⟨ran, isFinish⟩
        refine ⟨key, middle, rfl, ?_⟩
        simp only at ran
        split at ran
        next isComma =>
          obtain ⟨_, next, passed, goesOn⟩ := Parse.bind_eq_ok_iff.mp ran
          obtain ⟨others, final, listed, made⟩ := Parse.bind_eq_ok_iff.mp goesOn
          obtain ⟨rfl, rfl⟩ := EStateM.Result.ok.inj made
          have notFinish : middle.current.kind ≠ .finish := by rw [isComma]; decide
          obtain ⟨token, rest, behind, rfl, -⟩ := follows.endsWell.advance notFinish passed
          rw [further isComma behind] at listed
          exact .inr ⟨isComma, token, rest, others, behind,
            ordering_eq_ok_iff.mpr ⟨listed, isFinish⟩, rfl⟩
        next =>
          obtain ⟨rfl, rfl⟩ := EStateM.Result.ok.inj ran
          exact .inl ⟨isFinish, rfl, rfl⟩
      · rintro ⟨_, _, same, ended⟩
        obtain ⟨rfl, rfl⟩ := EStateM.Result.ok.inj same
        obtain ⟨isFinish, rfl, rfl⟩ | ⟨isComma, token, rest, others, behind, ran, rfl⟩ := ended
        · refine ⟨?_, isFinish⟩
          simp [isFinish]
        · obtain ⟨ran, isFinish⟩ := ordering_eq_ok_iff.mp ran
          refine ⟨?_, isFinish⟩
          rw [← further isComma behind] at ran
          simp only [if_pos isComma]
          rw [Parse.bind_eq (Parse.advance_eq behind), Parse.bind_eq ran]
          rfl

/-! ### A sort key before a comma -/

section Comma

variable {cut : Cut} {session' after' : Session}

theorem sortKey_before_comma (splits : cut.Splits session session')
    (ran : ctx.sortKey session = .ok key after) :
    ∃ after', ctx.sortKey session' = .ok key after' ∧ cut.Splits after after' := by
  have ends := (@sortKey_agrees ctx cut _).ends splits (Nat.lt_succ_self _) trivial
  rw [ran] at ends
  generalize ctx.sortKey session' = result' at ends ⊢
  cases ends with
  | both splits' => exact ⟨_, rfl, splits'⟩
  | apart stuck => exact (stuck key after rfl).1.elim

theorem sortKey_up_to_comma (splits : cut.Splits session session')
    (ran : ctx.sortKey session' = .ok key after') (left : after'.rest.length = cut.tail.length) :
    ∃ after, ctx.sortKey session = .ok key after ∧ cut.Splits after after' ∧
      after.current.kind = .finish := by
  have ends := (@sortKey_agrees ctx cut _).ends splits (Nat.lt_succ_self _) trivial
  rw [ran] at ends
  generalize ctx.sortKey session = result at ends ⊢
  cases ends with
  | @both _ after _ splits' =>
      refine ⟨after, rfl, splits', ?_⟩
      obtain ⟨current, -⟩ | ⟨-, -, token, -, rest, -, behind, -⟩ := splits'.cases
      · rw [current]
        rfl
      · have lengths := splits'.length_eq
        rw [behind, List.length_cons] at lengths
        omega
  | apart _ beyond => exact absurd (beyond key after' rfl) (by omega)

end Comma

/-! ### Lists of sort keys from a place on -/

section Place

variable (ctx) (params : List Parameter) (separator : Char)

/-- The text from a place on is one sort key. -/
def ReadsKey (cursor : Cursor) (store : Store) (key : Expr × Bool) (after : Store) : Prop :=
  ∃ session final, Session.start (cursor.scanned separator) params store = .ok session ∧
    ctx.sortKey session = .ok key final ∧ final.current.kind = .finish ∧ final.store = after

/-- The text from a place on is a list of sort keys. -/
def ReadsKeys (continues : Bool) (cursor : Cursor) (store : Store) (keys : List SortKey)
    (after : Store) : Prop :=
  ∃ session final, Session.start (cursor.scanned separator) params store = .ok session ∧
    ctx.ordering continues session = .ok keys final ∧ final.store = after

variable {ctx params separator} {position : Nat} {cs more : List Char} {store middle last : Store}

/-- A sort key is the same wherever it stands. -/
theorem ReadsKey.moved (position' : Nat)
    (read : ctx.ReadsKey params separator ⟨position, cs⟩ store key last) :
    ctx.ReadsKey params separator ⟨position', cs⟩ store key last := by
  obtain ⟨session, final, started, ran, isFinish, rfl⟩ := read
  have starts := Session.start_alike (@Cursor.scanned_moved separator position position' cs) trivial
    params store
  obtain ⟨session', started', alike⟩ := (started ▸ starts).of_ok
  have ends := (@sortKey_steady ctx _) Cut.anyKind session session' alike trivial
  rw [ran] at ends
  generalize ran' : ctx.sortKey session' = result' at ends
  cases ends with
  | ok same alike' =>
      subst same
      refine ⟨session', _, started', ran', ?_, alike'.store.symm⟩
      exact (alike'.current.kind_eq_iff .finish rfl).mp isFinish

/-- A blank in front of a sort key is passed over. -/
theorem readsKeys_cons {c : Char} (blank : Text.isBlank c = true) {keys : List SortKey} :
    ctx.ReadsKeys params separator continues ⟨position, c :: cs⟩ store keys last ↔
      ctx.ReadsKeys params separator continues ⟨position + 1, cs⟩ store keys last := by
  rw [ReadsKeys, ReadsKeys, Cursor.scanned_cons blank]

/-- One sort key is a list. -/
theorem ReadsKey.readsKeys {cursor : Cursor} (continues : Bool)
    (read : ctx.ReadsKey params separator cursor store key last) :
    ctx.ReadsKeys params separator continues cursor store [⟨key.1, key.2, continues⟩] last := by
  obtain ⟨session, final, started, ran, isFinish, after_eq⟩ := read
  refine ⟨session, final, started, ?_, after_eq⟩
  exact (ordering_eq_ok (Session.endsWell_of_start started)).mpr
    ⟨key, final, ran, .inl ⟨isFinish, rfl, rfl⟩⟩

/-- A sort key before a comma is the first one of a list. -/
theorem ReadsKey.cons {keys : List SortKey} (continues : Bool)
    (apart : separator = ',' → ∀ d ∈ more.head?, d.isDigit = false)
    (read : ctx.ReadsKey params separator ⟨position, cs⟩ store key middle)
    (others : ctx.ReadsKeys params separator true ⟨position + cs.length + 1, more⟩ middle keys
      last) :
    ctx.ReadsKeys params separator continues ⟨position, cs ++ ',' :: more⟩ store
      (⟨key.1, key.2, continues⟩ :: keys) last := by
  obtain ⟨session, final, started, ran, isFinish, rfl⟩ := read
  obtain ⟨next, stop, started', listed, last_eq⟩ := others
  have endsWell := Session.endsWell_of_start started
  have follows := sortKey_follows endsWell ran
  have ends : TokenKind.finish ∈ session.kinds :=
    (sortKey_shortens.suffix ran).subset (by simp [Session.kinds, isFinish])
  obtain ⟨front, finish, tokens, before, complete⟩ := endsWell.exists_finish ends
  obtain ⟨scan, scopes, internals, store_eq⟩ := Session.start_eq_ok.mp started
  obtain ⟨scan', scopes', internals', store_eq'⟩ := Session.start_eq_ok.mp started'
  rw [tokens, complete] at scan
  obtain ⟨rfl, joined⟩ := Cursor.scanned_comma apart scan
  rw [scan'] at joined
  simp only at joined
  let cut : Cut := ⟨position + cs.length, next.current :: next.rest, next.failure,
    fun none => absurd none (List.cons_ne_nil _ _)⟩
  obtain ⟨session', starts, tokens', failure_eq⟩ := Session.exists_start joined params store
  obtain ⟨-, scopes'', internals'', store_eq''⟩ := Session.start_eq_ok.mp starts
  have splits : cut.Splits session session' :=
    ⟨⟨front, before, tokens, tokens'⟩, complete, failure_eq, scopes''.trans scopes.symm,
      internals''.trans internals.symm, store_eq''.trans store_eq.symm⟩
  obtain ⟨final', ran', splits'⟩ := sortKey_before_comma splits ran
  obtain ⟨-, -, current', behind'⟩ | ⟨notFinish, -⟩ := splits'.cases
  · have moved : final'.moveTo next.current next.rest = next := by
      have failure_eq := splits'.failure
      have scopes_eq := (splits'.scopes.trans follows.scopes).trans (scopes.trans scopes'.symm)
      have internals_eq :=
        (splits'.internals.trans follows.internals).trans (internals.trans internals'.symm)
      have store_eq := splits'.store.trans store_eq'.symm
      cases next
      exact (Session.mk.injEq ..).mpr ⟨rfl, rfl, failure_eq, scopes_eq, internals_eq, store_eq⟩
    refine ⟨session', stop, starts, (ordering_eq_ok (Session.endsWell_of_start starts)).mpr
      ⟨key, final', ran', .inr ⟨?_, next.current, next.rest, keys, behind', moved ▸ listed, rfl⟩⟩,
      last_eq⟩
    rw [current']
    rfl
  · exact absurd isFinish notFinish

/-- A list of sort keys is one of them, or one before a comma and a list behind it. -/
theorem ReadsKeys.cases {keys : List SortKey}
    (read : ctx.ReadsKeys params separator continues ⟨position, cs⟩ store keys last) :
    (∃ key, ctx.ReadsKey params separator ⟨position, cs⟩ store key last ∧
        keys = [⟨key.1, key.2, continues⟩]) ∨
      ∃ front more key middle others, cs = front ++ ',' :: more ∧
        ctx.ReadsKey params separator ⟨position, front⟩ store key middle ∧
        ctx.ReadsKeys params separator true ⟨position + front.length + 1, more⟩ middle others last ∧
        keys = ⟨key.1, key.2, continues⟩ :: others := by
  obtain ⟨session, final, started, ran, rfl⟩ := read
  have endsWell := Session.endsWell_of_start started
  obtain ⟨key, middle, read, ended⟩ := (ordering_eq_ok endsWell).mp ran
  obtain ⟨isFinish, rfl, rfl⟩ | ⟨isComma, token, rest, others, behind, listed, rfl⟩ := ended
  · exact .inl ⟨key, ⟨session, _, started, read, isFinish, rfl⟩, rfl⟩
  have follows := sortKey_follows endsWell read
  obtain ⟨scan, scopes, internals, store_eq⟩ := Session.start_eq_ok.mp started
  -- The comma is one of the tokens of the text, with as many of them behind it.
  obtain ⟨kinds, kinds_eq⟩ := sortKey_shortens.suffix read
  obtain ⟨front, left, tokens, -, left_eq⟩ := List.map_eq_append_iff.mp kinds_eq.symm
  obtain ⟨comma, left', rfl, comma_eq, left_eq'⟩ := List.map_eq_cons_iff.mp left_eq
  rw [tokens] at scan
  obtain ⟨upTo, more, rfl, rfl, scan', scan''⟩ :=
    Cursor.exists_scanned_comma scan (comma_eq.trans isComma)
  have goesOn : left' = [] → session.failure ≠ none := by
    rintro rfl failed
    exact Cursor.scanned_ne_empty _ _ (failed ▸ scan'')
  let cut : Cut := ⟨position + upTo.length, left', session.failure, goesOn⟩
  obtain ⟨first, starts, tokens', failure_eq⟩ := Session.exists_start scan' params store
  obtain ⟨-, scopes', internals', store_eq'⟩ := Session.start_eq_ok.mp starts
  obtain ⟨_, run, _⟩ := Cursor.Run.of_scanned scan'
  have splits : cut.Splits first session :=
    ⟨⟨front, run.notFinish, tokens', tokens⟩, failure_eq, rfl, scopes.trans scopes'.symm,
      internals.trans internals'.symm, store_eq.trans store_eq'.symm⟩
  have same_length : middle.rest.length = cut.tail.length := by
    have lengths := congrArg List.length left_eq'
    simpa using lengths.symm
  obtain ⟨after, ran', splits', isFinish⟩ := sortKey_up_to_comma splits read same_length
  obtain ⟨-, -, -, behind'⟩ | ⟨notFinish, -⟩ := splits'.cases
  · have tail_eq : left' = token :: rest := behind'.symm.trans behind
    refine .inr ⟨upTo, more, key, after.store, others, rfl,
      ⟨first, after, starts, ran', isFinish, rfl⟩, ⟨middle.moveTo token rest, final, ?_, listed,
        rfl⟩, rfl⟩
    refine Session.start_eq_ok.mpr ⟨?_, follows.scopes.trans scopes,
      follows.internals.trans internals, splits'.store⟩
    rw [scan'', tail_eq]
    exact congrArg (Scan.mk _) splits'.failure.symm
  · exact absurd isFinish notFinish

end Place

end CompileContext

/-! ## Texts of sort keys -/

/-- Sort keys in one list: only the first one may begin an ordering. -/
def SortKey.inOneList (continues : Bool) : List (Expr × Bool) → List SortKey
  | [] => []
  | (selector, ascending) :: keys => ⟨selector, ascending, continues⟩ :: inOneList true keys

/-- Texts that compile, one after another, to one sort key each. -/
inductive KeysInTurn (env : Environment) (params : List Parameter) (args : List Argument)
    (continues : Bool) : List String → Store → List (Expr × Bool) → Store → Prop where
  | nil {store : Store} : KeysInTurn env params args continues [] store [] store
  | cons {text : String} {texts : List String} {store middle last : Store} {key : Expr × Bool}
      {keys : List (Expr × Bool)}
      (alone : compileOrdering env params continues text args store =
        (.ok [⟨key.1, key.2, continues⟩], middle))
      (others : KeysInTurn env params args continues texts middle keys last) :
      KeysInTurn env params args continues (text :: texts) store (key :: keys) last

section Texts

open CompileContext (ReadsKey ReadsKeys)

variable {env : Environment} {params : List Parameter} {args : List Argument} {continues : Bool}
  {store last : Store} {ctx : CompileContext}

theorem compileOrdering_eq_ok_iff {text : String} {keys : List SortKey} :
    compileOrdering env params continues text args store = (.ok keys, last) ↔
      ∃ ctx, CompileContext.of env params args = .ok ctx ∧
        ctx.ReadsKeys params env.options.decimalSeparator continues (.ofText text) store keys
          last := by
  have scan : Scan.ofText text env.options.decimalSeparator =
      Cursor.scanned env.options.decimalSeparator (.ofText text) := rfl
  unfold compileOrdering compileText
  cases context : CompileContext.of env params args with
  | error error => simp
  | ok ctx =>
      simp only [Except.ok.injEq, exists_eq_left', ReadsKeys, scan]
      cases started : Session.start
          (Cursor.scanned env.options.decimalSeparator (.ofText text)) params store with
      | error error => simp
      | ok session =>
          simp only [Except.ok.injEq]
          cases ran : ctx.ordering continues session with
          | ok keys' final => simp [ran, eq_comm]
          | error error final => simp [ran]

/-- A text that compiles to one sort key is one, and no more. -/
theorem compileOrdering_eq_ok_single_iff {text : String} {key : Expr × Bool} :
    compileOrdering env params continues text args store =
        (.ok [⟨key.1, key.2, continues⟩], last) ↔
      ∃ ctx, CompileContext.of env params args = .ok ctx ∧
        ctx.ReadsKey params env.options.decimalSeparator (.ofText text) store key last := by
  rw [compileOrdering_eq_ok_iff]
  refine exists_congr fun ctx => and_congr_right fun _ => ⟨fun read => ?_, ReadsKey.readsKeys _⟩
  obtain ⟨same, read, made⟩ | ⟨_, more, _, _, others, -, -, further, made⟩ := read.cases
  · obtain ⟨⟨first, second, -⟩, -⟩ := List.cons.inj made |>.imp_left (SortKey.mk.injEq ..).mp
    rwa [Prod.ext first second]
  · obtain ⟨-, rfl⟩ := List.cons.inj made
    obtain ⟨_, -, none⟩ | ⟨_, _, _, _, _, -, -, -, none⟩ := further.cases <;> cases none

/-- Texts of sort keys are joined to a text of all of them. -/
theorem KeysInTurn.readsKeys {text : String} {texts : List String} {keys : List (Expr × Bool)}
    (context : CompileContext.of env params args = .ok ctx)
    (inTurn : KeysInTurn env params args continues (text :: texts) store keys last)
    (isContinued : Bool) (position : Nat) :
    ctx.ReadsKeys params env.options.decimalSeparator isContinued
      ⟨position, (", ".intercalate (text :: texts)).toList⟩ store
      (SortKey.inOneList isContinued keys) last := by
  induction texts generalizing text store keys isContinued position with
  | nil =>
      obtain _ | ⟨alone, ⟨⟩⟩ := inTurn
      obtain ⟨_, context', read⟩ := compileOrdering_eq_ok_single_iff.mp alone
      obtain rfl := Except.ok.inj (context'.symm.trans context)
      rw [String.intercalate_singleton]
      exact (read.moved position).readsKeys isContinued
  | cons next texts ih =>
      obtain _ | ⟨alone, others⟩ := inTurn
      obtain ⟨_, context', read⟩ := compileOrdering_eq_ok_single_iff.mp alone
      obtain rfl := Except.ok.inj (context'.symm.trans context)
      have blank : Text.isBlank ' ' = true := by decide +kernel
      have further := (CompileContext.readsKeys_cons blank).mpr
        (ih others true (position + text.toList.length + 1 + 1))
      have parts : (", ".intercalate (text :: next :: texts)).toList =
          text.toList ++ ',' :: ' ' :: (", ".intercalate (next :: texts)).toList := by
        rw [String.intercalate_cons_cons]
        simp
      rw [parts]
      exact (read.moved position).cons isContinued (by simp) further

/-- A text of sort keys comes apart at commas into texts of one sort key each. -/
theorem CompileContext.ReadsKeys.inTurn {keys : List SortKey} {isContinued : Bool} {position : Nat}
    {cs : List Char} (context : CompileContext.of env params args = .ok ctx)
    (read : ctx.ReadsKeys params env.options.decimalSeparator isContinued ⟨position, cs⟩ store keys
      last) :
    ∃ texts alone, texts ≠ [] ∧ cs = (",".intercalate texts).toList ∧
      KeysInTurn env params args continues texts store alone last ∧
      keys = SortKey.inOneList isContinued alone := by
  induction keys generalizing isContinued position cs store with
  | nil => obtain ⟨_, -, none⟩ | ⟨_, _, _, _, _, -, -, -, none⟩ := read.cases <;> cases none
  | cons first keys ih =>
      have alone {front : List Char} {key : Expr × Bool} {middle : Store}
          (read : ctx.ReadsKey params env.options.decimalSeparator ⟨position, front⟩ store key
            middle) :
          compileOrdering env params continues (String.ofList front) args store =
            (.ok [⟨key.1, key.2, continues⟩], middle) := by
        refine compileOrdering_eq_ok_single_iff.mpr ⟨ctx, context, ?_⟩
        rw [Cursor.ofText, String.toList_ofList]
        exact read.moved 0
      obtain ⟨key, single, made⟩ | ⟨front, more, key, middle, others, rfl, single, further, made⟩ :=
        read.cases
      · refine ⟨[String.ofList cs], [key], by simp, by simp, .cons (alone single) .nil, made⟩
      · obtain ⟨rfl, rfl⟩ := List.cons.inj made
        obtain ⟨texts, behind, nonempty, rfl, inTurn, rfl⟩ := ih further
        refine ⟨String.ofList front :: texts, key :: behind, by simp, ?_,
          .cons (alone single) inTurn, rfl⟩
        obtain ⟨next, texts, rfl⟩ := List.exists_cons_of_ne_nil nonempty
        rw [String.intercalate_cons_cons]
        simp

/-- A key of a list has the selector and the direction that it has alone; its method begins an
ordering if it is the first key of a list that does. -/
theorem SortKey.inOneList_methodName {keys : List (Expr × Bool)} {place : Nat} {key : Expr × Bool}
    (isKey : keys[place]? = some key) :
    ∃ made, (inOneList continues keys)[place]? = some made ∧ made.selector = key.1 ∧
      made.ascending = key.2 ∧ made.methodName =
        (if continues = true ∨ 0 < place then "ThenBy" else "OrderBy") ++
          (if key.2 then "" else "Descending") := by
  induction keys generalizing continues place with
  | nil => cases isKey
  | cons first keys ih =>
      cases place with
      | zero =>
          obtain rfl := Option.some.inj isKey
          exact ⟨_, rfl, rfl, rfl, by simp [methodName]⟩
      | succ place =>
          obtain ⟨made, isMade, selector, ascending, name⟩ := @ih true place isKey
          exact ⟨made, isMade, selector, ascending, by simpa using name⟩

end Texts

end QueryTree
